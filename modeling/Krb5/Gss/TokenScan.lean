import Krb5.Gss.Token
import Krb5.Lib.Action

/-!
# Reading a token header

`g_verify_token_header` as it moves a pointer and counts down the size that it was
told. It does what the function on lists does, and no octet behind the end is read.
-/

namespace Krb5.Gss

open Lib List Action

variable {size n : Nat}

/-- The variables `buf` and `toksize`. -/
structure Scan where
  buf : Nat
  toksize : Int

/-- Why a header is refused: an error, or an octet behind the end of the token. -/
inductive HeaderStop
  | fault
  | error (error : HeaderError)

abbrev Scanning := Action Scan HeaderStop

def refuse {α : Type} (error : HeaderError) : Scanning α := .fail (.error error)

def nextOctet (token : Octets) : Scanning UInt8 where
  run s :=
    match token[s.buf]? with
    | none => (.error .fault, s)
    | some o => (.ok o, { s with buf := s.buf + 1 })

def spend (n : Nat) : Scanning Unit := .modify fun s => { s with toksize := s.toksize - n }

def claim (n : Nat) : Scanning Unit := do
  spend n
  if (← get).toksize < 0 then refuse .badTokHeader else pure ()

def nextOctets (token : Octets) : Nat → Scanning Octets
  | 0 => pure []
  | n + 1 => do
    let o ← nextOctet token
    return o :: (← nextOctets token n)

def scanDigits (token : Octets) : Nat → Int32 → Scanning Int32
  | 0, ret => pure ret
  | sf + 1, ret => do
    let o ← nextOctet token
    spend 1
    scanDigits token sf (ret * 256 + Int32.ofNat o.toNat)

def scanLength (token : Octets) : Scanning Int32 := do
  if (← get).toksize < 1 then return -1
  else
    let sf ← nextOctet token
    spend 1
    if sf &&& 0x80 ≠ 0 then
      let size := (sf &&& 0x7f).toNat
      if size > (← get).toksize - 1 then return -1
      else if size > 4 then return -1
      else scanDigits token size 0
    else return Int32.ofNat sf.toNat

/-- The type octets, the second of which is read if the first is right. -/
def scanType (tokType : Nat) (token : Octets) : Scanning Unit := do
  if (← nextOctet token) ≠ UInt8.ofNat (tokType / 2 ^ 8) then refuse .wrongTokid
  else if (← nextOctet token) ≠ UInt8.ofNat tokType then refuse .wrongTokid
  else pure ()

def scanMech (mech : Octets) (tokType : Nat) (token : Octets) : Scanning Unit := do
  claim 1
  if (← nextOctet token) ≠ 0x06 then refuse .badTokHeader
  else
    claim 1
    let length ← nextOctet token
    claim length.toNat
    let toid ← nextOctets token length.toNat
    claim 2
    if toid ≠ mech then refuse .wrongMech else scanType tokType token

def scanHeader (mech : Octets) (tokType : Nat) (token : Octets) : Scanning Unit := do
  claim 1
  if (← nextOctet token) ≠ 0x60 then refuse .badTokHeader
  else
    let seqsize ← scanLength token
    if seqsize < 0 then refuse .badTokHeader
    else if seqsize.toInt ≠ (← get).toksize then refuse .badTokHeader
    else scanMech mech tokType token

/-- `g_verify_token_header` on a token of the size it is said to have. The caller's
`buf_in` and `body_size` are set at the end. -/
def verifyTokenHeader (mech : Octets) (tokType : Nat) (token : Octets) (caller : Scan) :
    Except HeaderStop Unit × Scan :=
  match (scanHeader mech tokType token).run ⟨0, token.length⟩ with
  | (.error stop, _) => (.error stop, caller)
  | (.ok (), s) => (.ok (), ⟨caller.buf + s.buf, s.toksize⟩)

section Scanning

variable {mech token rest : Octets} {tokType : Nat} {o : UInt8} {s : Scan} {β : Type}
  {Q : Except HeaderStop β → Scan → Prop} {f : Unit → Scanning β}

def Scan.At (s : Scan) (token rest : Octets) (size : Nat) : Prop :=
  token.drop s.buf = rest ∧ s.buf + rest.length = token.length ∧ s.toksize = size

def Agrees (token : Octets) : Except HeaderError Octets → Except HeaderStop Unit → Scan → Prop
  | .error e, r, _ => r = .error (.error e)
  | .ok body, r, s => r = .ok () ∧ s.At token body body.length

theorem wp_nextOctet {f : UInt8 → Scanning β} (h : s.At token (o :: rest) size)
    (hf : ∀ s' : Scan, s'.At token rest size → wp (f o) Q s') : wp (nextOctet token >>= f) Q s := by
  obtain ⟨hdrop, hlen, hsize⟩ := h
  have ho : token[s.buf]? = some o := by
    rw [← head?_drop, hdrop, head?_cons]
  have hrun : (nextOctet token).run s = (.ok o, { s with buf := s.buf + 1 }) := by
    simp [nextOctet, ho]
  rw [wp_bind_of_ok hrun]
  refine hf _ ⟨?_, ?_, hsize⟩
  · rw [← drop_drop, hdrop, drop_one, tail_cons]
  · rw [length_cons] at hlen
    dsimp only
    omega

theorem wp_claim (h : s.At token rest size)
    (hbad : size < n → ∀ s', Q (.error (.error .badTokHeader)) s')
    (hf : n ≤ size → ∀ s' : Scan, s'.At token rest (size - n) → wp (f ()) Q s') :
    wp (claim n >>= f) Q s := by
  obtain ⟨hdrop, hlen, hsize⟩ := h
  simp only [claim, spend, wp_bind, wp_modify, post_ok, wp_get]
  split
  · exact hbad (by omega) _
  · rw [wp_pure]
    exact hf (by omega) _ ⟨hdrop, hlen, by dsimp only; omega⟩

theorem wp_spend (h : s.At token rest (size + 1))
    (hf : ∀ s' : Scan, s'.At token rest size → wp (f ()) Q s') : wp (spend 1 >>= f) Q s := by
  obtain ⟨hdrop, hlen, hsize⟩ := h
  refine hf _ ⟨hdrop, hlen, ?_⟩
  change s.toksize - 1 = (size : Int)
  omega

theorem wp_nextOctets {Q : Except HeaderStop Octets → Scan → Prop}
    (h : s.At token rest size) (hn : n ≤ rest.length)
    (hQ : ∀ s' : Scan, s'.At token (rest.drop n) size → Q (.ok (rest.take n)) s') :
    wp (nextOctets token n) Q s := by
  induction n generalizing s rest Q with
  | zero => exact hQ s h
  | succ n ih =>
    cases rest with
    | nil => simp at hn
    | cons o rest =>
      refine wp_nextOctet h fun s' h' => ?_
      rw [wp_bind]
      exact ih h' (by simpa using hn) hQ

theorem wp_scanDigits {ret : Int32} {Q : Except HeaderStop Int32 → Scan → Prop}
    (h : s.At token rest rest.length) (hn : n ≤ rest.length)
    (hQ : ∀ s' : Scan, s'.At token (rest.drop n) (rest.drop n).length →
      Q (.ok ((rest.take n).foldl (fun ret o => ret * 256 + Int32.ofNat o.toNat) ret)) s') :
    wp (scanDigits token n ret) Q s := by
  induction n generalizing s rest ret with
  | zero => exact hQ s h
  | succ n ih =>
    cases rest with
    | nil => simp at hn
    | cons o rest =>
      exact wp_nextOctet h fun s' h' => wp_spend h' fun s'' h'' => ih h'' (by simpa using hn) hQ

theorem wp_scanLength {Q : Except HeaderStop Int32 → Scan → Prop} (h : s.At token rest rest.length)
    (hQ : ∀ s' : Scan, s'.At token (derReadLength rest).2 (derReadLength rest).2.length →
      Q (.ok (derReadLength rest).1) s') : wp (scanLength token) Q s := by
  rw [scanLength, wp_get_bind, h.2.2]
  cases rest with
  | nil => exact hQ s h
  | cons sf rest =>
    refine wp_nextOctet h fun s' h' => wp_spend h' fun s'' h'' => ?_
    rw [derReadLength] at hQ
    split_ifs at hQ ⊢
    · rw [wp_get_bind, h''.2.2]
      dsimp only at hQ ⊢
      split_ifs at hQ ⊢
      · exact hQ s'' h''
      · exact hQ s'' h''
      · exact wp_scanDigits h'' (by omega) hQ
    · exact hQ s'' h''

theorem scanType_agrees {a b : UInt8} {body : Octets} (h : s.At token (a :: b :: body) body.length) :
    wp (scanType tokType token) (Agrees token (if [a, b] ≠ tokTypeOctets tokType then
      .error .wrongTokid else .ok body)) s := by
  refine wp_nextOctet h fun s' h' => ?_
  rw [tokTypeOctets]
  by_cases ha : a = UInt8.ofNat (tokType / 2 ^ 8)
  · rw [if_neg (not_not_intro ha)]
    refine wp_nextOctet h' fun s'' h'' => ?_
    by_cases hb : b = UInt8.ofNat tokType
    · rw [if_neg (not_not_intro hb), if_neg (by simp [ha, hb])]
      exact ⟨rfl, h''⟩
    · rw [if_pos hb, if_pos (by simp [hb])]
      rfl
  · rw [if_pos ha, if_pos fun htype => ha (cons.inj htype).1]
    rfl

/-- The scan that counts what it reads agrees with `verifyMech` and stays inside. -/
theorem scanMech_agrees (h : s.At token rest rest.length) :
    wp (scanMech mech tokType token) (Agrees token (verifyMech mech tokType rest)) s := by
  refine wp_claim h (fun hshort s' => ?_) fun hlong s' h' => ?_
  · rw [eq_nil_of_length_eq_zero (by omega : rest.length = 0)]
    rfl
  obtain ⟨tag, rest, rfl⟩ := exists_cons_of_length_pos hlong
  refine wp_nextOctet h' fun s' h' => ?_
  by_cases htag : tag = 0x06
  · rw [if_neg (not_not_intro htag)]
    refine wp_claim h' (fun hshort s' => ?_) fun hlong s' h' => ?_
    · rw [eq_nil_of_length_eq_zero (by simpa using hshort : rest.length = 0)]
      rfl
    obtain ⟨length, buf, rfl⟩ := exists_cons_of_length_pos (show 0 < rest.length from hlong)
    rw [verifyMech, if_neg (not_not_intro htag)]
    refine wp_nextOctet h' fun s' h' => wp_claim h' (fun hshort s' => ?_) fun hlong s' h' => ?_
    · rw [if_pos (by simpa using hshort)]
      rfl
    have hlen : length.toNat ≤ buf.length := by simpa using hlong
    rw [wp_bind, if_neg (Nat.not_lt.mpr hlen)]
    refine wp_nextOctets h' hlen fun s' h' => ?_
    rw [post_ok]
    refine wp_claim h' (fun hshort s' => ?_) fun hlong s' h' => ?_
    · rw [if_pos (by simpa using hshort)]
      rfl
    obtain ⟨a, b, body, hrest⟩ : ∃ a b body, buf.drop length.toNat = a :: b :: body := by
      rcases hrest : buf.drop length.toNat with _ | ⟨a, _ | ⟨b, body⟩⟩
      all_goals have hlen' := congrArg List.length hrest
      all_goals simp at hlong hlen' ⊢
      all_goals omega
    rw [hrest]
    by_cases hmech : buf.take length.toNat = mech
    · rw [if_neg (not_not_intro hmech), if_neg (not_not_intro hmech)]
      rw [hrest] at h'
      refine scanType_agrees ⟨h'.1, h'.2.1, h'.2.2.trans ?_⟩
      have hlen' := congrArg List.length hrest
      simp at hlen' ⊢
      omega
    · rw [if_pos hmech, if_pos hmech]
      rfl
  · rw [if_pos htag]
    cases rest with
    | nil => rfl
    | cons length buf =>
      rw [verifyMech, if_pos htag]
      rfl

theorem scanHeader_agrees : wp (scanHeader mech tokType token)
    (Agrees token (gVerifyTokenHeader mech tokType token)) ⟨0, token.length⟩ := by
  refine wp_claim (⟨rfl, Nat.zero_add _, rfl⟩ : Scan.At _ token token token.length)
    (fun hshort s' => ?_) fun hlong s' h' => ?_
  · rw [eq_nil_of_length_eq_zero (by omega : token.length = 0)]
    rfl
  obtain ⟨first, buf, rfl⟩ := exists_cons_of_length_pos hlong
  refine wp_nextOctet h' fun s' h' => ?_
  rw [gVerifyTokenHeader_cons]
  by_cases hfirst : first = 0x60
  · rw [if_neg (not_not_intro hfirst), wp_bind]
    refine wp_scanLength h' fun s' h' => ?_
    rw [post_ok]
    by_cases hneg : (derReadLength buf).1 < 0
    · rw [if_pos hneg, if_pos (.inr (.inl hneg))]
      rfl
    rw [if_neg hneg, wp_get_bind, h'.2.2]
    by_cases hsize : (derReadLength buf).1.toInt = (derReadLength buf).2.length
    · rw [if_neg (not_not_intro hsize), if_neg (by simp [hfirst, hneg, hsize])]
      exact scanMech_agrees h'
    · rw [if_pos hsize, if_pos (.inr (.inr hsize))]
      rfl
  · rw [if_pos hfirst, if_pos (.inl hfirst)]
    rfl

end Scanning

/-- `g_verify_token_header` accepts the tokens with the right header, whatever the form
of the length, reads nothing behind the end of a token, and changes nothing for the
caller of a token that it refuses. -/
theorem verifyTokenHeader_exact {mech token : Octets} {tokType : Nat} (caller : Scan)
    (hmech : mech.length ≤ 127) (hsize : token.length < 2 ^ 31) :
    (∀ body, Framed mech tokType token body → verifyTokenHeader mech tokType token caller =
      (.ok (), ⟨caller.buf + (token.length - body.length), body.length⟩) ∧
        token.drop (token.length - body.length) = body) ∧
    ((¬∃ body, Framed mech tokType token body) →
      ∃ e, verifyTokenHeader mech tokType token caller = (.error (.error e), caller)) ∧
    ∀ body, token = gMakeTokenHeader mech body.length tokType ++ body →
      Framed mech tokType token body := by
  have hverify (body : Octets) : gVerifyTokenHeader mech tokType token = .ok body ↔
      Framed mech tokType token body :=
    gVerifyTokenHeader_eq_ok (Nat.lt_of_le_of_lt hmech (by decide)) hsize
  have hagrees : wp (scanHeader mech tokType token)
      (Agrees token (gVerifyTokenHeader mech tokType token)) ⟨0, token.length⟩ := scanHeader_agrees
  rcases hrun : (scanHeader mech tokType token).run ⟨0, token.length⟩ with ⟨r, s⟩
  rw [wp, hrun] at hagrees
  dsimp only at hagrees
  rw [verifyTokenHeader, hrun]
  refine ⟨fun body hframed => ?_, fun hnone => ?_, ?_⟩
  · rw [(hverify body).mpr hframed] at hagrees
    obtain ⟨rfl, hdrop, hlength, hsize⟩ := hagrees
    have hbuf : token.length - body.length = s.buf := by omega
    exact ⟨by simp [hbuf, hsize], hbuf ▸ hdrop⟩
  · rcases hresult : gVerifyTokenHeader mech tokType token with e | body
    · rw [hresult] at hagrees
      obtain rfl : r = .error (.error e) := hagrees
      exact ⟨e, rfl⟩
    · exact absurd ⟨body, (hverify body).mp hresult⟩ hnone
  · rintro body rfl
    refine framed_make ?_
    rwa [length_append, length_gMakeTokenHeader] at hsize

/-- The length in a form with more octets than it needs. -/
theorem verifyTokenHeader_long : verifyTokenHeader [0x2a] 0x0101
    [0x60, 0x82, 0, 7, 0x06, 1, 0x2a, 1, 1, 0xaa, 0xbb] ⟨100, 0⟩ = (.ok (), ⟨109, 2⟩) :=
  ((verifyTokenHeader_exact ⟨100, 0⟩ (by decide) (by decide)).1 [0xaa, 0xbb]
    ⟨[0x82, 0, 7], by decide, by decide, rfl⟩).1

end Krb5.Gss
