import Krb5.Asn1.DecodeFacts
import Krb5.Asn1.Krb5Decode
import Krb5.Lib.Der

/-!
# Which encodings of an element are accepted

`Shape` says of a decoder what its verdict depends on: the dates it reads, and the forms of those
structures in which it looks for an optional field behind the last one. A decoder that `Accepts` an
element returns the same value on every encoding that is `Good`, and fails on every other.
-/

namespace Krb5.Asn1

open Lib Lib.Ber List Asn1Buf
open Tlv (octetsAll octetsAll_cons octetsAll_nil)

variable {c : Elem} {ts : List Tlv}

/-- The macros of `asn1_k_decode.c` and those of `krb5_decode.c`. -/
inductive Style
  | inner
  | outer
deriving DecidableEq, Repr

/-- An optional field can be looked for behind the last field. At the end of a
definite structure, class and construction are those of the tag read last: an
explicit tag, or the end-of-contents of one. At the end of an indefinite structure
they are those of its own end-of-contents, which only the macros of
`asn1_k_decode.c` let pass. -/
def Style.Fits : Style → Bool → Option Tlv → Prop
  | .inner, indef, last => indef = true ∨ ∃ w ∈ last, w.isIndefinite = false
  | .outer, indef, last => indef = false ∧ ∃ w ∈ last, w.isIndefinite = false

/-- What the verdict of a decoder depends on. -/
inductive Shape
  /-- nothing -/
  | any
  /-- the date -/
  | time
  /-- the elements inside, all of one shape -/
  | each (elem : Shape)
  /-- a structure: the numbers of its optional fields that are looked for in any
  case, and the shapes of the fields by their numbers -/
  | record (style : Style) (optional : List Nat) (field : Nat → Shape)

/-- The encodings that are accepted. -/
def Shape.Good : Shape → Tlv → Prop
  | any, _ => True
  | time, .primitive _ _ contents => (gmtMktime (tmOfDigits contents)).isSome
  | time, _ => False
  | each elem, t => ∀ c ∈ t.children, elem.Good c
  | record style optional field, t => t.children ≠ [] ∧
      (∀ w ∈ t.children, ∀ c ∈ w.children, (field w.number).Good c) ∧
      ((∃ k ∈ optional, ∀ w ∈ t.children, w.number < k) →
        style.Fits t.isIndefinite t.children.getLast?)

variable {α β : Type} {indef : Bool} {k fuel : Nat} {shape : Shape}

section Gives

variable {σ : Type}

/-- Success with `a` under the condition, and otherwise an error. -/
def Gives (r : Except DecodeError (α × σ)) (cond : Prop) (a : α) (post : σ → Prop) : Prop :=
  (cond → ∃ s, r = .ok (a, s) ∧ post s) ∧ (¬cond → ∃ e, r = .error e)

variable {cond cond' : Prop} {a : α} {post post' : σ → Prop} {x : StateT σ (Except DecodeError) α}
  {f : α → StateT σ (Except DecodeError) β} {r : Except DecodeError (α × σ)}

theorem Gives.congr (h : Gives r cond a post) (hiff : cond ↔ cond') : Gives r cond' a post := by
  rw [← propext hiff]
  exact h

theorem gives_of_ok {s : σ} (h : r = .ok (a, s)) (hpost : post s) (hcond : cond) :
    Gives r cond a post :=
  ⟨fun _ => ⟨s, h, hpost⟩, fun hnot => absurd hcond hnot⟩

theorem Gives.bind {s : σ} {b : β} (hx : Gives (x s) cond a post)
    (hf : ∀ s', post s' → Gives (f a s') cond' b post') :
    Gives ((x >>= f) s) (cond ∧ cond') b post' := by
  constructor
  · rintro ⟨hcond, hcond'⟩
    obtain ⟨s₁, hrun, hpost⟩ := hx.1 hcond
    rw [stateT_bind_of_ok hrun]
    exact (hf s₁ hpost).1 hcond'
  · intro hnot
    by_cases hcond : cond
    · obtain ⟨s₁, hrun, hpost⟩ := hx.1 hcond
      rw [stateT_bind_of_ok hrun]
      exact (hf s₁ hpost).2 fun hcond' => hnot ⟨hcond, hcond'⟩
    · obtain ⟨e, herr⟩ := hx.2 hcond
      exact ⟨e, stateT_bind_of_error herr⟩

theorem Gives.bind_ok {s : σ} {b : β} (hx : Gives (x s) cond a post)
    (hf : ∀ s', post s' → ∃ s'', f a s' = .ok (b, s'') ∧ post' s'') :
    Gives ((x >>= f) s) cond b post' := by
  have hall : ∀ s', post s' → Gives (f a s') True b post' := by
    intro s' hpost
    obtain ⟨s'', hrun, hpost'⟩ := hf s' hpost
    exact gives_of_ok hrun hpost' trivial
  exact (hx.bind hall).congr (by rw [and_true])

end Gives

/-- The decoder's verdict on every encoding of an element. -/
def Accepts {α : Type} (fuel : Nat) (decoder : Decoder α) (shape : Shape) (e : Elem) (a : α) :
    Prop :=
  ∀ ⦃t : Tlv⦄ ⦃buf : Asn1Buf⦄ ⦃p : Nat⦄, t.WellFormed → t.erase = e → t.octets.length < fuel →
    Placed buf p t.octets →
    Gives (decoder buf) (shape.Good t) a (· = buf.moveTo (p + t.octets.length))

/-! ## Between fields -/

def staleVars : Option Tlv → TagVars
  | none => .unset
  | some w => if w.isIndefinite then eocVars else tagOf w

/-- The local variables of a structure decoder when the fields `ws` are to come: the
tag of the first one is already read. The structure's last field is `last`, and
behind it stands offset `e`. -/
inductive At (indef : Bool) (last : Option Tlv) (e : Nat) : List Tlv → FieldState → Prop
  | field {w : Tlv} {ws : List Tlv} {buf : Asn1Buf} {q : Nat}
      (hwithin : Within indef (w :: ws) buf q) (hend : q + (octetsAll (w :: ws)).length = e)
      (hlast : (w :: ws).getLast? = last) :
      At indef last e (w :: ws) ⟨buf.moveTo (q + 1 + w.len.length), tagOf w⟩
  | eoc {buf : Asn1Buf} (h : indef = true) (hnext : buf.next = e + 2) :
      At indef last e [] ⟨buf, eocVars⟩
  | ended {buf : Asn1Buf} (h : indef = false) (hbound : buf.bound + 1 = e)
      (hlast : ∀ w ∈ last, constructed w.id ∧ contextSpecific w.id) :
      At indef last e [] ⟨buf, { staleVars last with tagnum := tagnumCeiling }⟩

section Between

variable {last : Option Tlv} {e q : Nat} {w : Tlv} {ws : List Tlv} {buf : Asn1Buf} {vars : TagVars}
  {st : FieldState}

section

variable (hwithin : Within indef ws buf q) (hend : q + (octetsAll ws).length = e)
  (hlast : ws ≠ [] → ws.getLast? = last) (hvars : ws = [] → vars = staleVars last)
  (htags : ws = [] → ∀ w ∈ last, constructed w.id ∧ contextSpecific w.id)
include hwithin hend hlast hvars htags

theorem getTag_at : ∃ tag buf', asn1GetTagIndef vars buf = .ok (tag, buf') ∧ At indef last e ws
    ⟨buf', tag⟩ := by
  cases ws with
  | cons w ws =>
    exact ⟨_, _, asn1GetTagIndef_tlv (hwithin.wf w mem_cons_self) hwithin.head,
      .field hwithin hend (hlast (cons_ne_nil _ _))⟩
  | nil =>
    rw [octetsAll_nil, length_nil, Nat.add_zero] at hend
    cases indef with
    | true =>
      refine ⟨_, _, asn1GetTagIndef_eoc (by simpa using hwithin.placed), .eoc rfl ?_⟩
      rw [hend]
      rfl
    | false =>
      have hbound := hwithin.ends rfl
      rw [octetsAll_nil, length_nil] at hbound
      rw [hvars rfl]
      exact ⟨_, _, asn1GetTagIndef_end hwithin.left_nonpos, .ended rfl (by omega) (htags rfl)⟩

theorem nextTag_at : ∃ st, nextTag ⟨buf, vars⟩ = .ok ((), st) ∧ At indef last e ws st := by
  obtain ⟨tag, buf', htag, hat⟩ := getTag_at hwithin hend hlast hvars htags
  exact ⟨_, nextTag_of_ok htag, hat⟩

end

/-- A field of a structure: an explicit tag with the number `k`. -/
structure IsField (k : Nat) (w : Tlv) : Prop where
  constructed : constructed w.id = true
  context : contextSpecific w.id = true
  number : w.number = k

theorem IsField.cls (h : IsField k w) : (tagOf w).cls = .contextSpecific := by
  have hctx := h.context
  simp only [contextSpecific, beq_iff_eq] at hctx
  simp [tagOf, classOf, hctx]

theorem IsField.tagnum (h : IsField k w) : (tagOf w).tagnum = k := by
  rw [← h.number]
  rfl

theorem isField_of_erase (hk : k < 31) (h : w.erase = .explicit k c) :
    IsField k w ∧ ∃ t, w.children = [t] ∧ t.erase = c := by
  obtain ⟨hid, hkids⟩ := Tlv.erase_eq_cons h
  obtain ⟨-, hcons, hctx, hnum⟩ := Elem.explicit_id hk
  obtain ⟨t, ht, hc⟩ := map_eq_singleton_iff.mp hkids
  refine ⟨⟨?_, ?_, ?_⟩, t, ht, hc⟩
  · rw [hid, hcons]
  · rw [hid, hctx]
  · rw [Tlv.number, hid, hnum]

theorem onSubbuf_gives {decoder : Decoder α} {cond : Prop} {a : α} {post : Asn1Buf → Prop}
    (h : Gives (decoder st.subbuf) cond a post) :
    Gives (onSubbuf decoder st) cond a (fun st' => ∃ b, post b ∧ st' = ⟨b, st.tag⟩) := by
  constructor
  · intro hcond
    obtain ⟨b, hrun, hpost⟩ := h.1 hcond
    refine ⟨⟨b, st.tag⟩, ?_, b, hpost, rfl⟩
    rw [onSubbuf, stateT_get_bind]
    simp only [hrun]
    rfl
  · intro hcond
    obtain ⟨err, hrun⟩ := h.2 hcond
    refine ⟨err, ?_⟩
    rw [onSubbuf, stateT_get_bind]
    simp only [hrun]
    rfl

theorem getLast?_tail (hlast : (w :: ws).getLast? = last) (hne : ws ≠ []) : ws.getLast? = last := by
  rw [← hlast, getLast?_cons, getLast?_eq_some_getLast hne]
  rfl

/-- Behind the contents of a field comes its end-of-contents, if it has one, and the
tag of the next field. -/
theorem field_end {t : Tlv} (hwithin : Within indef (w :: ws) buf q)
    (hend : q + (octetsAll (w :: ws)).length = e) (hlast : (w :: ws).getLast? = last)
    (hfield : IsField k w) (hw : w.children = [t]) (val : α) :
    ∃ st, (do
      if (tagOf w).taglen = 0 ∧ (tagOf w).indef then getEoc
      nextTag
      return val : Fields α) ⟨buf.moveTo (q + 1 + w.len.length + t.octets.length), tagOf w⟩ =
        .ok (val, st) ∧ At indef last e ws st := by
  have hcont := hwithin.head.contents
  have hrest : q + w.octets.length + (octetsAll ws).length = e := by
    rw [← hend, octetsAll_cons, length_append, Nat.add_assoc]
  have htags : ws = [] → ∀ v ∈ last, constructed v.id ∧ contextSpecific v.id := by
    rintro rfl v hv
    rw [← hlast] at hv
    cases hv
    exact ⟨hfield.constructed, hfield.context⟩
  have htail (vars : TagVars) (hvars : ws = [] → vars = staleVars last) :
      ∃ st, (do nextTag; return val : Fields α) ⟨buf.moveTo (q + w.octets.length), vars⟩ =
        .ok (val, st) ∧ At indef last e ws st := by
    obtain ⟨st, hnext, hat⟩ := nextTag_at hwithin.step hrest (getLast?_tail hlast) hvars htags
    exact ⟨st, stateT_bind_of_ok hnext, hat⟩
  cases w with
  | primitive id len contents => cases hw
  | definite id len children =>
    rw [if_neg (by simp [tagOf]), end_definite hw]
    refine htail _ ?_
    rintro rfl
    rw [← hlast]
    rfl
  | indefinite id children =>
    rw [contents_indefinite hw] at hcont
    have heoc := @getEoc_placed _ _ (tagOf (.indefinite id children)) hcont.back
    rw [moveTo_moveTo, end_indefinite hw] at heoc
    rw [if_pos (by simp [tagOf]), stateT_bind_of_ok heoc]
    refine htail _ ?_
    rintro rfl
    rw [← hlast]
    rfl

/-- The field in front is decoded exactly if its contents are good. -/
theorem getFieldBody_gives {decoder : Decoder α} {a : α} (hon : At indef last e (w :: ws) st)
    (hk : k < 31) (hw : w.erase = .explicit k c) (hfuel : (octetsAll (w :: ws)).length < fuel)
    (hacc : Accepts fuel decoder shape c a) :
    Gives (getFieldBody decoder st) (∀ t ∈ w.children, shape.Good t) a (At indef last e ws) := by
  obtain ⟨hfield, t, hkids, herase⟩ := isField_of_erase hk hw
  cases hon with
  | @field _ _ buf q hwithin hend hlast =>
    have htwf : t.WellFormed :=
      (hwithin.wf w mem_cons_self).child (by simp [hkids])
    have hplaced := hwithin.head.children
    rw [hkids, octetsAll_cons, octetsAll_nil, append_nil] at hplaced
    have hlt : t.octets.length < fuel := by
      have hle := w.length_children_le
      have hsize := w.length_octets
      rw [hkids, octetsAll_cons, octetsAll_nil, append_nil] at hle
      rw [octetsAll_cons, length_append] at hfuel
      omega
    have hdec := @onSubbuf_gives _ ⟨buf.moveTo (q + 1 + w.len.length), tagOf w⟩ _ _ _ _
      (hacc htwf herase hlt hplaced)
    rw [getFieldBody, stateT_get_bind]
    refine (Gives.bind_ok hdec ?_).congr (by simp [hkids])
    rintro st' ⟨b, rfl, rfl⟩
    exact field_end hwithin hend hlast hfield hkids a

/-! ## Reading a field -/

def Takes (k : Nat) (prog : Fields α) (decoder : Decoder α) : Prop :=
  ∀ ⦃w : Tlv⦄ ⦃st : FieldState⦄, IsField k w → st.tag = tagOf w →
    prog st = getFieldBody decoder st

variable (decoder : Decoder α)

theorem takes_getFieldBody : Takes k (getFieldBody decoder) decoder :=
  fun _ _ _ _ => rfl

theorem takes_getField : Takes k (getField k decoder) decoder := by
  intro w st hw htag
  have hnum := hw.tagnum
  have hisField : st.tag.isField := by
    rw [htag]
    exact decide_eq_true (.inl ⟨hw.cls, hw.constructed⟩)
  rw [getField, stateT_get_bind, htag, if_neg (by omega), if_neg (by omega), ← htag, hisField]
  rfl

theorem message_getFieldBody (htag : st.tag = tagOf w) :
    Message.getFieldBody decoder st = getFieldBody decoder st := by
  have hiff : (st.tag.taglen = 0 ∧ st.tag.indef) = (st.tag.indef) := by
    rw [htag]
    cases w <;> simp [tagOf]
  rw [Message.getFieldBody, getFieldBody, stateT_get_bind, stateT_get_bind]
  simp [hiff]

theorem takes_message_getField : Takes k (Message.getField k decoder) decoder := by
  intro w st hw htag
  have hnum := hw.tagnum
  have hisField : Message.isField st.tag := by
    rw [htag]
    exact decide_eq_true ⟨hw.cls, hw.constructed⟩
  rw [Message.getField, stateT_get_bind, htag, if_neg (by omega), if_neg (by omega), ← htag,
    hisField]
  exact message_getFieldBody decoder htag

/-- A macro that decodes the field in front if it has the number `k`. Behind the
last field its verdict is that of the macros it belongs to, if it looks at the
class at all. -/
structure Looks (style : Option Style) (k : Nat) (prog : Fields (Option α)) (decoder : Decoder α) :
    Prop where
  present : ∀ {w : Tlv} {st : FieldState}, IsField k w → st.tag = tagOf w →
    prog st = (getFieldBody decoder >>= fun val => pure (some val)) st
  absent : ∀ {j : Nat} {w : Tlv} {st : FieldState}, IsField j w → j ≠ k → st.tag = tagOf w →
    prog st = .ok (none, st)
  ended : ∀ {indef : Bool} {last : Option Tlv} {e : Nat} {st : FieldState}, 0 < k → k < 31 →
    At indef last e [] st → Gives (prog st) (∀ s ∈ style, s.Fits indef last) none (· = st)

theorem At.tag (hat : At indef last e (w :: ws) st) : st.tag = tagOf w := by
  cases hat
  rfl

theorem At.tagnum_ne (hat : At indef last e [] st) (hpos : 0 < k) (hk : k < 31) :
    st.tag.tagnum ≠ k := by
  cases hat with
  | eoc h hnext =>
    simp only [eocVars]
    omega
  | ended h hbound hlast =>
    simp only [tagnumCeiling]
    omega

theorem looks_whenTag {prog : Fields α} {decoder : Decoder α} (htakes : Takes k prog decoder) :
    Looks none k (whenTag k prog) decoder where
  present := by
    intro w st hw htag
    have hnum : st.tag.tagnum = k := by rw [htag, hw.tagnum]
    rw [whenTag, stateT_get_bind, if_pos hnum]
    change (prog st >>= _) = (getFieldBody decoder st >>= _)
    rw [htakes hw htag]
  absent := by
    intro j w st hw hne htag
    have hnum : st.tag.tagnum ≠ k := by
      rw [htag, hw.tagnum]
      exact_mod_cast hne
    rw [whenTag, stateT_get_bind, if_neg hnum]
    rfl
  ended := by
    intro indef last e st hpos hk hat
    rw [whenTag, stateT_get_bind, if_neg (hat.tagnum_ne hpos hk)]
    exact gives_of_ok rfl rfl (by simp)

variable (check : TagVars → Bool)

/-- After a definite field its tag variables remain, after an indefinite one those of its end. -/
theorem staleVars_check
    (hfield : ∀ {vars : TagVars}, vars.cls = .contextSpecific → vars.constructed →
      check vars)
    (hother : ∀ {vars : TagVars}, vars.cls = .universal → vars.tagnum = tagnumCeiling →
      check vars = false) (htags : ∀ w ∈ last, constructed w.id ∧ contextSpecific w.id) :
    check { staleVars last with tagnum := tagnumCeiling } = true ↔
      ∃ w ∈ last, w.isIndefinite = false := by
  cases last with
  | none =>
    rw [hother rfl rfl]
    simp
  | some w =>
    obtain ⟨hcons, hctx⟩ := htags w rfl
    have hw : IsField w.number w := ⟨hcons, hctx, rfl⟩
    cases hform : w.isIndefinite with
    | true =>
      rw [staleVars, hform, hother rfl rfl]
      simp [hform]
    | false =>
      have hvars : staleVars (some w) = tagOf w := by simp [staleVars, hform]
      rw [hvars]
      exact ⟨fun _ => ⟨w, rfl, hform⟩, fun _ => hfield hw.cls hw.constructed⟩

/-- The macros that test the class, by what the test says of a field, of the variables at the end of
a definite structure and of those at the end of an indefinite one. -/
theorem looks_of_check {style : Style} {body : Fields α} {decoder : Decoder α}
    (htakes : Takes k body decoder)
    (hfield : ∀ {vars : TagVars}, vars.cls = .contextSpecific → vars.constructed → check vars)
    (hother : ∀ {vars : TagVars}, vars.cls = .universal → vars.tagnum = tagnumCeiling →
      check vars = false) (heoc : ∀ last, check eocVars ↔ style.Fits true last) :
    Looks (some style) k (do
      let tag := (← get).tag
      if !check tag then throw .badId
      else if tag.tagnum = k then return some (← body)
      else return none) decoder where
  present := by
    intro w st hw htag
    rw [stateT_get_bind, htag, hfield hw.cls hw.constructed, hw.tagnum, if_neg (by simp), if_pos rfl]
    change (body st >>= _) = (getFieldBody decoder st >>= _)
    rw [htakes hw htag]
  absent := by
    intro j w st hw hne htag
    rw [stateT_get_bind, htag, hfield hw.cls hw.constructed, hw.tagnum, if_neg (by simp),
      if_neg (by exact_mod_cast hne)]
    rfl
  ended := by
    intro indef last e st hpos hk hat
    have hcheck : check st.tag ↔ style.Fits indef last := by
      cases hat with
      | eoc h hnext =>
        rw [h]
        exact heoc last
      | ended h hbound hlast =>
        rw [h, staleVars_check check hfield hother hlast]
        cases style <;> simp [Style.Fits]
    rw [stateT_get_bind, if_neg (hat.tagnum_ne hpos hk)]
    constructor
    · intro hfits
      rw [if_neg (by simp [hcheck.mpr (hfits style rfl)])]
      exact ⟨st, rfl, rfl⟩
    · intro hfits
      refine ⟨.badId, congrFun (if_pos ?_) st⟩
      rw [Bool.not_eq_true', ← Bool.not_eq_true, hcheck]
      intro h
      exact hfits fun s hs => Option.some.inj hs ▸ h

theorem looks_optField : Looks (some .inner) k (optField k decoder) decoder := by
  refine looks_of_check TagVars.isField (takes_getFieldBody decoder) ?_ ?_ ?_
  · exact fun hcls hcons => decide_eq_true (.inl ⟨hcls, hcons⟩)
  · intro vars hcls hnum
    simp [TagVars.isField, hcls, hnum, tagnumCeiling]
  · exact fun _ => ⟨fun _ => .inl rfl, fun _ => rfl⟩

theorem looks_message_optField :
    Looks (some .outer) k (Message.optField k decoder) decoder := by
  have htakes : Takes k (Message.getFieldBody decoder) decoder :=
    fun _ _ _ htag => message_getFieldBody decoder htag
  refine looks_of_check Message.isField htakes ?_ ?_ ?_
  · exact fun hcls hcons => decide_eq_true ⟨hcls, hcons⟩
  · intro vars hcls hnum
    simp [Message.isField, hcls]
  · simp [Style.Fits, Message.isField, eocVars]

end Between

/-! ## Structures -/

section Follows

variable {γ : Type} {style : Style} {optional : List Nat} {field : Nat → Shape}
  {fs : List (Nat × Option Elem)} {v : α}

/-- What is left of the condition on a structure when the fields `ws` are to come, and
the optional fields that are still to be looked for. -/
def Passes (style : Style) (indef : Bool) (last : Option Tlv) (optional : List Nat)
    (field : Nat → Shape) (ws : List Tlv) : Prop :=
  (∀ w ∈ ws, ∀ c ∈ w.children, (field w.number).Good c) ∧
  ((∃ k ∈ optional, ∀ w ∈ ws, w.number < k) → style.Fits indef last)

section

variable {last : Option Tlv} {w : Tlv} {ws : List Tlv}

theorem passes_take (hnum : w.number = k) (hopt : ∀ j ∈ optional, k < j) :
    ((∀ c ∈ w.children, (field k).Good c) ∧ Passes style indef last optional field ws) ↔
      Passes style indef last optional field (w :: ws) := by
  have hlook : (∃ j ∈ optional, ∀ v ∈ w :: ws, v.number < j) ↔
      ∃ j ∈ optional, ∀ v ∈ ws, v.number < j := by
    refine exists_congr fun j => and_congr_right fun hj => ?_
    simp [hnum, hopt j hj]
  rw [Passes, Passes, hlook, forall_mem_cons, hnum, and_assoc]

theorem passes_look (hws : ∀ w ∈ ws, k ≤ w.number) :
    ((ws = [] → style.Fits indef last) ∧ Passes style indef last optional field ws) ↔
      Passes style indef last (k :: optional) field ws := by
  cases ws with
  | nil =>
    constructor
    · rintro ⟨hfits, -⟩
      exact ⟨by simp, fun _ => hfits rfl⟩
    · intro h
      have hfits := h.2 ⟨k, mem_cons_self, by simp⟩
      exact ⟨fun _ => hfits, by simp, fun _ => hfits⟩
  | cons w ws =>
    have hw : ¬w.number < k := Nat.not_lt.mpr (hws w mem_cons_self)
    have hlook : (∃ j ∈ k :: optional, ∀ v ∈ w :: ws, v.number < j) ↔
        ∃ j ∈ optional, ∀ v ∈ w :: ws, v.number < j := by
      simp [hw]
    rw [Passes, Passes, hlook]
    simp

end

/-- The verdict of a structure decoder on the fields to come. -/
def Follows (fuel : Nat) (style : Style) (optional : List Nat) (field : Nat → Shape)
    (prog : Fields α) (fs : List (Nat × Option Elem)) (a : α) : Prop :=
  ∀ ⦃indef : Bool⦄ ⦃last : Option Tlv⦄ ⦃e : Nat⦄ ⦃ws : List Tlv⦄ ⦃st : FieldState⦄,
    At indef last e ws st → ws.map Tlv.erase = Elem.fields fs →
    (octetsAll ws).length < fuel →
    Gives (prog st) (Passes style indef last optional field ws) a (At indef last e [])

theorem Follows.value (a : α) : Follows fuel style [] field (pure a) [] a := by
  intro indef last e ws st hat hws hfuel
  obtain rfl := map_eq_nil_iff.mp hws
  exact gives_of_ok rfl hat (by simp [Passes])

theorem Follows.look {prog : FieldState → Fields α} {a : α}
    (h : ∀ st, Follows fuel style optional field (prog st) fs a) :
    Follows fuel style optional field (get >>= prog) fs a := by
  intro indef last e ws st hat hws hfuel
  exact h st hat hws hfuel

theorem Follows.of_eq {a b : α} (h : a = b) : Follows fuel style [] field (pure a) [] b := by
  rw [h]
  exact .value b

theorem Follows.req {prog : Fields α} {decoder : Decoder α} {cont : α → Fields β} {b : β}
    (hacc : Accepts fuel decoder (field k) c v)
    (hcont : Follows fuel style optional field (cont v) fs b) (htakes : Takes k prog decoder := by
      first | exact takes_getField _ | exact takes_message_getField _) (hk : k < 31 := by decide)
    (hopt : ∀ j ∈ optional, k < j := by decide) :
    Follows fuel style optional field (prog >>= cont) ((k, some c) :: fs) b := by
  intro indef last e ws st hat hws hfuel
  obtain ⟨w, ws, rfl, hw, hrest⟩ := map_eq_cons_iff.mp hws
  obtain ⟨hfield, -⟩ := isField_of_erase hk hw
  have hbody : Gives (prog st) (∀ t ∈ w.children, (field k).Good t) v (At indef last e ws) := by
    rw [htakes hfield hat.tag]
    exact getFieldBody_gives hat hk hw hfuel hacc
  have hless : (octetsAll ws).length < fuel := by
    rw [octetsAll_cons, length_append] at hfuel
    omega
  exact (hbody.bind fun st' hat' => hcont hat' hrest hless).congr (passes_take hfield.number hopt)

/-- One optional field that is there. -/
theorem Follows.present {prog : Fields (Option α)} {decoder : Decoder α}
    {cont : Option α → Fields β} {b : β} {s : Option Style}
    (hacc : Accepts fuel decoder (field k) c v)
    (hcont : Follows fuel style optional field (cont (some v)) fs b)
    (hlooks : Looks s k prog decoder := by exact looks_optField _) (hk : k < 31 := by decide)
    (hopt : ∀ j ∈ optional, k < j := by decide) :
    Follows fuel style optional field (prog >>= cont) ((k, some c) :: fs) b := by
  have htake : Follows fuel style optional field (getFieldBody decoder >>= fun v => cont (some v))
      ((k, some c) :: fs) b := .req hacc hcont (takes_getFieldBody decoder) hk hopt
  intro indef last e ws st hat hws hfuel
  have hrun : (prog >>= cont) st = (getFieldBody decoder >>= fun v => cont (some v)) st := by
    have hfields := hws
    obtain ⟨w, ws, rfl, hw, -⟩ := map_eq_cons_iff.mp hfields
    obtain ⟨hfield, -⟩ := isField_of_erase hk hw
    change (prog st >>= fun r => cont r.1 r.2) = _
    rw [hlooks.present hfield hat.tag]
    change ((getFieldBody decoder >>= fun val => pure (some val)) >>= cont) st = _
    rw [bind_assoc]
    rfl
  rw [hrun]
  exact htake hat hws hfuel

theorem mem_fields {e : Elem} (h : e ∈ Elem.fields fs) : ∃ f ∈ fs, ∃ c, e = .explicit f.1 c := by
  obtain ⟨f, hf, hmap⟩ := mem_filterMap.mp h
  obtain ⟨c, -, rfl⟩ := Option.map_eq_some_iff.mp hmap
  exact ⟨f, hf, c, rfl⟩

theorem number_of_fields {ws : List Tlv} (hws : ws.map Tlv.erase = Elem.fields fs)
    (hfs : ∀ f ∈ fs, k < f.1 ∧ f.1 < 31) : ∀ w ∈ ws, k < w.number ∧ IsField w.number w := by
  intro w hw
  have hmem : w.erase ∈ Elem.fields fs := by
    rw [← hws]
    exact mem_map_of_mem hw
  obtain ⟨f, hf, c, hc⟩ := mem_fields hmem
  obtain ⟨hfield, -⟩ := isField_of_erase (hfs f hf).2 hc
  rw [hfield.number]
  exact ⟨(hfs f hf).1, hfield⟩

/-- The number of a field is before those of the ones that are still to be looked for. -/
def Leads (k : Nat) (optional : List Nat) (fs : List (Nat × Option Elem)) : Prop :=
  (0 < k ∧ k < 31) ∧ (∀ j ∈ optional, k < j) ∧ ∀ f ∈ fs, k < f.1 ∧ f.1 < 31

section

variable {prog : Fields (Option α)} {decoder : Decoder α} {cont : Option α → Fields β}
  {o : Option γ} {elem : γ → Elem} {val : γ → α} {b : β} {s : Option Style}

variable (hacc : ∀ x ∈ o, Accepts fuel decoder (field k) (elem x) (val x))
include hacc

/-- One optional field and what follows it. -/
theorem looks_gives {last : Option Tlv} {e : Nat} {ws : List Tlv} {st : FieldState}
    (hlooks : Looks s k prog decoder) (hleads : Leads k optional fs)
    (hcont : Follows fuel style optional field (cont (o.map val)) fs b)
    (hat : At indef last e ws st) (hws : ws.map Tlv.erase = Elem.fields ((k, o.map elem) :: fs))
    (hfuel : (octetsAll ws).length < fuel) :
    (∀ w ∈ ws, k ≤ w.number) ∧
    Gives ((prog >>= cont) st) ((ws = [] → ∀ s' ∈ s, s'.Fits indef last) ∧
      Passes style indef last optional field ws) b (At indef last e []) := by
  obtain ⟨hk, hopt, hfs⟩ := hleads
  cases o with
  | some x =>
    have hgives := Follows.present (hacc x rfl) hcont hlooks hk.2 hopt hat hws hfuel
    obtain ⟨w, ws, rfl, hw, hrest⟩ := map_eq_cons_iff.mp hws
    obtain ⟨hfield, -⟩ := isField_of_erase hk.2 hw
    refine ⟨?_, hgives.congr (by simp)⟩
    intro v hv
    rcases mem_cons.mp hv with rfl | hv
    · exact Nat.le_of_eq hfield.number.symm
    · exact Nat.le_of_lt (number_of_fields hrest hfs v hv).1
  | none =>
    rw [Elem.fields_cons] at hws
    have hnums := number_of_fields hws hfs
    refine ⟨fun w hw => Nat.le_of_lt (hnums w hw).1, ?_⟩
    have hprog : Gives (prog st) (ws = [] → ∀ s' ∈ s, s'.Fits indef last) none (· = st) := by
      cases ws with
      | nil => exact (hlooks.ended hk.1 hk.2 hat).congr (by simp)
      | cons w ws =>
        obtain ⟨hlt, hfield⟩ := hnums w mem_cons_self
        rw [hlooks.absent hfield (by omega) hat.tag]
        exact gives_of_ok rfl rfl (by simp)
    refine hprog.bind ?_
    rintro st' rfl
    exact hcont hat hws hfuel

theorem Follows.optWith
    (hcont : Follows fuel style optional field (cont (o.map val)) fs b)
    (hlooks : Looks (some style) k prog decoder := by
      first | exact looks_optField _ | exact looks_message_optField _)
    (hleads : Leads k optional fs := by simp [Leads]) :
    Follows fuel style (k :: optional) field (prog >>= cont) ((k, o.map elem) :: fs) b := by
  intro indef last e ws st hat hws hfuel
  obtain ⟨hnums, hgives⟩ := looks_gives hacc hlooks hleads hcont hat hws hfuel
  refine hgives.congr ?_
  rw [← passes_look hnums]
  simp

theorem Follows.taggedWith {prog : Fields α}
    (hcont : Follows fuel style optional field (cont (o.map val)) fs b)
    (htakes : Takes k prog decoder := by
      first | exact takes_getField _ | exact takes_message_getField _ | exact takes_getFieldBody _)
    (hleads : Leads k optional fs := by simp [Leads]) :
    Follows fuel style optional field (whenTag k prog >>= cont) ((k, o.map elem) :: fs) b := by
  intro indef last e ws st hat hws hfuel
  obtain ⟨-, hgives⟩ := looks_gives hacc (looks_whenTag htakes) hleads hcont hat hws hfuel
  exact hgives.congr (by simp)

theorem Follows.ifTag {prog : Fields α} {absent : α} {cont : α → Fields β}
    (hcont : Follows fuel style optional field (cont ((o.map val).getD absent)) fs b)
    (htakes : Takes k prog decoder := by exact takes_getField _)
    (hleads : Leads k optional fs := by simp [Leads]) :
    Follows fuel style optional field (do
      if (← get).tag.tagnum = k then
        let v ← prog
        cont v
      else
        let v ← pure absent
        cont v) ((k, o.map elem) :: fs) b := by
  have hprog := @Follows.taggedWith _ _ _ _ _ style _ _ _ decoder (fun v => cont (v.getD absent))
    _ _ _ _ hacc prog hcont htakes hleads
  convert hprog using 1
  rw [whenTag, bind_assoc]
  congr 1
  funext st
  split <;> simp

end

section

variable {decoder : Decoder α} {cont : Option α → Fields β} {o : Option α} {elem : α → Elem} {b : β}

variable (hacc : ∀ x, Accepts fuel decoder (field k) (elem x) x)
  (hcont : Follows fuel style optional field (cont o) fs b)
include hacc hcont

theorem Follows.tagged {prog : Fields α}
    (htakes : Takes k prog decoder := by
      first | exact takes_getField _ | exact takes_message_getField _ | exact takes_getFieldBody _)
    (hleads : Leads k optional fs := by simp [Leads]) :
    Follows fuel style optional field (whenTag k prog >>= cont) ((k, o.map elem) :: fs) b :=
  .taggedWith (fun x _ => hacc x) (by rwa [Option.map_id']) htakes hleads

theorem Follows.opt {prog : Fields (Option α)}
    (hlooks : Looks (some style) k prog decoder := by
      first | exact looks_optField _ | exact looks_message_optField _)
    (hleads : Leads k optional fs := by simp [Leads]) :
    Follows fuel style (k :: optional) field (prog >>= cont) ((k, o.map elem) :: fs) b :=
  .optWith (fun x _ => hacc x) (by rwa [Option.map_id']) hlooks hleads

end

end Follows

section Whole

variable {p : Nat} {t : Tlv} {buf : Asn1Buf} {style : Style} {optional : List Nat}
  {field : Nat → Shape} {fs : List (Nat × Option Elem)}

theorem indef_tagOf (t : Tlv) : (tagOf t).indef = t.isIndefinite := by cases t <;> rfl

theorem asn1GetSequence_tlv (hwf : t.WellFormed) (hid : t.id = 0x30) (h : Placed buf p t.octets) :
    asn1GetSequence buf = .ok (((tagOf t).taglen, (tagOf t).indef),
      buf.moveTo (p + 1 + t.len.length)) := by
  have hseq : ¬((tagOf t).cls ≠ .universal ∨ (!(tagOf t).constructed) = true ∨
      (tagOf t).tagnum ≠ asn1Sequence) := by
    simp only [tagOf, hid]
    decide
  rw [asn1GetSequence, stateT_bind_of_ok (asn1GetTagIndef_tlv hwf h), if_neg hseq]
  rfl

theorem imbed_ok (hcons : constructed t.id) (hwf : t.WellFormed) (h : Placed buf p t.octets) :
    ∃ subbuf, asn1bufImbed (buf.moveTo (p + 1 + t.len.length)) (tagOf t).taglen (tagOf t).indef =
      .ok subbuf ∧ Within t.isIndefinite t.children subbuf (p + 1 + t.len.length) := by
  have hroom := h.contents.room
  obtain ⟨subbuf, himbed⟩ : ∃ subbuf, asn1bufImbed (buf.moveTo (p + 1 + t.len.length))
      (tagOf t).taglen (tagOf t).indef = .ok subbuf := by
    cases hindef : (tagOf t).indef with
    | true => exact ⟨_, rfl⟩
    | false =>
      have htaglen : (tagOf t).taglen = t.contents.length := by
        cases t with
        | primitive id len contents => rfl
        | definite id len children => rfl
        | indefinite id children => cases hindef
      rw [asn1bufImbed, if_neg Bool.false_ne_true, if_neg (by rw [moveTo_next]; omega)]
      exact ⟨_, rfl⟩
  exact ⟨subbuf, himbed, imbed_within hwf hcons h himbed⟩

/-- At the end of its fields a structure is left behind its last octet. -/
theorem sync_at {subbuf : FieldState} {length : Int} {last : Option Tlv}
    (hcons : constructed t.id) (hwf : t.WellFormed)
    (hat : At t.isIndefinite last (p + 1 + t.len.length + (octetsAll t.children).length) []
      subbuf) :
    asn1bufSync fuel (buf.moveTo (p + 1 + t.len.length)) subbuf.subbuf subbuf.tag length
      t.isIndefinite = .ok (buf.moveTo (p + t.octets.length)) := by
  have hsize := t.length_octets
  rcases hwf.shape hcons with ⟨id, len, children, rfl⟩ | ⟨id, children, rfl⟩
  · cases hat with
    | eoc h hnext => cases h
    | @ended b h hbound hlast =>
      change Except.ok { buf with next := b.bound + 1 } = _
      rw [hbound]
      simp only [Tlv.contents, Tlv.children] at hsize ⊢
      congr 2
      omega
  · cases hat with
    | ended h hbound hlast => cases h
    | @eoc b h hnext =>
      change Except.ok { buf with next := b.next } = _
      rw [hnext]
      simp only [Tlv.contents, Tlv.children, length_append, length_cons, length_nil] at hsize ⊢
      congr 2
      omega

variable {a : α}

/-- A structure is accepted if its fields are followed one by one. -/
theorem Accepts.of_follows {prog : Int → Fields (α × Int)}
    (h : ∀ length, Follows fuel style optional field (Prod.fst <$> prog length) fs a)
    (hshape : ∀ t : Tlv, t.erase = .record fs → (shape.Good t ↔
      Passes style t.isIndefinite t.children.getLast? optional field t.children)) :
    Accepts fuel (structureWith fuel prog) shape (.record fs) a := by
  intro t buf p hwf herase hfuel hplaced
  obtain ⟨hid, hkids⟩ := Tlv.erase_eq_cons herase
  have hcons : constructed t.id := by
    rw [hid]
    decide
  obtain ⟨subbuf, himbed, hwithin⟩ := imbed_ok hcons hwf hplaced
  have hunset : t.children = [] → TagVars.unset = staleVars t.children.getLast? := by
    intro hnil
    rw [hnil]
    rfl
  obtain ⟨st, hnext, hat⟩ := nextTag_at hwithin rfl (fun _ => rfl) hunset (by
      intro hnil
      simp [hnil])
  have hless : (octetsAll t.children).length < fuel := by
    have := t.length_children_le
    have := t.length_octets
    omega
  have hfields := (h (tagOf t).taglen hat hkids hless).congr (hshape t herase).symm
  have hrun : structureWith fuel prog buf = (prog (tagOf t).taglen st >>= fun r =>
      (asn1bufSync fuel (buf.moveTo (p + 1 + t.len.length)) r.2.subbuf r.2.tag r.1.2
        t.isIndefinite).map fun buf' => (r.1.1, buf')) := by
    rw [structureWith, stateT_bind_of_ok (asn1GetSequence_tlv hwf hid hplaced)]
    dsimp only
    rw [stateT_get_bind, stateT_lift_bind, himbed, ok_bind, stateT_bind_of_ok hnext,
      stateT_lift_bind, indef_tagOf]
    congr 1
    funext r
    cases asn1bufSync fuel _ r.2.subbuf r.2.tag r.1.2 t.isIndefinite <;> rfl
  have hfst : (Prod.fst <$> prog (tagOf t).taglen) st =
      (prog (tagOf t).taglen st).map fun r => (r.1.1, r.2) := rfl
  rw [hfst] at hfields
  constructor
  · intro hgood
    obtain ⟨st', hprog, hat'⟩ := hfields.1 hgood
    obtain ⟨r, hr, heq⟩ := map_eq_ok.mp hprog
    cases heq
    refine ⟨_, ?_, rfl⟩
    rw [hrun, hr, ok_bind, sync_at hcons hwf hat']
    rfl
  · intro hgood
    obtain ⟨err, hprog⟩ := hfields.2 hgood
    cases hrest : prog (tagOf t).taglen st with
    | error e => exact ⟨e, by rw [hrun, hrest]; rfl⟩
    | ok r =>
      rw [hrest] at hprog
      cases hprog

theorem Accepts.of_follows_fields {prog : Fields α}
    (h : Follows fuel style optional field prog fs a)
    (hshape : ∀ t : Tlv, t.erase = .record fs → (shape.Good t ↔
      Passes style t.isIndefinite t.children.getLast? optional field t.children)) :
    Accepts fuel (structureOf fuel prog) shape (.record fs) a := by
  refine .of_follows (fun length => ?_) hshape
  rwa [Functor.map_map, id_map']

theorem structureOf_map (prog : Fields α) (f : α → β) :
    f <$> structureOf fuel prog = structureOf fuel (f <$> prog) := by
  simp only [structureWith, map_bind]
  refine bind_congr fun r => bind_congr fun buf => bind_congr fun subbuf => ?_
  have hmap : ∀ st, (do nextTag; (·, r.1) <$> f <$> prog : Fields (β × Int)) st =
      ((do nextTag; (·, r.1) <$> prog : Fields (α × Int)) st).map
        fun r => ((f r.1.1, r.1.2), r.2) := by
    intro st
    change (nextTag st >>= fun p => ((·, r.1) <$> f <$> prog) p.2) =
      ((nextTag st >>= fun p => ((·, r.1) <$> prog) p.2)).map _
    cases nextTag st with
    | error e => rfl
    | ok p =>
      change Except.map _ (Except.map _ (prog p.2)) = Except.map _ (Except.map _ (prog p.2))
      cases prog p.2 <;> rfl
  rw [hmap]
  cases (nextTag >>= fun _ => (·, r.1) <$> prog) (⟨subbuf, .unset⟩ : FieldState) <;> rfl

theorem Accepts.congr {decoder : Decoder α} {shape' : Shape} {e : Elem}
    (h : Accepts fuel decoder shape e a)
    (hshape : ∀ t : Tlv, t.erase = e → (shape.Good t ↔ shape'.Good t)) :
    Accepts fuel decoder shape' e a := by
  intro t buf p hwf herase hfuel hplaced
  exact (h hwf herase hfuel hplaced).congr (hshape t herase)

theorem Accepts.map {decoder : Decoder α} {e : Elem} (h : Accepts fuel decoder shape e a)
    (f : α → β) : Accepts fuel (decoder >>= fun val => pure (f val)) shape e (f a) := by
  intro t buf p hwf herase hfuel hplaced
  exact (h hwf herase hfuel hplaced).bind_ok fun b hb => ⟨b, rfl, hb⟩

theorem children_ne_nil (hne : Elem.fields fs ≠ []) (herase : t.erase = .record fs) :
    t.children ≠ [] := by
  rintro hnil
  obtain ⟨-, hkids⟩ := Tlv.erase_eq_cons herase
  rw [hnil] at hkids
  exact hne hkids.symm

theorem Accepts.record {prog : Fields α} (h : Follows fuel style optional field prog fs a)
    (hne : Elem.fields fs ≠ [] := by simp [Elem.fields]) :
    Accepts fuel (structureOf fuel prog) (.record style optional field) (.record fs) a :=
  Accepts.of_follows_fields h fun _ herase => and_iff_right (children_ne_nil hne herase)

theorem Accepts.simple {prog : Fields α} (style : Style)
    (h : Follows fuel style [] (fun _ => .any) prog fs a) :
    Accepts fuel (structureOf fuel prog) .any (.record fs) a :=
  Accepts.of_follows_fields h fun _ _ => by simp [Shape.Good, Passes]

theorem Accepts.simpleWith {prog : Int → Fields (α × Int)} (style : Style)
    (h : ∀ length, Follows fuel style [] (fun _ => .any) (Prod.fst <$> prog length) fs a) :
    Accepts fuel (structureWith fuel prog) .any (.record fs) a :=
  Accepts.of_follows h fun _ _ => by simp [Shape.Good, Passes]

theorem passes_settled (hlast : fs.getLast? = some (k, some c)) (hk : k < 31)
    (hopt : ∀ j ∈ optional, j ≤ k) (herase : t.erase = .record fs) :
    Passes style t.isIndefinite t.children.getLast? [] field t.children ↔
      Passes style t.isIndefinite t.children.getLast? optional field t.children := by
  obtain ⟨-, hkids⟩ := Tlv.erase_eq_cons herase
  have hin : Elem.explicit k c ∈ t.children.map Tlv.erase := by
    rw [hkids]
    exact mem_filterMap.mpr ⟨(k, some c), mem_of_getLast? hlast, rfl⟩
  obtain ⟨w, hw, hwk⟩ := mem_map.mp hin
  obtain ⟨hfield, -⟩ := isField_of_erase hk hwk
  have hnone : ¬∃ j ∈ optional, ∀ v ∈ t.children, v.number < j := by
    rintro ⟨j, hj, hall⟩
    have hlt := hall w hw
    have hle := hopt j hj
    rw [hfield.number] at hlt
    omega
  simp [Passes, hnone]

theorem Accepts.settled {prog : Fields α} (style : Style) (optional : List Nat)
    (h : Follows fuel style optional field prog fs a) (hlast : fs.getLast? = some (k, some c))
    (hk : k < 31) (hopt : ∀ j ∈ optional, j ≤ k) :
    Accepts fuel (structureOf fuel prog) (.record style [] field) (.record fs) a := by
  have hne : Elem.fields fs ≠ [] :=
    ne_nil_of_mem (mem_filterMap.mpr ⟨(k, some c), mem_of_getLast? hlast, rfl⟩)
  refine .of_follows_fields h fun t herase => ?_
  rw [← passes_settled hlast hk hopt herase]
  exact and_iff_right (children_ne_nil hne herase)

theorem Accepts.plain {prog : Fields α} (style : Style) (optional : List Nat)
    (h : Follows fuel style optional (fun _ => .any) prog fs a)
    (hlast : fs.getLast? = some (k, some c)) (hk : k < 31) (hopt : ∀ j ∈ optional, j ≤ k) :
    Accepts fuel (structureOf fuel prog) .any (.record fs) a := by
  refine .of_follows_fields h fun t herase => ?_
  rw [← passes_settled hlast hk hopt herase]
  simp [Shape.Good, Passes]

/-! ## Sequences of one type -/

theorem Within.all {q : Nat} (h : Within indef ts buf q) :
    Within indef [] (buf.moveTo (q + (octetsAll ts).length))
      (q + (octetsAll ts).length) where
  placed := by simpa using h.placed.back
  ends hdef := by
    rw [moveTo_bound, h.ends hdef]
    simp
  wf t ht := by cases ht

theorem Within.remains {q : Nat} (h : Within indef ts buf q) :
    asn1bufRemains buf indef ≤ 0 ↔ ts = [] := by
  cases ts with
  | cons t ts =>
    have hmore : ¬asn1bufRemains buf indef ≤ 0 :=
      asn1bufRemains_placed (h.wf t mem_cons_self) h.head
    simp [hmore]
  | nil =>
    refine ⟨fun _ => rfl, fun _ => ?_⟩
    cases indef with
    | true => exact asn1bufRemains_eoc (by simpa using h.placed)
    | false =>
      rw [asn1bufRemains, if_pos h.left_nonpos]
      exact h.left_nonpos

section Elements

variable {decoder : Decoder α} {elem : β → Elem} {val : β → α} {xs : List β}
  {g : Int → TagVars → Int}

/-- The loop over the elements of a `SEQUENCE OF`. -/
theorem elements_gives {q n : Nat} (hacc : ∀ x ∈ xs, Accepts fuel decoder shape (elem x) (val x))
    (hts : ts.map Tlv.erase = xs.map elem) (hw : Within indef ts buf q) (hn : ts.length < n)
    (hfuel : (octetsAll ts).length < fuel) :
    Gives (elements decoder indef n buf) (∀ t ∈ ts, shape.Good t) (xs.map val)
      (· = buf.moveTo (q + (octetsAll ts).length)) := by
  induction ts generalizing buf q n xs with
  | nil =>
    obtain rfl : xs = [] := by simpa using hts.symm
    cases n with
    | zero => cases hn
    | succ n =>
      rw [elements, stateT_get_bind, if_pos (hw.remains.mpr rfl)]
      refine gives_of_ok rfl ?_ (by simp)
      rw [octetsAll_nil, length_nil, Nat.add_zero, hw.placed.stay]
  | cons t ts ih =>
    obtain ⟨x, xs, rfl, hx, hxs⟩ := map_eq_cons_iff.mp hts.symm
    rw [octetsAll_cons, length_append] at hfuel
    cases n with
    | zero => cases hn
    | succ n =>
      have hmore : ¬asn1bufRemains buf indef ≤ 0 := by
        rw [hw.remains]
        exact cons_ne_nil _ _
      have hfirst := hacc x mem_cons_self (hw.wf t mem_cons_self) hx.symm (by omega) hw.head
      rw [elements, stateT_get_bind, if_neg hmore]
      have hrest : ∀ buf', buf' = buf.moveTo (q + t.octets.length) →
          Gives ((elements decoder indef n >>= fun vals => pure (val x :: vals)) buf')
            (∀ c ∈ ts, shape.Good c) (val x :: xs.map val)
            (· = buf.moveTo (q + (octetsAll (t :: ts)).length)) := by
        rintro buf' rfl
        refine (ih (fun y hy => hacc y (mem_cons_of_mem _ hy)) hxs.symm hw.step
          (Nat.lt_of_succ_lt_succ hn) (by omega)).bind_ok ?_
        rintro b rfl
        refine ⟨_, rfl, ?_⟩
        rw [octetsAll_cons, length_append, moveTo_moveTo, Nat.add_assoc]
      exact (hfirst.bind hrest).congr (by simp)

theorem length_le_octetsAll (ts : List Tlv) : ts.length ≤ (octetsAll ts).length := by
  induction ts with
  | nil => exact Nat.zero_le _
  | cons t ts ih =>
    have := t.length_octets
    rw [length_cons, octetsAll_cons, length_append]
    omega

theorem Accepts.sequence (hacc : ∀ x ∈ xs, Accepts fuel decoder shape (elem x) (val x)) :
    Accepts fuel (sequenceOfWith g (fun _ vals => vals) fuel decoder) (.each shape)
      (.sequence (xs.map elem)) (xs.map val) := by
  intro t buf p hwf herase hfuel hplaced
  obtain ⟨hid, hkids⟩ := Tlv.erase_eq_cons herase
  have hcons : constructed t.id := by
    rw [hid]
    decide
  obtain ⟨seqbuf, himbed, hwithin⟩ := imbed_ok hcons hwf hplaced
  have hless : (octetsAll t.children).length < fuel := by
    have := t.length_children_le
    have := t.length_octets
    omega
  have hloop := elements_gives hacc hkids hwithin
    (Nat.lt_of_le_of_lt (length_le_octetsAll _) hless) hless
  rw [sequenceOfWith, stateT_bind_of_ok (asn1GetSequence_tlv hwf hid hplaced)]
  dsimp only
  rw [stateT_get_bind, stateT_lift_bind, himbed, ok_bind, stateT_lift_bind, indef_tagOf]
  constructor
  · intro hgood
    obtain ⟨b, hok, rfl⟩ := hloop.1 hgood
    obtain ⟨tag, b, htag, hat⟩ := @getTag_at _ none _ _ [] _ .unset hwithin.all rfl (by simp)
      (fun _ => rfl) (by simp)
    refine ⟨_, ?_, rfl⟩
    have hsync := @sync_at fuel p _ buf ⟨b, tag⟩ (g (tagOf t).taglen tag) none hcons hwf hat
    rw [hok, ok_bind, stateT_lift_bind, asn1GetTag, htag, ok_bind, hsync]
    rfl
  · intro hgood
    obtain ⟨err, hok⟩ := hloop.2 hgood
    exact ⟨err, by rw [hok]; rfl⟩

theorem Accepts.array {ys : List α} {elem : α → Elem}
    (hacc : ∀ y ∈ ys, Accepts fuel decoder shape (elem y) y) :
    Accepts fuel (sequenceOfWith g (fun _ vals => vals) fuel decoder) (.each shape)
      (.sequence (ys.map elem)) ys := by
  have h := @Accepts.sequence _ _ _ _ _ _ _ _ g hacc
  rwa [map_id'] at h

theorem Accepts.any_of_each {dec : Decoder (List α)} {e : Elem} {vals : List α}
    (h : Accepts fuel dec (.each .any) e vals) : Accepts fuel dec .any e vals :=
  h.congr fun t _ => by simp [Shape.Good]

end Elements

/-! ## Application tags -/

/-- What is known about an application tag once it has been read. -/
theorem asn1GetTag_application {e : Elem} (hk : k < 31) (hwf : t.WellFormed)
    (herase : t.erase = .application k e) (h : Placed buf p t.octets) :
    asn1GetTag buf = .ok (tagOf t, buf.moveTo (p + 1 + t.len.length)) ∧
    (tagOf t).cls = .application ∧ (tagOf t).constructed ∧ (tagOf t).tagnum = k ∧
    ∃ c, t.children = [c] ∧ c.erase = e ∧ c.WellFormed ∧ c.octets.length ≤ t.octets.length ∧
      Placed (buf.moveTo (p + 1 + t.len.length)) (p + 1 + t.len.length) c.octets := by
  obtain ⟨hid, hkids⟩ := Tlv.erase_eq_cons herase
  obtain ⟨-, hcons, happ, hnum⟩ := Elem.application_id hk
  obtain ⟨c, hc, hce⟩ := map_eq_singleton_iff.mp hkids
  have hplaced := h.children
  have hle := t.length_children_le
  have hsize := t.length_octets
  rw [hc, octetsAll_cons, octetsAll_nil, append_nil] at hplaced hle
  refine ⟨asn1GetTagIndef_tlv hwf h, ?_, ?_, ?_, c, hc, hce, hwf.child (by simp [hc]), by omega,
    hplaced⟩
  · rw [← hid] at happ
    simp only [application, beq_iff_eq] at happ
    simp [tagOf, classOf, happ]
  · rw [← hid] at hcons
    exact hcons
  · rw [← hid] at hnum
    exact congrArg Int.ofNat hnum

/-- The end-of-contents of an application tag, which `asn1_decode_ticket` reads as a tag
when the length was zero. -/
theorem application_end {c : Tlv} (hc : t.children = [c]) (hcons : constructed t.id)
    (hwf : t.WellFormed) (h : Placed buf p t.octets) (val : α) :
    (do
      if (tagOf t).taglen = 0 then
        let _ ← asn1GetTag
      return val : Decoder α) (buf.moveTo (p + 1 + t.len.length + c.octets.length)) =
      .ok (val, buf.moveTo (p + t.octets.length)) := by
  have hcont := h.contents
  rcases hwf.shape hcons with ⟨id, len, children, rfl⟩ | ⟨id, children, rfl⟩
  · have hone := contents_definite hc
    have hlong := c.length_octets
    have htaglen : ¬(tagOf (.definite id len children)).taglen = 0 := by
      change ¬((Tlv.definite id len children).contents.length : Int) = 0
      rw [hone]
      omega
    rw [if_neg htaglen, end_definite hc]
    rfl
  · rw [contents_indefinite hc] at hcont
    have heoc := @asn1GetTagIndef_eoc _ _ .unset hcont.back
    rw [moveTo_moveTo, end_indefinite hc] at heoc
    change (asn1GetTagIndef .unset >>= fun _ => pure val) _ = _
    rw [stateT_bind_of_ok heoc]
    rfl

end Whole

end Krb5.Asn1
