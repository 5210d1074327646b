import Mathlib.Data.List.TakeDrop
import Krb5.Crypto.Encrypt
import Krb5.Lib.Runs

/-!
# What is encrypted is decrypted again, message after message

Whatever an encryption returns, a decryption under the same key and the same `ivec` takes back to
the message with its padding, and both leave the same `ivec`.
-/

namespace Krb5.Crypto

open Lib List Careful

variable {k mac : Octets} {lib : Ciphers} {enc : EncProvider} {hash : HashProvider}
  {key : Keyblock} {usage : Int32}

theorem le_roundup (x : Nat) : x ≤ roundup x blocksize := by
  simp only [roundup, blocksize]
  omega

theorem dvd_roundup (x : Nat) : blocksize ∣ roundup x blocksize := Nat.dvd_mul_left _ _

def padded (overhead : Nat) (input : Octets) : Octets :=
  input ++ List.replicate (roundup (overhead + input.length) blocksize - (overhead + input.length)) 0

theorem length_padded (overhead : Nat) (input : Octets) :
    overhead + (padded overhead input).length = roundup (overhead + input.length) blocksize := by
  have := le_roundup (overhead + input.length)
  simp only [padded, length_append, length_replicate]
  omega

/-! ## Providers -/

theorem Ciphers.length_cbcEncrypt (k ivec input : Octets) (h : blocksize ∣ input.length) :
    (lib.cbcEncrypt enc k ivec input).length = input.length := by
  cases enc with
  | des => exact lib.length_desCbcEncrypt k ivec input h
  | des3 => exact lib.length_des3CbcEncrypt k ivec input h

theorem Ciphers.cbcDecrypt_cbcEncrypt (k ivec input : Octets) (h : blocksize ∣ input.length) :
    lib.cbcDecrypt enc k ivec (lib.cbcEncrypt enc k ivec input) = input := by
  cases enc with
  | des => exact lib.des_decrypt_encrypt k ivec input h
  | des3 => exact lib.des3_decrypt_encrypt k ivec input h

variable {ivec ivec' : Option Octets} {input output ciphertext : Octets}
  {random : Except Code Block} {room room' : Nat}

theorem docryptCheck_eq_ok {length : Nat} :
    docryptCheck enc k ivec length = .ok () ↔
      k.length = enc.keylength ∧ blocksize ∣ length ∧ (∀ v ∈ ivec, v.length = blocksize) ∧
        enc.keySched k = .ok () := by
  rw [docryptCheck, blocksize, Nat.dvd_iff_mod_eq_zero]
  by_cases hkey : k.length = enc.keylength <;> by_cases hlen : length % 8 = 0 <;>
    cases ivec <;> simp [hkey, hlen]
  split <;> simp_all

theorem encEncrypt_eq_ok :
    encEncrypt lib enc k ivec input = .ok output ↔
      docryptCheck enc k ivec input.length = .ok () ∧
        lib.cbcEncrypt enc k (ivec.getD zeroblock) input = output := by
  rw [encEncrypt, bind_eq_ok]
  constructor
  · rintro ⟨⟨⟩, hcheck, h⟩
    exact ⟨hcheck, Except.ok.inj h⟩
  · rintro ⟨hcheck, rfl⟩
    exact ⟨(), hcheck, rfl⟩

theorem length_of_encEncrypt (h : encEncrypt lib enc k ivec input = .ok output) :
    output.length = input.length := by
  obtain ⟨hcheck, rfl⟩ := encEncrypt_eq_ok.mp h
  obtain ⟨-, hdvd, -, -⟩ := docryptCheck_eq_ok.mp hcheck
  exact Ciphers.length_cbcEncrypt _ _ _ hdvd

theorem encDecrypt_of_encEncrypt (h : encEncrypt lib enc k ivec input = .ok output) :
    encDecrypt lib enc k ivec output = .ok input := by
  have hlen := length_of_encEncrypt h
  obtain ⟨hcheck, rfl⟩ := encEncrypt_eq_ok.mp h
  obtain ⟨-, hdvd, -, -⟩ := docryptCheck_eq_ok.mp hcheck
  rw [encDecrypt, hlen, hcheck, Ciphers.cbcDecrypt_cbcEncrypt _ _ _ hdvd]
  rfl

theorem hmac_eq_ok :
    hmac lib.toPrimitives hash k input = .ok mac ↔ k.length ≤ hash.blockSize ∧
      lib.hash hash (hmacPad hash 0x5c k ++ lib.hash hash (hmacPad hash 0x36 k ++ input)) = mac := by
  rw [hmac]
  by_cases hfits : k.length ≤ hash.blockSize
  · rw [if_neg (Nat.not_lt.mpr hfits)]
    simp [hfits]
  · rw [if_pos (Nat.not_le.mp hfits)]
    simp [hfits]

theorem krb5DeriveKey_eq_ok {constant derived : Octets} :
    krb5DeriveKey lib enc k constant = .ok derived ↔
      k.length = enc.keylength ∧ enc.keySched k = .ok () ∧ lib.deriveKey enc k constant = derived := by
  rw [krb5DeriveKey]
  by_cases hkey : k.length = enc.keylength
  · cases hsched : enc.keySched k <;> simp [hkey, Except.toBool]
  · simp [hkey]

theorem length_hmac (h : hmac lib.toPrimitives hash k input = .ok mac) :
    mac.length = hash.hashSize := by
  obtain ⟨-, rfl⟩ := hmac_eq_ok.mp h
  exact lib.length_hash _ _

def moved (ciphertext : Octets) (ivec : Option Octets) : Option Octets :=
  ((updateIvec ciphertext).run ivec).2

theorem updateIvec_bind {α : Type} (ciphertext : Octets) (k : Unit → Chained α)
    (ivec : Option Octets) :
    (updateIvec ciphertext >>= k).run ivec = (k ()).run (moved ciphertext ivec) := rfl

/-! ## With derived keys -/

section Dk

theorem dkEncrypt_eq_ok :
    (dkEncrypt lib random enc hash key usage input room).run ivec = (.ok output, ivec') ↔
      dkEncryptLength hash input.length ≤ room ∧
      ∃ ke, krb5DeriveKey lib enc key.contents (usageOctets usage ++ [0xaa]) = .ok ke ∧
      ∃ ki, krb5DeriveKey lib enc key.contents (usageOctets usage ++ [0x55]) = .ok ki ∧
      ∃ confounder, random = .ok confounder ∧
      ∃ ciphertext,
        encEncrypt lib enc ke ivec (confounder.1 ++ padded blocksize input) = .ok ciphertext ∧
      ∃ mac,
        hmac lib.toPrimitives hash ki (confounder.1 ++ padded blocksize input) = .ok mac ∧
        ciphertext ++ mac = output ∧ moved ciphertext ivec = ivec' := by
  simp only [dkEncrypt, run_failIf_bind_eq_ok, run_ofExcept_bind_eq_ok, run_get_bind,
    updateIvec_bind, run_pure, decide_eq_false_iff_not, Nat.not_lt, Prod.mk.injEq,
    Except.ok.injEq, padded]

theorem dkDecrypt_of_steps {ke ki plain : Octets}
    (hke : krb5DeriveKey lib enc key.contents (usageOctets usage ++ [0xaa]) = .ok ke)
    (hki : krb5DeriveKey lib enc key.contents (usageOctets usage ++ [0x55]) = .ok ki)
    (hplain : encDecrypt lib enc ke ivec ciphertext = .ok plain)
    (hmac : hmac lib.toPrimitives hash ki plain = .ok mac) (hblock : blocksize ≤ ciphertext.length)
    (hroom : ciphertext.length - blocksize ≤ room) :
    (dkDecrypt lib enc hash key usage (ciphertext ++ mac) room).run ivec =
      (.ok (plain.drop blocksize), moved ciphertext ivec) := by
  have hlen : (ciphertext ++ mac).length - hash.hashSize = ciphertext.length := by
    rw [length_append, length_hmac hmac, Nat.add_sub_cancel]
  simp only [dkDecrypt, run_failIf_bind_eq_ok, run_ofExcept_bind_eq_ok, run_get_bind,
    hlen, take_left, drop_left]
  refine ⟨?_, ke, hke, ki, hki, plain, hplain, mac, hmac, bne_self_eq_false mac, ?_, rfl⟩
  · rw [length_append, length_hmac hmac]
    exact decide_eq_false (by omega)
  · rw [decide_eq_false (Nat.not_lt.mpr hblock), decide_eq_false (Nat.not_lt.mpr hroom)]
    rfl

theorem dkDecrypt_of_dkEncrypt
    (h : (dkEncrypt lib random enc hash key usage input room).run ivec = (.ok output, ivec'))
    (hroom : (padded blocksize input).length ≤ room') :
    (dkDecrypt lib enc hash key usage output room').run ivec =
      (.ok (padded blocksize input), ivec') := by
  obtain ⟨-, ke, hke, ki, hki, confounder, -, ciphertext, hc, mac, hmac, rfl, rfl⟩ :=
    dkEncrypt_eq_ok.mp h
  have hlen : ciphertext.length = blocksize + (padded blocksize input).length := by
    rw [length_of_encEncrypt hc, length_append, confounder.2]
  have hleft : ciphertext.length - blocksize ≤ room' := by omega
  have hsteps := dkDecrypt_of_steps hke hki (encDecrypt_of_encEncrypt hc) hmac (by omega) hleft
  rwa [drop_left' confounder.2] at hsteps

/-- With room for the output, `krb5_dk_encrypt` fails only over keys and `ivec`. -/
theorem dkEncrypt_returns_iff (confounder : Block)
    (hroom : dkEncryptLength hash input.length ≤ room) :
    (∃ output ivec', (dkEncrypt lib (.ok confounder) enc hash key usage input room).run ivec =
        (.ok output, ivec')) ↔
      key.contents.length = enc.keylength ∧ enc.keySched key.contents = .ok () ∧
        enc.keySched (lib.deriveKey enc key.contents (usageOctets usage ++ [0xaa])) = .ok () ∧
        (∀ v ∈ ivec, v.length = blocksize) ∧ enc.keylength ≤ hash.blockSize := by
  constructor
  · rintro ⟨output, ivec', h⟩
    obtain ⟨-, ke, hke, ki, hki, _, -, ciphertext, hc, mac, hmac, -⟩ := dkEncrypt_eq_ok.mp h
    obtain ⟨hlen, hsched, rfl⟩ := krb5DeriveKey_eq_ok.mp hke
    obtain ⟨-, -, rfl⟩ := krb5DeriveKey_eq_ok.mp hki
    obtain ⟨-, -, hivec, hderived⟩ := docryptCheck_eq_ok.mp (encEncrypt_eq_ok.mp hc).1
    have hfits := (hmac_eq_ok.mp hmac).1
    rw [lib.length_deriveKey] at hfits
    exact ⟨hlen, hsched, hderived, hivec, hfits⟩
  · rintro ⟨hlen, hsched, hderived, hivec, hfits⟩
    have hdvd : blocksize ∣ (confounder.1 ++ padded blocksize input).length := by
      rw [length_append, confounder.2, length_padded]
      exact dvd_roundup _
    have hcheck := docryptCheck_eq_ok.mpr ⟨lib.length_deriveKey _ _ _, hdvd, hivec, hderived⟩
    rw [← lib.length_deriveKey enc key.contents (usageOctets usage ++ [0x55])] at hfits
    have hderive (constant : Octets) :
        krb5DeriveKey lib enc key.contents constant = .ok (lib.deriveKey enc key.contents constant) :=
      krb5DeriveKey_eq_ok.mpr ⟨hlen, hsched, rfl⟩
    have hc : encEncrypt lib enc _ ivec _ = .ok _ := encEncrypt_eq_ok.mpr ⟨hcheck, rfl⟩
    have hmac : hmac lib.toPrimitives hash _ (confounder.1 ++ padded blocksize input) = .ok _ :=
      hmac_eq_ok.mpr ⟨hfits, rfl⟩
    exact ⟨_, _, dkEncrypt_eq_ok.mpr
      ⟨hroom, _, hderive _, _, hderive _, confounder, rfl, _, hc, _, hmac, rfl, rfl⟩⟩

end Dk

/-! ## With the key itself -/

section Old

def hashed (lib : Ciphers) (hash : HashProvider) (confounder : Block) (rest : Octets) : Octets :=
  confounder.1 ++
    (lib.hash hash (confounder.1 ++ (List.replicate hash.hashSize 0 ++ rest)) ++ rest)

theorem length_hashed (confounder : Block) (rest : Octets) :
    (hashed lib hash confounder rest).length = blocksize + hash.hashSize + rest.length := by
  simp [hashed, confounder.2, lib.length_hash, Nat.add_assoc]

theorem oldEncrypt_eq_ok (usage : Int32) :
    (oldEncrypt lib random enc hash key usage input room).run ivec = (.ok output, ivec') ↔
      oldEncryptLength hash input.length ≤ room ∧
      ∃ confounder, random = .ok confounder ∧
        encEncrypt lib enc key.contents (crcivec key ivec)
            (hashed lib hash confounder (padded (blocksize + hash.hashSize) input)) = .ok output ∧
          moved output ivec = ivec' := by
  simp only [oldEncrypt, run_failIf_bind_eq_ok, run_ofExcept_bind_eq_ok, run_get_bind,
    updateIvec_bind, run_pure, decide_eq_false_iff_not, Nat.not_lt, Prod.mk.injEq,
    Except.ok.injEq]
  refine and_congr_right fun _ => exists_congr fun confounder => and_congr_right fun _ => ?_
  constructor
  · rintro ⟨_, h, rfl, hmoved⟩
    exact ⟨h, hmoved⟩
  · rintro ⟨h, hmoved⟩
    exact ⟨output, h, rfl, hmoved⟩

/-- A text with the right hash in it is decrypted and the `ivec` moves on. -/
theorem oldDecrypt_of_hashed {confounder : Block} {rest : Octets}
    (hplain : encDecrypt lib enc key.contents (crcivec key ivec) output =
      .ok (hashed lib hash confounder rest))
    (hlen : output.length = blocksize + hash.hashSize + rest.length)
    (hroom : rest.length ≤ room) :
    (oldDecrypt lib enc hash key usage output room).run ivec = (.ok rest, moved output ivec) := by
  have hblock : ((hashed lib hash confounder rest).drop blocksize).take hash.hashSize =
      lib.hash hash (confounder.1 ++ (List.replicate hash.hashSize 0 ++ rest)) := by
    rw [hashed, drop_left' confounder.2, take_left' (lib.length_hash _ _)]
  have htake : (hashed lib hash confounder rest).take blocksize = confounder.1 :=
    take_left' confounder.2
  have hrest : (hashed lib hash confounder rest).drop (blocksize + hash.hashSize) = rest := by
    rw [← drop_drop, hashed, drop_left' confounder.2, drop_left' (lib.length_hash _ _)]
  simp only [oldDecrypt, run_failIf_bind_eq_ok, run_ofExcept_bind_eq_ok, run_get_bind,
    updateIvec_bind, run_pure]
  refine ⟨?_, _, hplain, ?_, ?_⟩
  · rw [Bool.or_eq_false_iff, decide_eq_false_iff_not, decide_eq_false_iff_not]
    omega
  · rw [hblock, htake, hrest]
    exact bne_self_eq_false _
  · rw [hrest]

theorem oldDecrypt_of_oldEncrypt (usage : Int32)
    (h : (oldEncrypt lib random enc hash key usage input room).run ivec = (.ok output, ivec'))
    (hroom : (padded (blocksize + hash.hashSize) input).length ≤ room') :
    (oldDecrypt lib enc hash key usage output room').run ivec =
      (.ok (padded (blocksize + hash.hashSize) input), ivec') := by
  obtain ⟨-, confounder, -, hc, rfl⟩ := (oldEncrypt_eq_ok usage).mp h
  have hlen := (length_of_encEncrypt hc).trans (length_hashed confounder _)
  exact oldDecrypt_of_hashed (encDecrypt_of_encEncrypt hc) hlen hroom

theorem oldEncrypt_returns_iff (usage : Int32) (confounder : Block)
    (hroom : oldEncryptLength hash input.length ≤ room) :
    (∃ output ivec', (oldEncrypt lib (.ok confounder) enc hash key usage input room).run ivec =
        (.ok output, ivec')) ↔
      key.contents.length = enc.keylength ∧ enc.keySched key.contents = .ok () ∧
        ∀ v ∈ crcivec key ivec, v.length = blocksize := by
  constructor
  · rintro ⟨output, ivec', h⟩
    obtain ⟨-, _, -, hc, -⟩ := (oldEncrypt_eq_ok usage).mp h
    obtain ⟨hlen, -, hivec, hsched⟩ := docryptCheck_eq_ok.mp (encEncrypt_eq_ok.mp hc).1
    exact ⟨hlen, hsched, hivec⟩
  rintro ⟨hlen, hsched, hivec⟩
  have hdvd : blocksize ∣
      (hashed lib hash confounder (padded (blocksize + hash.hashSize) input)).length := by
    rw [length_hashed, length_padded]
    exact dvd_roundup _
  have hcheck := docryptCheck_eq_ok.mpr ⟨hlen, hdvd, hivec, hsched⟩
  exact ⟨_, _, (oldEncrypt_eq_ok usage).mpr
    ⟨hroom, confounder, rfl, encEncrypt_eq_ok.mpr ⟨hcheck, rfl⟩, rfl⟩⟩

end Old

theorem careful_updateIvec (ciphertext output : Octets) :
    Careful (do updateIvec ciphertext; pure output : Chained Octets) :=
  modify_bind_pure _ output

theorem careful_dkEncrypt (random : Except Code Block) (input : Octets) (room : Nat) :
    Careful (dkEncrypt lib random enc hash key usage input room) := by
  refine failIf_bind _ _ ?_
  refine ofExcept_bind _ fun ke => ofExcept_bind _ fun ki => ?_
  refine ofExcept_bind _ fun confounder => get_bind fun ivec => ?_
  refine ofExcept_bind _ fun ciphertext => ofExcept_bind _ fun mac => ?_
  exact careful_updateIvec _ _

theorem careful_dkDecrypt (input : Octets) (room : Nat) :
    Careful (dkDecrypt lib enc hash key usage input room) := by
  refine failIf_bind _ _ ?_
  refine ofExcept_bind _ fun ke => ofExcept_bind _ fun ki => ?_
  refine get_bind fun ivec => ofExcept_bind _ fun plaindata => ?_
  refine ofExcept_bind _ fun cksum => failIf_bind _ _ ?_
  exact failIf_bind _ _ (careful_updateIvec _ _)

theorem careful_oldEncrypt (usage : Int32) (random : Except Code Block) (input : Octets) (room : Nat) :
    Careful (oldEncrypt lib random enc hash key usage input room) := by
  refine failIf_bind _ _ (ofExcept_bind _ fun confounder => ?_)
  refine get_bind fun ivec => ofExcept_bind _ fun output => ?_
  exact careful_updateIvec _ _

theorem careful_oldDecrypt (usage : Int32) (input : Octets) (room : Nat) :
    Careful (oldDecrypt lib enc hash key usage input room) := by
  refine failIf_bind _ _ (get_bind fun ivec => ?_)
  refine ofExcept_bind _ fun output => failIf_bind _ _ ?_
  exact careful_updateIvec _ _

/-! ## Two ends -/

/-- What both ends of a conversation hand to the library. -/
structure Channel where
  lib : Ciphers
  layer : Layer
  enc : EncProvider
  hash : HashProvider
  key : Keyblock
  usage : Int32

namespace Channel

def encrypt (c : Channel) (random : Except Code Block) : Octets → Nat → Chained Octets :=
  c.layer.encrypt c.lib random c.enc c.hash c.key c.usage

def decrypt (c : Channel) : Octets → Nat → Chained Octets :=
  c.layer.decrypt c.lib c.enc c.hash c.key c.usage

def padded (c : Channel) (input : Octets) : Octets :=
  match c.layer with
  | .dk => Crypto.padded blocksize input
  | .old => Crypto.padded (blocksize + c.hash.hashSize) input

/-- The `ivec` the cipher starts with, where it is not a block of zeros. -/
def start (c : Channel) (ivec : Option Octets) : Option Octets :=
  match c.layer with
  | .dk => ivec
  | .old => crcivec c.key ivec

def cipherKey (c : Channel) : Octets :=
  match c.layer with
  | .dk => c.lib.deriveKey c.enc c.key.contents (usageOctets c.usage ++ [0xaa])
  | .old => c.key.contents

/-- The key has the length of its cipher, and neither it nor the key derived from it is one
that the cipher refuses; the `ivec`, if there is one, is a block; a derived key fits into a
block of the hash. -/
structure Usable (c : Channel) (ivec : Option Octets) : Prop where
  length_key : c.key.contents.length = c.enc.keylength
  sched_key : c.enc.keySched c.key.contents = .ok ()
  sched_cipherKey : c.enc.keySched c.cipherKey = .ok ()
  length_ivec : ∀ v ∈ c.start ivec, v.length = blocksize
  hmac_fits : c.layer = .dk → c.enc.keylength ≤ c.hash.blockSize

variable {c : Channel}

theorem decrypt_of_encrypt (h : (c.encrypt random input room).run ivec = (.ok output, ivec'))
    (hroom : (c.padded input).length ≤ room') :
    (c.decrypt output room').run ivec = (.ok (c.padded input), ivec') := by
  obtain ⟨lib, layer, enc, hash, key, usage⟩ := c
  cases layer with
  | dk => exact dkDecrypt_of_dkEncrypt h hroom
  | old => exact oldDecrypt_of_oldEncrypt usage h hroom

theorem careful_encrypt (random : Except Code Block) (input : Octets) (room : Nat) :
    Careful (c.encrypt random input room) := by
  obtain ⟨lib, layer, enc, -, key, usage⟩ := c
  cases layer with
  | dk => exact careful_dkEncrypt random input room
  | old => exact careful_oldEncrypt usage random input room

theorem careful_decrypt (input : Octets) (room : Nat) : Careful (c.decrypt input room) := by
  obtain ⟨lib, layer, enc, -, key, usage⟩ := c
  cases layer with
  | dk => exact careful_dkDecrypt input room
  | old => exact careful_oldDecrypt usage input room

theorem encrypt_returns_iff (confounder : Block)
    (hroom : c.layer.encryptLength c.hash input.length ≤ room) :
    (∃ output ivec', (c.encrypt (.ok confounder) input room).run ivec = (.ok output, ivec')) ↔
      c.Usable ivec := by
  obtain ⟨lib, layer, enc, hash, key, usage⟩ := c
  cases layer with
  | dk =>
    refine (dkEncrypt_returns_iff confounder hroom).trans ⟨?_, ?_⟩
    · rintro ⟨hlen, hsched, hderived, hivec, hfits⟩
      exact ⟨hlen, hsched, hderived, hivec, fun _ => hfits⟩
    · rintro ⟨hlen, hsched, hderived, hivec, hfits⟩
      exact ⟨hlen, hsched, hderived, hivec, hfits rfl⟩
  | old =>
    refine (oldEncrypt_returns_iff usage confounder hroom).trans ⟨?_, ?_⟩
    · rintro ⟨hlen, hsched, hivec⟩
      exact ⟨hlen, hsched, hsched, hivec, fun h => nomatch h⟩
    · rintro ⟨hlen, hsched, -, hivec, -⟩
      exact ⟨hlen, hsched, hivec⟩

def RoundTrips (c : Channel) (ivec : Option Octets) : Prop :=
  ∀ (confounder : Block) (input : Octets) (room room' : Nat),
    c.layer.encryptLength c.hash input.length ≤ room → (c.padded input).length ≤ room' →
    ∃ output ivec', (c.encrypt (.ok confounder) input room).run ivec = (.ok output, ivec') ∧
      (c.decrypt output room').run ivec = (.ok (c.padded input), ivec')

theorem roundTrips_iff : c.RoundTrips ivec ↔ c.Usable ivec := by
  constructor
  · intro h
    obtain ⟨output, ivec', hsent, -⟩ :=
      h ⟨zeroblock, rfl⟩ [] _ _ (Nat.le_refl _) (Nat.le_refl _)
    exact (encrypt_returns_iff _ (Nat.le_refl _)).mp ⟨output, ivec', hsent⟩
  · intro h confounder input room room' hroom hroom'
    obtain ⟨output, ivec', hsent⟩ := (encrypt_returns_iff confounder hroom).mpr h
    exact ⟨output, ivec', hsent, decrypt_of_encrypt hsent hroom'⟩

/-! ## Conversations -/

/-- What the two ends do: a message is sent and handed to the receiver, who gets `received`
for it; a message cannot be sent; something that does not verify is handed to the receiver. -/
inductive Event
  | message (input : Octets) (received : Except Code Octets)
  | unsent
  | rejected (e : Code)

abbrev Ends := Option Octets × Option Octets

variable {es : List Event} {ends : Ends}

inductive Step (c : Channel) : Ends → Event → Ends → Prop
  | message {s s' t t' : Option Octets} {random : Except Code Block} {input output : Octets}
      {room room' : Nat} {received : Except Code Octets}
      (sent : (c.encrypt random input room).run s = (.ok output, s'))
      (hroom : (c.padded input).length ≤ room')
      (arrived : (c.decrypt output room').run t = (received, t')) :
      Step c (s, t) (.message input received) (s', t')
  | unsent {s s' t : Option Octets} {random : Except Code Block} {input : Octets} {room : Nat}
      {e : Code} (failed : (c.encrypt random input room).run s = (.error e, s')) :
      Step c (s, t) .unsent (s', t)
  | rejected {s t t' : Option Octets} {input : Octets} {room : Nat} {e : Code}
      (failed : (c.decrypt input room).run t = (.error e, t')) :
      Step c (s, t) (.rejected e) (s, t')

/-- Both ends have one `ivec`, with which the channel can be used if it could before, and
every message arrived as it was sent. -/
structure InStep (c : Channel) (ivec : Option Octets) (es : List Event) (ends : Ends) : Prop where
  same : ends.1 = ends.2
  usable : c.Usable ivec → c.Usable ends.1
  arrived : ∀ input received, Event.message input received ∈ es →
    received = .ok (c.padded input)

theorem encrypt_run_eq_moved (h : (c.encrypt random input room).run ivec = (.ok output, ivec')) :
    ∃ ciphertext : Octets, blocksize ≤ ciphertext.length ∧ ivec' = moved ciphertext ivec := by
  obtain ⟨lib, layer, enc, hash, key, usage⟩ := c
  cases layer with
  | dk =>
    obtain ⟨-, ke, -, ki, -, confounder, -, ciphertext, hc, mac, -, -, hmoved⟩ :=
      dkEncrypt_eq_ok.mp h
    refine ⟨ciphertext, ?_, hmoved.symm⟩
    rw [length_of_encEncrypt hc, length_append, confounder.2]
    exact Nat.le_add_right _ _
  | old =>
    obtain ⟨-, confounder, -, hc, hmoved⟩ := (oldEncrypt_eq_ok usage).mp h
    refine ⟨output, ?_, hmoved.symm⟩
    rw [length_of_encEncrypt hc, length_hashed, Nat.add_assoc]
    exact Nat.le_add_right _ _

theorem Usable.moved (h : c.Usable ivec) (hblock : blocksize ≤ ciphertext.length) :
    c.Usable (moved ciphertext ivec) := by
  refine { h with length_ivec := ?_ }
  cases ivec with
  | none => exact h.length_ivec
  | some v =>
    have hstart : ∀ w, c.start (some w) = some w := by
      intro w
      rw [start]
      cases c.layer <;> simp [crcivec]
    have hv : v.length = blocksize := h.length_ivec v (hstart v)
    have hmoved : Crypto.moved ciphertext (some v) =
        some (ciphertext.drop (ciphertext.length - blocksize)) := by
      simp [Crypto.moved, updateIvec, hv]
    intro w hw
    rw [hmoved, hstart] at hw
    cases hw
    rw [length_drop]
    omega

theorem InStep.silent {event : Event} (h : c.InStep ivec es ends)
    (hsilent : ∀ input received, event ≠ .message input received) :
    c.InStep ivec (es ++ [event]) ends := by
  refine ⟨h.same, h.usable, fun input received hmem => ?_⟩
  rcases mem_append.mp hmem with hmem | hmem
  · exact h.arrived input received hmem
  · exact absurd (mem_singleton.mp hmem).symm (hsilent input received)

/-- Whatever happens next, both ends stay in step. -/
theorem InStep.step {ends' : Ends} {event : Event}
    (h : c.InStep ivec es ends) (hstep : c.Step ends event ends') :
    c.InStep ivec (es ++ [event]) ends' := by
  cases hstep with
  | @message s s' t t' random input output room room' received sent hroom arrived =>
    obtain ⟨hsame, husable, harrived⟩ := h
    cases hsame
    rw [decrypt_of_encrypt sent hroom] at arrived
    cases arrived
    refine ⟨rfl, fun hu => ?_, ?_⟩
    · obtain ⟨ciphertext, hblock, rfl⟩ := encrypt_run_eq_moved sent
      exact (husable hu).moved hblock
    intro input' received hmem
    rcases mem_append.mp hmem with hmem | hmem
    · exact harrived input' received hmem
    · cases mem_singleton.mp hmem
      rfl
  | @unsent s s' t random input room e failed =>
    cases careful_encrypt random input room failed
    exact h.silent fun _ _ => Event.noConfusion
  | @rejected s t t' input room e failed =>
    cases careful_decrypt input room failed
    exact h.silent fun _ _ => Event.noConfusion

theorem InStep.run (h : Run c.Step (ivec, ivec) es ends) :
    c.InStep ivec es ends :=
  h.history (c.InStep ivec)
    ⟨rfl, id, fun _ _ hmem => absurd hmem not_mem_nil⟩ fun _ _ _ _ => InStep.step

/-- Exactly where the channel is usable, every message comes back with its padding. In every
conversation both ends keep one `ivec`, and a channel that was usable stays so. A decryption
that returns an error leaves the `ivec` as it was. -/
theorem encryption_chained (c : Channel) (ivec : Option Octets) :
    (c.RoundTrips ivec ↔ c.Usable ivec) ∧
      (∀ es ends, Run c.Step (ivec, ivec) es ends → c.InStep ivec es ends) ∧
      ∀ input room e ivec', (c.decrypt input room).run ivec = (.error e, ivec') → ivec' = ivec :=
  ⟨roundTrips_iff, fun _ _ => InStep.run, fun input room _ _ h => careful_decrypt input room h⟩

end Channel

def sampleKey : Octets := [0x13, 0x34, 0x57, 0x79, 0x9b, 0xbc, 0xdf, 0xf1]

/-- A toy cipher that depends on the key and on the `ivec`. -/
def masked (key ivec input : Octets) : Octets :=
  input.map fun c => c ^^^ (key.headD 0 ^^^ ivec.headD 0)

theorem masked_masked (key ivec input : Octets) : masked key ivec (masked key ivec input) = input := by
  simp [masked, Function.comp_def, UInt8.xor_assoc]

def toyCiphers : Ciphers where
  hash provider _ := List.replicate provider.hashSize 0
  desCbcEncrypt := masked
  desCbcDecrypt := masked
  desCbcCksum _ _ := zeroblock
  deriveKey
    | .des, _, _ => sampleKey
    | .des3, _, _ => sampleKey ++ sampleKey ++ sampleKey
  length_deriveKey enc _ _ := by cases enc <;> rfl
  des3CbcEncrypt := masked
  des3CbcDecrypt := masked
  length_hash _ _ := length_replicate
  length_desCbcEncrypt _ _ _ _ := length_map _
  length_des3CbcEncrypt _ _ _ _ := length_map _
  des_decrypt_encrypt key ivec input _ := masked_masked key ivec input
  des3_decrypt_encrypt key ivec input _ := masked_masked key ivec input

def crcChannel : Channel := ⟨toyCiphers, .old, .des, .crc32, ⟨1, sampleKey⟩, 0⟩

theorem crcChannel_usable : crcChannel.Usable (some zeroblock) where
  length_key := rfl
  sched_key := by decide
  sched_cipherKey := by decide
  length_ivec := by
    intro v hv
    cases hv
    rfl
  hmac_fits h := nomatch h

/-- Two messages in a row, the second one chained to the first. -/
theorem encryption_chained_crc : crcChannel.RoundTrips (some zeroblock) ∧
    ∃ ends, Run crcChannel.Step (some zeroblock, some zeroblock)
      [.message [0x41] (.ok (crcChannel.padded [0x41])),
        .message [0x42] (.ok (crcChannel.padded [0x42]))] ends ∧
      ends.1 = ends.2 ∧ ends.1 ≠ some zeroblock := by
  have hchained := Channel.encryption_chained crcChannel (some zeroblock)
  have hfirst : crcChannel.Step (some zeroblock, some zeroblock)
      (.message [0x41] (.ok (crcChannel.padded [0x41]))) _ :=
    @Channel.Step.message _ _ _ _ _ (.ok ⟨zeroblock, rfl⟩) _ _ 24 24 _ rfl (by decide) rfl
  have hrun : Run crcChannel.Step _ ([] ++ [_] ++ [.message [0x42] (.ok (crcChannel.padded [0x42]))]) _ :=
    Run.snoc (Run.snoc Run.nil hfirst)
      (@Channel.Step.message _ _ _ _ _ (.ok ⟨zeroblock, rfl⟩) _ _ 24 24 _ rfl (by decide) rfl)
  exact ⟨hchained.1.mpr crcChannel_usable, _, hrun, (hchained.2.1 _ _ hrun).same, by decide⟩

/-- A triple-DES key of the right length whose octets have even parity is used, although the
cipher refuses it: the keys are derived from what the memory held. -/
theorem derived_from_nothing :
    (dkEncrypt toyCiphers (.ok ⟨zeroblock, rfl⟩) .des3 .sha1 ⟨16, List.replicate 24 0⟩ 3
      [0x41] 36).run none = (.error .fault, none) := by
  decide +kernel

end Krb5.Crypto
