import Krb5.Asn1.Agreement
import Krb5.Kdc.TgsReq

/-!
# The checksum over the request body

`kdc_process_tgs_req` verifies the checksum of the authenticator over the octets
its field scanner finds in the packet. The request it then answers comes from
`decode_krb5_tgs_req`, which reads the same packet in another way.
-/

namespace Krb5.Kdc

open Lib Lib.Ber Asn1

variable {ticket : Ticket} {request : KdcReq}

variable (kdc : Env)

variable {kdc} {cksum : Checksum}

/-! ## What the checks have established -/

/-- The ways in which the check of the body succeeds: no field is found, the
checksum is valid over the field that is found, or over the encoded body. -/
theorem checkBody_cases {mem : Memory} {calls : List VerifyCall}
    (h : checkBody kdc mem request ticket cksum = (.ok (), calls)) :
    (fetchAsn1Field kdc.scanFuel mem 1 4 = some none ∧ calls = []) ∨
    ∃ start length, fetchAsn1Field kdc.scanFuel mem 1 4 = some (some (start, length)) ∧
      (((compCksum kdc (mem.read start length) ticket cksum).1 = .ok () ∧
          calls = (compCksum kdc (mem.read start length) ticket cksum).2) ∨
        ((compCksum kdc (mem.read start length) ticket cksum).1 ≠ .ok () ∧
          ∃ scratch, kdc.encodeKdcReqBody request = .ok scratch ∧
            (compCksum kdc scratch ticket cksum).1 = .ok () ∧
            calls = (compCksum kdc scratch ticket cksum).2)) := by
  unfold checkBody at h
  split at h
  · cases h
  · rename_i hnone
    cases h
    exact Or.inl ⟨hnone, rfl⟩
  rename_i start length hfound
  refine Or.inr ⟨start, length, hfound, ?_⟩
  split at h
  · rename_i calls' hfirst
    cases h
    rw [hfirst]
    exact Or.inl ⟨rfl, rfl⟩
  rename_i code calls' hfirst
  rw [hfirst]
  refine Or.inr ⟨by simp, ?_⟩
  split at h
  · cases h
  · rename_i scratch hencode
    have hretval := congrArg Prod.fst h
    exact ⟨scratch, hencode, failing_eq_ok.mp hretval, (congrArg Prod.snd h).symm⟩

end Krb5.Kdc
