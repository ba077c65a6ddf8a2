/-
  PredictIQ.Api.Signing: the signatures of `security::signing`.

  HMAC-SHA256 is a parameter.  `Hmac.Ideal` is what an ideal one does: it takes
  any key, and its codes are different for different keys or payloads.
-/
import PredictIQ.Foundation.Base64
import PredictIQ.Foundation.Utf8

namespace PredictIQ.Signing

open Foundation

/-- The code of a payload under a key, unless the key is rejected. -/
structure Hmac where
  mac : (key payload : List UInt8) → Option (List UInt8)

namespace Hmac

variable (H : Hmac)

/-- Any key is taken, a code has bytes, and no two are the same. -/
structure Ideal : Prop where
  takes : ∀ key payload, (H.mac key payload).isSome
  nonempty : ∀ key payload, H.mac key payload ≠ some []
  injective : ∀ key payload key' payload', H.mac key payload = H.mac key' payload' →
    key = key' ∧ payload = payload'

def verifySignature (payload : List UInt8) (signature secret : String) : Bool :=
  match H.mac (utf8 secret) payload with
  | none => false
  | some tag =>
      match Base64.decode signature with
      | none => false
      | some expected => tag == expected

/-- `none` is `SigningError::InvalidKey`. -/
def generateSignature (payload : List UInt8) (secret : String) : Option String :=
  (H.mac (utf8 secret) payload).map Base64.encode

variable {H} {payload : List UInt8} {signature secret : String}

/-- **A signature is the one that is generated**, and no other text. -/
theorem verifySignature_iff :
    H.verifySignature payload signature secret = true
      ↔ H.generateSignature payload secret = some signature := by
  unfold verifySignature generateSignature
  cases hmac : H.mac (utf8 secret) payload with
  | none => simp
  | some tag =>
      simp only [Option.map_some, Option.some.injEq]
      cases hdecode : Base64.decode signature with
      | none =>
          refine iff_of_false Bool.noConfusion fun h => ?_
          rw [← h, Base64.decode_encode] at hdecode
          cases hdecode
      | some expected =>
          rw [beq_iff_eq, Base64.decode_eq_some_iff.mp hdecode]
          constructor
          · rintro rfl
            rfl
          · intro h
            have hsame := congrArg Base64.decode h
            rw [Base64.decode_encode, Base64.decode_encode] at hsame
            exact Option.some.inj hsame

theorem exists_generateSignature (h : H.Ideal) (payload : List UInt8) (secret : String) :
    ∃ signature, H.generateSignature payload secret = some signature := by
  obtain ⟨tag, htag⟩ := Option.isSome_iff_exists.mp (h.takes (utf8 secret) payload)
  exact ⟨Base64.encode tag, by rw [generateSignature, htag]; rfl⟩

/-- **Signatures are of one payload under one secret.** -/
theorem Ideal.generateSignature_inj (h : H.Ideal) {payload' : List UInt8} {secret' : String}
    (hsig : H.generateSignature payload secret = some signature)
    (hsig' : H.generateSignature payload' secret' = some signature) :
    payload = payload' ∧ secret = secret' := by
  obtain ⟨tag, htag, hencode⟩ := Option.map_eq_some_iff.mp hsig
  obtain ⟨tag', htag', hencode'⟩ := Option.map_eq_some_iff.mp hsig'
  have hsame : tag = tag' := by
    have hdecode := congrArg Base64.decode (hencode.trans hencode'.symm)
    rw [Base64.decode_encode, Base64.decode_encode] at hdecode
    exact Option.some.inj hdecode
  rw [← hsame] at htag'
  obtain ⟨hkey, hpayload⟩ := h.injective _ _ _ _ (htag.trans htag'.symm)
  exact ⟨hpayload, utf8_injective hkey⟩

/-- No signature is empty. -/
theorem Ideal.generateSignature_ne_empty (h : H.Ideal)
    (hsig : H.generateSignature payload secret = some signature) : signature ≠ "" := by
  obtain ⟨tag, htag, rfl⟩ := Option.map_eq_some_iff.mp hsig
  refine Base64.encode_ne_empty ?_
  rintro rfl
  exact h.nonempty _ _ htag

end Hmac

/-! ## A code that gives away its key and its payload. -/

/-- The length of the key in ones, a zero, the key and the payload. -/
def plainHmac : Hmac := ⟨fun key payload => some (List.replicate key.length 1 ++ 0 :: (key ++ payload))⟩

theorem plainHmac_ideal : plainHmac.Ideal where
  takes _ _ := rfl
  nonempty key payload h := by
    have hlength := congrArg List.length (Option.some.inj h)
    simp at hlength
  injective key payload key' payload' h := by
    have h := Option.some.inj h
    -- the ones end at the zero, so that the keys are equally long
    have hones : ∀ (n : Nat) (bs : List UInt8),
        (List.replicate n (1 : UInt8) ++ 0 :: bs).takeWhile (· = 1) = List.replicate n 1 := by
      intro n bs
      rw [List.takeWhile_append_of_pos (by simp), List.takeWhile_cons_of_neg (by decide),
        List.append_nil]
    have hlength : key.length = key'.length := by
      have hcount := congrArg (fun bs => (bs.takeWhile (· = (1 : UInt8))).length) h
      simpa [hones] using hcount
    rw [hlength] at h
    obtain ⟨_, hrest⟩ := List.cons.inj (List.append_cancel_left h)
    exact List.append_inj hrest hlength

end PredictIQ.Signing
