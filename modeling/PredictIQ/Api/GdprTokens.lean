/-
  PredictIQ.Api.GdprTokens: the verification tokens of `newsletter.rs`.

  A token is an expiry and a signature of the address and that expiry.  The
  expiry is digits, so that the payload can be taken apart at its last colon
  and the token at its first dot, whatever the address is.  A token that
  verifies was therefore issued for this very address, and has not expired.
-/
import PredictIQ.Api.Newsletter
import PredictIQ.Api.Signing
import PredictIQ.Foundation.Separator
import PredictIQ.Foundation.Text

namespace PredictIQ.Api

open Foundation Signing

/-! ## §1. Tokens (`newsletter.rs`), and their check (`handlers.rs`). -/

def gdprTokenTtlSecs : UInt64 := 900

def gdprTokenPayload (email : String) (expiresAt : UInt64) : String :=
  "gdpr:" ++ email ++ ":" ++ toString expiresAt.toNat

def parseU64 (text : String) : Option UInt64 := (parseUnsigned (2 ^ 64) text).map UInt64.ofNat

section Tokens

variable (H : Hmac)

def generateGdprVerificationToken (email secret : String) (now : UInt64) : String :=
  let expiresAt := now + gdprTokenTtlSecs
  let signature := (H.generateSignature (utf8 (gdprTokenPayload email expiresAt)) secret).getD ""
  toString expiresAt.toNat ++ "." ++ signature

def verifyGdprVerificationToken (token email secret : String) (now : UInt64) : Bool :=
  match splitOnce '.' token with
  | none => false
  | some (expiresAtStr, signature) =>
      match parseU64 expiresAtStr with
      | none => false
      | some expiresAt =>
          if expiresAt < now then false
          else H.verifySignature (utf8 (gdprTokenPayload email expiresAt)) signature secret

/-- The response that ends the request, if the token does not pass. -/
def checkGdprToken (unsubscribeSigningSecret : Option String) (email token : String) (now : UInt64) :
    Option NewsletterResponse :=
  match unsubscribeSigningSecret with
  | none => some ⟨500, false, "GDPR verification not configured."⟩
  | some secret =>
      if verifyGdprVerificationToken H token email secret now then none
      else some ⟨401, false, "Invalid or expired verification token."⟩

/-! ## §2. What is issued, and what can be shown. -/

/-- A token that was issued: for whom, under which secret, and when. -/
structure Issued where
  email : String
  secret : String
  now : UInt64

namespace Issued

def expiresAt (i : Issued) : UInt64 := i.now + gdprTokenTtlSecs

def token (i : Issued) : String := generateGdprVerificationToken H i.email i.secret i.now

/-- The signature in the token. -/
def signature (i : Issued) : Option String :=
  H.generateSignature (utf8 (gdprTokenPayload i.email i.expiresAt)) i.secret

end Issued

/-- Signatures under `secret` cannot be forged: one that stands in the token,
whatever it signs, was made for a token that was issued.  Of what other
secrets sign nothing is said. -/
def Unforged (issued : Set Issued) (secret token : String) : Prop :=
  ∀ expiresAtStr signature, splitOnce '.' token = some (expiresAtStr, signature) →
    ∀ payload, H.generateSignature payload secret = some signature →
      ∃ i ∈ issued, i.signature H = some signature

variable {H}

theorem parseU64_toString (n : UInt64) : parseU64 (toString n.toNat) = some n := by
  rw [parseU64, parseUnsigned_toString n.toNat_lt, Option.map_some, UInt64.ofNat_toNat]

/-- **The payload gives away its address and its expiry.** -/
theorem gdprTokenPayload_inj {email email' : String} {expiresAt expiresAt' : UInt64}
    (h : gdprTokenPayload email expiresAt = gdprTokenPayload email' expiresAt') :
    email = email' ∧ expiresAt = expiresAt' := by
  have hcolon : IsSeparator ":" ':' := rfl
  have hfree : ∀ n : UInt64, ':' ∉ (toString n.toNat).toList := fun n => not_mem_toString rfl
  obtain ⟨hfront, hback⟩ := joined_inj_right hcolon (hfree _) (hfree _) h
  refine ⟨(String.append_right_inj _).mp hfront, ?_⟩
  have hparsed := congrArg parseU64 hback
  rw [parseU64_toString, parseU64_toString] at hparsed
  exact Option.some.inj hparsed

/-- A token is cut at the dot after its expiry. -/
theorem splitOnce_token (expiresAt : UInt64) (signature : String) :
    splitOnce '.' (toString expiresAt.toNat ++ "." ++ signature)
      = some (toString expiresAt.toNat, signature) :=
  splitOnce_append signature rfl (not_mem_toString rfl)

theorem Issued.token_eq {i : Issued} {signature : String} (h : i.signature H = some signature) :
    i.token H = toString i.expiresAt.toNat ++ "." ++ signature := by
  show _ ++ "." ++ (i.signature H).getD "" = _
  rw [h]
  rfl

/-- What a token that verifies consists of. -/
theorem verifyGdprVerificationToken_iff {token email secret : String} {now : UInt64} :
    verifyGdprVerificationToken H token email secret now = true
      ↔ ∃ expiresAtStr signature expiresAt, splitOnce '.' token = some (expiresAtStr, signature)
          ∧ parseU64 expiresAtStr = some expiresAt ∧ now ≤ expiresAt
          ∧ H.generateSignature (utf8 (gdprTokenPayload email expiresAt)) secret = some signature := by
  unfold verifyGdprVerificationToken
  cases hcut : splitOnce '.' token with
  | none => simp
  | some parts =>
      obtain ⟨expiresAtStr, signature⟩ := parts
      cases hparse : parseU64 expiresAtStr with
      | none =>
          refine iff_of_false (by simp [hparse]) ?_
          rintro ⟨_, _, _, hsame, hparsed, _⟩
          obtain ⟨rfl, rfl⟩ := Prod.mk.inj (Option.some.inj hsame)
          rw [hparse] at hparsed
          cases hparsed
      | some expiresAt =>
          simp only [hparse]
          constructor
          · intro h
            split at h
            case isTrue => cases h
            case isFalse hnow =>
              exact ⟨_, _, expiresAt, rfl, hparse, UInt64.not_lt.mp hnow, Hmac.verifySignature_iff.mp h⟩
          · -- the token is cut and its expiry parsed in one way only
            rintro ⟨_, _, _, hsame, hparsed, hnow, hsig⟩
            obtain ⟨rfl, rfl⟩ := Prod.mk.inj (Option.some.inj hsame)
            rw [hparse] at hparsed
            obtain rfl := Option.some.inj hparsed
            rw [if_neg (UInt64.not_lt.mpr hnow)]
            exact Hmac.verifySignature_iff.mpr hsig

/-! ## §3. A token opens its own address, until it expires. -/

/-- **A token that verifies was issued for this address** under this secret, and
has not expired. -/
theorem issued_of_verify (hideal : H.Ideal) {issued : Set Issued} {token email secret : String}
    {now : UInt64} (hunforged : Unforged H issued secret token)
    (h : verifyGdprVerificationToken H token email secret now = true) :
    ∃ i ∈ issued, i.email = email ∧ i.secret = secret ∧ now ≤ i.expiresAt := by
  obtain ⟨expiresAtStr, signature, expiresAt, hcut, _, hnow, hsig⟩ :=
    verifyGdprVerificationToken_iff.mp h
  obtain ⟨i, hi, hissued⟩ := hunforged _ _ hcut _ hsig
  obtain ⟨hpayload, hsecret⟩ := hideal.generateSignature_inj hissued hsig
  obtain ⟨hemail, hexpires⟩ := gdprTokenPayload_inj (utf8_injective hpayload)
  exact ⟨i, hi, hemail, hsecret, hexpires ▸ hnow⟩

/-- **A token verifies for its own address** until it expires. -/
theorem verify_token (hideal : H.Ideal) (i : Issued) {now : UInt64} (hnow : now ≤ i.expiresAt) :
    verifyGdprVerificationToken H (i.token H) i.email i.secret now = true := by
  obtain ⟨signature, hsig⟩ :=
    Hmac.exists_generateSignature hideal (utf8 (gdprTokenPayload i.email i.expiresAt)) i.secret
  refine verifyGdprVerificationToken_iff.mpr ⟨_, signature, i.expiresAt, ?_,
    parseU64_toString _, hnow, hsig⟩
  rw [Issued.token_eq hsig, splitOnce_token]

/-- **Tokens open their own addresses**: whoever passes with a token was issued
one, and whoever was issued one passes. -/
theorem gdpr_tokens_open_own_address (hideal : H.Ideal) (issued : Set Issued) :
    (∀ token email secret now, Unforged H issued secret token →
        verifyGdprVerificationToken H token email secret now = true →
        ∃ i ∈ issued, i.email = email ∧ i.secret = secret ∧ now ≤ i.expiresAt)
      ∧ ∀ i ∈ issued, ∀ now, now ≤ i.expiresAt →
        verifyGdprVerificationToken H (i.token H) i.email i.secret now = true :=
  ⟨fun _ _ _ _ hunforged h => issued_of_verify hideal hunforged h,
    fun i _ _ hnow => verify_token hideal i hnow⟩

/-- A request passes the check exactly with a token that verifies under the secret. -/
theorem checkGdprToken_eq_none_iff {unsubscribeSigningSecret : Option String} {email token : String}
    {now : UInt64} : checkGdprToken H unsubscribeSigningSecret email token now = none
      ↔ ∃ secret, unsubscribeSigningSecret = some secret
        ∧ verifyGdprVerificationToken H token email secret now = true := by
  unfold checkGdprToken
  cases unsubscribeSigningSecret with
  | none => simp
  | some secret =>
      simp only [Option.some.injEq, exists_eq_left']
      split
      case isTrue h => exact iff_of_true rfl h
      case isFalse h => exact iff_of_false (Option.some_ne_none _) h

end Tokens

/-- An address with colons and dots, and a token for it. -/
def sampleIssued : Issued := ⟨"a:b.c@example.com", "test-secret", 1000⟩

theorem sampleIssued_unforged :
    Unforged plainHmac {sampleIssued} "test-secret" (sampleIssued.token plainHmac) := by
  intro expiresAtStr signature hcut payload _
  refine ⟨sampleIssued, rfl, ?_⟩
  obtain ⟨issued, hissued⟩ := Hmac.exists_generateSignature plainHmac_ideal
    (utf8 (gdprTokenPayload sampleIssued.email sampleIssued.expiresAt)) sampleIssued.secret
  rw [Issued.token_eq hissued, splitOnce_token] at hcut
  obtain ⟨_, rfl⟩ := Prod.mk.inj (Option.some.inj hcut)
  exact hissued

theorem sampleIssued_opens :
    (∃ i ∈ ({sampleIssued} : Set Issued), i.email = "a:b.c@example.com" ∧ i.secret = "test-secret"
        ∧ 1900 ≤ i.expiresAt)
      ∧ verifyGdprVerificationToken plainHmac (sampleIssued.token plainHmac) "a:b.c@example.com"
        "test-secret" 1900 = true := by
  have hlaw := gdpr_tokens_open_own_address plainHmac_ideal {sampleIssued}
  have hverify := hlaw.2 sampleIssued rfl 1900 (by decide)
  exact ⟨hlaw.1 _ _ _ _ sampleIssued_unforged hverify, hverify⟩

end PredictIQ.Api
