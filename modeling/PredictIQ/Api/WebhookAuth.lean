/-
  PredictIQ.Api.WebhookAuth: which requests `sendgrid_webhook_middleware` hands on.

  The signature ought to cover the timestamp and the bytes of the body, and
  the timestamp to be an integer within the replay window.  The code signs
  the lossy text of the body, reads a timestamp that is no integer as zero,
  and subtracts 64-bit numbers; `exact_iff` says for which timestamps and
  bodies that makes no difference.
-/
import PredictIQ.Api.Signing
import PredictIQ.Foundation.Text
import PredictIQ.Idempotency.Middleware

namespace PredictIQ.WebhookAuth

open Foundation Signing
open Idempotency (HeaderValue toStr)

/-! ## §1. The middleware (`security.rs`). -/

structure WebhookConfig where
  secret : Option String
  replayWindowSecs : UInt64

/-- What the middleware reads of a request; reading the body may fail. -/
structure WebhookRequest where
  signature : Option HeaderValue
  timestamp : Option HeaderValue
  body : Option (List UInt8)

/-- Seconds since the epoch, of a clock whose seconds are a signed 64-bit number. -/
abbrev UnixSecs : Type := Fin (2 ^ 63)

/-- A signed 64-bit number, wrapped. -/
def wrapI64 (z : Int) : Int := (z + 2 ^ 63) % 2 ^ 64 - 2 ^ 63

/-- A header as text, empty when it is missing or cannot be read. -/
def headerText (v : Option HeaderValue) : String := (v.bind toStr).getD ""

def parseI64 (text : String) : Option Int := parseSigned (2 ^ 63) text

section Middleware

variable (H : Hmac)

/-- The body that is handed on, or the status of the refusal. -/
def sendgridWebhookMiddleware (config : WebhookConfig) (isProduction : Bool) (now : UnixSecs)
    (request : WebhookRequest) : Except Nat (Option (List UInt8)) :=
  match config.secret with
  | none => if isProduction then .error 401 else .ok request.body
  | some secret =>
      let sig := headerText request.signature
      let tsStr := headerText request.timestamp
      let ts := (parseI64 tsStr).getD 0
      let ageSecs := wrapI64 ((now.val : Int) - ts)
      if ageSecs < 0 ∨ ageSecs > wrapI64 config.replayWindowSecs.toNat then .error 401
      else match request.body with
        | none => .error 400
        | some bytes =>
            let signedPayload := tsStr ++ fromUtf8Lossy bytes
            if H.verifySignature (utf8 signedPayload) sig secret then .ok (some bytes) else .error 401

/-! ## §2. What it ought to hand on. -/

/-- A request but for its signature. -/
structure Delivery where
  timestamp : Option HeaderValue
  body : List UInt8

namespace Delivery

variable (d : Delivery)

/-- The timestamp, if its text is an integer. -/
def ts : Option Int := parseI64 (headerText d.timestamp)

/-- The bytes that ought to be signed: the timestamp's text, and the body. -/
def signedBytes : List UInt8 := utf8 (headerText d.timestamp) ++ d.body

/-- The signature header is the one of these bytes. -/
def Authentic (secret : String) (signature : Option HeaderValue) : Prop :=
  ∃ text, signature.bind toStr = some text ∧ H.generateSignature d.signedBytes secret = some text

/-- The timestamp is an integer, not after the server's time and within the window. -/
def Timely (replayWindowSecs : UInt64) (now : UnixSecs) : Prop :=
  ∃ ts, d.ts = some ts ∧ ts ≤ now.val ∧ now.val - ts ≤ replayWindowSecs.toNat

/-- The request is handed to the handler, with its bytes. -/
def HandedOn (secret : String) (replayWindowSecs : UInt64) (isProduction : Bool) (now : UnixSecs)
    (signature : Option HeaderValue) : Prop :=
  sendgridWebhookMiddleware H ⟨some secret, replayWindowSecs⟩ isProduction now
    ⟨signature, d.timestamp, some d.body⟩ = .ok (some d.body)

/-- The age is a signed 64-bit number before it is wrapped. -/
def NoOverflow (now : UnixSecs) : Prop :=
  wrapI64 (now.val - d.ts.getD 0) = now.val - d.ts.getD 0

/-- The law: handed on if and only if authentic and timely, and nothing overflows. -/
def Exact (secret : String) (replayWindowSecs : UInt64) (isProduction : Bool) (now : UnixSecs) :
    Prop :=
  d.NoOverflow now ∧ ∀ signature, d.HandedOn H secret replayWindowSecs isProduction now signature
    ↔ d.Authentic H secret signature ∧ d.Timely replayWindowSecs now

/-- An integer whose age is a signed 64-bit number, and within the window only
with a body of UTF-8 and a window that is one too; or no integer, and the
server's time out of the window. -/
def Regular (replayWindowSecs : UInt64) (now : UnixSecs) : Prop :=
  match d.ts with
  | some ts => now.val - ts < 2 ^ 63
      ∧ (ts ≤ now.val → now.val - ts ≤ replayWindowSecs.toNat →
          replayWindowSecs.toNat < 2 ^ 63 ∧ IsUtf8 d.body)
  | none => replayWindowSecs.toNat < now.val ∨ 2 ^ 63 ≤ replayWindowSecs.toNat

end Delivery

/-! ## §3. What it hands on. -/

theorem wrapI64_of_range {z : Int} (hlow : -2 ^ 63 ≤ z) (hhigh : z < 2 ^ 63) : wrapI64 z = z := by
  unfold wrapI64
  omega

theorem wrapI64_of_ge {z : Int} (hlow : 2 ^ 63 ≤ z) (hhigh : z < 2 ^ 64) :
    wrapI64 z = z - 2 ^ 64 := by
  unfold wrapI64
  omega

/-- A text of visible ASCII is the text of some header. -/
theorem exists_header {s : String} (h : ∀ c ∈ s.toList, 32 ≤ c.toNat ∧ c.toNat < 127) :
    ∃ v : HeaderValue, toStr v = some s := by
  have hvisible : ∀ c ∈ s.toList, Idempotency.isVisible c = true := fun c hc => by
    obtain ⟨hlow, hhigh⟩ := h c hc
    simp [Idempotency.isVisible, hlow, hhigh]
  exact ⟨utf8 s, (Idempotency.toStr_utf8 s).trans (if_pos (List.all_eq_true.mpr hvisible))⟩

variable {H} {d : Delivery} {secret : String} {replayWindowSecs : UInt64} {isProduction : Bool}
  {now : UnixSecs} {signature : Option HeaderValue}

/-- **What is handed on**: a signature of the lossy text, and an age between
zero and the window as signed 64-bit numbers. -/
theorem handedOn_iff : d.HandedOn H secret replayWindowSecs isProduction now signature
    ↔ (0 ≤ wrapI64 (now.val - d.ts.getD 0)
        ∧ wrapI64 (now.val - d.ts.getD 0) ≤ wrapI64 replayWindowSecs.toNat)
      ∧ H.generateSignature (utf8 (headerText d.timestamp ++ fromUtf8Lossy d.body)) secret
        = some (headerText signature) := by
  unfold Delivery.HandedOn sendgridWebhookMiddleware Delivery.ts
  simp only
  split
  case isTrue hout =>
    refine iff_of_false (by simp) fun h => ?_
    omega
  case isFalse hin =>
    rw [← Hmac.verifySignature_iff]
    split
    case isTrue hverify => exact iff_of_true rfl ⟨by omega, hverify⟩
    case isFalse hverify => exact iff_of_false (by simp) fun h => hverify h.2

/-- A signature is the text of its header, and never the text of a missing one. -/
theorem authentic_iff (hideal : H.Ideal) : d.Authentic H secret signature
    ↔ H.generateSignature d.signedBytes secret = some (headerText signature) := by
  constructor
  · rintro ⟨text, htext, hsig⟩
    rw [headerText, htext]
    exact hsig
  · intro hsig
    cases htext : signature.bind toStr with
    | none =>
        have hempty := hideal.generateSignature_ne_empty hsig
        rw [headerText, htext] at hempty
        exact absurd rfl hempty
    | some text =>
        rw [headerText, htext] at hsig
        exact ⟨text, htext, hsig⟩

/-- The signature of any bytes can be put into a header. -/
theorem exists_signature_header (hideal : H.Ideal) (payload : List UInt8) (secret : String) :
    ∃ v : HeaderValue, H.generateSignature payload secret = some (headerText (some v)) := by
  obtain ⟨text, htext⟩ := Hmac.exists_generateSignature hideal payload secret
  obtain ⟨tag, _, rfl⟩ := Option.map_eq_some_iff.mp htext
  obtain ⟨v, hv⟩ := exists_header (s := Base64.encode tag) fun c hc => by
    rw [Base64.encode, String.toList_ofList] at hc
    exact Base64.mem_encodeList hc
  refine ⟨v, ?_⟩
  rw [htext, headerText, Option.bind_some, hv]
  rfl

/-- The lossy text has the signed bytes exactly when the body is UTF-8. -/
theorem utf8_lossy_eq_iff :
    utf8 (headerText d.timestamp ++ fromUtf8Lossy d.body) = d.signedBytes ↔ IsUtf8 d.body := by
  rw [utf8_append, Delivery.signedBytes, List.append_cancel_left_eq, utf8_fromUtf8Lossy_iff]

/-! ## §4. When that is what it ought to hand on. -/

theorem ts_range {ts : Int} (h : d.ts = some ts) : -2 ^ 63 ≤ ts ∧ ts < 2 ^ 63 := by
  have hrange := range_of_parseSigned (by decide) h
  push_cast at hrange
  exact hrange

/-- The window as a signed 64-bit number: itself, or a negative one. -/
theorem wrapI64_window (replayWindowSecs : UInt64) :
    replayWindowSecs.toNat < 2 ^ 63
        ∧ wrapI64 replayWindowSecs.toNat = replayWindowSecs.toNat
      ∨ 2 ^ 63 ≤ replayWindowSecs.toNat ∧ wrapI64 replayWindowSecs.toNat < 0 := by
  have hbound := replayWindowSecs.toNat_lt
  by_cases hlt : replayWindowSecs.toNat < 2 ^ 63
  · exact .inl ⟨hlt, wrapI64_of_range (by omega) (by omega)⟩
  · refine .inr ⟨by omega, ?_⟩
    rw [wrapI64_of_ge (by omega) (by omega)]
    omega

/-- No age overflows but that of an integer far before the epoch. -/
theorem noOverflow_iff {ts : Int} (h : d.ts = some ts) :
    d.NoOverflow now ↔ (now.val : Int) - ts < 2 ^ 63 := by
  obtain ⟨hlow, hhigh⟩ := ts_range h
  have hnow := now.isLt
  unfold Delivery.NoOverflow
  rw [h, Option.getD_some]
  constructor
  · intro heq
    unfold wrapI64 at heq
    omega
  · intro hlt
    exact wrapI64_of_range (by omega) hlt

theorem exact_of_regular (hideal : H.Ideal) (h : d.Regular replayWindowSecs now) :
    d.Exact H secret replayWindowSecs isProduction now := by
  have hnow := now.isLt
  have hwindow := wrapI64_window replayWindowSecs
  unfold Delivery.Regular at h
  cases hts : d.ts with
  | some ts =>
      simp only [hts] at h
      obtain ⟨hlt, hin⟩ := h
      have hfits := (noOverflow_iff hts).mpr hlt
      refine ⟨hfits, fun signature => ?_⟩
      unfold Delivery.NoOverflow at hfits
      rw [handedOn_iff, authentic_iff hideal, hfits, Delivery.Timely, hts, Option.getD_some]
      simp only [Option.some.injEq, exists_eq_left']
      -- the body counts only where the delivery is timely
      by_cases htimely : ts ≤ now.val ∧ now.val - ts ≤ replayWindowSecs.toNat
      · obtain ⟨hsmall, hbody⟩ := hin htimely.1 htimely.2
        rw [utf8_lossy_eq_iff.mpr hbody]
        constructor
        · rintro ⟨_, hsig⟩
          exact ⟨hsig, htimely⟩
        · rintro ⟨hsig, _⟩
          exact ⟨by omega, hsig⟩
      · refine iff_of_false ?_ fun hboth => htimely hboth.2
        rintro ⟨hage, _⟩
        omega
  | none =>
      simp only [hts] at h
      -- the timestamp counts as 0, which is not within the window
      have hfits : d.NoOverflow now := by
        unfold Delivery.NoOverflow
        rw [hts]
        exact wrapI64_of_range (by simp) (by simp)
      refine ⟨hfits, fun signature => ?_⟩
      unfold Delivery.NoOverflow at hfits
      rw [handedOn_iff, hfits, Delivery.Timely, hts]
      refine iff_of_false ?_ ?_
      · rintro ⟨hage, _⟩
        rw [Option.getD_none] at hage
        omega
      · rintro ⟨_, _, hnone, _⟩
        cases hnone

theorem regular_of_exact (hideal : H.Ideal)
    (h : d.Exact H secret replayWindowSecs isProduction now) : d.Regular replayWindowSecs now := by
  obtain ⟨hfits, hexact⟩ := h
  have hnow := now.isLt
  have hwindow := wrapI64_window replayWindowSecs
  unfold Delivery.Regular
  cases hts : d.ts with
  | some ts =>
      have hlt := (noOverflow_iff hts).mp hfits
      refine ⟨hlt, fun hpast hage => ?_⟩
      have htimely : d.Timely replayWindowSecs now := ⟨ts, hts, hpast, hage⟩
      -- the right signature is handed on
      obtain ⟨v, hv⟩ := exists_signature_header hideal d.signedBytes secret
      have hright := (hexact (some v)).mpr ⟨(authentic_iff hideal).mpr hv, htimely⟩
      obtain ⟨hin, hsig⟩ := handedOn_iff.mp hright
      refine ⟨by omega, utf8_lossy_eq_iff.mp ?_⟩
      exact (hideal.generateSignature_inj hsig hv).1
  | none =>
      -- otherwise the lossy text's signature is handed on
      by_contra hregular
      unfold Delivery.NoOverflow at hfits
      rw [hts, Option.getD_none] at hfits
      obtain ⟨v, hv⟩ := exists_signature_header hideal
        (utf8 (headerText d.timestamp ++ fromUtf8Lossy d.body)) secret
      have hhanded : d.HandedOn H secret replayWindowSecs isProduction now (some v) := by
        refine handedOn_iff.mpr ⟨?_, hv⟩
        rw [hts, Option.getD_none, hfits]
        omega
      obtain ⟨_, _, hsome, _⟩ := (hexact (some v)).mp hhanded
      rw [hts] at hsome
      cases hsome

variable (d secret replayWindowSecs isProduction now) in
/-- **Authenticity is exact where the delivery is regular**, and nowhere else;
and regular deliveries that are handed on with one signature have the same
signed bytes. -/
theorem webhook_exact_iff (hideal : H.Ideal) :
    (d.Exact H secret replayWindowSecs isProduction now ↔ d.Regular replayWindowSecs now)
      ∧ ∀ (d' : Delivery) (now' : UnixSecs) (signature : Option HeaderValue),
        d.Regular replayWindowSecs now → d'.Regular replayWindowSecs now' →
        d.HandedOn H secret replayWindowSecs isProduction now signature →
        d'.HandedOn H secret replayWindowSecs isProduction now' signature →
        d.signedBytes = d'.signedBytes := by
  refine ⟨⟨regular_of_exact hideal, exact_of_regular hideal⟩, ?_⟩
  intro d' now' signature hregular hregular' hhanded hhanded'
  have hsig := (authentic_iff hideal).mp
    (((exact_of_regular hideal hregular).2 signature).mp hhanded).1
  have hsig' := (authentic_iff hideal).mp
    (((exact_of_regular hideal hregular').2 signature).mp hhanded').1
  exact (hideal.generateSignature_inj hsig hsig').1

end Middleware

/-! ## §5. A body that is no UTF-8. -/

/-- The header of a timestamp. -/
def timestampHeader : HeaderValue := [49, 48, 48, 48]

/-- A byte that begins no character, and its replacement. -/
def brokenDelivery : Delivery := ⟨some timestampHeader, [0xFF]⟩

def replacedDelivery : Delivery := ⟨some timestampHeader, [0xEF, 0xBF, 0xBD]⟩

theorem ts_brokenDelivery : brokenDelivery.ts = some 1000 := by decide

theorem lossy_brokenDelivery : utf8 (fromUtf8Lossy brokenDelivery.body) = replacedDelivery.body := by
  decide

theorem lossy_replacedDelivery :
    utf8 (fromUtf8Lossy replacedDelivery.body) = replacedDelivery.body := by
  decide

theorem replacedDelivery_regular : replacedDelivery.Regular 300 1100 := by
  refine ⟨by decide, fun _ _ => ⟨by decide, ?_⟩⟩
  exact utf8_fromUtf8Lossy_iff.mp lossy_replacedDelivery

theorem replacedDelivery_exact :
    (replacedDelivery.Exact plainHmac "secret" 300 true 1100 ↔ replacedDelivery.Regular 300 1100)
      ∧ ∃ signature, replacedDelivery.HandedOn plainHmac "secret" 300 true 1100 signature := by
  have hlaw := webhook_exact_iff replacedDelivery "secret" 300 true 1100 plainHmac_ideal
  obtain ⟨v, hv⟩ := exists_signature_header plainHmac_ideal replacedDelivery.signedBytes "secret"
  have hhanded := ((hlaw.1.mpr replacedDelivery_regular).2 (some v)).mpr
    ⟨(authentic_iff plainHmac_ideal).mpr hv, 1000, by decide, by decide, by decide⟩
  exact ⟨hlaw.1, some v, hhanded⟩

/-- The signature of the replaced bytes is taken for the broken ones too, and
one of the broken bytes for none. -/
theorem broken_body_not_exact :
    ¬brokenDelivery.Exact plainHmac "secret" 300 true 1100
      ∧ ∃ signature, brokenDelivery.HandedOn plainHmac "secret" 300 true 1100 signature
        ∧ replacedDelivery.HandedOn plainHmac "secret" 300 true 1100 signature
        ∧ brokenDelivery.signedBytes ≠ replacedDelivery.signedBytes := by
  have hbroken : ¬IsUtf8 brokenDelivery.body := fun h => by
    have hsame := utf8_fromUtf8Lossy_iff.mpr h
    rw [lossy_brokenDelivery] at hsame
    exact absurd hsame (by decide)
  refine ⟨fun h => ?_, ?_⟩
  · have hregular := regular_of_exact plainHmac_ideal h
    exact hbroken (hregular.2 (by decide) (by decide)).2
  · obtain ⟨v, hv⟩ := exists_signature_header plainHmac_ideal
      (utf8 (headerText (some timestampHeader)) ++ replacedDelivery.body) "secret"
    have hage : 0 ≤ wrapI64 ((1100 : UnixSecs).val - (1000 : Int))
        ∧ wrapI64 ((1100 : UnixSecs).val - (1000 : Int)) ≤ wrapI64 (300 : UInt64).toNat := by
      decide
    -- one signature serves every body that decodes to the replaced one
    have hhanded : ∀ d : Delivery, d.timestamp = some timestampHeader → d.ts = some 1000 →
        utf8 (fromUtf8Lossy d.body) = replacedDelivery.body →
        d.HandedOn plainHmac "secret" 300 true 1100 (some v) := by
      intro d htimestamp hts hlossy
      refine handedOn_iff.mpr ⟨?_, ?_⟩
      · rw [hts]
        exact hage
      · rw [utf8_append, hlossy, htimestamp]
        exact hv
    exact ⟨some v, hhanded _ rfl ts_brokenDelivery lossy_brokenDelivery,
      hhanded _ rfl ts_brokenDelivery lossy_replacedDelivery, by decide⟩

end PredictIQ.WebhookAuth
