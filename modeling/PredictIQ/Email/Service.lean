/-
  PredictIQ.Email.Service: sending one email (`email/service.rs`,
  `email/templates.rs`, and `get_connection` and `exec` of `cache/mod.rs`).

  Functions of other crates are parameters: HMAC-SHA256, the address
  validator, Handlebars, string fields of a JSON value, and the text of an
  HTTP status.  Errors are the texts that `to_string` shows, so a `.context`
  replaces the text of the error it is put on.
-/
import PredictIQ.Email.Backend

namespace PredictIQ.Email

open Foundation
open Prog (call fail)

/-- A program of the email service. -/
abbrev EmailM (α : Type) : Type := Prog Reply String α

/-- One command. -/
abbrev request (q : Command) : EmailM (Reply q) := call q

/-- `.context(msg)`. -/
def withContext {α : Type} (p : EmailM α) (msg : String) : EmailM α := p.mapError fun _ => msg

/-- What the service takes from other crates. -/
structure Crates where
  hmacSha256Hex : String → String → String
  validateEmail : String → Bool
  handlebars : String → Value → Except String String
  getStr : Value → String → Option String
  statusText : Nat → String

structure Config where
  sendgridApiKey : Option String
  fromEmail : Option String
  emailPerRecipientHourlyLimit : Nat

/-- `EmailService`; `cache` holds the cache's `retry_attempts` when there is one. -/
structure EmailService where
  crates : Crates
  config : Config
  cache : Option Nat
  idempotencyTtl : Nat
  idempotencySecret : String

/-! ## §1. The cache. -/

def getConnection : EmailM Unit := do
  if ← request .breakerAllow then
    withContext (request .poolGet) "failed to acquire Redis connection"
  else fail "Redis circuit breaker is open"

/-- One attempt, and up to `n` more while they fail. -/
def retrying {α : Type} (op : EmailM α) : Nat → EmailM α
  | 0 => op
  | n + 1 => do
      match ← op.attempt with
      | .ok v => pure v
      | .error _ => retrying op n

def cacheExec {α : Type} (retryAttempts : Nat) (op : EmailM α) : EmailM α := do
  if ← request .breakerAllow then
    retrying (do (request .poolGet).mapError ("pool acquire: " ++ ·); op) retryAttempts
  else fail "Redis circuit breaker is open"

/-! ## §2. Templates. -/

/-- `MAX_CONTEXT_BYTES`. -/
def maxContextBytes : Nat := 64 * 1024

def render (x : Crates) (templateName : String) (data : Value) : Except String String :=
  if data.utf8ByteSize > maxContextBytes then
    .error ("template context for '" ++ templateName ++ "' exceeds the 64 KB limit ("
      ++ toString data.utf8ByteSize ++ " bytes)")
  else (x.handlebars templateName data).mapError fun _ => "Failed to render template: " ++ templateName

def getSubject (x : Crates) (templateName : String) (data : Value) : String :=
  match templateName with
  | "newsletter_confirmation" => "Confirm your newsletter subscription"
  | "waitlist_confirmation" => "You're on the waitlist!"
  | "contact_form_auto_response" =>
      "We received your message: " ++ (x.getStr data "subject").getD "Your inquiry"
  | "welcome_email" => "Welcome to PredictIQ!"
  | _ => "Message from PredictIQ"

def renderText (x : Crates) (templateName : String) (data : Value) : String :=
  match templateName with
  | "newsletter_confirmation" =>
      "Please confirm your newsletter subscription by visiting: "
        ++ (x.getStr data "confirm_url").getD ""
        ++ "\n\nIf you didn't request this, please ignore this email."
  | "waitlist_confirmation" =>
      "Thank you for joining the PredictIQ waitlist!\n\nWe'll notify you at "
        ++ (x.getStr data "email").getD ""
        ++ " when we're ready to launch.\n\nStay tuned!"
  | "contact_form_auto_response" =>
      "Thank you for contacting PredictIQ!\n\nWe've received your message and will get back to you soon.\n\nYour message:\n"
        ++ (x.getStr data "message").getD ""
        ++ "\n\nBest regards,\nThe PredictIQ Team"
  | "welcome_email" =>
      "Welcome to PredictIQ!\n\nWe're excited to have you on board. Get started by exploring our prediction markets.\n\nBest regards,\nThe PredictIQ Team"
  | _ => "Message from PredictIQ"

/-! ## §3. Addresses and keys. -/

/-- Seconds since the epoch by the hour, as the source divides. -/
def hourBucket (timestamp : Int) : Int := timestamp.tdiv 3600

def idempotencyKey (x : Crates) (recipient templateName secret : String) (bucketTime : Int) : String :=
  "email:idem:" ++ x.hmacSha256Hex secret
    (recipient ++ "|" ++ templateName ++ "|" ++ toString (hourBucket bucketTime))

/-- The key that `send_email_idempotent` sets in Redis. -/
def idempotencyRedisKey (key : String) : String := "email:idem:" ++ key

/-- `char::is_whitespace`: the characters of Unicode's `White_Space`. -/
def isWhitespace (c : Char) : Bool :=
  (0x09 ≤ c.toNat && c.toNat ≤ 0x0D) || c.toNat == 0x20 || c.toNat == 0x85 || c.toNat == 0xA0
    || c.toNat == 0x1680 || (0x2000 ≤ c.toNat && c.toNat ≤ 0x200A) || c.toNat == 0x2028
    || c.toNat == 0x2029 || c.toNat == 0x202F || c.toNat == 0x205F || c.toNat == 0x3000

/-- `str::trim`. -/
def trim (s : String) : String :=
  .ofList ((s.toList.dropWhile isWhitespace).reverse.dropWhile isWhitespace).reverse

def sanitizeEmail (x : Crates) (raw : String) : Except String String :=
  let trimmed := trim raw
  if trimmed.toList.isEmpty then .error "email address must not be empty"
  else if trimmed.utf8ByteSize > 254 then
    .error ("email address is too long (" ++ toString trimmed.utf8ByteSize ++ " chars, max 254)")
  else if !x.validateEmail trimmed then .error ("invalid email address: '" ++ trimmed ++ "'")
  else .ok trimmed

namespace EmailService

/-! ## §4. Sending. -/

variable (svc : EmailService)

/-- The per-recipient hourly rate limit. -/
def checkRateLimit (recipient : String) : EmailM Unit := do
  match svc.cache with
  | none => pure ()
  | some retryAttempts =>
      let limit := svc.config.emailPerRecipientHourlyLimit
      let now ← request .utcNow
      let rateKey := "email:rate:" ++ recipient ++ ":" ++ toString (hourBucket now)
      let count ← withContext (cacheExec retryAttempts (request (.incrWithTtl rateKey 3600)))
        "per-recipient rate limit Redis check failed"
      if count > limit then
        fail ("email rate limit exceeded for " ++ recipient ++ ": max " ++ toString limit ++ " per hour")

/-- Take the idempotency key; `false` when it is taken already. -/
def acquire (idemKey : Option String) : EmailM Bool := do
  match svc.cache, idemKey with
  | some _, some key =>
      withContext getConnection "idempotency Redis connection failed"
      withContext (request (.setNxEx (idempotencyRedisKey key) svc.idempotencyTtl))
        "idempotency Redis check failed"
  | _, _ => pure true

/-- The request for one email, or why there is none. -/
def payload (recipient templateName : String) (templateData : Value) : Except String Payload := do
  let recipient ← (sanitizeEmail svc.crates recipient).mapError fun _ =>
    "rejecting send_email for template '" ++ templateName ++ "'"
  let _ ← (svc.config.sendgridApiKey.map .ok).getD (.error "SENDGRID_API_KEY not configured")
  let fromEmail ← (svc.config.fromEmail.map .ok).getD (.error "FROM_EMAIL not configured")
  let htmlContent ← render svc.crates templateName templateData
  return {
    toEmail := recipient
    subject := getSubject svc.crates templateName templateData
    fromEmail := fromEmail
    textContent := renderText svc.crates templateName templateData
    htmlContent := htmlContent
    templateName := templateName }

/-- The request for the email of a job. -/
def payloadOf (job : EmailJob) : Except String Payload :=
  svc.payload job.recipientEmail job.templateName job.templateData

/-- The idempotency key of a job: what it is built from is the recipient, the
template and the hour of creation. -/
def idempotencyKeyOf (job : EmailJob) : String :=
  idempotencyKey svc.crates job.recipientEmail job.templateName svc.idempotencySecret job.createdAt

/-- `status == 429 || status.is_server_error()`. -/
def shouldRetry (status : Nat) : Bool := status == 429 || (500 ≤ status && status < 600)

/-- Post with up to `n` retries; the sleeps between them take no step of their own. -/
def postRetrying (p : Payload) : Nat → EmailM String
  | 0 => do
      let response ← withContext (request (.post p)) "Failed to send email via SendGrid"
      if response.isSuccess then return response.messageId.getD "unknown"
      fail ("SendGrid API error " ++ svc.crates.statusText response.status)
  | n + 1 => do
      let response ← withContext (request (.post p)) "Failed to send email via SendGrid"
      if response.isSuccess then return response.messageId.getD "unknown"
      if shouldRetry response.status then postRetrying p n
      else fail ("SendGrid API error " ++ svc.crates.statusText response.status)

/-- `MAX_ATTEMPTS`. -/
def maxAttempts : Nat := 3

def sendEmailIdempotent (recipient templateName : String) (templateData : Value)
    (idemKey : Option String) : EmailM String := do
  svc.checkRateLimit recipient
  if ← svc.acquire idemKey then
    let p ← .done (svc.payload recipient templateName templateData)
    svc.postRetrying p (maxAttempts - 1)
  else return "deduplicated:" ++ idemKey.getD ""

end EmailService

/-! ## §5. What these programs ask. -/

section Uses

variable {S : Command → Prop} (hS : ∀ q, q.isBackground = true → q.writesStrings = false → S q)

include hS

theorem getConnection_uses : getConnection.Uses S := by
  refine Prog.Uses.bind (Prog.uses_call.mpr (hS _ rfl rfl)) fun closed => ?_
  split
  · exact Prog.Uses.mapError (Prog.uses_call.mpr (hS _ rfl rfl)) _
  · exact Prog.uses_fail _

omit hS in
theorem retrying_uses {α : Type} {op : EmailM α} (hop : op.Uses S) (n : Nat) :
    (retrying op n).Uses S := by
  induction n with
  | zero => exact hop
  | succ n ih =>
      refine Prog.Uses.bind hop.attempt fun r => ?_
      cases r with
      | ok v => exact Prog.uses_pure v
      | error e => exact ih

theorem cacheExec_uses {α : Type} {op : EmailM α} (hop : op.Uses S) (retryAttempts : Nat) :
    (cacheExec retryAttempts op).Uses S := by
  refine Prog.Uses.bind (Prog.uses_call.mpr (hS _ rfl rfl)) fun closed => ?_
  split
  · refine retrying_uses ?_ retryAttempts
    exact Prog.Uses.bind (Prog.Uses.mapError (Prog.uses_call.mpr (hS _ rfl rfl)) _) fun _ => hop
  · exact Prog.uses_fail _

namespace EmailService

theorem checkRateLimit_uses (svc : EmailService) (recipient : String)
    (hincr : ∀ now, S (.incrWithTtl ("email:rate:" ++ recipient ++ ":" ++ toString (hourBucket now)) 3600)) :
    (svc.checkRateLimit recipient).Uses S := by
  unfold checkRateLimit
  split
  · exact Prog.uses_pure _
  · refine Prog.Uses.bind (Prog.uses_call.mpr (hS _ rfl rfl)) fun now => ?_
    refine Prog.Uses.bind ?_ fun count => ?_
    · exact (cacheExec_uses hS (Prog.uses_call.mpr (hincr now)) _).mapError _
    · split
      · exact Prog.uses_fail _
      · exact Prog.uses_pure _

theorem acquire_uses (hset : ∀ key seconds, S (.setNxEx key seconds)) (svc : EmailService)
    (idemKey : Option String) : (svc.acquire idemKey).Uses S := by
  unfold acquire
  split
  · refine Prog.Uses.bind ((getConnection_uses hS).mapError _) fun _ => ?_
    exact Prog.Uses.mapError (Prog.uses_call.mpr (hset _ _)) _
  · exact Prog.uses_pure _

omit hS in
theorem postRetrying_uses (hpost : ∀ p, S (.post p)) (svc : EmailService) (p : Payload) (n : Nat) :
    (svc.postRetrying p n).Uses S := by
  have hone := Prog.Uses.mapError (Prog.uses_call.mpr (hpost p)) (ε := String) (R := Reply)
    fun _ => "Failed to send email via SendGrid"
  induction n with
  | zero =>
      refine Prog.Uses.bind hone fun response => ?_
      split
      · exact Prog.uses_pure _
      · exact Prog.uses_fail _
  | succ n ih =>
      refine Prog.Uses.bind hone fun response => ?_
      split
      · exact Prog.uses_pure _
      · split
        · exact ih
        · exact Prog.uses_fail _

theorem sendEmailIdempotent_uses (hincr : ∀ key, S (.incrWithTtl key 3600))
    (hset : ∀ key seconds, S (.setNxEx key seconds)) (hpost : ∀ p, S (.post p)) (svc : EmailService) (recipient templateName : String)
    (templateData : Value) (idemKey : Option String) :
    (svc.sendEmailIdempotent recipient templateName templateData idemKey).Uses S := by
  refine Prog.Uses.bind (checkRateLimit_uses hS svc recipient fun _ => hincr _) fun _ => ?_
  refine Prog.Uses.bind (acquire_uses hS hset svc idemKey) fun acquired => ?_
  split
  · have hsend : ∀ p : Except String Payload,
        (Prog.done p >>= fun p => svc.postRetrying p (maxAttempts - 1)).Uses S :=
      fun p => Prog.Uses.bind (Prog.uses_done p) fun p => postRetrying_uses hpost svc p _
    exact hsend _
  · exact Prog.uses_pure _

end EmailService

end Uses

end PredictIQ.Email
