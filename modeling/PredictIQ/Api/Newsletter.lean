/-
  PredictIQ.Api.Newsletter: the newsletter handlers (`newsletter_subscribe`,
  `newsletter_confirm` and `newsletter_unsubscribe` of `handlers.rs`) beside
  the email workers.

  What the handlers take from elsewhere is a parameter: Unicode lower case, the
  address validator, the text of a JSON object, and the two functions of
  unsubscribe tokens.
-/
import PredictIQ.Api.Requests

namespace PredictIQ.Api

open Foundation

/-! ## §1. What the handlers are given. -/

structure NewsletterCrates where
  toLowercase : String → String
  validateEmail : String → Bool
  /-- `serde_json::json!` of an object of strings. -/
  json : List (String × String) → Email.Value
  generateUnsubscribeToken : String → String → Option String
  validateUnsubscribeToken : String → String → Option String

/-- What the handlers read of the configuration. -/
structure NewsletterHandler where
  crates : NewsletterCrates
  baseUrl : String
  unsubscribeSigningSecret : Option String
  newsletterTokenTtlSecs : UInt64

structure NewsletterResponse where
  status : Nat
  success : Bool
  message : String
  deriving DecidableEq, Repr

/-! ## §2. Addresses and links. -/

/-- `str::rsplit_once`: what stands before and after the last `c`. -/
def rsplitOnce (c : Char) (s : String) : Option (String × String) :=
  match s.toList.reverse.dropWhile (· ≠ c) with
  | [] => none
  | _ :: front => some (.ofList front.reverse, .ofList (s.toList.reverse.takeWhile (· ≠ c)).reverse)

/-- `str::trim_end_matches('/')`. -/
def trimEndSlashes (s : String) : String := .ofList (s.toList.reverse.dropWhile (· = '/')).reverse

/-- `DISPOSABLE_DOMAINS`. -/
def disposableDomains : List String := ["mailinator.com", "tempmail.com", "guerrillamail.com"]

def isDisposableEmail (email : String) : Bool :=
  match rsplitOnce '@' email with
  | some (_, domain) => disposableDomains.contains domain
  | none => false

/-- The `source` of a request: at most 64 letters, `direct` when there are none. -/
def sourceOf (source : Option String) : String :=
  let source := (Email.trim (source.getD "direct")).toList.take 64
  if source.isEmpty then "direct" else .ofList source

/-- The template of the email with the link. -/
def confirmationTemplate : String := "newsletter_confirmation"

namespace NewsletterHandler

variable (h : NewsletterHandler)

def normalizedEmail (raw : String) : Option String :=
  let candidate := h.crates.toLowercase (Email.trim raw)
  if h.crates.validateEmail candidate then some candidate else none

def confirmUrl (token : String) : String :=
  trimEndSlashes h.baseUrl ++ "/api/v1/newsletter/confirm?token=" ++ token

def unsubscribeUrl (email : String) : String :=
  match h.unsubscribeSigningSecret.bind (h.crates.generateUnsubscribeToken email) with
  | some token => trimEndSlashes h.baseUrl ++ "/api/v1/newsletter/unsubscribe?token=" ++ token
  | none => ""

/-- What the template is filled with. -/
def templateData (email token : String) : Email.Value :=
  h.crates.json [("confirm_url", h.confirmUrl token), ("unsubscribe_url", h.unsubscribeUrl email), ("email", email)]

/-! ## §3. The handlers. -/

/-- Store a new token for the address, and enqueue the email with its link. -/
def requestConfirmation (email source : String) : ApiM Unit := do
  let token ← request .newToken
  request (.newsletterUpsertPending email source token)
  let _ ← lift (Email.enqueue .newsletterConfirmation email confirmationTemplate (h.templateData email token) 0)

def newsletterSubscribe (email : String) (source : Option String) : ApiM NewsletterResponse :=
  match h.normalizedEmail email with
  | none => return ⟨400, false, "Invalid email address."⟩
  | some email =>
      if isDisposableEmail email then return ⟨400, false, "Disposable emails are not allowed."⟩
      else do
        let existing ← request (.newsletterGetByEmail email)
        -- an active subscriber gets the same response, and no email
        if existing.any (·.isActive) then pure () else h.requestConfirmation email (sourceOf source)
        return ⟨202, true, "Please check your email to confirm your subscription."⟩

def newsletterConfirm (token : String) : ApiM NewsletterResponse :=
  if (Email.trim token).isEmpty then return ⟨400, false, "Missing confirmation token."⟩
  else do
    let updated ← request (.newsletterConfirmByToken (Email.trim token) h.newsletterTokenTtlSecs)
    if updated then return ⟨200, true, "Subscription confirmed."⟩
    else return ⟨404, false, "Invalid or expired confirmation token."⟩

def newsletterUnsubscribe (token : String) : ApiM NewsletterResponse :=
  match h.unsubscribeSigningSecret with
  | none => return ⟨500, false, "Unsubscribe not configured."⟩
  | some secret =>
      match h.crates.validateUnsubscribeToken token secret with
      | none => return ⟨401, false, "Invalid unsubscribe token."⟩
      | some email => do
          let _ ← request (.newsletterUnsubscribe email)
          return ⟨200, true, "Successfully unsubscribed."⟩

end NewsletterHandler

/-! ## §4. The system. -/

/-- A request of a handler, or a worker's start or turn. -/
inductive NewsletterTask where
  | subscribe (email : String) (source : Option String)
  | confirm (token : String)
  | unsubscribe (token : String)
  | workerStartup (order : Email.HashOrder) (staleThresholdSecs : Nat)
  | workerTurn

abbrev Newsletters : Type := Machine Email.Uuid Reply String Backend

abbrev NewsletterAction : Type := Act Email.Uuid NewsletterTask String Choice Outside

section System

variable (h : NewsletterHandler) (svc : Email.EmailService)

def newsletterBody (pid : Email.Uuid) : NewsletterTask → ApiM Unit
  | .subscribe email source => do
      let _ ← h.newsletterSubscribe email source
  | .confirm token => do
      let _ ← h.newsletterConfirm token
  | .unsubscribe token => do
      let _ ← h.newsletterUnsubscribe token
  | .workerStartup order staleThresholdSecs => lift (Email.workerStartup order staleThresholdSecs)
  | .workerTurn => lift (Email.workerTurn svc pid)

def Newsletters.step : Newsletters → NewsletterAction → Newsletters := Machine.step server (newsletterBody h svc) outside

end System

end PredictIQ.Api
