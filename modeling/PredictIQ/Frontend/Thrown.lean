/-
  PredictIQ.Frontend.Thrown: what the hooks of the website read of a value
  that a promise was rejected with.

  Any value can be thrown.  An `Error` is kept as it is; another value is made
  one of by `new Error(String(value))`, which throws again where `String` does,
  as it does for an object without a prototype.
-/
import Mathlib.Data.List.Infix

namespace PredictIQ.Frontend

/-- A thrown value: whether it is an `Error` or a `DOMException`, its `code` and
`name` where it is an object with such strings or numbers, and its message, or
what `String` makes of it where it is no `Error`. -/
structure Thrown where
  isError : Bool
  isDomException : Bool
  code : Option String
  name : Option String
  text : Option String
  deriving DecidableEq

/-- `new Error(message)`. -/
def Thrown.ofMessage (message : String) : Thrown := ⟨true, false, none, some "Error", some message⟩

/-- `err instanceof Error ? err : new Error(String(err))`, which may throw. -/
def Thrown.toError (err : Thrown) : Option Thrown := if err.isError then some err else err.text.map Thrown.ofMessage

/-- `error instanceof DOMException && error.name === 'AbortError'`. -/
def Thrown.isAbort (err : Thrown) : Bool := err.isDomException && err.name = some "AbortError"

def REJECTION_CODES : List String :=
  ["userrejected", "userrejectedrequest", "userdeclined", "userdeclinedrequest", "rejectedbyuser", "declinedbyuser",
    "actionrejected", "requestrejected"]

def REJECTION_PATTERNS : List String :=
  ["user declined", "user rejected", "declined access", "rejected the request", "not allowed"]

/-- `text.includes(pattern)`. -/
def includes (text pattern : String) : Bool := decide (pattern.toList <:+: text.toList)

/-- `isUserRejection`, which may throw.  The two letters outside ASCII whose
lower case has one of ASCII in it match none of the codes and patterns, so
`toLower` does for `toLowerCase`. -/
def isUserRejection (error : Thrown) : Option Bool :=
  let signals := [error.code, error.name].filterMap fun signal => signal.map String.toLower
  if signals.any REJECTION_CODES.contains then some true
  else error.text.map fun message => REJECTION_PATTERNS.any (includes message.toLower)

end PredictIQ.Frontend
