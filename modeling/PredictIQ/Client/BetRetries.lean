/-
  PredictIQ.Client.BetRetries: the HTTP attempts of one call of the client, and of `placeBet`.

  Every attempt of a call has the key that was resolved when it was made, and
  a POST goes on after a 429 alone.  But a key that `isValidIdempotencyKey`
  refuses is dropped without a word, and `fetch` trims what is left, so that
  attempts may go out with no key, or with an empty one.
-/
import PredictIQ.Client.OwnWrites
import PredictIQ.Foundation.Hex
import PredictIQ.Foundation.Utf16
import Mathlib.Data.Nat.Digits.Lemmas

namespace PredictIQ.Client

open Foundation

/-! ## §1. Idempotency keys. -/

/-- A text, as 16-bit units. -/
abbrev JsString : Type := List UInt16

def MAX_KEY_LENGTH : Nat := 128

/-- What `Date.now()` can be. -/
structure TimeValue where
  ms : Int
  bound : ms.natAbs ≤ 8640000000000000

/-- What the platform has to make a key of: its random bytes, or else the clock
and the digits of `Math.random()` behind the point. -/
inductive Platform where
  | randomUUID (bytes : Vector UInt8 16)
  | getRandomValues (bytes : Vector UInt8 16)
  | fallback (now : TimeValue) (random : List (Fin 36))

def dash : JsString := Utf16.ascii ['-']

/-- The version and variant bits of a UUID. -/
def rfc4122 (bytes : Vector UInt8 16) : Vector UInt8 16 :=
  (bytes.set 6 ((bytes[6] &&& 0x0f) ||| 0x40)).set 8 ((bytes[8] &&& 0x3f) ||| 0x80)

def uuid (bytes : Vector UInt8 16) : JsString :=
  let hex := (Hex.encode (rfc4122 bytes).toList).map UInt8.toUInt16
  hex.take 8 ++ dash ++ (hex.drop 8).take 4 ++ dash ++ (hex.drop 12).take 4 ++ dash ++ (hex.drop 16).take 4 ++ dash
    ++ hex.drop 20

def digit36 (d : Nat) : UInt16 := UInt16.ofNat (if d < 10 then 48 + d else 87 + d)

/-- `n.toString(36)`. -/
def toString36 (n : Int) : JsString :=
  (if n < 0 then dash else []) ++ if n = 0 then [digit36 0] else (Nat.digits 36 n.natAbs).reverse.map digit36

/-- `Math.random().toString(36)`. -/
def randomString36 (random : List (Fin 36)) : JsString :=
  digit36 0 :: if random = [] then [] else Utf16.ascii ['.'] ++ random.map fun d => digit36 d

def newIdempotencyKey : Platform → JsString
  | .randomUUID bytes | .getRandomValues bytes => uuid bytes
  | .fallback now random =>
      Utf16.ascii ['i', 'd', 'm', 'p', '-'] ++ toString36 now.ms ++ dash ++ ((randomString36 random).take 12).drop 2

def isValidIdempotencyKey (value : JsString) : Bool := 0 < value.length && value.length ≤ MAX_KEY_LENGTH

/-- `options.idempotencyKey`. -/
inductive KeyOption where
  | absent
  | fresh
  | given (key : JsString)

/-- The key of a call, resolved once. -/
def idempotencyKey (platform : Platform) : KeyOption → Option JsString
  | .absent => none
  | .fresh => some (newIdempotencyKey platform)
  | .given key => if isValidIdempotencyKey key then some key else none

/-! ## §2. Attempts. -/

/-- HTTP white space. -/
def isHttpSpace (u : UInt16) : Bool := u == 9 || u == 10 || u == 13 || u == 32

def normalize (value : JsString) : JsString := (value.dropWhile isHttpSpace).rdropWhile isHttpSpace

/-- The value that `fetch` gives a header: one byte for each unit, without white
space around it.  Anything else it refuses. -/
def headerValue (value : JsString) : Option (List UInt8) :=
  if value.all (· ≤ 0xFF) && (normalize value).all (fun u => u != 0 && u != 10 && u != 13) then
    some ((normalize value).map UInt16.toUInt8)
  else none

/-- An HTTP request, the `Idempotency-Key` it carries, and what comes of it. -/
structure Attempt where
  idempotencyKey : Option (List UInt8)
  response : Response

/-- What meets an attempt: `fetch` rejects before anything is sent, with the
`AbortError` of a signal or with something else, or the request is made. -/
inductive Turn where
  | unsent (byCaller : Bool)
  | sent (response : Response)

def Turn.isUnsent : Turn → Bool
  | .unsent _ => true
  | .sent _ => false

def Turn.attempt (key : Option (List UInt8)) : Turn → Option Attempt × Response
  | .unsent byCaller => (none, if byCaller then .aborted true else .broken)
  | .sent response => (some ⟨key, response⟩, response)

/-- One `fetch`; an empty key is not attached. -/
def fetch (key : Option JsString) (turn : Turn) : Option Attempt × Response :=
  match key with
  | none | some [] => turn.attempt none
  | some key =>
      match headerValue key with
      | some value => turn.attempt (some value)
      | none => (none, .broken)

/-- The attempts of a call, and the stage it comes to. -/
structure Sending where
  attempts : List Attempt
  stage : Stage

/-- The loop from attempt number `k` on, with `left` more behind it; requests
are numbered from `n`. -/
def Call.sendFrom (call : Call) (key : Option JsString) (turns : Nat → Turn) (n : Nat) : Nat → Nat → Sending
  | 0, k =>
      let (attempt, response) := fetch key (turns k)
      ⟨attempt.toList, call.next k (n + k) response⟩
  | left + 1, k =>
      let (attempt, response) := fetch key (turns k)
      match call.next k (n + k) response with
      | .sleeping _ =>
          let rest := call.sendFrom key turns n left (k + 1)
          ⟨attempt.toList ++ rest.attempts, rest.stage⟩
      | stage => ⟨attempt.toList, stage⟩

/-- `sendWithRetries`, with all that meets it. -/
def Call.sendWithRetries (call : Call) (platform : Platform) (key : KeyOption) (turns : Nat → Turn) (n : Nat) : Sending :=
  let key := idempotencyKey platform key
  if call.options.validBody then call.sendFrom key turns n call.options.retries 0
  else ⟨[], call.method.over (.error .clientValidation)⟩

/-- The options that `placeBet` calls `request` with. -/
def betOptions (validBody : Bool) : RequestOptions :=
  { cacheTtl := none, cacheTags := [CacheTag.BLOCKCHAIN, CacheTag.MARKETS], maxRetries := none, idempotent := false,
    validBody }

/-- `options.idempotencyKey ?? true`. -/
def KeyOption.ofBet : Option JsString → KeyOption
  | some key => .given key
  | none => .fresh

/-- What comes of a `placeBet`. -/
def placeBet (platform : Platform) (url : String) (key : Option JsString) (validBody : Bool) (turns : Nat → Turn) :
    Sending :=
  Call.sendWithRetries ⟨.post, url, betOptions validBody, .sending 0 0⟩ platform (.ofBet key) turns 0

/-! ## §3. What is claimed of them. -/

/-- Attempts that place a bet once: all of them carry one key of 1 to 128
characters, there is one more than retries at most, and each but the last was
answered with a 429. -/
structure OneBet (maxRetries : Nat) (attempts : List Attempt) : Prop where
  key : ∃ key : List UInt8, 1 ≤ key.length ∧ key.length ≤ 128 ∧ ∀ a ∈ attempts, a.idempotencyKey = some key
  count : attempts.length ≤ maxRetries + 1
  retried : attempts.IsChain fun a _ => a.response = .failed 429

/-- A key that is a header: of 1 to 128 units, and not of white space alone. -/
def IsUsable (key : JsString) : Prop := isValidIdempotencyKey key = true ∧ ∃ u ∈ key, isHttpSpace u = false

instance (key : JsString) : Decidable (IsUsable key) := inferInstanceAs (Decidable (_ ∧ _))

/-! ## §4. Keys. -/

section Keys

variable {key : JsString} {value : List UInt8}

theorem normalize_eq_nil_iff : normalize key = [] ↔ ∀ u ∈ key, isHttpSpace u = true := by
  unfold normalize
  rw [List.rdropWhile_eq_nil_iff]
  constructor
  · intro h
    apply List.dropWhile_eq_nil_iff.mp
    cases hrest : key.dropWhile isHttpSpace with
    | nil => rfl
    | cons u rest =>
        -- the first unit that is left is no white space
        have hhead := List.head?_dropWhile_not isHttpSpace key
        have hspace := h u (by rw [hrest]; exact List.mem_cons_self)
        rw [hrest] at hhead
        exact absurd hspace (by simpa using hhead)
  · intro h u hu
    exact h u ((List.dropWhile_sublist _).subset hu)

theorem length_normalize_le (key : JsString) : (normalize key).length ≤ key.length := by
  unfold normalize
  exact (List.rdropWhile_prefix _ _).length_le.trans (List.dropWhile_sublist _).length_le

/-- **A header value** is no longer than the key, and empty for white space alone. -/
theorem headerValue_spec (h : headerValue key = some value) :
    value.length ≤ key.length ∧ (value = [] ↔ ∀ u ∈ key, isHttpSpace u = true) := by
  unfold headerValue at h
  split at h
  · obtain rfl := Option.some.inj h
    rw [List.length_map, List.map_eq_nil_iff]
    exact ⟨length_normalize_le key, normalize_eq_nil_iff⟩
  · cases h

/-- A header value is refused for a unit that is no white space. -/
theorem exists_of_headerValue_none (h : headerValue key = none) : ∃ u ∈ key, isHttpSpace u = false := by
  by_contra hall
  push Not at hall
  have hspace : ∀ u ∈ key, isHttpSpace u = true := fun u hu => by simpa using hall u hu
  have hbyte : key.all (· ≤ 0xFF) = true := List.all_eq_true.mpr fun u hu => by
    have hu := hspace u hu
    simp only [isHttpSpace, Bool.or_eq_true, beq_iff_eq] at hu
    rcases hu with ((rfl | rfl) | rfl) | rfl <;> rfl
  unfold headerValue at h
  rw [hbyte, normalize_eq_nil_iff.mpr hspace] at h
  cases h

theorem length_rfc4122 (bytes : Vector UInt8 16) : (rfc4122 bytes).toList.length = 16 := Vector.length_toList

theorem length_uuid (bytes : Vector UInt8 16) : (uuid bytes).length = 36 := by
  have hhex : (Hex.encode (rfc4122 bytes).toList).length = 32 := by
    rw [Hex.length_encode, length_rfc4122]
  unfold uuid dash Utf16.ascii
  simp [hhex]

theorem length_toString36 (now : TimeValue) : (toString36 now.ms).length ≤ 12 := by
  have hdigits : (Nat.digits 36 now.ms.natAbs).length ≤ 11 := by
    rw [Nat.digits_length_le_iff (by decide)]
    have hbound := now.bound
    norm_num
    omega
  unfold toString36 dash Utf16.ascii
  rw [List.length_append]
  split <;> split <;> simp <;> omega

/-- **A fresh key** can be used. -/
theorem isUsable_newIdempotencyKey (platform : Platform) : IsUsable (newIdempotencyKey platform) := by
  have hvalid : ∀ key : JsString, 0 < key.length → key.length ≤ 128 → isValidIdempotencyKey key = true := by
    intro key hpos hle
    unfold isValidIdempotencyKey MAX_KEY_LENGTH
    simp [hpos, hle]
  have huuid : ∀ bytes, IsUsable (uuid bytes) := by
    intro bytes
    have hlength := length_uuid bytes
    have hdash : (45 : UInt16) ∈ uuid bytes := by
      have hmem : (45 : UInt16) ∈ dash := by decide
      unfold uuid
      simp [hmem]
    exact ⟨hvalid _ (by omega) (by omega), 45, hdash, rfl⟩
  cases platform with
  | randomUUID bytes | getRandomValues bytes => exact huuid bytes
  | fallback now random =>
      have hnow := length_toString36 now
      have hrandom : ((randomString36 random).take 12).length ≤ 12 := List.length_take_le _ _
      have hlength : (newIdempotencyKey (.fallback now random)).length
          = 5 + (toString36 now.ms).length + 1 + (((randomString36 random).take 12).length - 2) := by
        unfold newIdempotencyKey dash Utf16.ascii
        simp only [List.length_append, List.length_drop, List.length_map]
        rfl
      exact ⟨hvalid _ (by omega) (by omega), 105, List.mem_cons_self, rfl⟩

/-- **The key of a call** is of 1 to 128 units. -/
theorem isValid_idempotencyKey {platform : Platform} {option : KeyOption}
    (h : idempotencyKey platform option = some key) :
    isValidIdempotencyKey key = true := by
  cases option with
  | absent => cases h
  | fresh =>
      obtain rfl := Option.some.inj h
      exact (isUsable_newIdempotencyKey platform).1
  | given given =>
      have h : (if isValidIdempotencyKey given then some given else none) = some key := h
      split at h
      · next hvalid =>
          obtain rfl := Option.some.inj h
          exact hvalid
      · cases h

/-- The key of a bet is more than white space if the caller's can be used, or is left to the client. -/
theorem exists_idempotencyKey_iff (platform : Platform) (option : Option JsString) :
    (∃ k ∈ idempotencyKey platform (.ofBet option), ∃ u ∈ k, isHttpSpace u = false) ↔ ∀ k ∈ option, IsUsable k := by
  cases option with
  | none => exact iff_of_true ⟨_, rfl, (isUsable_newIdempotencyKey platform).2⟩ nofun
  | some given =>
      have hgiven : idempotencyKey platform (.ofBet (some given))
          = if isValidIdempotencyKey given then some given else none := rfl
      rw [hgiven]
      unfold IsUsable
      by_cases hvalid : isValidIdempotencyKey given = true
      · simp [hvalid]
      · simp [hvalid]

end Keys

/-! ## §5. The loop. -/

section Loop

variable {call : Call} {key : Option JsString} {turns : Nat → Turn} {n left k : Nat}

/-- The header that the attempts of a call carry. -/
def carried : Option JsString → Option (List UInt8)
  | none | some [] => none
  | some key => headerValue key

/-- **One attempt**: nothing is sent, and `fetch` has failed, or the request carries the key. -/
theorem fetch_cases (key : Option JsString) (turn : Turn) :
    ((fetch key turn).1 = none ∧ ∀ status, (fetch key turn).2 ≠ .failed status)
      ∨ (fetch key turn).1 = some ⟨carried key, (fetch key turn).2⟩ := by
  have hturn : ∀ value, ((turn.attempt value).1 = none ∧ ∀ status, (turn.attempt value).2 ≠ .failed status)
      ∨ (turn.attempt value).1 = some ⟨value, (turn.attempt value).2⟩ := by
    intro value
    cases turn with
    | unsent byCaller => cases byCaller <;> exact .inl ⟨rfl, nofun⟩
    | sent response => exact .inr rfl
  unfold fetch carried
  match key with
  | none => exact hturn none
  | some [] => exact hturn none
  | some (u :: us) =>
      dsimp only
      cases headerValue (u :: us) with
      | some value => exact hturn (some value)
      | none => exact .inl ⟨rfl, nofun⟩

/-- **A POST goes on** after a 429 alone. -/
theorem failed_of_sleeping (hmethod : call.method = .post) (hidempotent : call.options.idempotent = false)
    {attempt request k : Nat} {response : Response} (h : call.next attempt request response = .sleeping k) :
    response = .failed 429 := by
  unfold Call.next at h
  cases response with
  | ok data =>
      rw [hmethod] at h
      cases h
  | failed status =>
      dsimp only at h
      split at h
      · next hretries =>
          unfold Call.retriesStatus at hretries
          simp [hmethod, hidempotent] at hretries
          rw [hretries.2]
      · rw [hmethod] at h
        cases h
  | broken =>
      dsimp only at h
      split at h
      · next hretries =>
          unfold Call.retriesBroken at hretries
          simp [hmethod] at hretries
      · rw [hmethod] at h
        cases h
  | aborted byCaller =>
      rw [hmethod] at h
      cases h

/-- Attempts that carry a key, of which each but the last was answered with a 429. -/
structure Carry (key : Option JsString) (attempts : List Attempt) : Prop where
  retried : attempts.IsChain fun a _ => a.response = .failed 429
  key : ∀ a ∈ attempts, a.idempotencyKey = carried key

theorem carry_fetch (key : Option JsString) (turn : Turn) :
    Carry key (fetch key turn).1.toList ∧ (fetch key turn).1.toList.length ≤ 1 := by
  rcases fetch_cases key turn with ⟨hnone, -⟩ | hsome
  · rw [hnone]
    exact ⟨⟨List.isChain_nil, nofun⟩, Nat.zero_le 1⟩
  · rw [hsome]
    refine ⟨⟨List.isChain_singleton _, fun a ha => ?_⟩, Nat.le_refl 1⟩
    rw [List.mem_singleton.mp ha]

theorem sendFrom_succ (call : Call) (key : Option JsString) (turns : Nat → Turn) (n left k : Nat) :
    call.sendFrom key turns n (left + 1) k = match call.next k (n + k) (fetch key (turns k)).2 with
      | .sleeping _ => ⟨(fetch key (turns k)).1.toList ++ (call.sendFrom key turns n left (k + 1)).attempts,
          (call.sendFrom key turns n left (k + 1)).stage⟩
      | stage => ⟨(fetch key (turns k)).1.toList, stage⟩ := rfl

/-- A POST is over, or it was answered with a 429 and is sent again. -/
theorem attempts_succ (hmethod : call.method = .post) (hidempotent : call.options.idempotent = false) :
    (call.sendFrom key turns n (left + 1) k).attempts = (fetch key (turns k)).1.toList
      ∨ (fetch key (turns k)).1 = some ⟨carried key, .failed 429⟩ ∧ (call.sendFrom key turns n (left + 1) k).attempts
        = ⟨carried key, .failed 429⟩ :: (call.sendFrom key turns n left (k + 1)).attempts := by
  rw [sendFrom_succ]
  split
  · next m hsleeping =>
      have hresponse := failed_of_sleeping hmethod hidempotent hsleeping
      rcases fetch_cases key (turns k) with ⟨-, hnot⟩ | hsome
      · exact absurd hresponse (hnot 429)
      · rw [hresponse] at hsome
        rw [hsome]
        exact .inr ⟨rfl, rfl⟩
  · exact .inl rfl

/-- **All attempts** carry the key, and there are no more than the loop has turns. -/
theorem carry_sendFrom (hmethod : call.method = .post) (hidempotent : call.options.idempotent = false)
    (key : Option JsString) (turns : Nat → Turn) (n left k : Nat) :
    Carry key (call.sendFrom key turns n left k).attempts
      ∧ (call.sendFrom key turns n left k).attempts.length ≤ left + 1 := by
  induction left generalizing k with
  | zero => exact carry_fetch key (turns k)
  | succ left ih =>
      rcases attempts_succ hmethod hidempotent with hover | ⟨-, hmore⟩
      · obtain ⟨hcarry, hlength⟩ := carry_fetch key (turns k)
        rw [hover]
        exact ⟨hcarry, by omega⟩
      · obtain ⟨⟨hretried, hkey⟩, hlength⟩ := ih (k + 1)
        rw [hmore]
        refine ⟨⟨List.isChain_cons.mpr ⟨fun _ _ => rfl, hretried⟩, ?_⟩, Nat.succ_le_succ hlength⟩
        exact List.forall_mem_cons.mpr ⟨rfl, hkey⟩

theorem attempts_eq_nil_iff (hmethod : call.method = .post) (hidempotent : call.options.idempotent = false) :
    (call.sendFrom key turns n left k).attempts = [] ↔ (fetch key (turns k)).1 = none := by
  cases left with
  | zero => exact Option.toList_eq_nil_iff
  | succ left =>
      rcases attempts_succ hmethod hidempotent with hover | ⟨hfetch, hmore⟩
      · rw [hover]
        exact Option.toList_eq_nil_iff
      · rw [hmore, hfetch]
        exact iff_of_false nofun nofun

/-- Nothing is sent when the signal is aborted or the request cannot be made, or for the key. -/
theorem fetch_eq_none_iff {turn : Turn} :
    (fetch key turn).1 = none ↔ turn.isUnsent = true ∨ ∃ k ∈ key, headerValue k = none := by
  have hturn : ∀ value, (turn.attempt value).1 = none ↔ turn.isUnsent = true := by
    intro value
    cases turn with
    | unsent byCaller => exact iff_of_true rfl rfl
    | sent response => exact iff_of_false nofun nofun
  unfold fetch
  match key with
  | none => simp [hturn]
  | some [] =>
      have hempty : headerValue [] = some [] := rfl
      simp [hturn, hempty]
  | some (u :: us) =>
      dsimp only
      cases hvalue : headerValue (u :: us) with
      | some value => simp [hturn, hvalue]
      | none => simp [hvalue]

theorem oneBet_nil (maxRetries : Nat) : OneBet maxRetries [] :=
  ⟨⟨[0], Nat.le_refl 1, by decide, nofun⟩, Nat.zero_le _, List.isChain_nil⟩

/-- What is carried is a key that `fetch` takes. -/
theorem carried_eq_some_iff {value : List UInt8} :
    carried key = some value ↔ ∃ k ∈ key, k ≠ [] ∧ headerValue k = some value := by
  unfold carried
  match key with
  | none => simp
  | some [] => simp
  | some (u :: us) => simp

/-- **One bet** is placed when nothing is sent, or with a key that is more than white space. -/
theorem oneBet_sendFrom_iff (hmethod : call.method = .post) (hidempotent : call.options.idempotent = false)
    (hkey : ∀ k ∈ key, k.length ≤ 128) :
    OneBet left (call.sendFrom key turns n left 0).attempts
      ↔ (turns 0).isUnsent = true ∨ ∃ k ∈ key, ∃ u ∈ k, isHttpSpace u = false := by
  obtain ⟨⟨hretried, hcarried⟩, hcount⟩ := carry_sendFrom hmethod hidempotent key turns n left 0
  have hnil : (call.sendFrom key turns n left 0).attempts = []
      ↔ (turns 0).isUnsent = true ∨ ∃ k ∈ key, headerValue k = none :=
    (attempts_eq_nil_iff hmethod hidempotent).trans fetch_eq_none_iff
  constructor
  · -- with no attempt the key was refused, which no key of white space is
    rintro ⟨⟨value, hpos, -, hvalue⟩, -, -⟩
    cases hattempts : (call.sendFrom key turns n left 0).attempts with
    | nil =>
        refine (hnil.mp hattempts).imp_right fun hrefused => ?_
        obtain ⟨k, hk, hnone⟩ := hrefused
        exact ⟨k, hk, exists_of_headerValue_none hnone⟩
    | cons a rest =>
        -- the first attempt carries the key
        have ha : a ∈ (call.sendFrom key turns n left 0).attempts := hattempts ▸ List.mem_cons_self
        obtain ⟨k, hk, -, hsome⟩ := carried_eq_some_iff.mp ((hcarried a ha).symm.trans (hvalue a ha))
        refine .inr ⟨k, hk, ?_⟩
        by_contra hall
        push Not at hall
        have hempty := (headerValue_spec hsome).2.mpr fun u hu => by simpa using hall u hu
        rw [hempty] at hpos
        cases hpos
  · intro h
    by_cases hattempts : (call.sendFrom key turns n left 0).attempts = []
    · rw [hattempts]
      exact oneBet_nil left
    · -- every attempt carries the bytes of the key, and `headerValue` keeps some of them
      rw [hnil, not_or] at hattempts
      obtain ⟨k, hk, u, hu, hspace⟩ := h.resolve_left hattempts.1
      cases hvalue : headerValue k with
      | none => exact absurd ⟨k, hk, hvalue⟩ hattempts.2
      | some value =>
          obtain ⟨hlength, hempty⟩ := headerValue_spec hvalue
          have hsome : carried key = some value := carried_eq_some_iff.mpr ⟨k, hk, List.ne_nil_of_mem hu, hvalue⟩
          have hne : value ≠ [] := fun hnil => by
            have hall := hempty.mp hnil u hu
            rw [hspace] at hall
            cases hall
          refine ⟨⟨value, List.length_pos_iff.mpr hne, hlength.trans (hkey k hk), fun a ha => ?_⟩, hcount, hretried⟩
          rw [hcarried a ha, hsome]

end Loop

/-! ## §6. The loop in the client. -/

section Client

variable {s : State} {i : Nat} {call : Call} {key : Option JsString} {turns : Nat → Turn}

/-- What the client is told of the call number `i`: a response, and the end of a pause, in turns. -/
def script (i : Nat) (key : Option JsString) (turns : Nat → Turn) : Nat → Nat → List Action
  | 0, k => [.respond i (fetch key (turns k)).2]
  | left + 1, k => .respond i (fetch key (turns k)).2 :: .wake i :: script i key turns left (k + 1)

/-- A call that is neither under way nor in a pause. -/
def Stage.IsIdle (stage : Stage) : Prop :=
  (∀ attempt request, stage ≠ .sending attempt request) ∧ ∀ attempt, stage ≠ .sleeping attempt

theorem isIdle_over (method : HttpMethod) (outcome : Outcome) : (method.over outcome).IsIdle := by
  cases method <;> exact ⟨nofun, nofun⟩

theorem wake_of_isIdle (hcall : s.calls[i]? = some call) (hidle : call.stage.IsIdle) : s.wake i = s := by
  obtain ⟨method, url, options, stage⟩ := call
  unfold State.wake
  rw [hcall]
  cases stage with
  | sleeping attempt => exact absurd rfl (hidle.2 attempt)
  | sending | joined | settled | returned => rfl

theorem respond_of_isIdle (hcall : s.calls[i]? = some call) (hidle : call.stage.IsIdle) (response : Response) :
    s.respond i response = s := by
  obtain ⟨method, url, options, stage⟩ := call
  unfold State.respond
  rw [hcall]
  cases stage with
  | sending attempt request => exact absurd rfl (hidle.1 attempt request)
  | sleeping | joined | settled | returned => rfl

/-- A call that is over does not listen. -/
theorem run_script_of_isIdle (hcall : s.calls[i]? = some call) (hidle : call.stage.IsIdle) (left k : Nat) :
    run step s (script i key turns left k) = s := by
  induction left generalizing k with
  | zero => exact respond_of_isIdle hcall hidle _
  | succ left ih =>
      show run step ((s.respond i _).wake i) (script i key turns left (k + 1)) = s
      rw [respond_of_isIdle hcall hidle, wake_of_isIdle hcall hidle, ih]

theorem getElem?_respond {attempt request : Nat} (hcall : s.calls[i]? = some call)
    (hstage : call.stage = .sending attempt request) (response : Response) :
    (s.respond i response).calls[i]? = some { call with stage := call.next attempt request response }
      ∧ (s.respond i response).sent = s.sent := by
  obtain ⟨method, url, options, stage⟩ := call
  obtain rfl : stage = .sending attempt request := hstage
  unfold State.respond
  rw [hcall]
  dsimp only
  rw [getElem?_setStage, if_pos rfl]
  show (s.calls[i]?).map _ = _ ∧ _
  rw [hcall]
  exact ⟨rfl, rfl⟩

theorem getElem?_wake {attempt : Nat} (hcall : s.calls[i]? = some call) (hstage : call.stage = .sleeping attempt) :
    (s.wake i).calls[i]? = some { call with stage := .sending (attempt + 1) s.sent } ∧ (s.wake i).sent = s.sent + 1 := by
  obtain ⟨method, url, options, stage⟩ := call
  obtain rfl : stage = .sleeping attempt := hstage
  unfold State.wake
  rw [hcall]
  dsimp only
  rw [getElem?_setStage, if_pos rfl]
  show (s.calls[i]?).map _ = _ ∧ _
  rw [hcall]
  exact ⟨rfl, rfl⟩

theorem sendFrom_of_sleeping {left k n : Nat} (h : call.next k (n + k) (fetch key (turns k)).2 = .sleeping k) :
    (call.sendFrom key turns n (left + 1) k).stage = (call.sendFrom key turns n left (k + 1)).stage := by
  rw [sendFrom_succ, h]

theorem sendFrom_of_over {left k n : Nat} {outcome : Outcome}
    (h : call.next k (n + k) (fetch key (turns k)).2 = call.method.over outcome) :
    (call.sendFrom key turns n (left + 1) k).stage = call.method.over outcome := by
  rw [sendFrom_succ, h]
  cases call.method <;> rfl

/-- **The loop is what the client does**: told the same, a call comes to the same stage. -/
theorem run_script {left k n : Nat} (hcall : s.calls[i]? = some { call with stage := .sending k (n + k) })
    (hsent : s.sent = n + k + 1) : (run step s (script i key turns left k)).calls[i]?
      = some { call with stage := (call.sendFrom key turns n left k).stage } := by
  induction left generalizing s k with
  | zero => exact (getElem?_respond hcall rfl _).1
  | succ left ih =>
      obtain ⟨hresponded, hsame⟩ : (s.respond i (fetch key (turns k)).2).calls[i]?
          = some { call with stage := call.next k (n + k) (fetch key (turns k)).2 } ∧ _ := getElem?_respond hcall rfl _
      show (run step ((s.respond i _).wake i) (script i key turns left (k + 1))).calls[i]? = _
      rcases call.next_cases k (n + k) (fetch key (turns k)).2 with hsleeping | ⟨outcome, hover, -⟩
      · obtain ⟨hwoken, hnext⟩ := getElem?_wake hresponded hsleeping
        rw [sendFrom_of_sleeping hsleeping]
        refine ih ?_ (by omega)
        rw [hwoken, hsame, hsent]
        rfl
      · -- nothing that comes later is heard
        have hidle := isIdle_over call.method outcome
        rw [hover] at hresponded
        rw [wake_of_isIdle hresponded hidle, run_script_of_isIdle hresponded hidle, hresponded, sendFrom_of_over hover]

end Client

/-! ## §7. Bets. -/

section Bets

variable (platform : Platform) (url : String) (key : Option JsString) (validBody : Bool) (turns : Nat → Turn)

/-- **`placeBet` is what the client does**: a bet that is asked for before any other
request, told the same, comes to the same stage. -/
theorem run_placeBet {s : State} (hsent : s.sent = 0) (baseUrl marketId : String)
    (hurl : url = baseUrl ++ "/api/v1/blockchain/markets/" ++ marketId ++ "/bets") :
    (run step s (api.placeBet baseUrl marketId validBody
        :: script s.calls.length (idempotencyKey platform (.ofBet key)) turns DEFAULT_MAX_RETRIES 0)).calls[s.calls.length]?
      = some ⟨.post, url, betOptions validBody, (placeBet platform url key validBody turns).stage⟩ := by
  show (run step (s.sendWithRetries .post _ (betOptions validBody)) (script _ _ turns _ 0)).calls[_]? = _
  rw [← hurl]
  cases validBody with
  | true =>
      have hpushed : (s.sendWithRetries .post url (betOptions true)).calls[s.calls.length]?
          = some ⟨.post, url, betOptions true, .sending 0 (0 + 0)⟩ := by
        show ({ s with sent := s.sent + 1 }.push ⟨.post, url, betOptions true, .sending 0 s.sent⟩).calls[_]? = _
        rw [hsent]
        exact List.getElem?_concat_length
      exact @run_script _ _ ⟨.post, url, betOptions true, .sending 0 0⟩ _ _ DEFAULT_MAX_RETRIES 0 0 hpushed
        (congrArg (· + 1) hsent)
  | false =>
      have hpushed : (s.sendWithRetries .post url (betOptions false)).calls[s.calls.length]?
          = some ⟨.post, url, betOptions false, .returned (.error .clientValidation)⟩ := List.getElem?_concat_length
      rw [run_script_of_isIdle hpushed (isIdle_over .post _), hpushed]
      rfl

/-- **Retries never double a bet**, exactly when no attempt is made, or the key
is left to the client, or can be used. -/
theorem placeBet_once_iff : OneBet DEFAULT_MAX_RETRIES (placeBet platform url key validBody turns).attempts
    ↔ validBody = false ∨ (turns 0).isUnsent = true ∨ ∀ k ∈ key, IsUsable k := by
  cases validBody with
  | false => exact iff_of_true (oneBet_nil _) (.inl rfl)
  | true =>
      have hlength : ∀ k ∈ idempotencyKey platform (.ofBet key), k.length ≤ 128 := by
        intro k hk
        have hvalid := isValid_idempotencyKey hk
        unfold isValidIdempotencyKey MAX_KEY_LENGTH at hvalid
        simp only [Bool.and_eq_true, decide_eq_true_eq] at hvalid
        exact hvalid.2
      rw [← exists_idempotencyKey_iff platform key]
      exact (oneBet_sendFrom_iff rfl rfl hlength).trans (by simp)

/-- An empty key is dropped, and the bet sent without one. -/
theorem empty_key_dropped : ¬ OneBet DEFAULT_MAX_RETRIES
    (placeBet (.randomUUID (Vector.replicate 16 0)) "" (some []) true fun _ => .sent (.ok none)).attempts := by
  rintro ⟨⟨value, -, -, hvalue⟩, -, -⟩
  exact nomatch hvalue ⟨none, .ok none⟩ List.mem_cons_self

end Bets

end PredictIQ.Client
