/-
  PredictIQ.Client.OwnWrites: whether the web client reads its own writes.

  A mutation that resolves drops the cached entries that carry its tags, and
  leaves alone the GETs in flight: a later GET may join one of them, or find in
  the cache what it writes there afterwards.  `reads_own_writes` says that a run
  reads its own writes if no GET of the tags is in flight when a mutation
  resolves and the GETs that share a response declare the same tags.
-/
import PredictIQ.Client.PublicClient

namespace PredictIQ.Client

open Foundation

/-! ## §1. The property and its condition. -/

/-- A GET of something with one of the tags. -/
def Call.Reads (call : Call) (tags : List String) : Prop :=
  call.method = .get ∧ Meets call.options.cacheTags tags

instance (call : Call) (tags : List String) : Decidable (call.Reads tags) := inferInstanceAs (Decidable (_ ∧ _))

/-- The HTTP request whose response is awaited or held. -/
def Stage.request? : Stage → Option Nat
  | .sending _ request => some request
  | .settled (.ok fetched) | .returned (.ok fetched) => some fetched.request
  | _ => none

def Stage.isReturned : Stage → Bool
  | .returned _ => true
  | _ => false

/-- The tags of the mutation that an action resolves successfully. -/
def State.resolves (s : State) : Action → Option (List String)
  | .respond i (.ok data) =>
      match s.calls[i]? with
      | some ⟨method, _, options, .sending _ _⟩ =>
          if method ≠ .get ∧ succeeded data then some options.cacheTags else none
      | _ => none
  | _ => none

/-- The GETs of what a mutation has written, started after it has resolved,
answer with data that was asked for after it has. -/
def ReadsOwnWrites (now : Int) (as : List Action) : Prop :=
  ∀ bs a cs tags, as = bs ++ a :: cs → (run step (init now) bs).resolves a = some tags →
    ∀ i call fetched, (run step (init now) (bs ++ [a])).calls.length ≤ i →
      (run step (init now) as).calls[i]? = some call → call.Reads tags →
      (run step (init now) as).result i = some (.ok fetched) →
      (run step (init now) (bs ++ [a])).sent ≤ fetched.request

/-- When a mutation resolves, no GET of what it has written has a response under way. -/
def State.Quiet (s : State) (a : Action) : Prop :=
  ∀ tags ∈ s.resolves a, ∀ call ∈ s.calls, call.Reads tags →
    call.stage.isReturned = true ∨ call.stage.request? = none

instance (s : State) (a : Action) : Decidable (s.Quiet a) := by
  unfold State.Quiet
  infer_instance

/-- What a GET finds in the cache or in flight was asked for under all its tags. -/
def State.Agrees (s : State) : Action → Prop
  | .request .get url options =>
      (options.caches → ∀ entry ∈ s.apiCache.cache.lookup url, options.cacheTags ⊆ entry.tags)
        ∧ ∀ leader ∈ s.apiCache.inFlight.lookup url, ∀ call ∈ s.calls[leader]?,
            options.cacheTags ⊆ call.options.cacheTags
  | _ => True

instance (s : State) : (a : Action) → Decidable (s.Agrees a)
  | .request .get _ _ => inferInstanceAs (Decidable (_ ∧ _))
  | .request .post .. | .request .delete .. | .respond .. | .wake _ | .finish _ | .clock _ => .isTrue trivial

/-! ## §2. What a step does. -/

/-- How a new call begins. -/
inductive State.Opens (s : State) (method : HttpMethod) (url : String) (options : RequestOptions) : Stage → Prop
  | cached {entry : CacheEntry} : method = .get → options.caches = true → s.apiCache.cache.lookup url = some entry →
      Opens s method url options (.returned (.ok entry.fetched))
  | joined {leader : Nat} : method = .get → s.apiCache.inFlight.lookup url = some leader →
      Opens s method url options (.joined leader)
  | sending : Opens s method url options (.sending 0 s.sent)
  | invalid : Opens s method url options (method.over (.error .clientValidation))

/-- A call is started: entries may expire, and a GET may become the one in
flight for its URL. -/
structure State.Starts (s s' : State) (method : HttpMethod) (url : String) (options : RequestOptions) (stage : Stage) :
    Prop where
  calls : s'.calls = s.calls ++ [⟨method, url, options, stage⟩]
  opens : s.Opens method url options stage
  sent : s.sent ≤ s'.sent
  cache : ∀ key entry, s'.apiCache.cache.lookup key = some entry → s.apiCache.cache.lookup key = some entry
  inFlight : ∀ key i, s'.apiCache.inFlight.lookup key = some i → s.apiCache.inFlight.lookup key = some i
    ∨ key = url ∧ i = s.calls.length ∧ method = .get ∧ stage.isReturned = false

/-- The effects that an action can have. -/
inductive State.Does (s : State) : Action → State → Prop
  | starts {method url options stage s'} : s.Starts s' method url options stage → Does s (.request method url options) s'
  | responds {i call attempt request response} : s.calls[i]? = some call → call.stage = .sending attempt request →
      Does s (.respond i response)
        ({ s with apiCache := call.absorb request s.now s.apiCache response }.setStage i (call.next attempt request response))
  | wakes {i call attempt} : s.calls[i]? = some call → call.stage = .sleeping attempt →
      Does s (.wake i) ({ s with sent := s.sent + 1 }.setStage i (.sending (attempt + 1) s.sent))
  | finishes {i call outcome} : s.calls[i]? = some call → call.stage = .settled outcome →
      Does s (.finish i)
        ({ s with apiCache.inFlight := s.apiCache.inFlight.erase call.url }.setStage i (.returned outcome))
  | idles {a} : Does s a s
  | ticks {now} : Does s (.clock now) { s with now }

section Steps

variable {s s' : State} {a : Action} {method : HttpMethod} {url : String} {options : RequestOptions}

/-- A look-up finds an entry, and may drop it. -/
theorem ApiCache.getWithMeta_spec (c : ApiCache) (key : String) (now : Int) :
    (∀ found, (c.getWithMeta key now).1 = some found →
        ∃ entry, c.cache.lookup key = some entry ∧ entry.fetched = found.fetched)
      ∧ (c.getWithMeta key now).2.inFlight = c.inFlight
      ∧ ∀ k entry, (c.getWithMeta key now).2.cache.lookup k = some entry → c.cache.lookup k = some entry := by
  have herase : ∀ k entry, (c.cache.erase key).lookup k = some entry → c.cache.lookup k = some entry := by
    intro k entry h
    rw [Store.lookup_erase_eq] at h
    split at h
    · cases h
    · exact h
  unfold ApiCache.getWithMeta
  cases hlookup : c.cache.lookup key with
  | none => exact ⟨fun _ h => (by cases h), rfl, fun _ _ h => h⟩
  | some entry =>
      dsimp only
      split
      · exact ⟨fun _ h => (by cases h), rfl, herase⟩
      · split
        · exact ⟨fun _ h => (by cases h), rfl, herase⟩
        · exact ⟨fun _ h => ⟨entry, rfl, by cases h; rfl⟩, rfl, fun _ _ h => h⟩

theorem ApiCache.get_spec (c : ApiCache) (key : String) (now : Int) :
    (∀ fetched, (c.get key now).1 = some fetched → ∃ entry, c.cache.lookup key = some entry ∧ entry.fetched = fetched)
      ∧ (c.get key now).2.inFlight = c.inFlight
      ∧ ∀ k entry, (c.get key now).2.cache.lookup k = some entry → c.cache.lookup k = some entry := by
  obtain ⟨hfound, hrest⟩ := c.getWithMeta_spec key now
  unfold ApiCache.get
  split <;> rename_i heq <;> rw [heq] at hfound hrest
  · exact ⟨fun _ h => (by cases h), hrest⟩
  · exact ⟨fun fetched h => hfound _ rfl |>.imp fun _ h' => ⟨h'.1, h'.2.trans (Option.some.inj h)⟩, hrest⟩
  · exact ⟨fun _ h => (by cases h), hrest⟩

theorem starts_sendWithRetries (s : State) (method : HttpMethod) (url : String) (options : RequestOptions) :
    ∃ stage, s.Starts (s.sendWithRetries method url options) method url options stage
      ∧ (method = .get → stage.isReturned = false)
      ∧ (s.sendWithRetries method url options).apiCache = s.apiCache := by
  unfold State.sendWithRetries
  split
  · exact ⟨_, ⟨rfl, .sending, Nat.le_succ _, fun _ _ h => h, fun _ _ h => .inl h⟩, fun _ => rfl, rfl⟩
  · refine ⟨_, ⟨rfl, .invalid, le_refl _, fun _ _ h => h, fun _ _ h => .inl h⟩, fun hget => ?_, rfl⟩
    rw [hget]
    rfl

theorem starts_dedupe (s : State) (url : String) (options : RequestOptions) :
    ∃ stage, s.Starts (s.dedupe url options) .get url options stage := by
  unfold State.dedupe
  cases hlookup : s.apiCache.inFlight.lookup url with
  | some leader => exact ⟨_, rfl, .joined rfl hlookup, le_refl _, fun _ _ h => h, fun _ _ h => .inl h⟩
  | none =>
      obtain ⟨stage, hstarts, hreturned, hcache⟩ := starts_sendWithRetries s .get url options
      refine ⟨stage, hstarts.calls, hstarts.opens, hstarts.sent, hstarts.cache, fun key i h => ?_⟩
      have h : ((s.sendWithRetries .get url options).apiCache.inFlight.insert url s.calls.length).lookup key = some i := h
      rw [hcache, Store.lookup_insert_eq] at h
      split at h
      · exact .inr ⟨‹_›, (Option.some.inj h).symm, rfl, hreturned rfl⟩
      · exact .inl h

theorem starts_request (s : State) (method : HttpMethod) (url : String) (options : RequestOptions) :
    ∃ stage, s.Starts (s.request method url options) method url options stage := by
  have hsend : ∀ method, ∃ stage, s.Starts (s.sendWithRetries method url options) method url options stage := by
    intro method
    obtain ⟨stage, hstarts, -⟩ := starts_sendWithRetries s method url options
    exact ⟨stage, hstarts⟩
  cases method with
  | post => exact hsend .post
  | delete => exact hsend .delete
  | get =>
      unfold State.request
      dsimp only
      by_cases hcaches : options.caches = true
      · rw [if_pos hcaches]
        obtain ⟨hfound, hinFlight, hcache⟩ := s.apiCache.get_spec url s.now
        split
        · rename_i cached apiCache heq
          rw [heq] at hfound hinFlight hcache
          obtain ⟨entry, hentry, rfl⟩ := hfound cached rfl
          refine ⟨_, rfl, .cached rfl hcaches hentry, le_refl _, hcache, fun key i h => .inl ?_⟩
          rw [← hinFlight]
          exact h
        · rename_i apiCache heq
          rw [heq] at hinFlight hcache
          -- the cache is read before the map of requests in flight, which it leaves alone
          obtain ⟨stage, hcalls, hopens, hsent, hcache', hinFlight'⟩ := starts_dedupe { s with apiCache } url options
          refine ⟨stage, hcalls, ?_, hsent, fun key entry h => hcache key entry (hcache' key entry h), fun key i h => ?_⟩
          · cases hopens with
            | cached hget hcaches hentry => exact .cached hget hcaches (hcache _ _ hentry)
            | joined hget hleader => exact .joined hget (hinFlight ▸ hleader)
            | sending => exact .sending
            | invalid => exact .invalid
          · have h := hinFlight' key i h
            rwa [show ({ s with apiCache } : State).apiCache.inFlight = s.apiCache.inFlight from hinFlight] at h
      · rw [if_neg hcaches]
        exact starts_dedupe s url options

/-- Every step has one of the effects. -/
theorem does_step (s : State) (a : Action) : s.Does a (step s a) := by
  cases a with
  | request method url options =>
      obtain ⟨stage, hstarts⟩ := starts_request s method url options
      exact .starts hstarts
  | respond i response =>
      show s.Does _ (s.respond i response)
      unfold State.respond
      split
      · exact .responds ‹_› rfl
      · exact .idles
  | wake i =>
      show s.Does _ (s.wake i)
      unfold State.wake
      split
      · exact .wakes ‹_› rfl
      · exact .idles
  | finish i =>
      show s.Does _ (s.finish i)
      unfold State.finish
      split
      · rename_i heq
        exact .finishes heq rfl
      · exact .idles
  | clock now => exact .ticks

/-! ## §3. The calls of a run. -/

/-- How a step moves a call. -/
structure Call.Moves (sent : Nat) (call call' : Call) : Prop where
  method : call'.method = call.method
  url : call'.url = call.url
  options : call'.options = call.options
  request : ∀ r, call'.stage.request? = some r → call.stage.request? = some r ∨ sent ≤ r
  returned : call.stage.isReturned = true → call'.stage.isReturned = true
  joined : ∀ leader, call'.stage = .joined leader → call.stage = .joined leader

theorem Call.Moves.refl (sent : Nat) (call : Call) : call.Moves sent call :=
  ⟨rfl, rfl, rfl, fun _ h => .inl h, id, fun _ h => h⟩

/-- A stage that is no other call's holds what the call waited for, or a new request. -/
theorem Call.moves_stage {call : Call} {sent : Nat} {stage : Stage} (hreturned : call.stage.isReturned = false)
    (hrequest : ∀ r, stage.request? = some r → call.stage.request? = some r ∨ sent ≤ r)
    (hjoined : ∀ leader, stage ≠ .joined leader) : call.Moves sent { call with stage } :=
  ⟨rfl, rfl, rfl, hrequest, fun h => (by rw [hreturned] at h; cases h), fun leader h => (hjoined leader h).elim⟩

theorem request?_returned (outcome : Outcome) :
    (Stage.returned outcome).request? = (Stage.settled outcome).request? := by
  cases outcome <;> rfl

theorem request?_over (method : HttpMethod) (outcome : Outcome) :
    (method.over outcome).request? = (Stage.settled outcome).request? := by
  cases method <;> cases outcome <;> rfl

theorem over_ne_joined (method : HttpMethod) (outcome : Outcome) (leader : Nat) :
    method.over outcome ≠ .joined leader := by
  cases method <;> exact fun h => (by cases h)

/-- **The response to an attempt** leads to a pause, or to the end of the call
with no data but that of the request it was waiting for. -/
theorem Call.next_cases (call : Call) (attempt request : Nat) (response : Response) :
    call.next attempt request response = .sleeping attempt
      ∨ ∃ outcome : Outcome, call.next attempt request response = call.method.over outcome
          ∧ ∀ fetched, outcome = .ok fetched → fetched.request = request := by
  unfold Call.next
  cases response with
  | ok data => exact .inr ⟨_, rfl, fun fetched h => by cases h; rfl⟩
  | failed status =>
      dsimp only
      split
      · exact .inl rfl
      · exact .inr ⟨_, rfl, fun fetched h => by cases h⟩
  | broken =>
      dsimp only
      split
      · exact .inl rfl
      · exact .inr ⟨_, rfl, fun fetched h => by cases h⟩
  | aborted byCaller => exact .inr ⟨_, rfl, fun fetched h => by cases h⟩

theorem Call.request?_next {call : Call} {attempt request r : Nat} {response : Response}
    (h : (call.next attempt request response).request? = some r) : r = request := by
  rcases call.next_cases attempt request response with hnext | ⟨outcome, hnext, hfetched⟩
  · rw [hnext] at h
    cases h
  · rw [hnext, request?_over] at h
    cases outcome with
    | error e => cases h
    | ok fetched => exact (Option.some.inj h).symm.trans (hfetched fetched rfl)

theorem Call.next_ne_joined (call : Call) (attempt request : Nat) (response : Response) (leader : Nat) :
    call.next attempt request response ≠ .joined leader := by
  rcases call.next_cases attempt request response with hnext | ⟨outcome, hnext, -⟩
  · rw [hnext]
    exact fun h => by cases h
  · rw [hnext]
    exact over_ne_joined call.method outcome leader

/-- A GET does not return before it has been taken out of the map. -/
theorem Call.isReturned_next {call : Call} (hget : call.method = .get) (attempt request : Nat) (response : Response) :
    (call.next attempt request response).isReturned = false := by
  rcases call.next_cases attempt request response with hnext | ⟨outcome, hnext, -⟩
  · rw [hnext]
    rfl
  · rw [hnext, hget]
    rfl

theorem getElem?_setStage (s : State) (i j : Nat) (stage : Stage) :
    (s.setStage i stage).calls[j]? = if i = j then (s.calls[j]?).map fun call => { call with stage } else s.calls[j]? := by
  show (s.calls.modify i fun call => { call with stage })[j]? = _
  rw [List.getElem?_modify]
  by_cases h : i = j
  · rw [if_pos h]
    simp [h]
  · rw [if_neg h]
    simp [h]

theorem length_setStage (s : State) (i : Nat) (stage : Stage) : (s.setStage i stage).calls.length = s.calls.length :=
  List.length_modify ..

theorem moves_setStage {i : Nat} {call : Call} {stage : Stage} {sent : Nat} (hcall : s.calls[i]? = some call)
    (hmoves : call.Moves sent { call with stage }) {j : Nat} {other : Call} (hother : s.calls[j]? = some other) :
    ∃ other', (s.setStage i stage).calls[j]? = some other' ∧ other.Moves sent other' := by
  rw [getElem?_setStage]
  by_cases h : i = j
  · subst h
    rw [hcall] at hother
    obtain rfl := Option.some.inj hother
    exact ⟨{ call with stage }, by simp [hcall], hmoves⟩
  · exact ⟨other, by simp [h, hother], .refl sent other⟩

/-- Every call goes on, and keeps what it was started with. -/
theorem State.Does.calls (h : s.Does a s') {i : Nat} {call : Call} (hcall : s.calls[i]? = some call) :
    ∃ call', s'.calls[i]? = some call' ∧ call.Moves s.sent call' := by
  cases h with
  | starts hstarts =>
      refine ⟨call, ?_, .refl _ call⟩
      rw [hstarts.calls, List.getElem?_append_left (List.getElem?_eq_some_iff.mp hcall).1]
      exact hcall
  | responds hother hstage =>
      refine moves_setStage hother (Call.moves_stage (by rw [hstage]; rfl) (fun r hr => .inl ?_)
        (Call.next_ne_joined _ _ _ _)) hcall
      rw [Call.request?_next hr, hstage]
      rfl
  | wakes hother hstage =>
      refine moves_setStage hother (Call.moves_stage (by rw [hstage]; rfl) (fun r hr => .inr ?_)
        (fun _ h => by cases h)) hcall
      exact (Option.some.inj hr).le
  | finishes hother hstage =>
      refine moves_setStage hother (Call.moves_stage (by rw [hstage]; rfl) (fun r hr => .inl ?_)
        (fun _ h => by cases h)) hcall
      rw [hstage, ← request?_returned]
      exact hr
  | idles => exact ⟨call, hcall, .refl _ call⟩
  | ticks => exact ⟨call, hcall, .refl _ call⟩

theorem State.Does.sent (h : s.Does a s') : s.sent ≤ s'.sent := by
  cases h with
  | starts hstarts => exact hstarts.sent
  | wakes => exact Nat.le_succ _
  | responds | finishes | idles | ticks => exact le_refl _

/-- A call after a step was there before, or is the one that was started. -/
theorem State.Does.of_calls (h : s.Does a s') {i : Nat} {call' : Call} (hcall' : s'.calls[i]? = some call') :
    (∃ call, s.calls[i]? = some call ∧ call.Moves s.sent call')
      ∨ ∃ method url options stage, a = .request method url options ∧ s.Opens method url options stage
        ∧ call' = ⟨method, url, options, stage⟩ := by
  by_cases hi : i < s.calls.length
  · left
    obtain ⟨call'', hcall'', hmoves⟩ := h.calls (List.getElem?_eq_getElem hi)
    rw [hcall'] at hcall''
    obtain rfl := Option.some.inj hcall''
    exact ⟨_, List.getElem?_eq_getElem hi, hmoves⟩
  · right
    have hlength : i < s'.calls.length := (List.getElem?_eq_some_iff.mp hcall').1
    cases h with
    | starts hstarts =>
        refine ⟨_, _, _, _, rfl, hstarts.opens, ?_⟩
        rw [hstarts.calls, List.length_append, List.length_singleton] at hlength
        obtain rfl : i = s.calls.length := by omega
        rw [hstarts.calls, List.getElem?_concat_length] at hcall'
        exact (Option.some.inj hcall').symm
    | responds => exact absurd (length_setStage .. ▸ hlength) hi
    | wakes => exact absurd (length_setStage .. ▸ hlength) hi
    | finishes => exact absurd (length_setStage .. ▸ hlength) hi
    | idles => exact absurd hlength hi
    | ticks => exact absurd hlength hi

/-- The call that a URL is in flight for is a GET of that URL whose promise has not resolved. -/
def State.Shared (s : State) : Prop :=
  ∀ url i, s.apiCache.inFlight.lookup url = some i →
    ∃ call, s.calls[i]? = some call ∧ call.method = .get ∧ call.url = url ∧ call.stage.isReturned = false

theorem shared_init (now : Int) : (init now).Shared := fun _ _ h => by cases h

/-- A call that moves stays in flight if its promise has not resolved. -/
theorem State.Shared.setStage (h : s.Shared) {i : Nat} {call : Call} {stage : Stage} (hcall : s.calls[i]? = some call)
    (hlive : ∀ url, s.apiCache.inFlight.lookup url = some i → call.method = .get → stage.isReturned = false) :
    (s.setStage i stage).Shared := by
  intro url j hlookup
  obtain ⟨other, hother, hget, hurl, hreturned⟩ := h url j hlookup
  rw [getElem?_setStage]
  by_cases hij : i = j
  · subst hij
    rw [hcall] at hother
    obtain rfl := Option.some.inj hother
    exact ⟨{ call with stage }, by simp [hcall], hget, hurl, hlive url hlookup hget⟩
  · exact ⟨other, by simp [hij, hother], hget, hurl, hreturned⟩

theorem inFlight_updateCache (call : Call) (fetched : Fetched) (now : Int) (c : ApiCache) :
    (call.updateCache fetched now c).inFlight = c.inFlight := by
  unfold Call.updateCache
  split
  · split <;> rfl
  · split
    · split <;> rfl
    · rfl
  · split
    · split <;> rfl
    · rfl

theorem inFlight_absorb (call : Call) (request : Nat) (now : Int) (c : ApiCache) (response : Response) :
    (call.absorb request now c response).inFlight = c.inFlight := by
  cases response with
  | ok data => exact inFlight_updateCache call ⟨request, data⟩ now c
  | failed | broken | aborted => rfl

theorem State.Shared.after (h : s.Shared) (hdoes : s.Does a s') : s'.Shared := by
  cases hdoes with
  | idles => exact h
  | ticks => exact h
  | @starts method url options stage _ hstarts =>
      intro key i hlookup
      rw [hstarts.calls]
      rcases hstarts.inFlight key i hlookup with hlookup | ⟨rfl, rfl, hget, hreturned⟩
      · obtain ⟨call, hcall, hrest⟩ := h key i hlookup
        exact ⟨call, by rw [List.getElem?_append_left (List.getElem?_eq_some_iff.mp hcall).1, hcall], hrest⟩
      · exact ⟨⟨method, _, options, stage⟩, List.getElem?_concat_length, hget, rfl, hreturned⟩
  | @responds i call attempt request response hcall hstage =>
      have h' : State.Shared { s with apiCache := call.absorb request s.now s.apiCache response } := by
        intro url j hlookup
        exact h url j (inFlight_absorb call request s.now s.apiCache response ▸ hlookup)
      exact h'.setStage hcall fun _ _ hget => Call.isReturned_next hget attempt request response
  | wakes hcall => exact State.Shared.setStage (s := { s with sent := s.sent + 1 }) h hcall fun _ _ _ => rfl
  | @finishes i call outcome hcall hstage =>
      have h' : State.Shared { s with apiCache.inFlight := s.apiCache.inFlight.erase call.url } := by
        intro url j hlookup
        have hlookup : (s.apiCache.inFlight.erase call.url).lookup url = some j := hlookup
        rw [Store.lookup_erase_eq] at hlookup
        split at hlookup
        · cases hlookup
        · exact h url j hlookup
      refine h'.setStage hcall fun url hlookup _ => ?_
      -- the call was in flight for its own URL alone, which has been taken out
      exfalso
      have hlookup : (s.apiCache.inFlight.erase call.url).lookup url = some i := hlookup
      rw [Store.lookup_erase_eq] at hlookup
      split at hlookup
      · cases hlookup
      · rename_i hne
        obtain ⟨other, hother, -, hurl, -⟩ := h url i hlookup
        rw [hcall] at hother
        obtain rfl := Option.some.inj hother
        exact hne hurl.symm

/-! ## §4. What is read after a mutation. -/

/-- Nothing that a call waits for or holds was asked for before the `n`-th request. -/
def Call.Since (n : Nat) (call : Call) : Prop := ∀ r, call.stage.request? = some r → n ≤ r

/-- After a mutation with the tags has resolved, before the call number `first`
and the request number `n`: the GETs of the tags in flight, those that are
started later and the entries of the tags carry later data. -/
structure State.Fresh (tags : List String) (n first : Nat) (s : State) : Prop where
  sent : n ≤ s.sent
  cached : ∀ key entry, s.apiCache.cache.lookup key = some entry → Meets entry.tags tags → n ≤ entry.fetched.request
  live : ∀ i call, s.calls[i]? = some call → call.Reads tags → first ≤ i ∨ call.stage.isReturned = false → call.Since n
  joined : ∀ i call leader, s.calls[i]? = some call → call.Reads tags → first ≤ i → call.stage = .joined leader →
    ∃ other, s.calls[leader]? = some other ∧ other.Since n

theorem Call.Since.moves {n sent : Nat} {call call' : Call} (h : call.Since n) (hmoves : call.Moves sent call')
    (hsent : n ≤ sent) : call'.Since n := by
  intro r hr
  rcases hmoves.request r hr with hr | hle
  · exact h r hr
  · exact le_trans hsent hle

/-- The entries that carry one of the tags are gone. -/
theorem lookup_invalidateByTags {c : ApiCache} {tags : List String} {key : String} {entry : CacheEntry}
    (h : (c.invalidateByTags tags).cache.lookup key = some entry) :
    c.cache.lookup key = some entry ∧ ¬ Meets entry.tags tags := by
  unfold ApiCache.invalidateByTags at h
  dsimp only at h
  rw [Store.lookup_eraseAll] at h
  split at h
  · cases h
  · rename_i hkept
    refine ⟨h, fun hmeets => hkept ?_⟩
    refine List.mem_filterMap.mpr ⟨⟨key, entry⟩, Store.mem_entries.mpr h, ?_⟩
    exact if_pos hmeets

theorem cache_updateCache {call : Call} {fetched : Fetched} {now : Int} {c : ApiCache} {key : String} {entry : CacheEntry}
    (h : (call.updateCache fetched now c).cache.lookup key = some entry) :
    c.cache.lookup key = some entry
      ∨ call.method = .get ∧ entry.fetched = fetched ∧ entry.tags = call.options.cacheTags := by
  have hdropped : ∀ c' : ApiCache,
      c' = (if succeeded fetched.data then
          if call.options.cacheTags = [] then c.invalidateAll else c.invalidateByTags call.options.cacheTags
        else c) → c'.cache.lookup key = some entry → c.cache.lookup key = some entry := by
    intro c' hc' h
    rw [hc'] at h
    split at h
    · split at h
      · cases h
      · exact (lookup_invalidateByTags h).1
    · exact h
  unfold Call.updateCache at h
  split at h
  · rename_i hget
    split at h
    · have h : (c.cache.insert call.url ⟨fetched, now, call.options.cacheTtl.getD 0, false, none, call.options.cacheTags⟩).lookup
          key = some entry := h
      rw [Store.lookup_insert_eq] at h
      split at h
      · obtain rfl := Option.some.inj h
        exact .inr ⟨hget, rfl, rfl⟩
      · exact .inl h
    · exact .inl h
  · exact .inl (hdropped _ rfl h)
  · exact .inl (hdropped _ rfl h)

/-- A mutation that did what it was asked to leaves no entry of its tags. -/
theorem not_meets_of_updateCache {call : Call} {fetched : Fetched} {now : Int} {c : ApiCache} {key : String}
    {entry : CacheEntry} (hmethod : call.method ≠ .get) (hsucceeded : succeeded fetched.data = true)
    (h : (call.updateCache fetched now c).cache.lookup key = some entry) : ¬ Meets entry.tags call.options.cacheTags := by
  have hdropped : call.updateCache fetched now c
      = if call.options.cacheTags = [] then c.invalidateAll else c.invalidateByTags call.options.cacheTags := by
    unfold Call.updateCache
    cases hcase : call.method with
    | get => exact absurd hcase hmethod
    | post | delete =>
        dsimp only
        rw [if_pos hsucceeded]
  rw [hdropped] at h
  split at h
  · cases h
  · exact (lookup_invalidateByTags h).2

/-- A step writes nothing to the cache but the data of a GET, under its tags. -/
theorem State.Does.cache (h : s.Does a s') {key : String} {entry : CacheEntry}
    (hlookup : s'.apiCache.cache.lookup key = some entry) :
    s.apiCache.cache.lookup key = some entry
      ∨ ∃ (i : Nat) (call : Call) (attempt : Nat), s.calls[i]? = some call ∧ call.method = .get
        ∧ call.stage = .sending attempt entry.fetched.request ∧ entry.tags = call.options.cacheTags := by
  cases h with
  | starts hstarts => exact .inl (hstarts.cache key entry hlookup)
  | @responds i call attempt request response hcall hstage =>
      cases response with
      | failed | broken | aborted => exact .inl hlookup
      | ok data =>
          have hlookup : (call.updateCache ⟨request, data⟩ s.now s.apiCache).cache.lookup key = some entry := hlookup
          rcases cache_updateCache hlookup with hold | ⟨hget, hfetched, htags⟩
          · exact .inl hold
          · exact .inr ⟨i, call, attempt, hcall, hget, by rw [hstage, hfetched], htags⟩
  | wakes | finishes | idles | ticks => exact .inl hlookup

theorem Call.Moves.reads {tags : List String} {sent : Nat} {call call' : Call} (hmoves : call.Moves sent call')
    (h : call'.Reads tags) : call.Reads tags := by
  unfold Call.Reads at *
  rw [← hmoves.method, ← hmoves.options]
  exact h

theorem Meets.subset {tags tags' tags'' : List String} (h : Meets tags tags'') (hsubset : tags ⊆ tags') :
    Meets tags' tags'' := by
  obtain ⟨tag, htag, htag'⟩ := h
  exact ⟨tag, hsubset htag, htag'⟩

/-- **What a step preserves**: a GET that declares the tags of what it finds is
given later data, whatever it finds. -/
theorem State.Fresh.after {tags : List String} {n first : Nat} (h : s.Fresh tags n first) (hshared : s.Shared)
    (hagrees : s.Agrees a) (hdoes : s.Does a s') : s'.Fresh tags n first where
  sent := le_trans h.sent hdoes.sent
  cached key entry hlookup hmeets := by
    rcases hdoes.cache hlookup with hold | ⟨i, call, attempt, hcall, hget, hstage, htags⟩
    · exact h.cached key entry hold hmeets
    · refine h.live i call hcall ⟨hget, htags ▸ hmeets⟩ (.inr (by rw [hstage]; rfl)) _ ?_
      rw [hstage]
      rfl
  live i call' hcall' hreads hlive := by
    rcases hdoes.of_calls hcall' with ⟨call, hcall, hmoves⟩ | ⟨method, url, options, stage, rfl, hopens, rfl⟩
    · refine (h.live i call hcall (hmoves.reads hreads) (hlive.imp_right fun hlive => ?_)).moves hmoves h.sent
      cases hreturned : call.stage.isReturned with
      | false => rfl
      | true => rw [← hmoves.returned hreturned, hlive]
    · obtain ⟨rfl, hmeets⟩ := hreads
      intro r hr
      cases hopens with
      | cached _ hcaches hentry =>
          obtain rfl := Option.some.inj hr
          exact h.cached url _ hentry (hmeets.subset (hagrees.1 hcaches _ hentry))
      | joined _ hleader => cases hr
      | sending =>
          obtain rfl := Option.some.inj hr
          exact h.sent
      | invalid => cases hr
  joined i call' leader hcall' hreads hfirst hstage := by
    -- the call that was joined goes on, and keeps later data
    have hgoes : ∀ other, s.calls[leader]? = some other → other.Since n →
        ∃ other', s'.calls[leader]? = some other' ∧ other'.Since n := by
      intro other hother hsince
      obtain ⟨other', hother', hmoves⟩ := hdoes.calls hother
      exact ⟨other', hother', hsince.moves hmoves h.sent⟩
    rcases hdoes.of_calls hcall' with ⟨call, hcall, hmoves⟩ | ⟨method, url, options, stage, rfl, hopens, rfl⟩
    · obtain ⟨other, hother, hsince⟩ :=
        h.joined i call leader hcall (hmoves.reads hreads) hfirst (hmoves.joined leader hstage)
      exact hgoes other hother hsince
    · obtain ⟨rfl, hmeets⟩ := hreads
      obtain rfl : stage = .joined leader := hstage
      cases hopens with
      | joined _ hleader =>
          obtain ⟨other, hother, hget, -, hreturned⟩ := hshared url leader hleader
          have hother_reads : other.Reads tags := ⟨hget, hmeets.subset (hagrees.2 leader hleader other hother)⟩
          exact hgoes other hother (h.live leader other hother hother_reads (.inr hreturned))

/-- What an action that resolves a mutation is. -/
theorem State.resolves_cases {tags : List String} (h : s.resolves a = some tags) :
    ∃ (i : Nat) (call : Call) (attempt request : Nat) (data : Data), a = .respond i (.ok data)
      ∧ s.calls[i]? = some call ∧ call.stage = .sending attempt request ∧ call.method ≠ .get
      ∧ succeeded data = true ∧ call.options.cacheTags = tags := by
  unfold State.resolves at h
  split at h
  · rename_i i data
    split at h
    · rename_i method url options attempt request hcall
      split at h
      · rename_i hcond
        exact ⟨i, _, attempt, request, data, rfl, hcall, rfl, hcond.1, hcond.2, Option.some.inj h⟩
      · cases h
    · cases h
  · cases h

/-- A mutation that resolves while no GET of its tags is in flight. -/
theorem fresh_of_resolves {tags : List String} (h : s.resolves a = some tags) (hquiet : s.Quiet a) :
    (step s a).Fresh tags (step s a).sent (step s a).calls.length := by
  have hdoes := does_step s a
  have hquiet := hquiet tags h
  obtain ⟨i, call, attempt, request, data, rfl, hcall, hstage, hmethod, hsucceeded, rfl⟩ := State.resolves_cases h
  have hstep : step s (.respond i (.ok data))
      = { s with apiCache := call.updateCache ⟨request, data⟩ s.now s.apiCache }.setStage i
        (call.next attempt request (.ok data)) := by
    show s.respond i (.ok data) = _
    unfold State.respond
    obtain ⟨method, url, options, stage⟩ := call
    obtain rfl : stage = .sending attempt request := hstage
    rw [hcall]
    rfl
  refine ⟨le_refl _, fun key entry hlookup hmeets => ?_, fun j call' hcall' hreads hlive => ?_,
    fun j call' leader hcall' _ hfirst => ?_⟩
  · -- the entries of the tags are gone
    rw [hstep] at hlookup
    exact absurd hmeets (not_meets_of_updateCache hmethod hsucceeded hlookup)
  · -- the GETs of the tags have nothing under way
    have hreturned := hlive.resolve_left (not_le.mpr (List.getElem?_eq_some_iff.mp hcall').1)
    rcases hdoes.of_calls hcall' with ⟨other, hother, hmoves⟩ | ⟨_, _, _, _, heq, -⟩
    · rcases hquiet other (List.mem_of_getElem? hother) (hmoves.reads hreads) with hover | hnone
      · rw [hmoves.returned hover] at hreturned
        cases hreturned
      · intro r hr
        rw [hstep]
        refine (hmoves.request r hr).resolve_left fun h => ?_
        rw [hnone] at h
        cases h
    · cases heq
  · exact absurd (List.getElem?_eq_some_iff.mp hcall').1 (not_lt.mpr hfirst)

theorem mem_run_shared (now : Int) (as : List Action) : (run step (init now) as).Shared :=
  run_invariant_of step State.Shared (fun _ => True) (shared_init now)
    (fun s a h _ => h.after (does_step s a)) as fun _ _ => trivial

/-- What the promise of a later GET has resolved to. -/
theorem State.Fresh.result {tags : List String} {n first i : Nat} {call : Call} {fetched : Fetched}
    (h : s.Fresh tags n first) (hfirst : first ≤ i) (hcall : s.calls[i]? = some call) (hreads : call.Reads tags)
    (hresult : s.result i = some (.ok fetched)) : n ≤ fetched.request := by
  obtain ⟨method, url, options, stage⟩ := call
  unfold State.result at hresult
  rw [hcall] at hresult
  cases stage with
  | returned outcome =>
      obtain rfl := Option.some.inj hresult
      exact h.live i _ hcall hreads (.inl hfirst) _ rfl
  | joined leader =>
      obtain ⟨⟨_, _, _, other⟩, hother, hsince⟩ := h.joined i _ leader hcall hreads hfirst rfl
      dsimp only at hresult
      rw [hother] at hresult
      cases other with
      | returned outcome =>
          obtain rfl := Option.some.inj hresult
          exact hsince _ rfl
      | sending | sleeping | joined | settled => cases hresult
  | sending | sleeping | settled => cases hresult

end Steps

/-! ## §5. Own writes. -/

/-- **The client reads its own writes** in a run in which no GET of the tags of
a mutation is in flight when it resolves, and a GET declares no tag that what
it finds was not asked for under. -/
theorem reads_own_writes (now : Int) (as : List Action)
    (h : ∀ t ∈ trace step (init now) as, t.pre.Quiet t.act ∧ t.pre.Agrees t.act) : ReadsOwnWrites now as := by
  rintro bs a cs tags rfl hresolves i call fetched hfirst hcall hreads hresult
  rw [trace_append] at h
  have hquiet : (run step (init now) bs).Quiet a := (h _ (List.mem_append_right _ List.mem_cons_self)).1
  have hshared : (step (run step (init now) bs) a).Shared := (mem_run_shared now bs).after (does_step _ a)
  rw [run_concat] at hfirst ⊢
  rw [run_append] at hcall hresult
  -- from the mutation on, by induction over the rest of the run
  have hinvariant := run_invariant_of step
    (fun s => s.Shared ∧ s.Fresh tags (step (run step (init now) bs) a).sent (step (run step (init now) bs) a).calls.length)
    (fun t => t.pre.Agrees t.act) ⟨hshared, fresh_of_resolves hresolves hquiet⟩
    (fun s a hs hagrees => ⟨hs.1.after (does_step s a), hs.2.after hs.1 hagrees (does_step s a)⟩) cs
    fun t ht => (h t (List.mem_append_right _ (List.mem_cons_of_mem _ ht))).2
  exact hinvariant.2.result hfirst hcall hreads hresult

/-- Featured markets that are asked for after a bet has been placed. -/
def betThenMarkets : List Action :=
  [api.placeBet "" "7" true, .respond 0 (.ok none), api.getFeaturedMarkets "", .respond 1 (.ok none), .finish 1]

theorem reads_own_writes_betThenMarkets :
    (∀ t ∈ trace step (init 0) betThenMarkets, t.pre.Quiet t.act ∧ t.pre.Agrees t.act)
      ∧ ReadsOwnWrites 0 betThenMarkets := by
  have h : ∀ t ∈ trace step (init 0) betThenMarkets, t.pre.Quiet t.act ∧ t.pre.Agrees t.act := by decide +kernel
  exact ⟨h, reads_own_writes 0 betThenMarkets h⟩

/-- A bet that is placed while the featured markets are in flight: a second
reader joins the first, and is given what was asked for before the bet. -/
def marketsAcrossBet : List Action :=
  [api.getFeaturedMarkets "", api.placeBet "" "7" true, .respond 1 (.ok none), api.getFeaturedMarkets "",
    .respond 0 (.ok none), .finish 0]

theorem marketsAcrossBet_reads_old : ¬ ReadsOwnWrites 0 marketsAcrossBet := by
  intro h
  have hlate := h [api.getFeaturedMarkets "", api.placeBet "" "7" true] (.respond 1 (.ok none))
    [api.getFeaturedMarkets "", .respond 0 (.ok none), .finish 0] [CacheTag.BLOCKCHAIN, CacheTag.MARKETS] rfl rfl 2 _ _
    (by decide) rfl (by decide) rfl
  exact absurd hlate (by decide)

end PredictIQ.Client
