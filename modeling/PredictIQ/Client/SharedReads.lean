/-
  PredictIQ.Client.SharedReads: GETs that share a request, and the signals of their callers.

  A GET that finds one in flight for its URL waits for the promise of that one,
  whatever its own signal does; the signal of the caller that started the
  request ends it for all of them.  And `finally` takes whatever the map holds
  for the URL, which after a `clear` may be the entry of a later request.
  `Careful` says of a step that neither can happen by it.
-/
import PredictIQ.Client.OwnWrites
import Mathlib.Logic.Function.Basic

namespace PredictIQ.Client

open Foundation

/-! ## §1. The signals of the callers. -/

/-- What a signal is aborted with: the `AbortError` that it is by default, or anything else. -/
inductive Reason where
  | abortError | other
  deriving DecidableEq

/-- The client, and of each call the signal it was made with, whether its latest
attempt began with that signal aborted, and whether the signal was what ended
it; of each signal what it was aborted with; and the number of the calls that
were made before the cache was last cleared. -/
structure Callers where
  client : State
  signalOf : Nat → Option Nat
  barred : Nat → Bool
  cut : Nat → Bool
  reasonOf : Nat → Option Reason
  cleared : Nat

inductive CallerAction where
  | request (method : HttpMethod) (url : String) (options : RequestOptions) (signal : Option Nat)
  | respond (i : Nat) (response : Response)
  | wake (i : Nat)
  | finish (i : Nat)
  | abort (signal : Nat) (reason : Reason)
  | clear
  | clock (now : Int)

namespace Callers

def init (now : Int) : Callers :=
  ⟨Client.init now, fun _ => none, fun _ => false, fun _ => false, fun _ => none, 0⟩

/-- `options.signal?.aborted`. -/
def isAborted (s : Callers) (signal : Option Nat) : Bool := (signal.bind s.reasonOf).isSome

def aborted (s : Callers) (i : Nat) : Bool := s.isAborted (s.signalOf i)

/-- What an attempt hears: the reason of the signal, an `AbortError` from the
timer, or the network.  An attempt that began with the signal aborted hears
nothing but the signal. -/
def heard (s : Callers) (i : Nat) : Response → Option Response
  | .aborted true => ((s.signalOf i).bind s.reasonOf).map fun
      | .abortError => .aborted true
      | .other => .broken
  | .aborted false => if s.barred i then none else some (.aborted (s.aborted i))
  | response => if s.barred i then none else some response

/-- A response that the signal is the cause of; an `AbortError` of the timer
counts as the signal's if that is aborted as well. -/
def bySignal (s : Callers) (i : Nat) : Response → Bool
  | .aborted byCaller => byCaller || s.aborted i
  | .ok _ | .failed _ | .broken => false

def request (s : Callers) (method : HttpMethod) (url : String) (options : RequestOptions) (signal : Option Nat) :
    Callers :=
  { s with
    client := s.client.request method url options
    signalOf := Function.update s.signalOf s.client.calls.length signal
    barred := Function.update s.barred s.client.calls.length (s.isAborted signal)
    cut := Function.update s.cut s.client.calls.length false }

def respond (s : Callers) (i : Nat) (response : Response) : Callers :=
  match s.client.calls[i]?, s.heard i response with
  | some ⟨_, _, _, .sending _ _⟩, some heard =>
      { s with client := s.client.respond i heard, cut := Function.update s.cut i (s.bySignal i response) }
  | _, _ => s

def wake (s : Callers) (i : Nat) : Callers :=
  match s.client.calls[i]? with
  | some ⟨_, _, _, .sleeping _⟩ =>
      { s with client := s.client.wake i, barred := Function.update s.barred i (s.aborted i) }
  | _ => s

/-- The first reason stays. -/
def abort (s : Callers) (signal : Nat) (reason : Reason) : Callers :=
  { s with reasonOf := Function.update s.reasonOf signal (some ((s.reasonOf signal).getD reason)) }

def clear (s : Callers) : Callers :=
  { s with client := { s.client with apiCache := .empty }, cleared := s.client.calls.length }

def step (s : Callers) : CallerAction → Callers
  | .request method url options signal => s.request method url options signal
  | .respond i response => s.respond i response
  | .wake i => s.wake i
  | .finish i => { s with client := s.client.finish i }
  | .abort signal reason => s.abort signal reason
  | .clear => s.clear
  | .clock now => { s with client := { s.client with now } }

/-- The state after some actions. -/
def after (now : Int) (actions : List CallerAction) : Callers := run step (init now) actions

end Callers

/-! ## §2. What is claimed of them. -/

/-- A call that has not got its result, and does not wait for another one. -/
def Stage.isUnderWay : Stage → Bool
  | .sending _ _ | .sleeping _ => true
  | .joined _ | .settled _ | .returned _ => false

/-- A call that failed. -/
def Stage.Fails (stage : Stage) (e : ApiError) : Prop := stage = .settled (.error e) ∨ stage = .returned (.error e)

namespace Callers

variable (s : Callers)

/-- A request for a URL that is in flight, issued since the last `clear`. -/
def InFlight (url : String) (i : Nat) : Prop :=
  s.cleared ≤ i ∧ ∃ call, s.client.calls[i]? = some call ∧ call.method = .get ∧ call.url = url
    ∧ call.stage.isUnderWay = true

/-- A call that joined the request of another. -/
def Joins (i leader : Nat) : Prop := ∃ call, s.client.calls[i]? = some call ∧ call.stage = .joined leader

/-- A request for the URL of a call. -/
def Leads (i leader : Nat) : Prop :=
  ∃ call other, s.client.calls[i]? = some call ∧ s.client.calls[leader]? = some other ∧ other.method = .get
    ∧ other.url = call.url ∧ ∀ leader', other.stage ≠ .joined leader'

/-- A call that was ended by its signal. -/
def CutOff (i : Nat) : Prop := s.cut i = true ∧ ∃ call e, s.client.calls[i]? = some call ∧ call.stage.Fails e

/-- The callers do not get into each other's way. -/
structure Apart : Prop where
  single : ∀ url i j, s.InFlight url i → s.InFlight url j → i = j
  shared : ∀ i leader, s.Joins i leader → s.Leads i leader ∧ s.client.result i = s.client.result leader
  unharmed : ∀ i leader e, s.Joins i leader → s.client.result i = some (.error e) → s.cut leader = true →
    s.aborted i = true

end Callers

/-- A GET that finds nothing in the cache, and a request in flight. -/
def State.Joining (s : State) (url : String) (options : RequestOptions) (leader : Nat) : Prop :=
  (options.caches = true → (s.apiCache.get url s.now).1 = none) ∧ s.apiCache.inFlight.lookup url = some leader

namespace Callers

/-- In every state of a run the callers are apart, and who has joined a request stays with it. -/
def StayApart (now : Int) (actions : List CallerAction) : Prop :=
  ∀ as, as <+: actions → (after now as).Apart
    ∧ ∀ bs, bs <+: as → ∀ i leader, (after now bs).Joins i leader → (after now as).Joins i leader

/-- A promise that resolves finds no entry of another request in flight; no
signal ends a request that was joined by a caller who has not aborted; and no
such caller joins a request that its signal has ended. -/
def Careful (s : Callers) : CallerAction → Prop
  | .finish i => ∀ call outcome j, s.client.calls[i]? = some call → call.stage = .settled outcome →
      s.client.apiCache.inFlight.lookup call.url = some j → ¬ s.InFlight call.url j
  | .respond i response => ∀ call attempt request heard outcome, s.client.calls[i]? = some call →
      call.stage = .sending attempt request → s.bySignal i response = true → s.heard i response = some heard →
      call.next attempt request heard = .settled outcome → ∀ j, s.Joins j i → s.aborted j = true
  | .request .get url options signal => ∀ leader, s.client.Joining url options leader → s.CutOff leader →
      s.isAborted signal = true
  | .request .post .. | .request .delete .. | .wake _ | .abort _ _ | .clear | .clock _ => True

end Callers

/-! ## §3. What a step does. -/

/-- How a new call stands to the requests in flight, and the map of these after it. -/
inductive State.Enters (s : State) (method : HttpMethod) (url : String) (options : RequestOptions) :
    Stage → Store String Nat → Prop
  | alone {stage : Stage} : (∀ leader, stage ≠ .joined leader) →
      (method = .get → stage.isReturned = true ∧ ∀ leader, ¬ s.Joining url options leader) →
      Enters s method url options stage s.apiCache.inFlight
  | joins {leader : Nat} : method = .get → s.Joining url options leader →
      Enters s method url options (.joined leader) s.apiCache.inFlight
  | leads {stage : Stage} : method = .get → s.apiCache.inFlight.lookup url = none → (∀ leader, stage ≠ .joined leader) →
      stage.isReturned = false → Enters s method url options stage (s.apiCache.inFlight.insert url s.calls.length)

section Steps

variable {s : State} {method : HttpMethod} {url : String} {options : RequestOptions}

theorem sendWithRetries_spec (s : State) (method : HttpMethod) (url : String) (options : RequestOptions) :
    ∃ stage, (s.sendWithRetries method url options).calls = s.calls ++ [⟨method, url, options, stage⟩]
      ∧ (s.sendWithRetries method url options).apiCache = s.apiCache ∧ (∀ leader, stage ≠ .joined leader)
      ∧ (method = .get → stage.isReturned = false) := by
  unfold State.sendWithRetries
  split
  · exact ⟨_, rfl, rfl, nofun, fun _ => rfl⟩
  · refine ⟨_, rfl, rfl, over_ne_joined method _, fun hget => ?_⟩
    rw [hget]
    rfl

theorem enters_dedupe (s : State) (url : String) (options : RequestOptions)
    (hmiss : options.caches = true → (s.apiCache.get url s.now).1 = none) {c : ApiCache}
    (hc : c.inFlight = s.apiCache.inFlight) :
    ∃ stage, (State.dedupe { s with apiCache := c } url options).calls = s.calls ++ [⟨.get, url, options, stage⟩]
      ∧ s.Enters .get url options stage (State.dedupe { s with apiCache := c } url options).apiCache.inFlight := by
  unfold State.dedupe
  dsimp only
  rw [hc]
  cases hlookup : s.apiCache.inFlight.lookup url with
  | some leader =>
      refine ⟨.joined leader, rfl, ?_⟩
      show s.Enters .get url options _ c.inFlight
      rw [hc]
      exact .joins rfl ⟨hmiss, hlookup⟩
  | none =>
      obtain ⟨stage, hcalls, hcache, hstage, hreturned⟩ := sendWithRetries_spec { s with apiCache := c } .get url options
      refine ⟨stage, hcalls, ?_⟩
      dsimp only
      rw [hcache, hc]
      exact .leads rfl hlookup hstage (hreturned rfl)

theorem enters_request (s : State) (method : HttpMethod) (url : String) (options : RequestOptions) :
    ∃ stage, (s.request method url options).calls = s.calls ++ [⟨method, url, options, stage⟩]
      ∧ s.Enters method url options stage (s.request method url options).apiCache.inFlight := by
  cases method with
  | get =>
      unfold State.request
      dsimp only
      by_cases hcaches : options.caches = true
      · obtain ⟨-, hinFlight, -⟩ := s.apiCache.get_spec url s.now
        rw [if_pos hcaches]
        split
        · -- a cached value is returned at once, and nothing is joined
          next cached c hget =>
            rw [hget] at hinFlight
            refine ⟨.returned (.ok cached), rfl, ?_⟩
            show s.Enters .get url options _ c.inFlight
            rw [hinFlight]
            refine .alone nofun fun _ => ⟨rfl, fun leader hjoining => ?_⟩
            have hnone := hjoining.1 hcaches
            rw [hget] at hnone
            cases hnone
        · next c hget =>
            rw [hget] at hinFlight
            exact enters_dedupe s url options (fun _ => by rw [hget]) hinFlight
      · rw [if_neg hcaches]
        exact enters_dedupe s url options (fun h => absurd h hcaches) rfl
  | post | delete =>
      -- only reads go through `dedupe`
      obtain ⟨stage, hcalls, hcache, hstage, -⟩ := sendWithRetries_spec s _ url options
      refine ⟨stage, hcalls, ?_⟩
      show s.Enters _ url options stage (s.sendWithRetries _ url options).apiCache.inFlight
      rw [hcache]
      exact .alone hstage nofun

/-- A GET that can join does. -/
theorem calls_request_of_joining {leader : Nat} (h : s.Joining url options leader) :
    (s.request .get url options).calls = s.calls ++ [⟨.get, url, options, .joined leader⟩] := by
  obtain ⟨stage, hcalls, henters⟩ := enters_request s .get url options
  rw [hcalls]
  generalize (s.request .get url options).apiCache.inFlight = inFlight at henters
  cases henters with
  | alone _ hget => exact absurd h ((hget rfl).2 leader)
  | joins _ h' =>
      obtain rfl := Option.some.inj (h'.2.symm.trans h.2)
      rfl
  | leads _ hnone =>
      rw [h.2] at hnone
      cases hnone

end Steps

namespace Callers

variable {s s' : Callers} {a : CallerAction} {i j leader : Nat} {url : String}

/-- The effects that an action can have. -/
inductive Does (s : Callers) : CallerAction → Callers → Prop
  | starts {method url options signal stage} {client : State} :
      client.calls = s.client.calls ++ [⟨method, url, options, stage⟩] →
      s.client.Enters method url options stage client.apiCache.inFlight →
      Does s (.request method url options signal) { s with
        client
        signalOf := Function.update s.signalOf s.client.calls.length signal
        barred := Function.update s.barred s.client.calls.length (s.isAborted signal)
        cut := Function.update s.cut s.client.calls.length false }
  | responds {i call attempt request response heard c} : s.client.calls[i]? = some call →
      call.stage = .sending attempt request → s.heard i response = some heard →
      c = call.absorb request s.client.now s.client.apiCache heard →
      Does s (.respond i response) { s with
        client := State.setStage { s.client with apiCache := c } i (call.next attempt request heard)
        cut := Function.update s.cut i (s.bySignal i response) }
  | wakes {i call attempt} : s.client.calls[i]? = some call → call.stage = .sleeping attempt →
      Does s (.wake i) { s with
        client := State.setStage { s.client with sent := s.client.sent + 1 } i (.sending (attempt + 1) s.client.sent)
        barred := Function.update s.barred i (s.aborted i) }
  | finishes {i call outcome} : s.client.calls[i]? = some call → call.stage = .settled outcome →
      Does s (.finish i) { s with
        client := State.setStage { s.client with apiCache.inFlight := s.client.apiCache.inFlight.erase call.url } i
          (.returned outcome) }
  | aborts {signal reason} : Does s (.abort signal reason) (s.abort signal reason)
  | clears : Does s .clear s.clear
  | ticks {now} : Does s (.clock now) { s with client := { s.client with now } }
  | idles {action : CallerAction} : (∀ method url options signal, action ≠ .request method url options signal) →
      (∀ i call outcome, action = .finish i → s.client.calls[i]? = some call → call.stage ≠ .settled outcome) →
      Does s action s

theorem does_step (s : Callers) (a : CallerAction) : s.Does a (s.step a) := by
  cases a with
  | request method url options signal =>
      obtain ⟨stage, hcalls, henters⟩ := enters_request s.client method url options
      exact .starts hcalls henters
  | respond i response =>
      show s.Does _ (s.respond i response)
      unfold Callers.respond
      split
      · next method url options attempt request heard hcall hheard =>
          unfold State.respond
          rw [hcall]
          exact .responds hcall rfl hheard rfl
      · exact .idles nofun fun _ _ _ ha => nomatch ha
  | wake i =>
      show s.Does _ (s.wake i)
      unfold Callers.wake
      split
      · next method url options attempt hcall =>
          unfold State.wake
          rw [hcall]
          exact .wakes hcall rfl
      · exact .idles nofun fun _ _ _ ha => nomatch ha
  | finish i =>
      show s.Does _ { s with client := s.client.finish i }
      unfold State.finish
      split
      · next method url options outcome hcall => exact .finishes hcall rfl
      · next hnot =>
          refine .idles nofun fun j call outcome ha hcall hstage => ?_
          cases ha
          obtain ⟨method, url, options, stage⟩ := call
          obtain rfl : stage = .settled outcome := hstage
          exact hnot _ _ _ _ hcall
  | abort signal reason => exact .aborts
  | clear => exact .clears
  | clock now => exact .ticks

/-! ## §4. Calls and requests. -/

/-- How a step moves the call number `j`. -/
inductive Goes (s : Callers) (a : CallerAction) (j : Nat) (call : Call) : Call → Prop
  | stays : Goes s a j call call
  | hears {attempt request response heard} : a = .respond j response → call.stage = .sending attempt request →
      s.heard j response = some heard → Goes s a j call { call with stage := call.next attempt request heard }
  | wakes {attempt request} : call.stage = .sleeping attempt →
      Goes s a j call { call with stage := .sending (attempt + 1) request }
  | returns {outcome} : a = .finish j → call.stage = .settled outcome →
      Goes s a j call { call with stage := .returned outcome }

theorem goes_setStage {client : State} {call : Call} {stage : Stage} (hcalls : client.calls = s.client.calls)
    (hcall : s.client.calls[i]? = some call) (hgoes : s.Goes a i call { call with stage }) {other : Call}
    (hother : s.client.calls[j]? = some other) :
    ∃ other', (client.setStage i stage).calls[j]? = some other' ∧ s.Goes a j other other' := by
  rw [getElem?_setStage, hcalls]
  by_cases hij : i = j
  · subst hij
    obtain rfl := Option.some.inj (hcall.symm.trans hother)
    exact ⟨_, by rw [if_pos rfl, hcall]; rfl, hgoes⟩
  · exact ⟨other, by rw [if_neg hij, hother], .stays⟩

/-- Every call goes on. -/
theorem Does.goes (h : s.Does a s') {call : Call} (hcall : s.client.calls[j]? = some call) :
    ∃ call', s'.client.calls[j]? = some call' ∧ s.Goes a j call call' := by
  cases h with
  | starts hcalls _ =>
      refine ⟨call, ?_, .stays⟩
      dsimp only
      rw [hcalls, List.getElem?_append_left (List.getElem?_eq_some_iff.mp hcall).1, hcall]
  | responds hother hstage hheard _ => exact goes_setStage rfl hother (.hears rfl hstage hheard) hcall
  | wakes hother hstage => exact goes_setStage rfl hother (.wakes hstage) hcall
  | finishes hother hstage => exact goes_setStage rfl hother (.returns rfl hstage) hcall
  | aborts | clears | ticks | idles => exact ⟨call, hcall, .stays⟩

/-- A call after a step was there before, or has been made by it. -/
theorem Does.of_goes (h : s.Does a s') {call' : Call} (hcall' : s'.client.calls[j]? = some call') :
    (∃ call, s.client.calls[j]? = some call ∧ s.Goes a j call call')
      ∨ j = s.client.calls.length ∧ ∃ method url options signal stage, a = .request method url options signal
        ∧ call' = ⟨method, url, options, stage⟩
        ∧ s.client.Enters method url options stage s'.client.apiCache.inFlight := by
  have hj := (List.getElem?_eq_some_iff.mp hcall').1
  by_cases hlt : j < s.client.calls.length
  · obtain ⟨call'', hcall'', hgoes⟩ := h.goes (List.getElem?_eq_getElem hlt)
    obtain rfl := Option.some.inj (hcall'.symm.trans hcall'')
    exact .inl ⟨_, List.getElem?_eq_getElem hlt, hgoes⟩
  · right
    cases h with
    | @starts method url options signal stage client hcalls henters =>
        dsimp only at hj hcall'
        rw [hcalls, List.length_append, List.length_singleton] at hj
        obtain rfl : j = s.client.calls.length := by omega
        rw [hcalls, List.getElem?_concat_length] at hcall'
        exact ⟨rfl, method, url, options, signal, stage, rfl, (Option.some.inj hcall').symm, henters⟩
    | responds | wakes | finishes => exact absurd (length_setStage .. ▸ hj) hlt
    | aborts | clears | ticks | idles => exact absurd hj hlt

theorem Goes.same {call call' : Call} (h : s.Goes a j call call') :
    call'.method = call.method ∧ call'.url = call.url := by
  cases h <;> exact ⟨rfl, rfl⟩

theorem Goes.joined {call call' : Call} (h : s.Goes a j call call') :
    call'.stage = .joined leader ↔ call.stage = .joined leader := by
  cases h with
  | stays => rfl
  | hears _ hstage _ => exact iff_of_false (Call.next_ne_joined _ _ _ _ _) (by rw [hstage]; exact nofun)
  | wakes hstage => exact iff_of_false nofun (by rw [hstage]; exact nofun)
  | returns _ hstage => exact iff_of_false nofun (by rw [hstage]; exact nofun)

/-- What is in flight after a step has been before, for a call that was there before. -/
theorem Goes.isUnderWay {call call' : Call} (h : s.Goes a j call call') (hunder : call'.stage.isUnderWay = true) :
    call.stage.isUnderWay = true := by
  cases h with
  | stays => exact hunder
  | hears _ hstage _ => rw [hstage]; rfl
  | wakes hstage => rw [hstage]; rfl
  | returns => cases hunder

/-- **Who has joined a request stays with it.** -/
theorem Does.joins (h : s.Does a s') (hjoins : s.Joins i leader) : s'.Joins i leader := by
  obtain ⟨call, hcall, hstage⟩ := hjoins
  obtain ⟨call', hcall', hgoes⟩ := h.goes hcall
  exact ⟨call', hcall', hgoes.joined.mpr hstage⟩

theorem Does.leads (h : s.Does a s') (hleads : s.Leads i leader) : s'.Leads i leader := by
  obtain ⟨call, other, hcall, hother, hget, hurl, hstage⟩ := hleads
  obtain ⟨call', hcall', hgoes⟩ := h.goes hcall
  obtain ⟨other', hother', hgoes'⟩ := h.goes hother
  refine ⟨call', other', hcall', hother', hgoes'.same.1.trans hget, ?_, fun leader' hjoined => ?_⟩
  · rw [hgoes.same.2, hgoes'.same.2]
    exact hurl
  · exact hstage leader' (hgoes'.joined.mp hjoined)

/-- Who joins a request either did before, or makes a call that does. -/
theorem Does.of_joins (h : s.Does a s') (hjoins : s'.Joins i leader) :
    s.Joins i leader ∨ i = s.client.calls.length ∧ ∃ url options signal, a = .request .get url options signal
      ∧ s.client.Joining url options leader := by
  obtain ⟨call', hcall', hstage⟩ := hjoins
  rcases h.of_goes hcall' with ⟨call, hcall, hgoes⟩ | ⟨hi, method, url, options, signal, stage, rfl, rfl, henters⟩
  · exact .inl ⟨call, hcall, hgoes.joined.mp hstage⟩
  · refine .inr ⟨hi, ?_⟩
    obtain rfl : stage = .joined leader := hstage
    generalize s'.client.apiCache.inFlight = inFlight at henters
    cases henters with
    | alone hstage _ => exact absurd rfl (hstage leader)
    | joins hget hjoining =>
        cases hget
        exact ⟨url, options, signal, rfl, hjoining⟩
    | leads _ _ hstage _ => exact absurd rfl (hstage leader)

/-! ## §5. The map of requests in flight. -/

/-- The map holds requests whose promise has not resolved, issued since the last
`clear`; and who waits for another call waits for a request for its URL. -/
structure Tidy (s : Callers) : Prop where
  cleared : s.cleared ≤ s.client.calls.length
  entry : ∀ url i, s.client.apiCache.inFlight.lookup url = some i → s.cleared ≤ i ∧ ∃ call, s.client.calls[i]? = some call
    ∧ call.method = .get ∧ call.url = url ∧ call.stage.isReturned = false ∧ ∀ leader, call.stage ≠ .joined leader
  led : ∀ i leader, s.Joins i leader → s.Leads i leader

theorem tidy_init (now : Int) : (init now).Tidy :=
  ⟨Nat.le_refl 0, fun _ _ => nofun, fun _ _ ⟨_, hcall, _⟩ => nomatch hcall⟩

/-- An entry of the map was there before, and its promise does not resolve by
the step, or it is the request that the step issues. -/
theorem Does.of_lookup (h : s.Does a s') (hlookup : s'.client.apiCache.inFlight.lookup url = some j) :
    (s.client.apiCache.inFlight.lookup url = some j ∧ s'.cleared = s.cleared
        ∧ ∀ call outcome, a = .finish j → s.client.calls[j]? = some call → call.stage = .settled outcome → call.url ≠ url)
      ∨ j = s.client.calls.length ∧ s'.cleared = s.cleared ∧ ∃ call, s'.client.calls[j]? = some call
        ∧ call.method = .get ∧ call.url = url ∧ call.stage.isReturned = false
        ∧ ∀ leader, call.stage ≠ .joined leader := by
  cases h with
  | @starts method url' options signal stage client hcalls henters =>
      dsimp only at hlookup ⊢
      generalize client.apiCache.inFlight = inFlight at henters hlookup
      cases henters with
      | alone | joins => exact .inl ⟨hlookup, rfl, fun _ _ ha => nomatch ha⟩
      | leads hget hnone hstage hreturned =>
          rw [Store.lookup_insert_eq] at hlookup
          split at hlookup
          · next hurl =>
              obtain rfl := Option.some.inj hlookup
              refine .inr ⟨rfl, rfl, ⟨method, url', options, stage⟩, ?_, hget, hurl.symm, hreturned, hstage⟩
              rw [hcalls, List.getElem?_concat_length]
          · exact .inl ⟨hlookup, rfl, fun _ _ ha => nomatch ha⟩
  | @responds i call attempt request response heard c _ _ _ hc =>
      -- a response writes the values of the cache, not the map
      refine .inl ⟨?_, rfl, fun _ _ ha => nomatch ha⟩
      rw [← inFlight_absorb call request s.client.now s.client.apiCache heard, ← hc]
      exact hlookup
  | @finishes i call outcome hcall hstage =>
      have hlookup : (s.client.apiCache.inFlight.erase call.url).lookup url = some j := hlookup
      rw [Store.lookup_erase_eq] at hlookup
      split at hlookup
      · cases hlookup
      · next hurl =>
          -- the entry that stays is another URL's
          refine .inl ⟨hlookup, rfl, fun call' outcome' ha hcall' _ => ?_⟩
          cases ha
          obtain rfl := Option.some.inj (hcall.symm.trans hcall')
          exact Ne.symm hurl
  | clears => cases hlookup
  | wakes | aborts | ticks => exact .inl ⟨hlookup, rfl, fun _ _ ha => nomatch ha⟩
  | idles _ hnot =>
      refine .inl ⟨hlookup, rfl, fun call outcome ha hcall hstage => ?_⟩
      exact absurd hstage (hnot j call outcome ha hcall)

theorem Tidy.after (h : s.Tidy) (hdoes : s.Does a s') : s'.Tidy where
  cleared := by
    have hcleared := h.cleared
    cases hdoes with
    | starts hcalls _ =>
        show s.cleared ≤ List.length _
        rw [hcalls, List.length_append]
        omega
    | responds | wakes | finishes => exact (length_setStage ..).symm ▸ hcleared
    | clears => exact Nat.le_refl _
    | aborts | ticks | idles => exact hcleared
  entry url i hlookup := by
    rcases hdoes.of_lookup hlookup with ⟨hold, hcleared, hkept⟩ | ⟨rfl, hcleared, hcall⟩
    · obtain ⟨hle, call, hcall, hget, hurl, hreturned, hstage⟩ := h.entry url i hold
      obtain ⟨call', hcall', hgoes⟩ := hdoes.goes hcall
      refine ⟨hcleared ▸ hle, call', hcall', hgoes.same.1.trans hget, hgoes.same.2.trans hurl, ?_,
        fun leader hjoined => ?_⟩
      · cases hgoes with
        | stays => exact hreturned
        | hears => exact Call.isReturned_next hget _ _ _
        | wakes => rfl
        | returns ha hsettled => exact absurd hurl (hkept call _ ha hcall hsettled)
      · exact hstage leader (hgoes.joined.mp hjoined)
    · exact ⟨hcleared ▸ h.cleared, hcall⟩
  led i leader hjoins := by
    rcases hdoes.of_joins hjoins with hjoins | ⟨rfl, url, options, signal, rfl, hjoining⟩
    · exact hdoes.leads (h.led i leader hjoins)
    · obtain ⟨-, other, hother, hget, hurl, -, hstage⟩ := h.entry url leader hjoining.2
      obtain ⟨other', hother', hgoes⟩ := hdoes.goes hother
      obtain ⟨call', hcall', hstage'⟩ := hjoins
      refine ⟨call', other', hcall', hother', hgoes.same.1.trans hget, ?_, fun leader' hjoined => ?_⟩
      · rcases hdoes.of_goes hcall' with ⟨call, hcall, -⟩ | ⟨-, method, url', options', signal', stage, ha, rfl, -⟩
        · exact absurd (List.getElem?_eq_some_iff.mp hcall).1 (Nat.lt_irrefl _)
        · cases ha
          exact hgoes.same.2.trans hurl
      · exact hstage leader' (hgoes.joined.mp hjoined)

/-! ## §6. One request in flight. -/

/-- Every request in flight is in the map. -/
def Tracked (s : Callers) : Prop := ∀ url i, s.InFlight url i → s.client.apiCache.inFlight.lookup url = some i

theorem Does.cleared_le (h : s.Does a s') (htidy : s.Tidy) : s.cleared ≤ s'.cleared := by
  cases h with
  | clears => exact htidy.cleared
  | starts | responds | wakes | finishes | aborts | ticks | idles => exact Nat.le_refl _

/-- A request in flight was so before, or has been issued and entered in the map. -/
theorem Does.of_inFlight (h : s.Does a s') (htidy : s.Tidy) (hflight : s'.InFlight url j) :
    s.InFlight url j ∨ s'.client.apiCache.inFlight.lookup url = some j := by
  obtain ⟨hle, call', hcall', hget, hurl, hunder⟩ := hflight
  rcases h.of_goes hcall' with ⟨call, hcall, hgoes⟩ | ⟨rfl, method, url', options, signal, stage, -, rfl, henters⟩
  · have hle' := h.cleared_le htidy
    exact .inl ⟨hle'.trans hle, call, hcall, hgoes.same.1 ▸ hget, hgoes.same.2 ▸ hurl, hgoes.isUnderWay hunder⟩
  · right
    obtain rfl : url' = url := hurl
    generalize s'.client.apiCache.inFlight = inFlight at henters
    cases henters with
    | alone _ halone =>
        have hreturned := (halone hget).1
        cases stage with
        | returned outcome => cases hunder
        | sending | sleeping | joined | settled => cases hreturned
    | joins => cases hunder
    | leads => rw [Store.lookup_insert_eq, if_pos rfl]

/-- **A careful step** takes no request in flight out of the map, unless it clears that. -/
theorem Does.lookup (h : s.Does a s') (hcareful : s.Careful a) (hflight : s.InFlight url j)
    (hlookup : s.client.apiCache.inFlight.lookup url = some j) :
    s'.client.apiCache.inFlight.lookup url = some j ∨ s'.cleared = s.client.calls.length := by
  cases h with
  | @starts method url' options signal stage client hcalls henters =>
      left
      dsimp only
      generalize client.apiCache.inFlight = inFlight at henters
      cases henters with
      | alone | joins => exact hlookup
      | leads _ hnone =>
          rw [Store.lookup_insert_eq]
          split
          · next hurl =>
              rw [← hurl, hlookup] at hnone
              cases hnone
          · exact hlookup
  | @responds i call attempt request response heard c _ _ _ hc =>
      left
      show c.inFlight.lookup url = some j
      rw [hc, inFlight_absorb]
      exact hlookup
  | @finishes i call outcome hcall hstage =>
      left
      show (s.client.apiCache.inFlight.erase call.url).lookup url = some j
      rw [Store.lookup_erase_eq]
      split
      · next hurl =>
          subst hurl
          exact absurd hflight (hcareful call outcome j hcall hstage hlookup)
      · exact hlookup
  | clears => exact .inr rfl
  | wakes | aborts | ticks | idles => exact .inl hlookup

theorem Tracked.after (h : s.Tracked) (htidy : s.Tidy) (hcareful : s.Careful a) (hdoes : s.Does a s') : s'.Tracked := by
  intro url j hflight
  rcases hdoes.of_inFlight htidy hflight with hold | hlookup
  · rcases hdoes.lookup hcareful hold (h url j hold) with hlookup | hcleared
    · exact hlookup
    · -- what was issued before a `clear` is not counted after it
      obtain ⟨-, call, hcall, -⟩ := hold
      have hle := hflight.1
      have hlt := (List.getElem?_eq_some_iff.mp hcall).1
      omega
  · exact hlookup

/-! ## §7. The signals of others. -/

/-- Who has joined a request that its signal ended has aborted as well. -/
def Unharmed (s : Callers) : Prop := ∀ i leader, s.Joins i leader → s.CutOff leader → s.aborted i = true

/-- A signal stays aborted. -/
theorem Does.aborted (h : s.Does a s') (hi : i < s.client.calls.length) (haborted : s.aborted i = true) :
    s'.aborted i = true := by
  unfold Callers.aborted isAborted at *
  cases h with
  | starts =>
      dsimp only
      rw [Function.update_of_ne (Nat.ne_of_lt hi)]
      exact haborted
  | @aborts signal reason =>
      show ((s.signalOf i).bind (s.abort signal reason).reasonOf).isSome = true
      cases hsignal : s.signalOf i with
      | none =>
          rw [hsignal] at haborted
          cases haborted
      | some signal' =>
          rw [hsignal] at haborted
          show (Function.update s.reasonOf signal _ signal').isSome = true
          by_cases hsame : signal' = signal
          · rw [hsame, Function.update_self]
            rfl
          · rw [Function.update_of_ne hsame]
            exact haborted
  | responds | wakes | finishes | clears | ticks | idles => exact haborted

/-- A call after one has been moved is that one, or it has not changed. -/
theorem setStage_cases {client : State} {k : Nat} {stage : Stage} {call call' : Call} (hcall : client.calls[k]? = some call)
    (hcall' : (client.setStage k stage).calls[i]? = some call') :
    (k = i ∧ call' = { call with stage }) ∨ (k ≠ i ∧ client.calls[i]? = some call') := by
  rw [getElem?_setStage] at hcall'
  by_cases hk : k = i
  · subst hk
    rw [if_pos rfl, hcall] at hcall'
    exact .inl ⟨rfl, (Option.some.inj hcall').symm⟩
  · rw [if_neg hk] at hcall'
    exact .inr ⟨hk, hcall'⟩

/-- A call that has been ended by its signal was so before, or hears of it. -/
theorem Does.of_cutOff (h : s.Does a s') (hi : i < s.client.calls.length) (hcut : s'.CutOff i) :
    s.CutOff i ∨ ∃ call attempt request response heard e, a = .respond i response ∧ s.client.calls[i]? = some call
      ∧ call.stage = .sending attempt request ∧ s.bySignal i response = true ∧ s.heard i response = some heard
      ∧ (call.next attempt request heard).Fails e := by
  obtain ⟨hcut, call', e, hcall', hfails⟩ := hcut
  cases h with
  | starts hcalls _ =>
      dsimp only at hcut hcall'
      rw [Function.update_of_ne (Nat.ne_of_lt hi)] at hcut
      rw [hcalls, List.getElem?_append_left hi] at hcall'
      exact .inl ⟨hcut, call', e, hcall', hfails⟩
  | @responds k call attempt request response heard c hcall hstage hheard _ =>
      dsimp only at hcut
      rcases setStage_cases hcall hcall' with ⟨rfl, rfl⟩ | ⟨hk, hsame⟩
      · rw [Function.update_self] at hcut
        exact .inr ⟨call, attempt, request, response, heard, e, rfl, hcall, hstage, hcut, hheard, hfails⟩
      · rw [Function.update_of_ne (Ne.symm hk)] at hcut
        exact .inl ⟨hcut, call', e, hsame, hfails⟩
  | @wakes k call attempt hcall hstage =>
      rcases setStage_cases hcall hcall' with ⟨rfl, rfl⟩ | ⟨hk, hsame⟩
      · rcases hfails with hfails | hfails <;> cases hfails
      · exact .inl ⟨hcut, call', e, hsame, hfails⟩
  | @finishes k call outcome hcall hstage =>
      rcases setStage_cases hcall hcall' with ⟨rfl, rfl⟩ | ⟨hk, hsame⟩
      · -- the promise resolves to the outcome that the call had
        rcases hfails with hfails | hfails
        · cases hfails
        · obtain rfl := Stage.returned.inj hfails
          exact .inl ⟨hcut, call, e, hcall, .inl hstage⟩
      · exact .inl ⟨hcut, call', e, hsame, hfails⟩
  | aborts | clears | ticks | idles => exact .inl ⟨hcut, call', e, hcall', hfails⟩

theorem Unharmed.after (h : s.Unharmed) (htidy : s.Tidy) (hcareful : s.Careful a) (hdoes : s.Does a s') :
    s'.Unharmed := by
  intro i leader hjoins hcut
  rcases hdoes.of_joins hjoins with hold | ⟨rfl, url, options, signal, rfl, hjoining⟩
  · obtain ⟨-, other, -, hother, hget, -, -⟩ := htidy.led i leader hold
    obtain ⟨call, hcall, -⟩ := id hold
    have hi := (List.getElem?_eq_some_iff.mp hcall).1
    refine hdoes.aborted hi ?_
    rcases hdoes.of_cutOff (List.getElem?_eq_some_iff.mp hother).1 hcut with
      hcut | ⟨other', attempt, request, response, heard, e, rfl, hother', hstage, hsignal, hheard, hfails⟩
    · exact h i leader hold hcut
    · obtain rfl := Option.some.inj (hother.symm.trans hother')
      rcases hfails with hsettled | hreturned
      · exact hcareful other attempt request heard _ hother hstage hsignal hheard hsettled i hold
      · have hnot := Call.isReturned_next hget attempt request heard
        rw [hreturned] at hnot
        cases hnot
  · -- the caller joins now
    obtain ⟨-, other, hother, -⟩ := htidy.entry url leader hjoining.2
    rcases hdoes.of_cutOff (List.getElem?_eq_some_iff.mp hother).1 hcut with hcut | ⟨_, _, _, _, _, _, ha, _⟩
    · have haborted := hcareful leader hjoining hcut
      cases hdoes with
      | starts =>
          show ((Function.update s.signalOf s.client.calls.length signal s.client.calls.length).bind s.reasonOf).isSome
            = true
          rw [Function.update_self]
          exact haborted
      | idles hnot => exact absurd rfl (hnot _ _ _ _)
    · cases ha

/-! ## §8. Results. -/

theorem result_of_not_joined {s : State} {i : Nat} {call : Call} (hcall : s.calls[i]? = some call)
    (hstage : ∀ leader, call.stage ≠ .joined leader) {outcome : Outcome} :
    s.result i = some outcome ↔ call.stage = .returned outcome := by
  obtain ⟨method, url, options, stage⟩ := call
  unfold State.result
  rw [hcall]
  cases stage with
  | joined leader => exact absurd rfl (hstage leader)
  | returned outcome' =>
      exact ⟨fun h => congrArg Stage.returned (Option.some.inj h), fun h => congrArg some (Stage.returned.inj h)⟩
  | sending | sleeping | settled => exact iff_of_false nofun nofun

/-- **Who has joined a request settles with its outcome.** -/
theorem result_of_joins (hjoins : s.Joins i leader) (hleads : s.Leads i leader) :
    s.client.result i = s.client.result leader := by
  obtain ⟨⟨method, url, options, stage⟩, hcall, hstage⟩ := hjoins
  obtain rfl : stage = .joined leader := hstage
  obtain ⟨-, ⟨method', url', options', stage'⟩, -, hother, -, -, hstage'⟩ := hleads
  unfold State.result
  rw [hcall]
  dsimp only
  rw [hother]
  cases stage' with
  | joined leader' => exact absurd rfl (hstage' leader')
  | sending | sleeping | settled | returned => rfl

theorem apart_of (htidy : s.Tidy) (htracked : s.Tracked) (hunharmed : s.Unharmed) : s.Apart where
  single url i j hi hj := Option.some.inj ((htracked url i hi).symm.trans (htracked url j hj))
  shared i leader hjoins := ⟨htidy.led i leader hjoins, result_of_joins hjoins (htidy.led i leader hjoins)⟩
  unharmed i leader e hjoins hresult hcut := by
    have hleads := htidy.led i leader hjoins
    rw [result_of_joins hjoins hleads] at hresult
    obtain ⟨-, other, -, hother, -, -, hstage⟩ := hleads
    exact hunharmed i leader hjoins ⟨hcut, other, e, hother, .inr ((result_of_not_joined hother hstage).mp hresult)⟩

/-! ## §9. Runs. -/

theorem tidy_after (now : Int) (actions : List CallerAction) : (after now actions).Tidy :=
  run_invariant_of step Tidy (fun _ => True) (tidy_init now) (fun s a h _ => h.after (s.does_step a)) actions
    fun _ _ => trivial

theorem joins_run (h : s.Joins i leader) (actions : List CallerAction) : (run step s actions).Joins i leader :=
  run_invariant_of step (fun s => s.Joins i leader) (fun _ => True) h (fun s a h _ => (s.does_step a).joins h) actions
    fun _ _ => trivial

/-- **Careful steps** keep the callers apart. -/
theorem apart_after (now : Int) {actions : List CallerAction}
    (hcareful : ∀ t ∈ trace step (init now) actions, t.pre.Careful t.act) : (after now actions).Apart := by
  have hinit : (init now).Tidy ∧ (init now).Tracked ∧ (init now).Unharmed :=
    ⟨tidy_init now, fun _ _ ⟨_, _, hcall, _⟩ => (nomatch hcall), fun _ _ ⟨_, hcall, _⟩ => (nomatch hcall)⟩
  obtain ⟨htidy, htracked, hunharmed⟩ := run_invariant_of step (fun s => s.Tidy ∧ s.Tracked ∧ s.Unharmed)
    (fun t => t.pre.Careful t.act) hinit (fun s a h hcareful => by
      obtain ⟨htidy, htracked, hunharmed⟩ := h
      have hdoes := s.does_step a
      exact ⟨htidy.after hdoes, htracked.after htidy hcareful hdoes, hunharmed.after htidy hcareful hdoes⟩)
    actions hcareful
  exact apart_of htidy htracked hunharmed

/-! ## §10. Careless steps. -/

/-- A GET without a cache. -/
def plain : RequestOptions :=
  { cacheTtl := none, cacheTags := [], maxRetries := none, idempotent := false, validBody := true }

theorem calls_request_plain {s : State} {url : String} (h : s.apiCache.inFlight.lookup url = none) :
    (s.request .get url plain).calls = s.calls ++ [⟨.get, url, plain, .sending 0 s.sent⟩] := by
  show (s.dedupe url plain).calls = _
  unfold State.dedupe
  rw [h]
  rfl

/-- Where the entry of a request in flight goes with another's, the next call issues a second one. -/
theorem not_apart_of_finish (htidy : s.Tidy) (h : ¬ s.Careful (.finish i)) :
    ∃ next, ¬ ((s.step (.finish i)).step next).Apart := by
  unfold Careful at h
  push Not at h
  obtain ⟨⟨method, url, options, stage⟩, outcome, j, hcall, hstage, hlookup, hflight⟩ := h
  obtain rfl : stage = .settled outcome := hstage
  obtain ⟨hle, other, hother, hget, hurl, hunder⟩ := hflight
  have hlt := (List.getElem?_eq_some_iff.mp hother).1
  have hij : i ≠ j := by
    rintro rfl
    obtain rfl := Option.some.inj (hcall.symm.trans hother)
    cases hunder
  refine ⟨.request .get url plain none, fun happart => ?_⟩
  have hfinish : s.client.finish i = State.setStage
      { s.client with apiCache.inFlight := s.client.apiCache.inFlight.erase url } i (.returned outcome) := by
    unfold State.finish
    rw [hcall]
  have hnone : (s.client.finish i).apiCache.inFlight.lookup url = none := by
    rw [hfinish]
    show (s.client.apiCache.inFlight.erase url).lookup url = none
    rw [Store.lookup_erase_eq, if_pos rfl]
  have hlength : (s.client.finish i).calls.length = s.client.calls.length := by
    rw [hfinish]
    exact length_setStage ..
  have hother' : (s.client.finish i).calls[j]? = some other := by
    rw [hfinish, getElem?_setStage, if_neg hij]
    exact hother
  have hcalls := calls_request_plain hnone
  -- the request that has lost its entry, and the new one
  have hold : ((s.step (.finish i)).step (.request .get url plain none)).InFlight url j := by
    refine ⟨hle, other, ?_, hget, hurl, hunder⟩
    show ((s.client.finish i).request .get url plain).calls[j]? = _
    rw [hcalls, List.getElem?_append_left (hlength.symm ▸ hlt), hother']
  have hnew : ((s.step (.finish i)).step (.request .get url plain none)).InFlight url s.client.calls.length := by
    refine ⟨htidy.cleared, ⟨.get, url, plain, .sending 0 (s.client.finish i).sent⟩, ?_, rfl, rfl, rfl⟩
    show ((s.client.finish i).request .get url plain).calls[s.client.calls.length]? = _
    rw [hcalls, ← hlength, List.getElem?_concat_length]
  have hsame := happart.single url _ _ hold hnew
  omega

/-- What the signal is the cause of is heard as a failure. -/
theorem heard_of_bySignal {response heard : Response} (hsignal : s.bySignal i response = true)
    (hheard : s.heard i response = some heard) : heard = .aborted true ∨ heard = .broken := by
  cases response with
  | ok | failed | broken => cases hsignal
  | aborted byCaller =>
      cases byCaller with
      | true =>
          obtain ⟨reason, -, rfl⟩ := Option.map_eq_some_iff.mp hheard
          cases reason with
          | abortError => exact .inl rfl
          | other => exact .inr rfl
      | false =>
          have haborted : s.aborted i = true := hsignal
          have hheard : (if s.barred i then none else some (Response.aborted (s.aborted i))) = some heard := hheard
          split at hheard
          · cases hheard
          · rw [haborted] at hheard
            exact .inl (Option.some.inj hheard).symm

theorem fails_of_bySignal {response heard : Response} (hsignal : s.bySignal i response = true)
    (hheard : s.heard i response = some heard) {call : Call} {attempt request : Nat} {outcome : Outcome}
    (hnext : call.next attempt request heard = .settled outcome) : ∃ e, outcome = .error e := by
  have hover : ∀ e, call.method.over (.error e) = .settled outcome → ∃ e, outcome = .error e := fun e h => by
    cases hmethod : call.method with
    | get =>
        rw [hmethod] at h
        exact ⟨e, (Stage.settled.inj h).symm⟩
    | post | delete =>
        rw [hmethod] at h
        cases h
  rcases heard_of_bySignal hsignal hheard with rfl | rfl
  · exact hover _ hnext
  · unfold Call.next at hnext
    dsimp only at hnext
    split at hnext
    · -- a broken request is sent again, while attempts are left
      cases hnext
    · exact hover _ hnext

/-- A request that its signal has ended fails for whoever has joined it, as soon as its promise resolves. -/
theorem not_apart_of_cutOff (htidy : s.Tidy) (hjoins : s.Joins j leader) {call : Call} {e : ApiError}
    (hcall : s.client.calls[leader]? = some call) (hstage : call.stage = .settled (.error e)) (hcut : s.cut leader = true)
    (haborted : ¬ s.aborted j = true) : ¬ (s.step (.finish leader)).Apart := by
  intro happart
  have hdoes := s.does_step (.finish leader)
  have hjoins' := hdoes.joins hjoins
  have hleads' := (htidy.after hdoes).led j leader hjoins'
  obtain ⟨method, url, options, stage⟩ := call
  obtain rfl : stage = .settled (.error e) := hstage
  have hcall' : (s.step (.finish leader)).client.calls[leader]? = some ⟨method, url, options, .returned (.error e)⟩ := by
    show (s.client.finish leader).calls[leader]? = _
    unfold State.finish
    rw [hcall]
    dsimp only
    rw [getElem?_setStage, if_pos rfl, hcall]
    rfl
  -- the one who joined gets the failure, whose cause is a signal that is not its own
  have hresult : (s.step (.finish leader)).client.result j = some (.error e) := by
    rw [result_of_joins hjoins' hleads']
    exact (result_of_not_joined hcall' nofun).mpr rfl
  exact haborted (happart.unharmed j leader e hjoins' hresult hcut)

theorem not_apart_of_respond (htidy : s.Tidy) {response : Response} (h : ¬ s.Careful (.respond i response)) :
    ¬ ((s.step (.respond i response)).step (.finish i)).Apart := by
  unfold Careful at h
  push Not at h
  obtain ⟨⟨method, url, options, stage⟩, attempt, request, heard, outcome, hcall, hstage, hsignal, hheard, hnext, j,
    hjoins, haborted⟩ := h
  obtain rfl : stage = .sending attempt request := hstage
  obtain ⟨e, rfl⟩ := fails_of_bySignal hsignal hheard hnext
  have hdoes := s.does_step (.respond i response)
  have hstep : s.step (.respond i response) = { s with
      client := s.client.respond i heard
      cut := Function.update s.cut i (s.bySignal i response) } := by
    show s.respond i response = _
    unfold Callers.respond
    rw [hcall, hheard]
  have hcall' : (s.step (.respond i response)).client.calls[i]? = some ⟨method, url, options, .settled (.error e)⟩ := by
    rw [hstep]
    unfold State.respond
    dsimp only
    rw [hcall]
    dsimp only
    rw [getElem?_setStage, if_pos rfl, hnext]
    show (s.client.calls[i]?).map _ = _
    rw [hcall]
    rfl
  refine not_apart_of_cutOff (htidy.after hdoes) (hdoes.joins hjoins) hcall' rfl ?_ ?_
  · rw [hstep]
    show Function.update s.cut i (s.bySignal i response) i = true
    rw [Function.update_self, hsignal]
  · rw [hstep]
    exact haborted

theorem not_apart_of_request (htidy : s.Tidy) {options : RequestOptions} {signal : Option Nat}
    (h : ¬ s.Careful (.request .get url options signal)) :
    ∃ leader, ¬ ((s.step (.request .get url options signal)).step (.finish leader)).Apart := by
  unfold Careful at h
  push Not at h
  obtain ⟨leader, hjoining, ⟨hcut, call, e, hcall, hfails⟩, haborted⟩ := h
  refine ⟨leader, ?_⟩
  have hdoes := s.does_step (.request .get url options signal)
  have hcalls := calls_request_of_joining hjoining
  obtain ⟨-, other, hother, -, -, hreturned, -⟩ := htidy.entry url leader hjoining.2
  obtain rfl : call = other := Option.some.inj (hcall.symm.trans hother)
  have hlt := (List.getElem?_eq_some_iff.mp hcall).1
  -- the promise of the request has not resolved, for it is still in the map
  have hsettled : call.stage = .settled (.error e) := by
    rcases hfails with hsettled | hfails
    · exact hsettled
    · rw [hfails] at hreturned
      cases hreturned
  have hjoins : (s.step (.request .get url options signal)).Joins s.client.calls.length leader := by
    refine ⟨⟨.get, url, options, .joined leader⟩, ?_, rfl⟩
    show (s.client.request .get url options).calls[s.client.calls.length]? = _
    rw [hcalls, List.getElem?_concat_length]
  have hcall' : (s.step (.request .get url options signal)).client.calls[leader]? = some call := by
    show (s.client.request .get url options).calls[leader]? = _
    rw [hcalls, List.getElem?_append_left hlt, hcall]
  refine not_apart_of_cutOff (htidy.after hdoes) hjoins hcall' hsettled ?_ ?_
  · show Function.update s.cut s.client.calls.length false leader = true
    rw [Function.update_of_ne (Nat.ne_of_lt hlt)]
    exact hcut
  · show ¬ ((Function.update s.signalOf s.client.calls.length signal s.client.calls.length).bind s.reasonOf).isSome = true
    rw [Function.update_self]
    exact haborted

/-- **A step that is not careful** is one step away from the callers' not being apart. -/
theorem exists_not_apart (htidy : s.Tidy) (h : ¬ s.Careful a) : ∃ next, ¬ ((s.step a).step next).Apart := by
  cases a with
  | request method url options signal =>
      cases method with
      | get =>
          obtain ⟨leader, hnot⟩ := not_apart_of_request htidy h
          exact ⟨_, hnot⟩
      | post | delete => exact absurd trivial h
  | respond i response => exact ⟨_, not_apart_of_respond htidy h⟩
  | finish i => exact not_apart_of_finish htidy h
  | wake | abort | clear | clock => exact absurd trivial h

/-- **De-duplicated reads do not interfere** in a run of careful steps; and after
any run each step that is not careful can be followed by one with which they do. -/
theorem reads_stay_apart (now : Int) (actions : List CallerAction) :
    ((∀ t ∈ trace step (init now) actions, t.pre.Careful t.act) → StayApart now actions)
      ∧ ∀ a, ¬ (after now actions).Careful a → ∃ next, ¬ StayApart now (actions ++ [a, next]) := by
  refine ⟨fun hcareful as has => ⟨?_, fun bs hbs i leader hjoins => ?_⟩, fun a ha => ?_⟩
  · exact apart_after now fun t ht => hcareful t (mem_trace_of_isPrefix step has ht)
  · obtain ⟨cs, rfl⟩ := hbs
    unfold after at hjoins ⊢
    rw [run_append]
    exact joins_run hjoins cs
  · obtain ⟨next, hnext⟩ := exists_not_apart (tidy_after now actions) ha
    refine ⟨next, fun hapart => hnext ?_⟩
    have hend := (hapart _ List.prefix_rfl).1
    unfold after at hend
    rw [run_append] at hend
    exact hend

/-- The abort of one caller rejects another; and after a `clear` the end of an old
request lets a third one start while the second is in flight. -/
theorem callers_interfere :
    ¬ StayApart 0 [.request .get "u" plain (some 0), .request .get "u" plain (some 1), .abort 0 .abortError,
        .respond 0 (.aborted true), .finish 0]
      ∧ ¬ StayApart 0 [.request .get "u" plain none, .clear, .request .get "u" plain none, .respond 0 (.ok none),
        .finish 0, .request .get "u" plain none] := by
  constructor
  · intro hapart
    have hharmed := (hapart _ List.prefix_rfl).1.unharmed 1 0 .abort ⟨_, rfl, rfl⟩ rfl rfl
    cases hharmed
  · intro hapart
    have hsame := (hapart _ List.prefix_rfl).1.single "u" 1 2 ⟨Nat.le_refl 1, _, rfl, rfl, rfl, rfl⟩
      ⟨Nat.le_succ 1, _, rfl, rfl, rfl, rfl⟩
    cases hsame

end Callers

end PredictIQ.Client
