/-
  PredictIQ.Frontend.UseAsync: the retry loop of `useAsync`.

  Calls of `retry` are numbered; `abortControllerRef` holds the controller of
  the latest.  A call stands at the promise of `asyncFunction`, at a timer that
  its controller can clear, or at a `wait` that has resolved already.  When the
  options change, React runs the cleanup of the effect and the effect without
  anything between them.  `invoked` and `writes` are not in the code: they
  count the calls of `asyncFunction` and keep who set each state.
-/
import PredictIQ.Foundation.Superseding
import PredictIQ.Frontend.Thrown
import Mathlib.Logic.Function.Basic

namespace PredictIQ.Frontend.UseAsync

open Foundation

/-! ## §1. The hook. -/

inductive AsyncStatus where
  | idle | loading | success | error
  deriving DecidableEq

structure UseAsyncState (T : Type) where
  data : Option T
  error : Option Thrown
  status : AsyncStatus
  attempt : Nat

/-- What a call of `retry` closes over; a delay that is a number is a constant function. -/
structure RetryOptions where
  retries : Nat
  retryDelayMs : Nat → Int

inductive Stage where
  | calling | sleeping | woken | over
  deriving DecidableEq

/-- A call of `retry`. -/
structure Run where
  options : RetryOptions
  attempt : Nat
  aborted : Bool
  stage : Stage
  invoked : Nat

/-- The signal is aborted: a timer is cleared, and its `wait` rejects. -/
def Run.abort (run : Run) : Run :=
  { run with aborted := true, stage := if run.stage = .sleeping then .over else run.stage }

def Run.finish (run : Run) : Run := { run with stage := .over }

/-- One more attempt is counted, and waited for. -/
def Run.wait (run : Run) : Run :=
  { run with
    attempt := run.attempt + 1
    stage := if run.options.retryDelayMs (run.attempt + 1) ≤ 0 then .woken else .sleeping }

/-- `asyncFunction(controller.signal)`. -/
def Run.invoke (run : Run) : Run := { run with stage := .calling, invoked := run.invoked + 1 }

/-- The number of the latest call is 0 before any; `effect` says that the effect is in place. -/
structure Hook (T : Type) where
  state : UseAsyncState T
  isMounted : Bool
  effect : Bool
  latest : Nat
  runs : Nat → Option Run
  writes : List (Nat × UseAsyncState T)

/-- A call of `retry`, as some render returned it; the effect and its cleanup;
the settlement of a promise of `asyncFunction`; a timer; the end of a `wait`. -/
inductive Action (T : Type) where
  | retry (options : RetryOptions)
  | mount (options : RetryOptions) (immediate : Bool)
  | unmount
  | change (options : RetryOptions) (immediate : Bool)
  | settle (i : Nat) (result : Except Thrown T)
  | fire (i : Nat)
  | resume (i : Nat)

namespace Hook

variable {T : Type}

def init : Hook T := ⟨⟨none, none, .idle, 0⟩, true, false, 0, fun _ => none, []⟩

/-- `setState`, by call `i`. -/
def setState (s : Hook T) (i : Nat) (state : UseAsyncState T) : Hook T :=
  { s with state, writes := s.writes ++ [(i, state)] }

def setRun (s : Hook T) (i : Nat) (run : Run) : Hook T := { s with runs := Function.update s.runs i (some run) }

/-- `abortControllerRef.current?.abort()`. -/
def abort (s : Hook T) : Hook T :=
  match s.runs s.latest with
  | some run => s.setRun s.latest run.abort
  | none => s

/-- `retry`, up to the first promise. -/
def retry (s : Hook T) (options : RetryOptions) : Hook T :=
  let s := s.abort
  let i := s.latest + 1
  let run : Run := ⟨options, 0, false, .over, 0⟩
  let s := { s with latest := i }
  if s.isMounted then
    (s.setState i { s.state with error := none, status := .loading, attempt := 0 }).setRun i run.invoke
  else s.setRun i run

/-- What follows a promise of `asyncFunction`. -/
def settle (s : Hook T) (i : Nat) (run : Run) : Except Thrown T → Hook T
  | .ok data =>
      if s.isMounted && !run.aborted then
        (s.setRun i run.finish).setState i ⟨some data, none, .success, run.attempt + 1⟩
      else s.setRun i run.finish
  | .error error =>
      if error.isAbort || run.aborted then s.setRun i run.finish
      else if run.attempt < run.options.retries then
        if s.isMounted then
          (s.setRun i run.wait).setState i { s.state with attempt := run.wait.attempt + 1 }
        else s.setRun i run.wait
      else if s.isMounted then
        match error.toError with
        | some normalized =>
            (s.setRun i run.finish).setState i
              { s.state with error := some normalized, status := .error, attempt := run.attempt + 1 }
        | none => s.setRun i run.finish
      else s.setRun i run.finish

/-- The effect. -/
def runEffect (s : Hook T) (options : RetryOptions) (immediate : Bool) : Hook T :=
  let s := { s with isMounted := true, effect := true }
  if immediate then s.retry options else s

/-- The cleanup of the effect. -/
def cleanup (s : Hook T) : Hook T := { s with isMounted := false, effect := false }.abort

/-- React runs the effect and its cleanup in turn; a promise or a timer is that of one call. -/
def step (s : Hook T) : Action T → Hook T
  | .retry options => s.retry options
  | .mount options immediate => if s.effect then s else s.runEffect options immediate
  | .unmount => if s.effect then s.cleanup else s
  | .change options immediate => if s.effect then s.cleanup.runEffect options immediate else s
  | .settle i result =>
      match s.runs i with
      | some run => if run.stage = .calling then s.settle i run result else s
      | none => s
  | .fire i =>
      match s.runs i with
      | some run => if run.stage = .sleeping then s.setRun i { run with stage := .woken } else s
      | none => s
  | .resume i =>
      match s.runs i with
      | some run => if run.stage = .woken then s.setRun i run.invoke else s
      | none => s

/-- The hook after some actions. -/
def after (actions : List (Action T)) : Hook T := run step init actions

def ledger (s : Hook T) : Ledger (UseAsyncState T) := ⟨s.latest, s.writes⟩

/-! ## §2. What is claimed of it. -/

/-- In a step the state stays, or the latest call sets it once, and the component is mounted. -/
def Written (s s' : Hook T) : Prop :=
  s'.state = s.state ∧ s'.writes = s.writes
    ∨ s'.isMounted = true ∧ s'.writes = s.writes ++ [(s'.latest, s'.state)]

/-- The latest call waits: for a promise of `asyncFunction`, or in `wait`. -/
def IsPending (s : Hook T) : Prop := ∃ run, s.runs s.latest = some run ∧ run.stage ≠ .over

/-- Nothing but a call that waits is shown as loading. -/
def NeverHangs (s : Hook T) : Prop := s.isMounted = true → ¬ s.IsPending → s.state.status ≠ .loading

/-- A call of `retry` makes at most one attempt more than it has retries. -/
def Bounded (s : Hook T) : Prop := ∀ i run, s.runs i = some run → run.invoked ≤ run.options.retries + 1

/-- Through some actions: only the latest call writes, and while mounted;
superseded calls stay silent; attempts are bounded; nothing hangs. -/
structure ShowsLatest (actions : List (Action T)) : Prop where
  written : ∀ t ∈ trace step init actions, t.pre.Written t.post
  silent : ∀ as, as <+: actions → ∀ i, i < (after as).latest →
    (after actions).ledger.writesOf i = (after as).ledger.writesOf i
  bounded : ∀ as, as <+: actions → (after as).Bounded
  neverHangs : ∀ as, as <+: actions → (after as).NeverHangs

/-- A promise of the latest call, while its controller is not aborted, is not
rejected with an `AbortError`, nor the last one with what no `Error` can be made
of; and the effect does not begin with `immediate` off, after a cleanup, while
the status is `loading`. -/
def Careful (s : Hook T) : Action T → Prop
  | .settle i (.error error) => ∀ run, i = s.latest → s.runs i = some run → run.stage = .calling → run.aborted = false →
      error.isAbort = false ∧ (run.attempt < run.options.retries ∨ error.toError.isSome = true)
  | .mount _ false => s.effect = false → s.isMounted = false → s.state.status ≠ .loading
  | .change _ false => s.effect = true → s.state.status ≠ .loading
  | .retry _ | .mount _ true | .unmount | .change _ true | .settle _ (.ok _) | .fire _ | .resume _ => True

end Hook

/-! ## §3. The attempts of a call. -/

/-- An attempt has been made of each that was counted, and the next one is under way, or to come. -/
def Run.Counted (run : Run) : Prop :=
  match run.stage with
  | .calling => run.invoked = run.attempt + 1 ∧ run.attempt ≤ run.options.retries
  | .sleeping | .woken => run.invoked = run.attempt ∧ run.attempt ≤ run.options.retries
  | .over => run.invoked ≤ run.options.retries + 1

namespace Run

variable {run : Run}

theorem Counted.le (h : run.Counted) : run.invoked ≤ run.options.retries + 1 := by
  unfold Counted at h
  split at h <;> omega

theorem Counted.finish (h : run.Counted) : run.finish.Counted := h.le

theorem Counted.abort (h : run.Counted) : run.abort.Counted := by
  unfold Run.abort
  split
  · exact h.le
  · exact h

theorem Counted.wait (h : run.Counted) (hstage : run.stage = .calling) (hlt : run.attempt < run.options.retries) :
    run.wait.Counted := by
  have hcount : run.invoked = run.attempt + 1 ∧ run.attempt ≤ run.options.retries := by
    unfold Counted at h
    rwa [hstage] at h
  have hnext : run.invoked = run.attempt + 1 ∧ run.attempt + 1 ≤ run.options.retries := by omega
  by_cases hdelay : run.options.retryDelayMs (run.attempt + 1) ≤ 0 <;> simpa [Counted, Run.wait, hdelay] using hnext

theorem Counted.woken (h : run.Counted) (hstage : run.stage = .sleeping) :
    ({ run with stage := .woken } : Run).Counted := by
  unfold Counted at h
  rw [hstage] at h
  exact h

theorem Counted.invoke (h : run.Counted) (hstage : run.stage = .woken) : run.invoke.Counted := by
  have hcount : run.invoked = run.attempt ∧ run.attempt ≤ run.options.retries := by
    unfold Counted at h
    rwa [hstage] at h
  show run.invoked + 1 = run.attempt + 1 ∧ run.attempt ≤ run.options.retries
  omega

theorem wait_stage_ne (run : Run) : run.wait.stage ≠ .over := by
  simp only [Run.wait]
  split <;> simp

@[simp] theorem abort_aborted (run : Run) : run.abort.aborted = true := rfl

theorem abort_not_sleeping (run : Run) : run.abort.stage ≠ .sleeping := by
  simp only [Run.abort]
  split
  · simp
  · assumption

end Run

/-! ## §4. The invariant. -/

namespace Hook

variable {T : Type} {s : Hook T} {i : Nat} {run run' : Run} {result : Except Thrown T}

@[simp] theorem runs_setRun (s : Hook T) (i j : Nat) (run : Run) :
    (s.setRun i run).runs j = if j = i then some run else s.runs j := by
  simp [setRun, Function.update_apply]

@[simp] theorem latest_setRun (s : Hook T) (i : Nat) (run : Run) : (s.setRun i run).latest = s.latest := rfl

@[simp] theorem state_setRun (s : Hook T) (i : Nat) (run : Run) : (s.setRun i run).state = s.state := rfl

/-- Aborting touches the latest run alone. -/
theorem abort_eq (s : Hook T) :
    s.abort = { s with runs := Function.update s.runs s.latest ((s.runs s.latest).map Run.abort) } := by
  unfold abort
  split
  · next run hrun => rw [hrun]; rfl
  · next hrun => rw [hrun, Option.map_none, ← hrun, Function.update_eq_self]

@[simp] theorem latest_abort (s : Hook T) : s.abort.latest = s.latest := by rw [abort_eq]

@[simp] theorem isMounted_abort (s : Hook T) : s.abort.isMounted = s.isMounted := by rw [abort_eq]

@[simp] theorem state_abort (s : Hook T) : s.abort.state = s.state := by rw [abort_eq]

@[simp] theorem writes_abort (s : Hook T) : s.abort.writes = s.writes := by rw [abort_eq]

theorem cleanup_eq (s : Hook T) : s.cleanup = { s.abort with isMounted := false, effect := false } := by
  simp only [cleanup, abort_eq]

/-- The run that a call of `retry` begins with: it calls `asyncFunction`, if the component is mounted. -/
def firstRun (s : Hook T) (options : RetryOptions) : Run :=
  if s.isMounted then ⟨options, 0, false, .calling, 1⟩ else ⟨options, 0, false, .over, 0⟩

theorem runs_retry (s : Hook T) (options : RetryOptions) (j : Nat) :
    (s.retry options).runs j = if j = s.latest + 1 then some (s.firstRun options) else s.abort.runs j := by
  simp only [retry, firstRun, isMounted_abort, latest_abort]
  split <;> exact runs_setRun ..

@[simp] theorem latest_retry (s : Hook T) (options : RetryOptions) : (s.retry options).latest = s.latest + 1 := by
  simp only [retry, isMounted_abort, latest_abort]
  split <;> rfl

@[simp] theorem isMounted_retry (s : Hook T) (options : RetryOptions) : (s.retry options).isMounted = s.isMounted := by
  simp only [retry, isMounted_abort]
  split <;> rfl

/-- Calls are numbered and their attempts counted, those before the latest are
aborted, an aborted one does not sleep, and the latest waits only while mounted and loading. -/
structure Inv (s : Hook T) : Prop where
  numbered : ∀ i run, s.runs i = some run → 0 < i ∧ i ≤ s.latest
  counted : ∀ i run, s.runs i = some run → run.Counted
  superseded : ∀ i run, s.runs i = some run → i < s.latest → run.aborted = true
  cleared : ∀ i run, s.runs i = some run → run.stage = .sleeping → run.aborted = false
  live : ∀ run, s.runs s.latest = some run → run.aborted = false → run.stage ≠ .over →
    s.isMounted = true ∧ s.state.status = .loading

theorem inv_init : (init : Hook T).Inv := ⟨nofun, nofun, nofun, nofun, nofun⟩

/-- A run goes on, and is not woken from its end. -/
theorem Inv.setRun (h : s.Inv) (hrun : s.runs i = some run) (hcounted : run'.Counted)
    (haborted : run'.aborted = run.aborted) (hsleeps : run'.stage = .sleeping → run'.aborted = false)
    (hover : run.stage = .over → run'.stage = .over) : (s.setRun i run').Inv where
  numbered j r hr := by
    rw [runs_setRun] at hr
    split at hr
    · next hj => exact hj ▸ h.numbered i run hrun
    · exact h.numbered j r hr
  counted j r hr := by
    rw [runs_setRun] at hr
    split at hr
    · exact Option.some.inj hr ▸ hcounted
    · exact h.counted j r hr
  superseded j r hr hj := by
    rw [runs_setRun] at hr
    split at hr
    · next heq =>
        subst heq
        obtain rfl := Option.some.inj hr
        rw [haborted]
        exact h.superseded j run hrun hj
    · exact h.superseded j r hr hj
  cleared j r hr := by
    rw [runs_setRun] at hr
    split at hr
    · exact Option.some.inj hr ▸ hsleeps
    · exact h.cleared j r hr
  live r hr hr' hstage := by
    rw [runs_setRun] at hr
    split at hr
    · next heq =>
        obtain rfl := Option.some.inj hr
        refine h.live run (heq ▸ hrun) (haborted ▸ hr') fun hrunover => ?_
        exact hstage (hover hrunover)
    · exact h.live r hr hr' hstage

/-- A state that is loading as long as the latest call waits. -/
theorem Inv.setState (h : s.Inv) {state : UseAsyncState T}
    (hlive : ∀ run, s.runs s.latest = some run → run.aborted = false → run.stage ≠ .over → state.status = .loading) :
    (s.setState i state).Inv where
  numbered := h.numbered
  counted := h.counted
  superseded := h.superseded
  cleared := h.cleared
  live r hr hr' hstage := ⟨(h.live r hr hr' hstage).1, hlive r hr hr' hstage⟩

/-- After an abort every call is aborted, so that nothing depends on what is shown. -/
theorem Inv.abort_runs (h : s.Inv) : (∀ i run, s.abort.runs i = some run → 0 < i ∧ i ≤ s.latest) ∧
    (∀ i run, s.abort.runs i = some run → run.Counted ∧ run.aborted = true ∧ run.stage ≠ .sleeping) := by
  rw [abort_eq]
  constructor
  · intro i run hrun
    simp only [Function.update_apply] at hrun
    split at hrun
    · next hi =>
        obtain ⟨r, hr, -⟩ := Option.map_eq_some_iff.mp hrun
        exact h.numbered i r (hi ▸ hr)
    · exact h.numbered i run hrun
  · intro i run hrun
    simp only [Function.update_apply] at hrun
    split at hrun
    · next hi =>
        obtain ⟨r, hr, rfl⟩ := Option.map_eq_some_iff.mp hrun
        exact ⟨(h.counted _ r hr).abort, rfl, r.abort_not_sleeping⟩
    · next hi =>
        have hle := (h.numbered i run hrun).2
        have haborted := h.superseded i run hrun (by omega)
        refine ⟨h.counted i run hrun, haborted, fun hsleeps => ?_⟩
        simp [h.cleared i run hrun hsleeps] at haborted

/-- A call of `retry`: the others are aborted. -/
theorem Inv.retry (h : s.Inv) (options : RetryOptions) : (s.retry options).Inv := by
  obtain ⟨hnumbered, haborted⟩ := h.abort_runs
  constructor
  · intro j r hr
    rw [runs_retry] at hr
    rw [latest_retry]
    split at hr
    · omega
    · have hj := hnumbered j r hr
      omega
  · intro j r hr
    rw [runs_retry] at hr
    split at hr
    · obtain rfl := Option.some.inj hr
      unfold firstRun
      split
      · exact ⟨rfl, Nat.zero_le _⟩
      · exact Nat.zero_le _
    · exact (haborted j r hr).1
  · intro j r hr hj
    rw [runs_retry] at hr
    rw [latest_retry] at hj
    split at hr
    · omega
    · exact (haborted j r hr).2.1
  · intro j r hr hsleeps
    rw [runs_retry] at hr
    split at hr
    · obtain rfl := Option.some.inj hr
      unfold firstRun at hsleeps
      split at hsleeps <;> cases hsleeps
    · exact absurd hsleeps (haborted j r hr).2.2
  · intro r hr _ hstage
    rw [latest_retry, runs_retry, if_pos rfl] at hr
    obtain rfl := Option.some.inj hr
    -- it waits, so the component was mounted, and it has shown that it loads
    have hmounted : s.isMounted = true := by
      by_contra hnot
      simp [firstRun, hnot] at hstage
    refine ⟨by rw [isMounted_retry, hmounted], ?_⟩
    simp [Hook.retry, hmounted, Hook.setState]

/-- The cleanup leaves no call that is not aborted. -/
theorem Inv.cleanup (h : s.Inv) : s.cleanup.Inv := by
  rw [cleanup_eq]
  obtain ⟨hnumbered, haborted⟩ := h.abort_runs
  constructor
  · intro j r hr
    show 0 < j ∧ j ≤ s.abort.latest
    rw [latest_abort]
    exact hnumbered j r hr
  · exact fun j r hr => (haborted j r hr).1
  · exact fun j r hr _ => (haborted j r hr).2.1
  · exact fun j r hr hsleeps => absurd hsleeps (haborted j r hr).2.2
  · intro r hr hr'
    simp [(haborted _ r hr).2.1] at hr'

theorem Inv.runEffect (h : s.Inv) (options : RetryOptions) (immediate : Bool) : (s.runEffect options immediate).Inv := by
  have hmounted : ({ s with isMounted := true, effect := true } : Hook T).Inv :=
    ⟨h.numbered, h.counted, h.superseded, h.cleared, fun r hr hr' hstage => ⟨rfl, (h.live r hr hr' hstage).2⟩⟩
  unfold Hook.runEffect
  dsimp only
  split
  · exact hmounted.retry options
  · exact hmounted

/-! ## §5. What a settled promise does. -/

/-- The run ends, and shows nothing; it shows its result; or it waits for the next attempt. -/
inductive Settles (s : Hook T) (i : Nat) (run : Run) (result : Except Thrown T) : Hook T → Prop
  | silent : (run.aborted = false → ∃ error, result = .error error ∧
        (error.isAbort = true ∨ ¬ run.attempt < run.options.retries ∧ error.toError = none)) →
      Settles s i run result (s.setRun i run.finish)
  | shows {state : UseAsyncState T} : run.aborted = false → state.status ≠ .loading →
      Settles s i run result ((s.setRun i run.finish).setState i state)
  | waits {state : UseAsyncState T} : run.aborted = false → run.attempt < run.options.retries →
      state.status = s.state.status → Settles s i run result ((s.setRun i run.wait).setState i state)

/-- A run that has not been aborted is the latest one. -/
theorem Inv.eq_latest (h : s.Inv) (hrun : s.runs i = some run) (haborted : run.aborted = false) : i = s.latest := by
  have hle := (h.numbered i run hrun).2
  by_contra hne
  have := h.superseded i run hrun (by omega)
  simp [haborted] at this

theorem Inv.settles (h : s.Inv) (hrun : s.runs i = some run) (hstage : run.stage = .calling) (result : Except Thrown T) :
    s.Settles i run result (s.settle i run result) := by
  by_cases haborted : run.aborted = true
  · -- neither a value nor an error of an aborted run is looked at
    have hsettle : s.settle i run result = s.setRun i run.finish := by
      cases result <;> simp [Hook.settle, haborted]
    rw [hsettle]
    exact .silent fun hnot => by simp [haborted] at hnot
  · have hlive : run.aborted = false := by simpa using haborted
    obtain rfl := h.eq_latest hrun hlive
    have hmounted := (h.live run hrun hlive (by simp [hstage])).1
    cases result with
    | ok data =>
        simp only [Hook.settle, hmounted, hlive]
        exact .shows hlive nofun
    | error error =>
        by_cases habort : error.isAbort = true
        · simp only [Hook.settle, habort]
          exact .silent fun _ => ⟨error, rfl, .inl habort⟩
        · have hnot : error.isAbort = false := by simpa using habort
          by_cases hlt : run.attempt < run.options.retries
          · simp only [Hook.settle, hnot, hlive, hlt, hmounted]
            exact .waits hlive hlt rfl
          · simp only [Hook.settle, hnot, hlive, hlt, hmounted]
            -- the last attempt has failed
            cases herror : error.toError with
            | some normalized => exact .shows hlive nofun
            | none => exact .silent fun _ => ⟨error, rfl, .inr ⟨hlt, herror⟩⟩

/-- The run of a settled promise, in a state that shows what a run that is over shows. -/
theorem Inv.settled (h : s.Inv) (hrun : s.runs i = some run) (hstage : run.stage = .calling) {s' : Hook T}
    (hsettles : s.Settles i run result s') : s'.Inv := by
  have hcounted := h.counted i run hrun
  have hfinished : (s.setRun i run.finish).Inv := h.setRun hrun hcounted.finish rfl nofun fun _ => rfl
  cases hsettles with
  | silent => exact hfinished
  | shows hlive =>
      obtain rfl := h.eq_latest hrun hlive
      refine hfinished.setState fun r hr _ hr' => ?_
      rw [runs_setRun] at hr
      obtain rfl := Option.some.inj ((if_pos rfl).symm.trans hr)
      exact absurd rfl hr'
  | waits hlive hlt hstatus =>
      have hwaiting : (s.setRun i run.wait).Inv :=
        h.setRun hrun (hcounted.wait hstage hlt) rfl (fun _ => hlive) (by simp [hstage])
      refine hwaiting.setState fun r hr hr' hr'' => ?_
      rw [hstatus]
      exact (hwaiting.live r hr hr' hr'').2

/-- What a step can do. -/
inductive Does (s : Hook T) : Action T → Hook T → Prop
  | stays {a : Action T} : Does s a s
  | retries (options : RetryOptions) : Does s (.retry options) (s.retry options)
  | mounts (options : RetryOptions) (immediate : Bool) : s.effect = false →
      Does s (.mount options immediate) (s.runEffect options immediate)
  | unmounts : Does s .unmount s.cleanup
  | changes (options : RetryOptions) (immediate : Bool) : s.effect = true →
      Does s (.change options immediate) (s.cleanup.runEffect options immediate)
  | settles {i : Nat} {run : Run} {result : Except Thrown T} {s' : Hook T} : s.runs i = some run →
      run.stage = .calling → s.Settles i run result s' → Does s (.settle i result) s'
  | fires {i : Nat} {run : Run} : s.runs i = some run → run.stage = .sleeping →
      Does s (.fire i) (s.setRun i { run with stage := .woken })
  | resumes {i : Nat} {run : Run} : s.runs i = some run → run.stage = .woken →
      Does s (.resume i) (s.setRun i run.invoke)

theorem Inv.does_step (h : s.Inv) (a : Action T) : s.Does a (s.step a) := by
  cases a with
  | retry options => exact .retries options
  | mount options immediate =>
      simp only [Hook.step]
      split
      · exact .stays
      · next heffect => exact .mounts options immediate (by simpa using heffect)
  | unmount =>
      simp only [Hook.step]
      split
      · exact .unmounts
      · exact .stays
  | change options immediate =>
      simp only [Hook.step]
      split
      · next heffect => exact .changes options immediate heffect
      · exact .stays
  | settle i result =>
      simp only [Hook.step]
      split
      · next run hrun =>
          split
          · next hstage => exact .settles hrun hstage (h.settles hrun hstage result)
          · exact .stays
      · exact .stays
  | fire i =>
      simp only [Hook.step]
      split
      · next run hrun =>
          split
          · next hstage => exact .fires hrun hstage
          · exact .stays
      · exact .stays
  | resume i =>
      simp only [Hook.step]
      split
      · next run hrun =>
          split
          · next hstage => exact .resumes hrun hstage
          · exact .stays
      · exact .stays

variable {a : Action T} {s' : Hook T}

theorem Inv.after (h : s.Inv) (hdoes : s.Does a s') : s'.Inv := by
  cases hdoes with
  | stays => exact h
  | retries options => exact h.retry options
  | mounts options immediate => exact h.runEffect options immediate
  | unmounts => exact h.cleanup
  | changes options immediate => exact h.cleanup.runEffect options immediate
  | settles hrun hstage hsettles => exact h.settled hrun hstage hsettles
  | fires hrun hstage => exact h.setRun hrun ((h.counted _ _ hrun).woken hstage) rfl nofun (by simp [hstage])
  | resumes hrun hstage => exact h.setRun hrun ((h.counted _ _ hrun).invoke hstage) rfl nofun (by simp [hstage])

/-- **One step** keeps the invariant. -/
theorem Inv.step (h : s.Inv) (a : Action T) : (s.step a).Inv := h.after (h.does_step a)

/-! ## §6. Who writes. -/

theorem Written.refl (s : Hook T) : s.Written s := .inl ⟨rfl, rfl⟩

/-- A call of `retry` writes while mounted, and is the latest one. -/
theorem written_retry (s : Hook T) (options : RetryOptions) : s.Written (s.retry options) := by
  by_cases hmounted : s.isMounted = true
  · refine .inr ⟨by rw [isMounted_retry, hmounted], ?_⟩
    simp [retry, hmounted, setState, setRun]
  · refine .inl ⟨?_, ?_⟩ <;> simp [retry, hmounted, setRun]

theorem written_of_does (h : s.Inv) (hdoes : s.Does a s') : s.Written s' := by
  cases hdoes with
  | stays => exact .refl s
  | retries options => exact written_retry s options
  | mounts options immediate =>
      cases immediate with
      | true => exact written_retry { s with isMounted := true, effect := true } options
      | false => exact .inl ⟨rfl, rfl⟩
  | unmounts => exact .inl ⟨by simp [cleanup], by simp [cleanup]⟩
  | changes options immediate =>
      have hcleanup : s.cleanup.state = s.state ∧ s.cleanup.writes = s.writes := by simp [cleanup]
      cases immediate with
      | true =>
          have hwritten := written_retry { s.cleanup with isMounted := true, effect := true } options
          unfold Written at hwritten ⊢
          rwa [← hcleanup.1, ← hcleanup.2]
      | false => exact .inl hcleanup
  | settles hrun hstage hsettles =>
      cases hsettles with
      | silent => exact .inl ⟨rfl, rfl⟩
      | shows hlive | waits hlive =>
          obtain rfl := h.eq_latest hrun hlive
          have hmounted := (h.live _ hrun hlive (by simp [hstage])).1
          exact .inr ⟨hmounted, rfl⟩
  | fires | resumes => exact .inl ⟨rfl, rfl⟩

theorem latest_of_does (hdoes : s.Does a s') : s.latest ≤ s'.latest := by
  cases hdoes with
  | stays | fires | resumes => exact Nat.le_refl _
  | retries options => simp
  | mounts options immediate => cases immediate <;> simp [runEffect]
  | unmounts => simp [cleanup]
  | changes options immediate => cases immediate <;> simp [runEffect, cleanup]
  | settles hrun hstage hsettles => cases hsettles <;> exact Nat.le_refl _

/-- What a step adds to the ledger was written by the latest call. -/
theorem extends_step (h : s.Inv) (a : Action T) : s.ledger.Extends (s.step a).ledger := by
  have hlatest := latest_of_does (h.does_step a)
  rcases written_of_does h (h.does_step a) with ⟨-, hwrites⟩ | ⟨-, hwrites⟩
  · exact ⟨hlatest, [], by simpa [ledger] using hwrites, by simp⟩
  · refine ⟨hlatest, _, hwrites, ?_⟩
    simp only [List.mem_singleton, forall_eq]
    exact hlatest

/-! ## §7. What is loading waits. -/

/-- What is shown as loading is a call that waits and has not been aborted. -/
def Lively (s : Hook T) : Prop :=
  s.isMounted = true → s.state.status = .loading →
    ∃ run, s.runs s.latest = some run ∧ run.aborted = false ∧ run.stage ≠ .over

theorem Lively.neverHangs (h : s.Lively) : s.NeverHangs := by
  intro hmounted hpending hloading
  obtain ⟨run, hrun, -, hstage⟩ := h hmounted hloading
  exact hpending ⟨run, hrun, hstage⟩

/-- A call of `retry` waits, if the component is mounted. -/
theorem lively_retry (s : Hook T) (options : RetryOptions) : (s.retry options).Lively := by
  intro hmounted _
  rw [isMounted_retry] at hmounted
  refine ⟨s.firstRun options, ?_, ?_, ?_⟩
  · rw [latest_retry, runs_retry, if_pos rfl]
  · simp [firstRun, hmounted]
  · simp [firstRun, hmounted]

theorem lively_of_ne (h : s.state.status ≠ .loading) : s.Lively := fun _ hloading => absurd hloading h

/-- A run that goes on keeps what is shown alive. -/
theorem Lively.setRun (h : s.Lively) (hrun : s.runs i = some run) (haborted : run'.aborted = run.aborted)
    (hover : run'.stage = .over → run.stage = .over ∨ run.aborted = true) : (s.setRun i run').Lively := by
  intro hmounted hloading
  obtain ⟨r, hr, hr', hstage⟩ := h hmounted hloading
  by_cases hi : s.latest = i
  · subst hi
    obtain rfl := Option.some.inj (hrun.symm.trans hr)
    refine ⟨run', by simp, haborted.trans hr', fun hrun'over => ?_⟩
    rcases hover hrun'over with hrunover | hrunaborted
    · exact hstage hrunover
    · simp [hr'] at hrunaborted
  · exact ⟨r, by simp [hi, hr], hr', hstage⟩

/-- **A careful step** leaves nothing loading that does not wait. -/
theorem Lively.after (h : s.Lively) (hinv : s.Inv) (hcareful : s.Careful a) (hdoes : s.Does a s') : s'.Lively := by
  cases hdoes with
  | stays => exact h
  | retries options => exact lively_retry s options
  | mounts options immediate heffect =>
      cases immediate with
      | true => exact lively_retry _ options
      | false =>
          -- the first time nothing has been aborted; later nothing is loading
          by_cases hmounted : s.isMounted = true
          · exact fun _ hloading => h hmounted hloading
          · exact lively_of_ne (hcareful heffect (by simpa using hmounted))
  | unmounts =>
      intro hmounted
      simp [cleanup] at hmounted
  | changes options immediate heffect =>
      cases immediate with
      | true => exact lively_retry _ options
      | false =>
          apply lively_of_ne
          have hstate : s.cleanup.state = s.state := by simp [cleanup]
          show s.cleanup.state.status ≠ _
          rw [hstate]
          exact hcareful heffect
  | @settles i run result s' hrun hstage hsettles =>
      cases hsettles with
      | silent hsilent =>
          -- with care, only a run that was aborted ends without a trace
          refine h.setRun hrun rfl fun _ => .inr ?_
          by_contra hnot
          have hlive : run.aborted = false := by simpa using hnot
          obtain ⟨error, rfl, hcause⟩ := hsilent hlive
          have hcare := hcareful run (hinv.eq_latest hrun hlive) hrun hstage hlive
          rcases hcause with habort | ⟨hlast, hnone⟩
          · simp [hcare.1] at habort
          · simp [hlast, hnone] at hcare
      | shows _ hstatus => exact lively_of_ne hstatus
      | waits hlive hlt hstatus =>
          have hwaiting : (s.setRun i run.wait).Lively :=
            h.setRun hrun rfl fun hover => absurd hover run.wait_stage_ne
          intro hmounted hloading
          exact hwaiting hmounted (hstatus ▸ hloading)
  | fires hrun | resumes hrun => exact h.setRun hrun rfl nofun

/-! ## §8. What hangs. -/

theorem hangs_of_over (hmounted : s.isMounted = true) (hloading : s.state.status = .loading)
    (hover : ∀ run, s.runs s.latest = some run → run.stage = .over) : ¬ s.NeverHangs := by
  intro hnever
  apply hnever hmounted ?_ hloading
  rintro ⟨run, hrun, hstage⟩
  exact hstage (hover run hrun)

/-- An aborted run shows nothing of its result. -/
theorem hangs_of_settle (hmounted : s.isMounted = true) (hloading : s.state.status = .loading)
    (hrun : s.runs s.latest = some run) (haborted : run.aborted = true) (hstage : run.stage = .calling)
    (result : Except Thrown T) : ¬ (s.step (.settle s.latest result)).NeverHangs := by
  have hsettle : s.step (.settle s.latest result) = s.setRun s.latest run.finish := by
    cases result <;> simp [Hook.step, hrun, hstage, settle, haborted]
  rw [hsettle]
  refine hangs_of_over hmounted hloading fun r hr => ?_
  rw [latest_setRun, runs_setRun, if_pos rfl] at hr
  exact Option.some.inj hr ▸ rfl

/-- **Without a call that will show its result**, what is loading hangs in the end. -/
theorem exists_hang (h : s.Inv) (hmounted : s.isMounted = true) (hloading : s.state.status = .loading)
    (hdead : ∀ run, s.runs s.latest = some run → run.aborted = true ∨ run.stage = .over) :
    ∃ more, ¬ (Foundation.run step s more).NeverHangs := by
  cases hrun : s.runs s.latest with
  | none =>
      refine ⟨[], ?_⟩
      show ¬ s.NeverHangs
      exact hangs_of_over hmounted hloading (by simp [hrun])
  | some run =>
      have hdead := hdead run hrun
      match hstage : run.stage with
      | .over =>
          refine ⟨[], ?_⟩
          show ¬ s.NeverHangs
          refine hangs_of_over hmounted hloading fun r hr => ?_
          obtain rfl := Option.some.inj (hrun.symm.trans hr)
          exact hstage
      | .sleeping =>
          -- an abort would have cleared the timer
          have hlive := h.cleared _ run hrun hstage
          simp [hstage, hlive] at hdead
      | .calling =>
          have haborted : run.aborted = true := by simpa [hstage] using hdead
          refine ⟨[.settle s.latest (.error (.ofMessage ""))], ?_⟩
          exact hangs_of_settle hmounted hloading hrun haborted hstage _
      | .woken =>
          have haborted : run.aborted = true := by simpa [hstage] using hdead
          -- one attempt more, whose promise nobody looks at
          have hresume : s.step (.resume s.latest) = s.setRun s.latest run.invoke := by
            simp [Hook.step, hrun, hstage]
          have hinvoked : (s.setRun s.latest run.invoke).runs s.latest = some run.invoke := by simp
          refine ⟨[.resume s.latest, .settle s.latest (.error (.ofMessage ""))], ?_⟩
          show ¬ ((s.step (.resume s.latest)).step (.settle s.latest (.error (.ofMessage "")))).NeverHangs
          rw [hresume]
          have hmounted' : (s.setRun s.latest run.invoke).isMounted = true := hmounted
          exact hangs_of_settle hmounted' hloading hinvoked haborted rfl _

/-- **A step that is not careful** is followed by a hang, at once or later. -/
theorem exists_hang_of_careless (h : s.Inv) {a : Action T} (hcareless : ¬ s.Careful a) :
    ∃ more, ¬ (Foundation.run step (s.step a) more).NeverHangs := by
  cases a with
  | retry | unmount | fire | resume => exact absurd trivial hcareless
  | settle i result =>
      cases result with
      | ok data => exact absurd trivial hcareless
      | error error =>
          unfold Careful at hcareless
          push Not at hcareless
          obtain ⟨run, rfl, hrun, hstage, hlive, hcause⟩ := hcareless
          obtain ⟨hmounted, hloading⟩ := h.live run hrun hlive (by simp [hstage])
          -- the run ends without a trace
          have hsettle : s.step (.settle s.latest (.error error)) = s.setRun s.latest run.finish := by
            by_cases habort : error.isAbort = true
            · simp [Hook.step, hrun, hstage, settle, habort]
            · have hnot : error.isAbort = false := by simpa using habort
              obtain ⟨hlast, hnone⟩ := hcause hnot
              have hnone : error.toError = none := by simpa using hnone
              simp [Hook.step, hrun, hstage, settle, hnot, hlive, hlast, hmounted, hnone]
          refine ⟨[], ?_⟩
          show ¬ (s.step (.settle s.latest (.error error))).NeverHangs
          rw [hsettle]
          refine hangs_of_over hmounted hloading fun r hr => ?_
          rw [latest_setRun, runs_setRun, if_pos rfl] at hr
          exact Option.some.inj hr ▸ rfl
  | mount options immediate =>
      cases immediate with
      | true => exact absurd trivial hcareless
      | false =>
          unfold Careful at hcareless
          push Not at hcareless
          obtain ⟨heffect, hmounted, hloading⟩ := hcareless
          have hinv := h.step (.mount options false)
          have hstep : s.step (.mount options false) = { s with isMounted := true, effect := true } := by
            simp [Hook.step, heffect, runEffect]
          rw [hstep] at hinv ⊢
          refine exists_hang hinv rfl hloading fun run hrun => ?_
          -- while unmounted no call waits that is not aborted
          by_contra hnot
          push Not at hnot
          have hmounted' := (h.live run hrun (by simpa using hnot.1) hnot.2).1
          simp [hmounted] at hmounted'
  | change options immediate =>
      cases immediate with
      | true => exact absurd trivial hcareless
      | false =>
          unfold Careful at hcareless
          push Not at hcareless
          obtain ⟨heffect, hloading⟩ := hcareless
          have hinv := h.step (.change options false)
          have hstep : s.step (.change options false) = { s.cleanup with isMounted := true, effect := true } := by
            simp [Hook.step, heffect, runEffect]
          rw [hstep] at hinv ⊢
          rw [cleanup_eq] at hinv ⊢
          have hloading' : s.abort.state.status = .loading := by rw [state_abort, hloading]
          -- the cleanup has aborted the latest call
          exact exists_hang hinv rfl hloading' fun run hrun => .inl (h.abort_runs.2 _ run hrun).2.1

/-! ## §9. Runs. -/

theorem inv_after (actions : List (Action T)) : (after actions).Inv :=
  run_invariant_of step Inv (fun _ => True) inv_init (fun _ a h _ => h.step a) actions fun _ _ => trivial

/-- The ledger at the end extends that of every place on the way. -/
theorem extends_after {as actions : List (Action T)} (h : as <+: actions) :
    (after as).ledger.Extends (after actions).ledger := by
  obtain ⟨more, rfl⟩ := h
  unfold after
  rw [run_append]
  -- an invariant of the rest of the run, kept together with that of the states
  refine (run_invariant_of step (fun s => s.Inv ∧ (after as).ledger.Extends s.ledger) (fun _ => True)
    ⟨inv_after as, .refl _⟩ (fun s a hs _ => ?_) more fun _ _ => trivial).2
  exact ⟨hs.1.step a, hs.2.trans (extends_step hs.1 a)⟩

/-- **Careful steps** leave nothing loading that does not wait. -/
theorem lively_after {actions : List (Action T)} (hcareful : ∀ t ∈ trace step init actions, t.pre.Careful t.act) :
    (after actions).Lively := by
  refine (run_invariant_of step (fun s => s.Inv ∧ s.Lively) (fun t => t.pre.Careful t.act) ⟨inv_init, ?_⟩
    (fun s a hs hcare => ⟨hs.1.step a, hs.2.after hs.1 hcare (hs.1.does_step a)⟩) actions hcareful).2
  exact lively_of_ne nofun

/-- **What is shown is the latest call's**, and is not loading for ever, in a run of
careful steps; and each step that is not careful can be followed by a hang. -/
theorem shows_latest (actions : List (Action T)) :
    ((∀ t ∈ trace step init actions, t.pre.Careful t.act) → ShowsLatest actions)
      ∧ ∀ a, ¬ (after actions).Careful a → ∃ more, ¬ ShowsLatest (actions ++ a :: more) := by
  constructor
  · intro hcareful
    constructor
    · intro t ht
      obtain ⟨as, -, -, hpre, hpost⟩ := mem_trace step ht
      rw [hpost, hpre]
      exact written_of_does (inv_after as) ((inv_after as).does_step t.act)
    · intro as has i hi
      exact (extends_after has).writesOf_eq hi
    · intro as _ i run hrun
      exact ((inv_after as).counted i run hrun).le
    · intro as has
      exact (lively_after fun t ht => hcareful t (mem_trace_of_isPrefix step has ht)).neverHangs
  · intro a hcareless
    obtain ⟨more, hhang⟩ := exists_hang_of_careless (inv_after actions) hcareless
    refine ⟨more, fun hshows => hhang ?_⟩
    have hend := hshows.neverHangs _ List.prefix_rfl
    unfold after at hend
    rw [run_append] at hend
    exact hend

/-- A call is retried after a failure, and superseded by one that succeeds. -/
def sampleCalls : List (Action Nat) :=
  [.mount ⟨1, fun _ => 100⟩ true, .settle 1 (.error ⟨true, false, none, some "TypeError", some "Failed to fetch"⟩),
    .fire 1, .resume 1, .retry ⟨1, fun _ => 100⟩, .settle 1 (.ok 5), .settle 2 (.ok 7)]

/-- What the second call brought is shown, and the first stays silent. -/
theorem shows_latest_sample : ShowsLatest sampleCalls ∧ (after sampleCalls).state = ⟨some 7, none, .success, 1⟩ := by
  refine ⟨(shows_latest sampleCalls).1 fun t ht => ?_, rfl⟩
  simp only [sampleCalls, trace, List.mem_cons, List.not_mem_nil, or_false] at ht
  rcases ht with rfl | rfl | rfl | rfl | rfl | rfl | rfl
  case inr.inl =>
    -- the one failure is no abort, and a retry is left
    intro run _ hrun _ _
    obtain rfl := Option.some.inj hrun
    exact ⟨rfl, .inl Nat.one_pos⟩
  all_goals trivial

/-- Options without retries. -/
def once : RetryOptions := ⟨0, fun _ => 0⟩

/-- `asyncFunction` changes, with `immediate` off, while its promise is pending; the
promise is rejected with an `AbortError` of its own; or with an object that has no prototype. -/
theorem stays_loading :
    ¬ ShowsLatest ([.mount once false, .retry once, .change once false, .settle 1 (.ok 7)] : List (Action Nat))
      ∧ ¬ ShowsLatest ([.mount once true,
          .settle 1 (.error ⟨true, true, some "20", some "AbortError", some "Aborted"⟩)] : List (Action Nat))
      ∧ ¬ ShowsLatest ([.mount once true, .settle 1 (.error ⟨false, false, none, none, none⟩)] : List (Action Nat)) := by
  refine ⟨fun h => ?_, fun h => ?_, fun h => ?_⟩
  all_goals
    -- mounted, loading, and the only call has returned
    refine h.neverHangs _ List.prefix_rfl rfl ?_ rfl
    rintro ⟨run, hrun, hstage⟩
    obtain rfl := Option.some.inj hrun
    exact hstage rfl

end Hook

end PredictIQ.Frontend.UseAsync
