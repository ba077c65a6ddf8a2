/-
  PredictIQ.Frontend.UseTransaction: the write transactions of `useTransaction`.

  A call of `run` goes on without interruption up to the next `await`, where
  any other call of the hook may come between; the step that carries it on is
  the one in which that promise has settled.  Calls of `run` and `reset` are
  numbered by `runIdRef`.  `writes` and `calls` are not in the code: they keep
  by which of these each state was set and each handler called.
-/
import PredictIQ.Foundation.Superseding
import PredictIQ.Frontend.Thrown
import Mathlib.Logic.Function.Basic

namespace PredictIQ.Frontend.UseTransaction

open Foundation

/-! ## §1. The hook. -/

inductive TransactionStatus where
  | idle | pending | signed | submitted | confirmed | failed | rejected
  deriving DecidableEq

structure UseTransactionState where
  status : TransactionStatus
  error : Option Thrown
  txHash : Option String
  deriving DecidableEq

def INITIAL_STATE : UseTransactionState := ⟨.idle, none, none⟩

/-- The `await` that a call of `run` has reached. -/
inductive Stage (T : Type) where
  | signing
  | submitting (signed : T)
  | confirming (txHash : String)
  | over

/-- A call of `run`, and whether its handlers have a `confirm`. -/
structure Run (T : Type) where
  hasConfirm : Bool
  stage : Stage T

inductive HandlerCall (T : Type) where
  | sign
  | submit (signed : T)
  | confirm (txHash : String)

structure Hook (T : Type) where
  state : UseTransactionState
  runIdRef : Nat
  runs : Nat → Option (Run T)
  writes : List (Nat × UseTransactionState)
  calls : List (Nat × HandlerCall T)

/-- A call of the hook, or the settlement of the promise that a run waits for. -/
inductive Action (T : Type) where
  | run (hasConfirm : Bool)
  | reset
  | signReturns (runId : Nat) (result : Except Thrown T)
  | submitReturns (runId : Nat) (result : Except Thrown String)
  | confirmReturns (runId : Nat) (result : Except Thrown Unit)

namespace Hook

variable {T : Type}

def init : Hook T := ⟨INITIAL_STATE, 0, fun _ => none, [], []⟩

/-- `setState`, by the run or reset `runId`. -/
def setState (s : Hook T) (runId : Nat) (state : UseTransactionState) : Hook T :=
  { s with state, writes := s.writes ++ [(runId, state)] }

def call (s : Hook T) (runId : Nat) (call : HandlerCall T) : Hook T := { s with calls := s.calls ++ [(runId, call)] }

def goTo (s : Hook T) (runId : Nat) (hasConfirm : Bool) (stage : Stage T) : Hook T :=
  { s with runs := Function.update s.runs runId (some ⟨hasConfirm, stage⟩) }

def isStale (s : Hook T) (runId : Nat) : Bool := s.runIdRef != runId

def reset (s : Hook T) : Hook T := { s with runIdRef := s.runIdRef + 1 }.setState (s.runIdRef + 1) INITIAL_STATE

/-- `run`, up to the promise of `sign`. -/
def run (s : Hook T) (hasConfirm : Bool) : Hook T :=
  let runId := s.runIdRef + 1
  (({ s with runIdRef := runId }.setState runId ⟨.pending, none, none⟩).call runId .sign).goTo runId hasConfirm .signing

/-- The error of a handler, as the state; nothing where making an `Error` of it throws. -/
def fail (s : Hook T) (runId : Nat) (err : Thrown) (txHash : Option String) : Hook T :=
  match err.toError with
  | some error => s.setState runId ⟨.failed, some error, txHash⟩
  | none => s

def signReturns (s : Hook T) (runId : Nat) (hasConfirm : Bool) : Except Thrown T → Hook T
  | .error err =>
      let s := s.goTo runId hasConfirm .over
      if s.isStale runId then s
      else match isUserRejection err with
        | none => s
        | some true => s.setState runId INITIAL_STATE
        | some false => s.fail runId err none
  | .ok signed =>
      if s.isStale runId then s.goTo runId hasConfirm .over
      else ((s.setState runId ⟨.signed, none, none⟩).call runId (.submit signed)).goTo runId hasConfirm
        (.submitting signed)

def submitReturns (s : Hook T) (runId : Nat) (hasConfirm : Bool) : Except Thrown String → Hook T
  | .error err =>
      let s := s.goTo runId hasConfirm .over
      if s.isStale runId then s else s.fail runId err none
  | .ok txHash =>
      if s.isStale runId then s.goTo runId hasConfirm .over
      else
        let s := s.setState runId ⟨.submitted, none, some txHash⟩
        if hasConfirm then (s.call runId (.confirm txHash)).goTo runId hasConfirm (.confirming txHash)
        else
          -- no `await` since the last check
          let s := s.goTo runId hasConfirm .over
          if s.isStale runId then s else s.setState runId ⟨.confirmed, none, some txHash⟩

def confirmReturns (s : Hook T) (runId : Nat) (hasConfirm : Bool) (txHash : String) : Except Thrown Unit → Hook T
  | .error err =>
      let s := s.goTo runId hasConfirm .over
      if s.isStale runId then s else s.fail runId err (some txHash)
  | .ok () =>
      let s := s.goTo runId hasConfirm .over
      if s.isStale runId then s else s.setState runId ⟨.confirmed, none, some txHash⟩

/-- A promise settles only for the run that waits for it. -/
def step (s : Hook T) : Action T → Hook T
  | .run hasConfirm => s.run hasConfirm
  | .reset => s.reset
  | .signReturns runId result =>
      match s.runs runId with
      | some ⟨hasConfirm, .signing⟩ => s.signReturns runId hasConfirm result
      | _ => s
  | .submitReturns runId result =>
      match s.runs runId with
      | some ⟨hasConfirm, .submitting _⟩ => s.submitReturns runId hasConfirm result
      | _ => s
  | .confirmReturns runId result =>
      match s.runs runId with
      | some ⟨hasConfirm, .confirming txHash⟩ => s.confirmReturns runId hasConfirm txHash result
      | _ => s

/-- The hook after some actions. -/
def after (actions : List (Action T)) : Hook T := Foundation.run step init actions

def ledger (s : Hook T) : Ledger UseTransactionState := ⟨s.runIdRef, s.writes⟩

end Hook

/-! ## §2. What is claimed of it. -/

/-- The moves of the status within one run. -/
inductive Moves : TransactionStatus → TransactionStatus → Prop
  | sign : Moves .pending .signed
  | submit : Moves .signed .submitted
  | confirm : Moves .submitted .confirmed
  | reject : Moves .pending .idle
  | fail {status : TransactionStatus} : status = .pending ∨ status = .signed ∨ status = .submitted → Moves status .failed

/-- What a run or a reset sets first. -/
def Begins (state : UseTransactionState) : Prop := state = ⟨.pending, none, none⟩ ∨ state = INITIAL_STATE

def Follows (state next : UseTransactionState) : Prop := Moves state.status next.status

/-- A call that supersedes those before it. -/
def Action.isCall {T : Type} : Action T → Bool
  | .run _ | .reset => true
  | .signReturns _ _ | .submitReturns _ _ | .confirmReturns _ _ => false

namespace Hook

variable {T : Type}

/-- The state shown is the one set last, and the latest run or reset has set it. -/
def ShowsLatest (s : Hook T) : Prop :=
  s.runIdRef = 0 ∧ s.state = INITIAL_STATE ∧ s.writes = [] ∨ s.writes.getLast? = some (s.runIdRef, s.state)

/-- After some actions: the calls are numbered in order, the state shown is the
latest one's, those of each call are along the moves, and whatever is done next,
a superseded run sets no state, nor does it submit when its signature was not there. -/
structure StaysSilent (actions : List (Action T)) : Prop where
  numbered : (after actions).runIdRef = actions.countP Action.isCall
  shown : (after actions).ShowsLatest
  moves : ∀ i, Ledger.IsPath Begins Follows ((after actions).ledger.writesOf i)
  silent : ∀ more i, i < (after actions).runIdRef →
    (after (actions ++ more)).ledger.writesOf i = (after actions).ledger.writesOf i
  unsubmitted : ∀ more i hasConfirm, i < (after actions).runIdRef →
    (after actions).runs i = some ⟨hasConfirm, .signing⟩ → ∀ signed, (i, .submit signed) ∉ (after (actions ++ more)).calls

end Hook

/-! ## §3. What a step does. -/

/-- The state that is shown while the latest run waits. -/
def Stage.Shows {T : Type} : Stage T → UseTransactionState → Prop
  | .signing, state => state = ⟨.pending, none, none⟩
  | .submitting _, state => state = ⟨.signed, none, none⟩
  | .confirming txHash, state => state = ⟨.submitted, none, some txHash⟩
  | .over, _ => True

namespace Hook

variable {T : Type}

@[simp] theorem runs_goTo (s : Hook T) (i j : Nat) (hasConfirm : Bool) (stage : Stage T) :
    (s.goTo i hasConfirm stage).runs j = if j = i then some ⟨hasConfirm, stage⟩ else s.runs j := by
  simp [goTo, Function.update_apply]

@[simp] theorem runs_setState (s : Hook T) (i : Nat) (state : UseTransactionState) :
    (s.setState i state).runs = s.runs := rfl

/-- The effects that an action can have: none, the end of a run without a trace,
a new run, a reset, and what the latest run does when a promise of its settles. -/
inductive Does (s : Hook T) : Hook T → Prop
  | stays : Does s s
  | ends {i hasConfirm stage} : s.runs i = some ⟨hasConfirm, stage⟩ → Does s (s.goTo i hasConfirm .over)
  | starts (hasConfirm : Bool) : Does s (s.run hasConfirm)
  | resets : Does s s.reset
  | finishes {hasConfirm stage state} : s.runs s.runIdRef = some ⟨hasConfirm, stage⟩ →
      (∀ shown, stage.Shows shown → Follows shown state) →
      Does s ((s.goTo s.runIdRef hasConfirm .over).setState s.runIdRef state)
  | signs {hasConfirm signed} : s.runs s.runIdRef = some ⟨hasConfirm, .signing⟩ →
      Does s (((s.setState s.runIdRef ⟨.signed, none, none⟩).call s.runIdRef (.submit signed)).goTo s.runIdRef hasConfirm
        (.submitting signed))
  | submits {signed txHash} : s.runs s.runIdRef = some ⟨true, .submitting signed⟩ →
      Does s (((s.setState s.runIdRef ⟨.submitted, none, some txHash⟩).call s.runIdRef (.confirm txHash)).goTo s.runIdRef
        true (.confirming txHash))
  | confirms {signed txHash} : s.runs s.runIdRef = some ⟨false, .submitting signed⟩ →
      Does s (((s.setState s.runIdRef ⟨.submitted, none, some txHash⟩).goTo s.runIdRef false .over).setState s.runIdRef
        ⟨.confirmed, none, some txHash⟩)

variable {s s' : Hook T} {i : Nat} {hasConfirm : Bool} {stage : Stage T}

/-- The error of a handler ends a run; it is shown if the run is the latest. -/
theorem does_fail (hrun : s.runs i = some ⟨hasConfirm, stage⟩) (hi : s.runIdRef = i) (err : Thrown)
    (txHash : Option String)
    (hfail : ∀ shown, stage.Shows shown → shown.status = .pending ∨ shown.status = .signed ∨ shown.status = .submitted) :
    s.Does ((s.goTo i hasConfirm .over).fail i err txHash) := by
  subst hi
  unfold fail
  cases err.toError with
  | none => exact .ends hrun
  | some error => exact .finishes hrun fun shown hshown => .fail (hfail shown hshown)

theorem isStale_goTo (s : Hook T) (i j : Nat) (hasConfirm : Bool) (stage : Stage T) :
    (s.goTo i hasConfirm stage).isStale j = s.isStale j := rfl

theorem isStale_setState (s : Hook T) (i j : Nat) (state : UseTransactionState) :
    (s.setState i state).isStale j = s.isStale j := rfl

theorem eq_of_not_stale (h : s.isStale i = false) : s.runIdRef = i := by simpa [isStale] using h

theorem does_step (s : Hook T) (a : Action T) : s.Does (s.step a) := by
  cases a with
  | run hasConfirm => exact .starts hasConfirm
  | reset => exact .resets
  | signReturns i result =>
      unfold step
      dsimp only
      split
      · next hasConfirm hrun =>
          cases hstale : s.isStale i with
          | true => cases result <;> simpa only [signReturns, isStale_goTo, hstale] using .ends hrun
          | false =>
              have hi := eq_of_not_stale hstale
              cases result with
              | error err =>
                  simp only [signReturns, isStale_goTo, hstale]
                  -- a rejected signature is no failure
                  cases isUserRejection err with
                  | none => exact .ends hrun
                  | some rejected =>
                      cases rejected with
                      | true =>
                          subst hi
                          refine .finishes hrun fun shown hshown => ?_
                          rw [show shown = _ from hshown]
                          exact .reject
                      | false => exact does_fail hrun hi err none fun shown hshown => by simp [show shown = _ from hshown]
              | ok signed =>
                  simp only [signReturns, hstale]
                  subst hi
                  exact .signs hrun
      · exact .stays
  | submitReturns i result =>
      unfold step
      dsimp only
      split
      · next hasConfirm signed hrun =>
          cases hstale : s.isStale i with
          | true => cases result <;> simpa only [submitReturns, isStale_goTo, hstale] using .ends hrun
          | false =>
              have hi := eq_of_not_stale hstale
              cases result with
              | error err =>
                  simp only [submitReturns, isStale_goTo, hstale]
                  exact does_fail hrun hi err none fun shown hshown => by simp [show shown = _ from hshown]
              | ok txHash =>
                  -- nothing comes between the two checks
                  simp only [submitReturns, isStale_goTo, isStale_setState, hstale]
                  subst hi
                  cases hasConfirm with
                  | true => exact .submits hrun
                  | false => exact .confirms hrun
      · exact .stays
  | confirmReturns i result =>
      unfold step
      dsimp only
      split
      · next hasConfirm txHash hrun =>
          cases hstale : s.isStale i with
          | true => cases result <;> simpa only [confirmReturns, isStale_goTo, hstale] using .ends hrun
          | false =>
              have hi := eq_of_not_stale hstale
              cases result with
              | error err =>
                  simp only [confirmReturns, isStale_goTo, hstale]
                  exact does_fail hrun hi err (some txHash) fun shown hshown => by simp [show shown = _ from hshown]
              | ok done =>
                  simp only [confirmReturns, isStale_goTo, hstale]
                  subst hi
                  refine .finishes hrun fun shown hshown => ?_
                  rw [show shown = _ from hshown]
                  exact .confirm
      · exact .stays

/-! ## §4. The invariant. -/

/-- Runs and callers have been numbered, the writes are in order, the latest run
waits for what is shown, and nothing unsigned has been submitted. -/
structure Inv (s : Hook T) : Prop where
  known : ∀ i run, s.runs i = some run → 0 < i ∧ i ≤ s.runIdRef
  callers : ∀ c ∈ s.calls, c.1 ≤ s.runIdRef
  orderly : s.ledger.Orderly Begins Follows
  shown : s.ShowsLatest
  current : ∀ run, s.runs s.runIdRef = some run → run.stage.Shows s.state
  unsigned : ∀ i hasConfirm, s.runs i = some ⟨hasConfirm, .signing⟩ → ∀ signed, (i, .submit signed) ∉ s.calls

theorem inv_init : (init : Hook T).Inv where
  known := nofun
  callers := nofun
  orderly := Ledger.orderly_empty
  shown := .inl ⟨rfl, rfl, rfl⟩
  current := nofun
  unsigned := nofun

/-- A run that there is goes on to wait for what is shown, or ends. -/
theorem Inv.goTo (h : s.Inv) {run : Run T} (hrun : s.runs i = some run) (hasConfirm : Bool) (hstage : stage ≠ .signing)
    (hshows : i = s.runIdRef → stage.Shows s.state) : (s.goTo i hasConfirm stage).Inv where
  known j r hr := by
    rw [runs_goTo] at hr
    split at hr
    · next hj => exact hj ▸ h.known i run hrun
    · exact h.known j r hr
  callers := h.callers
  orderly := h.orderly
  shown := h.shown
  current r hr := by
    rw [runs_goTo] at hr
    split at hr
    · next hj =>
        obtain rfl := Option.some.inj hr
        exact hshows hj.symm
    · exact h.current r hr
  unsigned j c hr := by
    rw [runs_goTo] at hr
    split at hr
    · -- the run that moves does not sign
      cases hr
      exact absurd rfl hstage
    · exact h.unsigned j c hr

/-- The end of a run needs nothing. -/
theorem Inv.over (h : s.Inv) {run : Run T} (hrun : s.runs i = some run) : (s.goTo i hasConfirm .over).Inv :=
  h.goTo hrun _ nofun fun _ => trivial

/-- The latest run shows its next state, while it does not wait. -/
theorem Inv.setState (h : s.Inv) (hover : s.runs s.runIdRef = some ⟨hasConfirm, .over⟩) {state : UseTransactionState}
    (hfollows : Follows s.state state) (hwrites : s.writes.getLast? = some (s.runIdRef, s.state)) :
    (s.setState s.runIdRef state).Inv where
  known := h.known
  callers := h.callers
  orderly := h.orderly.write hwrites hfollows
  shown := .inr List.getLast?_concat
  current r hr := by
    have hr : s.runs s.runIdRef = some r := hr
    obtain rfl := Option.some.inj (hover.symm.trans hr)
    trivial
  unsigned := h.unsigned

theorem Inv.call (h : s.Inv) {run : Run T} (hrun : s.runs i = some run) (hstage : run.stage ≠ .signing)
    (c : HandlerCall T) : (s.call i c).Inv where
  known := h.known
  callers c' hc' := by
    rcases List.mem_append.mp hc' with hc' | hc'
    · exact h.callers c' hc'
    · simp only [List.mem_singleton] at hc'
      exact hc' ▸ (h.known i run hrun).2
  orderly := h.orderly
  shown := h.shown
  current := h.current
  unsigned j c' hr signed hmem := by
    rcases List.mem_append.mp hmem with hmem | hmem
    · exact h.unsigned j c' hr signed hmem
    · -- the caller does not sign
      simp only [List.mem_singleton, Prod.mk.injEq] at hmem
      obtain ⟨rfl, -⟩ := hmem
      obtain rfl := Option.some.inj (hrun.symm.trans hr)
      exact hstage rfl

/-- What a run shows has been set by it. -/
theorem Inv.written (h : s.Inv) {run : Run T} (hrun : s.runs s.runIdRef = some run) :
    s.writes.getLast? = some (s.runIdRef, s.state) := by
  have hpos := (h.known _ run hrun).1
  rcases h.shown with ⟨hzero, -⟩ | hwrites
  · omega
  · exact hwrites

/-- One more run or reset, which begins at once. -/
theorem Inv.supersede (h : s.Inv) {state : UseTransactionState} (hbegins : Begins state) :
    ({ s with runIdRef := s.runIdRef + 1 }.setState (s.runIdRef + 1) state).Inv where
  known j r hr := by
    have hj := h.known j r hr
    exact ⟨hj.1, Nat.le_succ_of_le hj.2⟩
  callers c hc := Nat.le_succ_of_le (h.callers c hc)
  orderly := h.orderly.issue hbegins
  shown := .inr List.getLast?_concat
  current r hr := by
    -- the number is a new one
    have hle : s.runIdRef + 1 ≤ s.runIdRef := (h.known _ r hr).2
    omega
  unsigned := h.unsigned

theorem Inv.run (h : s.Inv) (hasConfirm : Bool) : (s.run hasConfirm).Inv := by
  have hbegins := h.supersede (.inl rfl : Begins ⟨.pending, none, none⟩)
  -- the new run signs; no run had its number
  constructor
  · intro j r hr
    simp only [Hook.run, runs_goTo] at hr
    split at hr
    · next hj =>
        show 0 < j ∧ j ≤ s.runIdRef + 1
        omega
    · exact hbegins.known j r hr
  · intro c hc
    rcases List.mem_append.mp hc with hc | hc
    · exact hbegins.callers c hc
    · simp only [List.mem_singleton] at hc
      simp [hc, Hook.run, Hook.goTo, Hook.call, Hook.setState]
  · exact hbegins.orderly
  · exact hbegins.shown
  · intro r hr
    simp only [Hook.run, runs_goTo] at hr
    obtain rfl := Option.some.inj ((if_pos rfl).symm.trans hr)
    rfl
  · intro j c hr signed hmem
    rcases List.mem_append.mp hmem with hmem | hmem
    · have hold := h.callers _ hmem
      simp only [Hook.run, runs_goTo] at hr
      split at hr
      · next hj => simp only [hj] at hold; omega
      · exact hbegins.unsigned j c hr signed hmem
    · simp at hmem

/-- The latest run, which waits, shows its next state and ends. -/
theorem Inv.finish (h : s.Inv) {run : Run T} (hrun : s.runs s.runIdRef = some run) (hasConfirm : Bool)
    {state : UseTransactionState} (hfollows : Follows s.state state) :
    ((s.goTo s.runIdRef hasConfirm .over).setState s.runIdRef state).Inv :=
  (h.over hrun).setState (by rw [runs_goTo]; exact if_pos rfl) hfollows (h.written hrun)

/-- The latest run shows its next state, calls a handler and waits for it. -/
theorem Inv.enter (h : s.Inv) {run : Run T} (hrun : s.runs s.runIdRef = some run) (hasConfirm : Bool) (stage : Stage T)
    {state : UseTransactionState} (hfollows : Follows s.state state) (hstage : stage ≠ .signing)
    (hshows : stage.Shows state) (c : HandlerCall T) :
    (((s.setState s.runIdRef state).call s.runIdRef c).goTo s.runIdRef hasConfirm stage).Inv := by
  have hover : ((s.goTo s.runIdRef hasConfirm .over).setState s.runIdRef state).runs s.runIdRef
      = some ⟨hasConfirm, .over⟩ := by
    rw [runs_setState, runs_goTo]
    exact if_pos rfl
  have hcalled := (h.finish hrun hasConfirm hfollows).call hover nofun c
  have hentered := hcalled.goTo hover hasConfirm hstage fun _ => hshows
  -- where it stood in between has left no trace
  simpa [Hook.goTo, Hook.setState, Hook.call] using hentered

/-- **One step** keeps the invariant. -/
theorem Inv.after (h : s.Inv) (hdoes : s.Does s') : s'.Inv := by
  cases hdoes with
  | stays => exact h
  | ends hrun => exact h.over hrun
  | starts hasConfirm => exact h.run hasConfirm
  | resets => exact h.supersede (.inr rfl)
  | finishes hrun hfollows => exact h.finish hrun _ (hfollows _ (h.current _ hrun))
  | @signs hasConfirm signed hrun =>
      have hpending : s.state = _ := h.current _ hrun
      refine h.enter hrun hasConfirm (.submitting signed) ?_ nofun rfl _
      rw [hpending]
      exact .sign
  | @submits signed txHash hrun =>
      have hsigned : s.state = _ := h.current _ hrun
      refine h.enter hrun true (.confirming txHash) ?_ nofun rfl _
      rw [hsigned]
      exact .submit
  | @confirms signed txHash hrun =>
      have hsigned : s.state = _ := h.current _ hrun
      -- first `submitted`, and with no handler to wait for `confirmed` at once
      have hsubmitted : ((s.goTo s.runIdRef false .over).setState s.runIdRef ⟨.submitted, none, some txHash⟩).Inv := by
        refine h.finish hrun false ?_
        rw [hsigned]
        exact .submit
      have hover : ((s.goTo s.runIdRef false .over).setState s.runIdRef ⟨.submitted, none, some txHash⟩).runs s.runIdRef
          = some ⟨false, .over⟩ := by
        rw [runs_setState, runs_goTo]
        exact if_pos rfl
      exact hsubmitted.setState hover .confirm List.getLast?_concat

/-! ## §5. Runs. -/

theorem inv_after (actions : List (Action T)) : (after actions).Inv :=
  run_invariant_of step Inv (fun _ => True) inv_init (fun s a h _ => h.after (s.does_step a)) actions fun _ _ => trivial

/-- What is written in a step is written by the latest run or reset. -/
theorem extends_step (s : Hook T) (a : Action T) : s.ledger.Extends (s.step a).ledger := by
  have hdoes := s.does_step a
  generalize s.step a = s' at hdoes
  cases hdoes with
  | stays | ends => exact .refl _
  | starts | resets => exact (Ledger.extends_issue s.ledger).trans (Ledger.extends_write (Nat.le_refl _) _)
  | finishes | signs | submits => exact Ledger.extends_write (Nat.le_refl _) _
  | confirms =>
      exact (Ledger.extends_write (Nat.le_refl _) _).trans (Ledger.extends_write (Nat.le_refl _) _)

@[simp] theorem runIdRef_goTo (s : Hook T) (i : Nat) (hasConfirm : Bool) (stage : Stage T) :
    (s.goTo i hasConfirm stage).runIdRef = s.runIdRef := rfl

@[simp] theorem runIdRef_setState (s : Hook T) (i : Nat) (state : UseTransactionState) :
    (s.setState i state).runIdRef = s.runIdRef := rfl

@[simp] theorem runIdRef_fail (s : Hook T) (i : Nat) (err : Thrown) (txHash : Option String) :
    (s.fail i err txHash).runIdRef = s.runIdRef := by
  unfold fail
  split <;> rfl

theorem runIdRef_signReturns (s : Hook T) (i : Nat) (hasConfirm : Bool) (result : Except Thrown T) :
    (s.signReturns i hasConfirm result).runIdRef = s.runIdRef := by
  cases result with
  | error err =>
      simp only [signReturns]
      split
      · rfl
      · split <;> simp
  | ok signed =>
      simp only [signReturns]
      split <;> rfl

theorem runIdRef_submitReturns (s : Hook T) (i : Nat) (hasConfirm : Bool) (result : Except Thrown String) :
    (s.submitReturns i hasConfirm result).runIdRef = s.runIdRef := by
  cases result with
  | error err =>
      simp only [submitReturns]
      split <;> simp
  | ok txHash =>
      simp only [submitReturns]
      split
      · rfl
      · split
        · rfl
        · split <;> rfl

theorem runIdRef_confirmReturns (s : Hook T) (i : Nat) (hasConfirm : Bool) (txHash : String)
    (result : Except Thrown Unit) : (s.confirmReturns i hasConfirm txHash result).runIdRef = s.runIdRef := by
  cases result with
  | error err =>
      simp only [confirmReturns]
      split <;> simp
  | ok done =>
      simp only [confirmReturns]
      split <;> rfl

/-- The counter counts the calls of `run` and `reset`. -/
theorem runIdRef_step (s : Hook T) (a : Action T) :
    (s.step a).runIdRef = s.runIdRef + if a.isCall then 1 else 0 := by
  cases a with
  | run | reset => rfl
  | signReturns i result =>
      simp only [step]
      split
      · exact runIdRef_signReturns s i _ result
      · rfl
  | submitReturns i result =>
      simp only [step]
      split
      · exact runIdRef_submitReturns s i _ result
      · rfl
  | confirmReturns i result =>
      simp only [step]
      split
      · exact runIdRef_confirmReturns s i _ _ result
      · rfl

theorem runIdRef_after (actions : List (Action T)) : (after actions).runIdRef = actions.countP Action.isCall := by
  induction actions using List.reverseRecOn with
  | nil => rfl
  | append_singleton actions a ih =>
      unfold after at ih ⊢
      rw [run_concat, runIdRef_step, ih]
      simp [List.countP_append, List.countP_cons]

/-- A superseded run that has not submitted: it signs, or is over. -/
structure Unsubmitted (i : Nat) (s : Hook T) : Prop where
  superseded : i < s.runIdRef
  stage : ∀ run, s.runs i = some run → run.stage = .signing ∨ run.stage = .over
  calls : ∀ signed, (i, .submit signed) ∉ s.calls

/-- The latest run is another one. -/
theorem Unsubmitted.enter (h : s.Unsubmitted i) (hasConfirm : Bool) (stage : Stage T) (state : UseTransactionState)
    (c : HandlerCall T) :
    (((s.setState s.runIdRef state).call s.runIdRef c).goTo s.runIdRef hasConfirm stage).Unsubmitted i := by
  have hne : i ≠ s.runIdRef := Nat.ne_of_lt h.superseded
  constructor
  · exact h.superseded
  · intro r hr
    rw [runs_goTo, if_neg hne] at hr
    exact h.stage r hr
  · intro signed hmem
    rcases List.mem_append.mp hmem with hmem | hmem
    · exact h.calls signed hmem
    · simp only [List.mem_singleton, Prod.mk.injEq] at hmem
      exact hne hmem.1

theorem Unsubmitted.over (h : s.Unsubmitted i) (j : Nat) (hasConfirm : Bool) :
    (s.goTo j hasConfirm .over).Unsubmitted i := by
  refine ⟨h.superseded, fun r hr => ?_, h.calls⟩
  rw [runs_goTo] at hr
  split at hr
  · obtain rfl := Option.some.inj hr
    exact .inr rfl
  · exact h.stage r hr

theorem Unsubmitted.after (h : s.Unsubmitted i) (hdoes : s.Does s') : s'.Unsubmitted i := by
  have hlt := h.superseded
  cases hdoes with
  | stays => exact h
  | ends => exact h.over _ _
  | finishes | confirms => exact ⟨hlt, (h.over _ _).stage, h.calls⟩
  | signs | submits => exact h.enter _ _ _ _
  | resets => exact ⟨Nat.lt_succ_of_lt hlt, h.stage, h.calls⟩
  | starts hasConfirm =>
      have hnext : ({ s with runIdRef := s.runIdRef + 1 } : Hook T).Unsubmitted i :=
        ⟨Nat.lt_succ_of_lt hlt, h.stage, h.calls⟩
      exact hnext.enter hasConfirm .signing ⟨.pending, none, none⟩ .sign

/-- **A superseded transaction stays silent**, after every list of actions. -/
theorem superseded_stays_silent (actions : List (Action T)) : StaysSilent actions := by
  have hinv := inv_after actions
  constructor
  · exact runIdRef_after actions
  · exact hinv.shown
  · exact hinv.orderly.path
  · intro more i hi
    have hextends := Ledger.extends_run step ledger extends_step (after actions) more
    unfold after at hextends hi ⊢
    rw [run_append]
    exact hextends.writesOf_eq hi
  · intro more i hasConfirm hi hrun
    have hstart : (after actions).Unsubmitted i := by
      refine ⟨hi, fun r hr => .inl ?_, hinv.unsigned i hasConfirm hrun⟩
      obtain rfl := Option.some.inj (hrun.symm.trans hr)
      rfl
    have hend := run_invariant_of step (Unsubmitted i) (fun _ => True) hstart
      (fun s a h _ => h.after (s.does_step a)) more fun _ _ => trivial
    unfold after at hend ⊢
    rw [run_append]
    exact hend.calls

end Hook

end PredictIQ.Frontend.UseTransaction
