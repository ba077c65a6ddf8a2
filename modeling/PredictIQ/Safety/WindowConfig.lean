/-
  PredictIQ.Safety.WindowConfig: the dispute window configuration is ordered.

  The default lies between the bounds, stored or built in: each of the two
  setters validates against the other's current value.  So a creation that
  asks for no window of its own passes the window check, which for such a
  creation could be left out, and every stored market has a window within the
  bounds in force at its creation.
-/
import PredictIQ.Safety.ResolutionWindows

namespace PredictIQ.Contract

open Foundation Tx

variable {X : Externs}

/-! ## §1. The order, and what a call does to it. -/

/-- `1 ≤ minimum ≤ default ≤ maximum`, in effect. -/
structure WindowsOrdered (s : WindowStore) : Prop where
  one_le_min : 1 ≤ s.getDisputeWindowBounds.1
  min_le_default : s.getDisputeWindowBounds.1 ≤ s.getDefaultDisputeWindow
  default_le_max : s.getDefaultDisputeWindow ≤ s.getDisputeWindowBounds.2

/-- How a successful call may change the configuration. -/
inductive WindowStep (s : WindowStore) : Call → WindowStore → Prop
  | same (c : Call) : WindowStep s c s
  | default (seconds : Nat) (bounds : s.getDisputeWindowBounds.1 ≤ seconds
      ∧ seconds ≤ s.getDisputeWindowBounds.2) :
      WindowStep s (.setDisputeWindow seconds) { s with defaultDisputeWindow := some seconds }
  | bounds (lo hi : Nat) (positive : 1 ≤ lo) (around : lo ≤ s.getDefaultDisputeWindow
      ∧ s.getDefaultDisputeWindow ≤ hi) :
      WindowStep s (.setDisputeWindowBounds lo hi)
        { s with minDisputeWindow := some lo, maxDisputeWindow := some hi }

/-- The two setters write the configuration, and nothing else does. -/
theorem Succeeds.windowStep {env : Env} {w w' : World} {c : Call} (h : Succeeds X env c w w') :
    WindowStep w.windows c w'.windows := by
  cases h.outcome with
  | windowSet seconds byAdmin bounds => exact .default seconds bounds
  | windowBoundsSet lo hi =>
      obtain ⟨r, hr⟩ := h
      obtain ⟨hpos, haround⟩ := setDisputeWindowBounds_guards (done_eq_ok.mp hr).1
      exact .bounds lo hi hpos haround
  | created _ p dw id _ hc effect =>
      obtain ⟨_, _, _, hw⟩ := effect.frame
      rw [hw]
      exact .same c
  | bet b m fee _ effect =>
      obtain ⟨_, hw⟩ := effect.frame
      rw [hw]
      exact .same _
  | voted voter id outcome weight v u _ m govToken vote pass effect =>
      obtain ⟨_, _, rfl⟩ := pass.frame
      obtain ⟨_, _, _, _, rfl⟩ := effect.frame
      exact .same _
  | disputed disciplinarian id evs v _ pass moves =>
      obtain ⟨_, _, rfl⟩ := pass.frame
      obtain ⟨_, _, _, _, _, rfl⟩ := moves
      exact .same _
  | moved _ id f evs _ hc moves =>
      obtain ⟨_, _, _, _, _, rfl⟩ := moves
      exact .same c
  | _ => exact .same _

/-- Each setter keeps the order. -/
theorem WindowsOrdered.step {s s' : WindowStore} {c : Call} (h : WindowsOrdered s)
    (hstep : WindowStep s c s') : WindowsOrdered s' := by
  cases hstep with
  | same => exact h
  | default seconds bounds => exact ⟨h.one_le_min, bounds.1, bounds.2⟩
  | bounds lo hi positive around => exact ⟨positive, around.1, around.2⟩

/-- The built-in values are ordered. -/
theorem WindowsOrdered.builtIn : WindowsOrdered {} := by
  constructor <;> decide

theorem Reachable.windowsOrdered {w : World} (h : Reachable X w) : WindowsOrdered w.windows := by
  obtain ⟨b, t, s, as, rfl⟩ := h
  exact run_call_invariant (fun w => WindowsOrdered w.windows) (fun _ => True) .builtIn
    (fun hI _ hsucc => hI.step hsucc.windowStep) (fun _ _ hI => hI) (fun _ hI => hI) as
    fun _ _ => trivial

/-! ## §2. Creations without a window of their own. -/

/-- `storeMarket` with the default window, unchecked. -/
def storeWithDefaultWindow (p : MarketParams) (creationDeposit : Int) : Body Nat := do
  let count ← orTrap (addU64 (← reads (·.markets.marketCount.getD 0)) 1)
  let disputeWindow ← reads (·.windows.getDefaultDisputeWindow)
  let market := p.newMarket count creationDeposit
  update fun w => { w with markets := w.markets.addMarket market disputeWindow }
  publish (.mktCreat count p.creator p.description p.options.length p.deadline)
  pure count

/-- What `create_market` would be without the window check. -/
def createWithDefaultWindow (p : MarketParams) : Body Nat := do
  requireAuth p.creator
  requireNotPausedForHighRisk
  checkNewMarket p
  let (required, creationDeposit, creationFee) ← checkCreator p
  chargeCreationFee p.creator p.nativeToken creationFee
  lockCreationDeposit p.creator p.nativeToken required creationDeposit
  storeWithDefaultWindow p (if required then creationDeposit else 0)

section Creation

variable {env : Env} {w : World}

/-- The check lets the default through, as it stands. -/
theorem resolveMarketDisputeWindow_none (h : WindowsOrdered w.windows) :
    resolveMarketDisputeWindow none env w = (.ok w.windows.getDefaultDisputeWindow, w) :=
  resolveMarketDisputeWindow_ok.mpr ⟨⟨rfl, h.min_le_default, h.default_le_max⟩, rfl⟩

theorem storeMarket_none {p : MarketParams} {deposit : Int} (h : WindowsOrdered w.windows) :
    storeMarket p deposit none env w = storeWithDefaultWindow p deposit env w := by
  unfold storeMarket storeWithDefaultWindow
  refine bind_congr_ok fun count t hcount => ?_
  obtain ⟨rfl, rfl⟩ := reads_eq_ok.mp hcount
  refine bind_congr_ok fun id t hid => ?_
  obtain ⟨_, rfl⟩ := orTrap_ok.mp hid
  rw [bind_of_ok (resolveMarketDisputeWindow_none h), reads_bind]

/-- **The window check never fails a creation that asks for no window.** -/
theorem createMarketWithDisputeWindow_none {p : MarketParams} (h : WindowsOrdered w.windows) :
    createMarketWithDisputeWindow p none env w = createWithDefaultWindow p env w := by
  unfold createMarketWithDisputeWindow createWithDefaultWindow
  -- the guards write nothing, and the payments leave the configuration alone
  refine bind_congr_ok fun _ t hauth => ?_
  obtain ⟨_, rfl⟩ := requireAuth_ok.mp hauth
  refine bind_congr_ok fun _ t hopen => ?_
  obtain ⟨_, rfl⟩ := requireNotPausedForHighRisk_ok.mp hopen
  refine bind_congr_ok fun _ t hnew => ?_
  obtain ⟨_, _, _, _, rfl⟩ := checkNewMarket_ok hnew
  refine bind_congr_ok fun terms t hcreator => ?_
  obtain ⟨required, deposit, fee⟩ := terms
  obtain ⟨_, rfl⟩ := checkCreator_ok hcreator
  refine bind_congr_ok fun _ v hfee => ?_
  obtain ⟨_, _, _, rfl⟩ := (chargeCreationFee_ok hfee).1
  refine bind_congr_ok fun _ v hlock => ?_
  obtain ⟨_, _, _, rfl⟩ := (lockCreationDeposit_ok rfl hlock).1
  exact storeMarket_none h

end Creation

/-! ## §3. Every run. -/

/-- Market `k` was created once in the history, with the window stored for it,
which lay within the bounds in force then. -/
def CreatedWithinBounds (k : Nat) (history : List (Transition World Action)) (w : World) : Prop :=
  ∃ c p window, CreatedBy k history c p window
    ∧ w.markets.marketDisputeWindow.lookup k = some window

/-- **The dispute window configuration stays consistent.** -/
theorem window_config_consistent (X : Externs) (b : Address → Address → Nat) (t s : Nat)
    (as : List Action) :
    let w := run (step X) (genesis b t s) as
    WindowsOrdered w.windows
      ∧ (∀ env p, createMarket p env w = createWithDefaultWindow p env w
          ∧ resolveMarketDisputeWindow none env w = (.ok w.windows.getDefaultDisputeWindow, w))
      ∧ ∀ k m, w.markets.market.lookup k = some m →
          CreatedWithinBounds k (trace (step X) (genesis b t s) as) w := by
  intro w
  have hordered : WindowsOrdered w.windows := Reachable.windowsOrdered (X := X) ⟨b, t, s, as, rfl⟩
  refine ⟨hordered, ?_, ?_⟩
  · intro env p
    exact ⟨createMarketWithDisputeWindow_none hordered, resolveMarketDisputeWindow_none hordered⟩
  · intro k m hm
    obtain ⟨c, p, window, hcreated, hwindow, _⟩ := ((traced_run b t s k as).recorded m hm).traced
    exact ⟨c, p, window, hcreated, hwindow⟩

/-- Bounds that leave the default out are refused, and so is a default below the
minimum. -/
example :
    let w := sampleRun [.call everybody (.initializeContract ⟨1⟩ 0),
      .call everybody (.setDisputeWindowBounds 7200 259199),
      .call everybody (.setDisputeWindowBounds 7200 259200),
      .call everybody (.setDisputeWindow 7199)]
    (w.windows.getDisputeWindowBounds, w.windows.getDefaultDisputeWindow)
      = ((7200, 259200), 259200) := by decide +kernel

end PredictIQ.Contract
