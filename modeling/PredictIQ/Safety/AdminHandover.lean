/-
  PredictIQ.Safety.AdminHandover: the admin changes hands by two signatures.

  `propose_admin` fills the pending slot, `accept_admin` empties it into the
  admin, `cancel_admin_transfer` empties it.  While the slot holds `b`, the
  last of these calls that succeeded was the proposal of `b`, signed by the
  admin who is still in office; that is what an acceptance then finds.
-/
import PredictIQ.Contract.Lifecycle

namespace PredictIQ.Contract

open Foundation Tx

variable {X : Externs}

/-! ## §1. The calls of a handover. -/

/-- `propose_admin` and `cancel_admin_transfer`. -/
def isProposal : Call → Bool
  | .proposeAdmin _ => true
  | .cancelAdminTransfer => true
  | _ => false

/-- These and `accept_admin`. -/
def isHandover : Call → Bool
  | .acceptAdmin _ => true
  | c => isProposal c

/-- The step is a call of this kind that returned `Ok`. -/
def succeededAs (X : Externs) (kind : Call → Bool) (x : Transition World Action) : Bool :=
  match x.act with
  | .call _ c => kind c && callOk X x
  | _ => false

/-- Admin `a` proposes `b` in this step. -/
def ProposedBy (a b : Address) (y : Transition World Action) : Prop :=
  ∃ env, y.act = .call env (.proposeAdmin b) ∧ env.authorized a = true
    ∧ y.pre.admin.admin = some a

/-- What a successful call may do to the admin and the pending slot. -/
inductive HandoverStep (env : Env) (w : World) : Call → AdminStore → Prop
  | other (c : Call) (a : AdminStore) (hc : isHandover c = false)
      (admin : a.admin = w.admin.admin) (pending : a.pendingAdmin = w.admin.pendingAdmin) :
      HandoverStep env w c a
  | initialized (admin : Address) (baseFee : Int) (first : w.admin.admin = none) :
      HandoverStep env w (.initializeContract admin baseFee)
        { w.admin with admin := some admin }
  | propose (newAdmin : Address) (byAdmin : ByAdmin env w) :
      HandoverStep env w (.proposeAdmin newAdmin)
        { w.admin with pendingAdmin := some newAdmin }
  | accept (caller : Address) (auth : env.authorized caller = true)
      (pending : w.admin.pendingAdmin = some caller) :
      HandoverStep env w (.acceptAdmin caller)
        { w.admin with admin := some caller, pendingAdmin := none }
  | cancel (byAdmin : ByAdmin env w) :
      HandoverStep env w .cancelAdminTransfer { w.admin with pendingAdmin := none }

theorem AdminStep.handoverStep {env : Env} {w : World} {c : Call} {a : AdminStore}
    (h : AdminStep env w c a) : HandoverStep env w c a := by
  cases h with
  | propose newAdmin byAdmin => exact .propose newAdmin byAdmin
  | accept caller auth pending => exact .accept caller auth pending
  | cancel byAdmin => exact .cancel byAdmin
  | guardian => exact .other _ _ rfl rfl rfl
  | governanceToken => exact .other _ _ rfl rfl rfl

/-- The calls of a handover are among those that appoint. -/
theorem isHandover_eq_false {c : Call} (h : c.kind ≠ .appoints) : isHandover c = false := by
  cases c <;> first | rfl | exact absurd rfl h

theorem GovernanceStep.not_handover {env : Env} {w : World} {c : Call} {g : GovernanceStore}
    (h : GovernanceStep env w c g) : isHandover c = false := by
  cases h <;> rfl

/-- **A call's effect on the handover.** -/
theorem Effect.handoverStep {env : Env} {w w' : World} {c : Call} (h : Effect X env w c w') :
    HandoverStep env w c w'.admin := by
  cases h with
  | initialized admin baseFee first => exact .initialized admin baseFee first
  | appointed _ a h => exact h.handoverStep
  | created _ p id _ hc h =>
      obtain ⟨_, _, _, hw⟩ := h.frame
      rw [hw]
      exact .other c _ (isHandover_eq_false (by rw [hc]; intro h; cases h)) rfl rfl
  | bet b m fee _ h =>
      obtain ⟨_, hw⟩ := h.frame
      rw [hw]
      exact .other _ _ rfl rfl rfl
  | voted voter id outcome weight m ledger br evs _ lookup disputed snapshot frame =>
      obtain ⟨_, _, _, _, rfl⟩ := frame
      exact .other _ _ rfl rfl rfl
  | moved _ id f m m' br evs hc =>
      exact .other c _ (isHandover_eq_false (by rw [hc]; intro h; cases h)) rfl rfl
  | paidFees _ x f evs hc =>
      exact .other c _ (isHandover_eq_false (by rw [hc]; intro h; cases h)) rfl rfl
  | configured _ f mc wi o br evs hc =>
      exact .other c _ (isHandover_eq_false (by rw [hc]; intro h; cases h)) rfl rfl
  | governed _ g br wasm evs h => exact .other c _ h.not_handover rfl rfl
  | _ => exact .other _ _ rfl rfl rfl

/-- An office once filled is refilled by an acceptance. -/
theorem HandoverStep.accepts {env : Env} {w : World} {c : Call} {store : AdminStore} {a : Address}
    (h : HandoverStep env w c store) (ha : w.admin.admin = some a) (hne : store.admin ≠ some a) :
    ∃ a', c = .acceptAdmin a' ∧ store.admin = some a' := by
  cases h with
  | other _ _ hc admin => exact absurd (admin.trans ha) hne
  | initialized admin baseFee first =>
      rw [first] at ha
      cases ha
  | propose => exact absurd ha hne
  | accept caller => exact ⟨caller, rfl, rfl⟩
  | cancel => exact absurd ha hne

/-! ## §2. The pending slot against the history. -/

/-- The last handover call that succeeded was `a`'s proposal of `b`. -/
def LastProposed (X : Externs) (kind : Call → Bool) (history : List (Transition World Action))
    (a b : Address) : Prop :=
  ∃ y, LastWhere (succeededAs X kind) history y ∧ ProposedBy a b y

/-- What the slot holds was proposed last, by the admin in office. -/
structure SlotProposed (X : Externs) (history : List (Transition World Action)) (w : World) :
    Prop where
  proposed : ∀ b, w.admin.pendingAdmin = some b →
    ∃ a, w.admin.admin = some a ∧ LastProposed X isHandover history a b

theorem LastProposed.concat {kind : Call → Bool} {history : List (Transition World Action)}
    {a b : Address} {x : Transition World Action} (h : LastProposed X kind history a b)
    (hx : succeededAs X kind x = false) : LastProposed X kind (history ++ [x]) a b := by
  obtain ⟨y, hlast, hy⟩ := h
  exact ⟨y, hlast.concat hx, hy⟩

theorem SlotProposed.call {history : List (Transition World Action)} {env : Env} {w w' : World}
    {c : Call} (h : SlotProposed X history w) (hsucc : Succeeds X env c w w') :
    SlotProposed X (history ++ [⟨w, .call env c, w'⟩]) w' := by
  constructor
  intro b hb
  have hstep := hsucc.effect.handoverStep
  generalize w'.admin = a' at hstep hb ⊢
  cases hstep with
  | other _ _ hc admin pending =>
      obtain ⟨a, ha, hlast⟩ := h.proposed b (pending.symm.trans hb)
      refine ⟨a, admin.trans ha, hlast.concat ?_⟩
      show (isHandover c && _) = false
      rw [hc, Bool.false_and]
  | initialized admin baseFee first =>
      -- a filled slot has an admin who filled it
      obtain ⟨a, ha, _⟩ := h.proposed b hb
      rw [first] at ha
      cases ha
  | propose newAdmin byAdmin =>
      obtain rfl := Option.some.inj hb
      obtain ⟨a, ha, hauth⟩ := byAdmin
      refine ⟨a, ha, ⟨w, .call env (.proposeAdmin newAdmin), w'⟩, .concat_self ?_,
        env, rfl, hauth, ha⟩
      show (true && _) = true
      rw [callOk_of_succeeds hsucc]
      rfl
  | accept => cases hb
  | cancel => cases hb

theorem SlotProposed.idle {history : List (Transition World Action)} {w w' : World} {a : Action}
    (h : SlotProposed X history w) (hidle : IdleStep w a w') (hfail : callOk X ⟨w, a, w'⟩ = false) :
    SlotProposed X (history ++ [⟨w, a, w'⟩]) w' := by
  obtain ⟨_, _, _, rfl⟩ := hidle.frame
  constructor
  intro b hb
  obtain ⟨admin, hadmin, hlast⟩ := h.proposed b hb
  refine ⟨admin, hadmin, hlast.concat ?_⟩
  cases a with
  | call env c =>
      show (isHandover c && _) = false
      rw [hfail, Bool.and_false]
  | advance => rfl
  | external => rfl

theorem slotProposed_run (b : Address → Address → Nat) (t s : Nat) (as : List Action) :
    SlotProposed X (trace (step X) (genesis b t s) as) (run (step X) (genesis b t s) as) := by
  refine history_ok_invariant (SlotProposed X) ⟨?_⟩ SlotProposed.call SlotProposed.idle as
  intro _ hb
  cases hb

/-! ## §3. The handover. -/

/-- The step hands the office of `a` over to `b`: an acceptance that `b`
signs, after a proposal by `a` that no cancellation and no other proposal has
followed. -/
structure HandsOver (X : Externs) (history : List (Transition World Action))
    (x : Transition World Action) (a b : Address) : Prop where
  accepted : ∃ env, x.act = .call env (.acceptAdmin b) ∧ env.authorized b = true
    ∧ callOk X x = true
  proposed : LastProposed X isProposal history a b

/-- An acceptance finds its proposal, neither cancelled nor used. -/
theorem SlotProposed.accepted {history : List (Transition World Action)} {env : Env}
    {w w' : World} {b : Address} (h : SlotProposed X history w)
    (hsucc : Succeeds X env (.acceptAdmin b) w w') :
    env.authorized b = true
      ∧ ∃ a, w.admin.admin = some a ∧ LastProposed X isHandover history a b := by
  obtain ⟨r, hr⟩ := hsucc
  obtain ⟨hauth, hpending, _⟩ := acceptAdmin_ok.mp (done_eq_ok.mp hr).1
  exact ⟨hauth, h.proposed b hpending⟩

/-- The proposal is the last also among proposals and cancellations alone. -/
theorem LastProposed.of_handover {history : List (Transition World Action)} {a b : Address}
    (h : LastProposed X isHandover history a b) : LastProposed X isProposal history a b := by
  obtain ⟨y, hlast, env, hact, hauth, hadmin⟩ := h
  refine ⟨y, hlast.narrow ?_ ?_, env, hact, hauth, hadmin⟩
  · have hy := hlast.1
    unfold succeededAs at hy ⊢
    rw [hact] at hy ⊢
    exact hy
  · intro z hz
    unfold succeededAs at hz ⊢
    split at hz
    · rename_i c hz'
      rw [Bool.and_eq_true] at hz ⊢
      refine ⟨?_, hz.2⟩
      cases c <;> first | rfl | cases hz.1
    · cases hz

/-- **The admin changes hands by two signatures.**  Of the step after any run:
it changes the stored admin only by an acceptance that the new admin signs,
of the old admin's standing proposal; and an acceptance succeeds only on a
proposal that nothing has cancelled, replaced or used. -/
theorem admin_handover (X : Externs) (b : Address → Address → Nat) (t s : Nat) (as : List Action)
    (act : Action) :
    let history := trace (step X) (genesis b t s) as
    let w := run (step X) (genesis b t s) as
    let w' := step X w act
    (∀ a, w.admin.admin = some a → w'.admin.admin ≠ some a →
        ∃ a', w'.admin.admin = some a' ∧ HandsOver X history ⟨w, act, w'⟩ a a')
      ∧ ∀ env a', act = .call env (.acceptAdmin a') → Succeeds X env (.acceptAdmin a') w w' →
          ∃ a, w.admin.admin = some a ∧ LastProposed X isHandover history a a' := by
  intro history w w'
  have hslot : SlotProposed X history w := slotProposed_run b t s as
  constructor
  · intro a ha hne
    cases act with
    | call env c =>
        rcases step_call_cases X env c w with hsame | hsucc
        · exact absurd (by rw [← ha]; exact congrArg (·.admin.admin) hsame) hne
        obtain ⟨a', rfl, ha'⟩ := hsucc.effect.handoverStep.accepts ha hne
        obtain ⟨hauth, a₀, ha₀, hlast⟩ := hslot.accepted hsucc
        obtain rfl : a = a₀ := Option.some.inj (ha.symm.trans ha₀)
        exact ⟨a', ha', ⟨env, rfl, hauth, callOk_of_succeeds hsucc⟩, hlast.of_handover⟩
    | advance seconds ledgers => exact absurd ha hne
    | external balances => exact absurd ha hne
  · intro env a' hact hsucc
    exact (hslot.accepted hsucc).2

/-- A proposal is taken up once, and not after it was cancelled. -/
example :
    (sampleRun [.call everybody (.initializeContract ⟨1⟩ 0),
      .call everybody (.proposeAdmin ⟨5⟩), .call everybody (.acceptAdmin ⟨5⟩)]).admin.admin
        = some ⟨5⟩
      ∧ (sampleRun [.call everybody (.initializeContract ⟨1⟩ 0),
        .call everybody (.proposeAdmin ⟨5⟩), .call everybody .cancelAdminTransfer,
        .call everybody (.acceptAdmin ⟨5⟩)]).admin.admin = some ⟨1⟩ := by decide +kernel

end PredictIQ.Contract
