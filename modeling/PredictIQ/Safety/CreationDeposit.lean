/-
  PredictIQ.Safety.CreationDeposit: creation deposits come back once, but in
  what token?

  `release_creation_deposit` zeroes the stored deposit before it pays, so a
  deposit is paid back at most once.  It pays in the token the caller names,
  which it never compares with the token the deposit was locked in.  Custody
  is kept exactly by the runs whose paying releases name the market's token.
-/
import PredictIQ.Contract.Lifecycle

namespace PredictIQ.Contract

open Foundation Tx

variable {X : Externs}

/-! ## §1. The deposit of a market in a history. -/

/-- The record under `k` when it was first seen. -/
def createdAs (k : Nat) (history : List (Transition World Action)) : Option Market :=
  history.foldl (fun seen t => seen.or (t.post.markets.market.lookup k)) none

/-- What a step pays, if it releases the deposit of market `k`. -/
def releasePayments (k : Nat) (t : Transition World Action) : List Transfer :=
  match t.act with
  | .call _ (.releaseCreationDeposit id _) => if id = k then newTransfers t else []
  | _ => []

/-- All payments made by releases of market `k`. -/
def released (k : Nat) (history : List (Transition World Action)) : List Transfer :=
  history.flatMap (releasePayments k)

/-- The total those payments come to. -/
def paidBack (k : Nat) (history : List (Transition World Action)) : Int :=
  ((released k history).map (·.amount)).sum

/-- A deposit of `d` in `token` comes back once, in kind: releases of market `k`
pay at most `d`, in `token` and to `creator`, and lower no other balance. -/
structure DepositInKind (k : Nat) (d : Int) (token creator : Address)
    (history : List (Transition World Action)) : Prop where
  once : paidBack k history ≤ d
  kind : ∀ x ∈ released k history, x.token = token ∧ x.payee = creator
  others : ∀ t ∈ history, ∀ env native, t.act = .call env (.releaseCreationDeposit k native) →
    ∀ other, other ≠ token →
      t.pre.balances other currentContractAddress ≤ t.post.balances other currentContractAddress

/-- A release of market `k` in `native` is due: the deposit is still stored, the
market is resolved, its creator signs and the contract can pay. -/
structure ReleaseDue (env : Env) (w : World) (k : Nat) (native : Address) (m : Market) :
    Prop where
  lookup : w.markets.market.lookup k = some m
  auth : env.authorized m.creator = true
  resolved : m.status = .resolved
  deposit : 0 < m.creationDeposit
  funded : Transferable env w ⟨native, currentContractAddress, m.creator, m.creationDeposit⟩

/-- A release of market `k` that is due names `token`. -/
def ReleasesIn (k : Nat) (token : Address) (t : Transition World Action) : Prop :=
  ∀ env native m, t.act = .call env (.releaseCreationDeposit k native) →
    ReleaseDue env t.pre k native m → native = token

theorem createdAs_concat (k : Nat) (history : List (Transition World Action))
    (t : Transition World Action) :
    createdAs k (history ++ [t])
      = (createdAs k history).or (t.post.markets.market.lookup k) := by
  simp [createdAs]

/-- A record once seen is the one seen later. -/
theorem createdAs_append {k : Nat} {history rest : List (Transition World Action)} {m : Market}
    (h : createdAs k history = some m) : createdAs k (history ++ rest) = some m := by
  induction rest using List.reverseRecOn with
  | nil => rwa [List.append_nil]
  | append_singleton rest t ih =>
      rw [← List.append_assoc, createdAs_concat, ih]
      rfl

theorem released_concat (k : Nat) (history : List (Transition World Action))
    (t : Transition World Action) :
    released k (history ++ [t]) = released k history ++ releasePayments k t := by
  simp [released]

/-! ## §2. One release. -/

/-- Steps other than releases of market `k` pay nothing for it. -/
theorem releasePayments_of_other {k : Nat} {env : Env} {c : Call} {w w' : World}
    (h : ∀ native, c ≠ .releaseCreationDeposit k native) :
    releasePayments k ⟨w, .call env c, w'⟩ = [] := by
  cases c with
  | releaseCreationDeposit id native =>
      refine if_neg ?_
      intro hid
      subst hid
      exact h native rfl
  | _ => rfl

theorem releasePayments_of_same {k : Nat} {t : Transition World Action} (h : t.post = t.pre) :
    releasePayments k t = [] := by
  unfold releasePayments
  split
  · rw [newTransfers_of_same h, ite_self]
  · rfl

/-- The world after a release that was due. -/
def World.release (w : World) (native : Address) (m : Market) : World :=
  { w.pay ⟨native, currentContractAddress, m.creator, m.creationDeposit⟩ with
    markets := w.markets.updateMarket { m with creationDeposit := 0 } }

/-- A release that is due goes through. -/
theorem ReleaseDue.succeeds {env : Env} {w : World} {k : Nat} {native : Address} {m : Market}
    (h : ReleaseDue env w k native m) :
    Succeeds X env (.releaseCreationDeposit k native) w (w.release native m) := by
  -- each guard of the body is a field of `ReleaseDue`
  refine ⟨.unit, done_eq_ok.mpr ⟨?_, rfl⟩⟩
  simp only [releaseCreationDeposit, bind_eq_ok, loadMarket_ok, requireAuth_ok, failIf_ok]
  refine ⟨m, w, ⟨h.lookup, rfl⟩, (), w, ⟨h.auth, rfl⟩, (), w,
    ⟨not_not.mpr h.resolved, rfl⟩, whenever_eq_ok.mpr (Or.inl ⟨h.deposit, ?_⟩)⟩
  simp only [bind_eq_ok, updateMarket_ok, tokenTransfer_ok]
  exact ⟨(), _, rfl, h.funded, rfl⟩

/-- The payment of a release that was due. -/
theorem releasePayments_release (env : Env) (w : World) (k : Nat) (native : Address)
    (m : Market) :
    releasePayments k ⟨w, .call env (.releaseCreationDeposit k native), w.release native m⟩
      = [⟨native, currentContractAddress, m.creator, m.creationDeposit⟩] := by
  show (if k = k then _ else _) = _
  rw [if_pos rfl]
  exact List.drop_left

/-- A successful release finds an empty deposit and does nothing, or was due. -/
theorem Succeeds.release {env : Env} {w w' : World} {k : Nat} {native : Address}
    (h : Succeeds X env (.releaseCreationDeposit k native) w w') :
    w' = w ∨ ∃ m, ReleaseDue env w k native m ∧ w' = w.release native m := by
  obtain ⟨r, hr⟩ := h
  obtain ⟨hr, _⟩ := done_eq_ok.mp hr
  obtain ⟨m, hm, hauth, hs, ⟨_, rfl⟩ | ⟨hd, hfunded, rfl⟩⟩ := releaseCreationDeposit_ok hr
  · exact Or.inl rfl
  · exact Or.inr ⟨m, ⟨hm, hauth, hs, hd, hfunded⟩, rfl⟩

/-- A step that pays for market `k` is a release that was due. -/
theorem releasePayments_of_step {k : Nat} {t : Transition World Action}
    (hstep : t.post = step X t.pre t.act) :
    releasePayments k t = [] ∨ ∃ env native m,
      t.act = .call env (.releaseCreationDeposit k native) ∧ ReleaseDue env t.pre k native m
        ∧ releasePayments k t
          = [⟨native, currentContractAddress, m.creator, m.creationDeposit⟩] := by
  obtain ⟨w, act, w'⟩ := t
  change w' = step X w act at hstep
  subst hstep
  cases act with
  | advance seconds ledgers => exact Or.inl rfl
  | external balances => exact Or.inl rfl
  | call env c =>
      rcases step_call_cases X env c w with hsame | hsucc
      · exact Or.inl (releasePayments_of_same hsame)
      · -- a release of this market, or some other call
        by_cases hc : ∃ native, c = .releaseCreationDeposit k native
        · obtain ⟨native, rfl⟩ := hc
          rcases hsucc.release with hsame | ⟨m, hdue, hpost⟩
          · exact Or.inl (releasePayments_of_same hsame)
          · refine Or.inr ⟨env, native, m, rfl, hdue, ?_⟩
            rw [hpost, releasePayments_release]
        · exact Or.inl (releasePayments_of_other fun native heq => hc ⟨native, heq⟩)

/-- What a creation locks: its deposit, in the market's token. -/
def lockTransfer (m : Market) : Transfer :=
  ⟨m.tokenAddress, m.creator, currentContractAddress, m.creationDeposit⟩

/-- A market created with a deposit brings it in. -/
theorem CreateMarketEffect.locks {env : Env} {w w' : World} {p : MarketParams} {id : Nat}
    (h : CreateMarketEffect env w p id w') (k : Nat) (a : Action)
    (hd : 0 < depositFor w p.creator) :
    lockTransfer (p.newMarket k (depositFor w p.creator)) ∈ newTransfers ⟨w, a, w'⟩ := by
  obtain ⟨ts, hts⟩ := h.transfers
  show _ ∈ w'.transfers.drop w.transfers.length
  rw [hts, if_pos hd, List.append_assoc, List.drop_left]
  exact List.mem_append_right _ (List.mem_singleton_self _)

/-- Other calls leave the deposit and its terms as they are. -/
theorem MarketChange.deposit {w : World} {k : Nat} {c : Call} {m m' : Market}
    (h : MarketChange X w k c (some m) (some m'))
    (hc : ∀ native, c ≠ .releaseCreationDeposit k native) :
    m'.creationDeposit = m.creationDeposit ∧ m'.creator = m.creator
      ∧ m'.tokenAddress = m.tokenAddress := by
  cases h with
  | same => exact ⟨rfl, rfl, rfl⟩
  | bet b _ fee counts => exact ⟨rfl, rfl, rfl⟩
  | moved _ _ _ _ _ move =>
      obtain ⟨_, _, _, _, _, _, rfl⟩ := move.frame
      exact ⟨rfl, rfl, rfl⟩
  | released native => exact absurd rfl (hc native)

/-! ## §3. The deposit ledger. -/

/-- The state of the deposit of a market created as `m₀`, after the payments
`xs`: nothing was paid and the record still holds it, or it was paid in full
and the record holds 0. -/
structure DepositState (m₀ : Market) (xs : List Transfer) (o : Option Market) : Prop where
  paid : xs = [] ∨ (0 < m₀.creationDeposit ∧
    ∃ token, xs = [⟨token, currentContractAddress, m₀.creator, m₀.creationDeposit⟩])
  terms : ∀ m, o = some m → m.creator = m₀.creator ∧ m.tokenAddress = m₀.tokenAddress
  stored : ∀ m, o = some m → m.creationDeposit = if xs = [] then m₀.creationDeposit else 0

/-- The invariant for market `k`. -/
structure DepositLedger (k : Nat) (history : List (Transition World Action)) (w : World) :
    Prop where
  registered : Registered w
  unseen : createdAs k history = none →
    w.markets.market.lookup k = none ∧ released k history = []
  fresh : w.markets.lastId < k → createdAs k history = none
  seen : ∀ m₀, createdAs k history = some m₀ →
    DepositState m₀ (released k history) (w.markets.market.lookup k)
  locked : ∀ m₀, createdAs k history = some m₀ → 0 < m₀.creationDeposit →
    ∃ t ∈ history, lockTransfer m₀ ∈ newTransfers t

/-- A record that keeps its deposit and terms, or is removed, keeps its state. -/
theorem DepositState.kept {m₀ : Market} {xs : List Transfer} {o o' : Option Market}
    (h : DepositState m₀ xs o)
    (hkeep : ∀ m', o' = some m' → ∃ m, o = some m ∧ m'.creationDeposit = m.creationDeposit
      ∧ m'.creator = m.creator ∧ m'.tokenAddress = m.tokenAddress) :
    DepositState m₀ xs o' := by
  refine ⟨h.paid, ?_, ?_⟩
  · intro m' hm'
    obtain ⟨m, hm, _, hcreator, htoken⟩ := hkeep m' hm'
    rw [hcreator, htoken]
    exact h.terms m hm
  · intro m' hm'
    obtain ⟨m, hm, hdeposit, _, _⟩ := hkeep m' hm'
    rw [hdeposit]
    exact h.stored m hm

/-- A new record holds its deposit. -/
theorem DepositState.new (m₀ : Market) : DepositState m₀ [] (some m₀) := by
  refine ⟨Or.inl rfl, ?_, ?_⟩
  · intro m hm
    obtain rfl := Option.some.inj hm
    exact ⟨rfl, rfl⟩
  · intro m hm
    obtain rfl := Option.some.inj hm
    rfl

/-- A stored deposit is paid out in full, and only if nothing was paid before. -/
theorem DepositState.release {m₀ m : Market} {xs : List Transfer} {native : Address}
    (h : DepositState m₀ xs (some m)) (hd : 0 < m.creationDeposit) :
    DepositState m₀
      (xs ++ [⟨native, currentContractAddress, m.creator, m.creationDeposit⟩])
      (some { m with creationDeposit := 0 }) := by
  have hstored := h.stored m rfl
  obtain ⟨hcreator, htoken⟩ := h.terms m rfl
  -- after a payment the record would hold 0
  have hempty : xs = [] := by
    by_contra hne
    rw [if_neg hne] at hstored
    omega
  rw [if_pos hempty] at hstored
  subst hempty
  refine ⟨Or.inr ⟨by omega, native, ?_⟩, ?_, ?_⟩
  · rw [hcreator, hstored]
    rfl
  · intro m' hm'
    obtain rfl := Option.some.inj hm'
    exact ⟨hcreator, htoken⟩
  · intro m' hm'
    obtain rfl := Option.some.inj hm'
    rfl

section Step

variable {k : Nat} {history : List (Transition World Action)}

/-- A step that leaves the records alone and pays nothing for market `k`. -/
theorem DepositLedger.same {t : Transition World Action} (h : DepositLedger k history t.pre)
    (hmarkets : t.post.markets = t.pre.markets) (hpay : releasePayments k t = []) :
    DepositLedger k (history ++ [t]) t.post := by
  have hpaid : released k (history ++ [t]) = released k history := by
    rw [released_concat, hpay, List.append_nil]
  have hcreated : createdAs k (history ++ [t]) = createdAs k history := by
    rw [createdAs_concat, hmarkets]
    -- an unseen market is not stored, and so not seen now either
    cases hold : createdAs k history with
    | some m₀ => rfl
    | none => exact (h.unseen hold).1
  refine ⟨h.registered.of_markets hmarkets, ?_, ?_, ?_, ?_⟩
  · rw [hcreated, hpaid, hmarkets]
    exact h.unseen
  · rw [hcreated, hmarkets]
    exact h.fresh
  · rw [hcreated, hpaid, hmarkets]
    exact h.seen
  · intro m₀ hm₀ hd
    rw [hcreated] at hm₀
    obtain ⟨u, hu, hlock⟩ := h.locked m₀ hm₀ hd
    exact ⟨u, List.mem_append_left _ hu, hlock⟩

/-- A call that is no release of market `k`. -/
theorem DepositLedger.other {env : Env} {w w' : World} {c : Call}
    (h : DepositLedger k history w) (heff : Effect X env w c w')
    (hc : ∀ native, c ≠ .releaseCreationDeposit k native) :
    DepositLedger k (history ++ [⟨w, .call env c, w'⟩]) w' := by
  have hpaid : released k (history ++ [⟨w, .call env c, w'⟩]) = released k history := by
    rw [released_concat, releasePayments_of_other hc, List.append_nil]
  have hreg := heff.registered h.registered
  have hlast := heff.lastId_le
  have hcreated := createdAs_concat k history ⟨w, .call env c, w'⟩
  have hchange := heff.marketChange h.registered k
  refine ⟨hreg, ?_, ?_, ?_, ?_⟩
  · intro hnone
    rw [hcreated, Option.or_eq_none_iff] at hnone
    rw [hpaid]
    exact ⟨hnone.2, (h.unseen hnone.1).2⟩
  · intro hk
    rw [hcreated, h.fresh (by omega)]
    show w'.markets.market.lookup k = none
    -- whatever is stored has an id already given out
    by_contra hsome
    obtain ⟨m, hm⟩ := Option.ne_none_iff_exists'.mp hsome
    have hdrawn := (hreg.drawn k m hm).2
    omega
  · intro m₀ hm₀
    rw [hpaid]
    cases hold : createdAs k history with
    | none =>
        rw [hcreated, hold] at hm₀
        change w'.markets.market.lookup k = some m₀ at hm₀
        -- the market appears in this step
        rw [hm₀, (h.unseen hold).2]
        exact .new m₀
    | some m₁ =>
        rw [createdAs_append hold] at hm₀
        obtain rfl := Option.some.inj hm₀
        -- it was seen before: the call may only keep or remove it
        refine (h.seen m₁ hold).kept ?_
        intro m' hm'
        rw [hm'] at hchange
        cases ho : w.markets.market.lookup k with
        | some m =>
            rw [ho] at hchange
            exact ⟨m, rfl, hchange.deposit hc⟩
        | none =>
            -- the record is gone, and its id is not given out again
            rw [ho] at hchange
            cases hchange with
            | created _ p _ next =>
                have hunseen := h.fresh (by omega)
                rw [hold] at hunseen
                cases hunseen
  · intro m₀ hm₀ hd
    cases hold : createdAs k history with
    | some m₁ =>
        rw [createdAs_append hold] at hm₀
        obtain rfl := Option.some.inj hm₀
        obtain ⟨u, hu, hlock⟩ := h.locked m₁ hold hd
        exact ⟨u, List.mem_append_left _ hu, hlock⟩
    | none =>
        rw [hcreated, hold] at hm₀
        change w'.markets.market.lookup k = some m₀ at hm₀
        rw [hm₀, (h.unseen hold).1] at hchange
        cases hchange with
        | created _ p hkind next =>
            obtain ⟨_, hcreate⟩ := heff.creates hkind
            exact ⟨_, List.mem_append_right _ (List.mem_singleton_self _),
              hcreate.locks _ _ hd⟩

/-- A release of market `k`. -/
theorem DepositLedger.release {env : Env} {w w' : World} {native : Address}
    (h : DepositLedger k history w)
    (hsucc : Succeeds X env (.releaseCreationDeposit k native) w w') :
    DepositLedger k
      (history ++ [⟨w, .call env (.releaseCreationDeposit k native), w'⟩]) w' := by
  rcases hsucc.release with rfl | ⟨m, hdue, rfl⟩
  · exact DepositLedger.same h rfl (releasePayments_of_same rfl)
  · have hm := hdue.lookup
    have hid : m.id = k := h.registered.keyed k m hm
    obtain ⟨m₀, hold⟩ : ∃ m₀, createdAs k history = some m₀ := by
      refine Option.ne_none_iff_exists'.mp ?_
      intro hnone
      rw [(h.unseen hnone).1] at hm
      cases hm
    have hstate := h.seen m₀ hold
    rw [hm] at hstate
    refine ⟨hsucc.effect.registered h.registered, ?_, ?_, ?_, ?_⟩
    · intro hnone
      rw [createdAs_append hold] at hnone
      cases hnone
    · intro hk
      have hunseen := h.fresh (lt_of_le_of_lt hsucc.effect.lastId_le hk)
      rw [hold] at hunseen
      cases hunseen
    · intro m₁ hm₁
      rw [createdAs_append hold] at hm₁
      obtain rfl := Option.some.inj hm₁
      rw [released_concat, releasePayments_release]
      show DepositState m₀ _ ((w.markets.updateMarket _).market.lookup k)
      rw [MarketStore.lookup_updateMarket, if_pos hid.symm]
      exact hstate.release hdue.deposit
    · intro m₁ hm₁ hd
      rw [createdAs_append hold] at hm₁
      obtain rfl := Option.some.inj hm₁
      obtain ⟨u, hu, hlock⟩ := h.locked m₀ hold hd
      exact ⟨u, List.mem_append_left _ hu, hlock⟩

/-- A step that is no successful call. -/
theorem DepositLedger.idle {w w' : World} {a : Action} (h : DepositLedger k history w)
    (hidle : IdleStep w a w') : DepositLedger k (history ++ [⟨w, a, w'⟩]) w' := by
  cases hidle with
  | failed env c => exact DepositLedger.same h rfl (releasePayments_of_same rfl)
  | advanced seconds ledgers => exact DepositLedger.same h rfl rfl
  | moved balances => exact DepositLedger.same h rfl rfl

end Step

/-! ## §4. Runs. -/

theorem depositLedger_run (X : Externs) (b : Address → Address → Nat) (t s : Nat)
    (as : List Action) (k : Nat) :
    DepositLedger k (trace (step X) (genesis b t s) as) (run (step X) (genesis b t s) as) := by
  have h0 : DepositLedger k [] (genesis b t s) :=
    ⟨.genesis b t s, fun _ => ⟨rfl, rfl⟩, fun _ => rfl, fun m₀ hm₀ => (by cases hm₀),
      fun m₀ hm₀ => (by cases hm₀)⟩
  refine history_call_invariant (DepositLedger k) h0 ?_ (fun hI hidle => hI.idle hidle) as
  intro history v env c v' hI hsucc
  by_cases hc : ∃ native, c = .releaseCreationDeposit k native
  · obtain ⟨native, rfl⟩ := hc
    exact hI.release hsucc
  · exact hI.other hsucc.effect fun native heq => hc ⟨native, heq⟩

/-- Releases pay nothing but the stored deposit, in the token they name. -/
theorem mem_released {w : World} {as : List Action} {k : Nat} {x : Transfer} :
    x ∈ released k (trace (step X) w as) ↔ ∃ tr ∈ trace (step X) w as, ∃ env native m,
      tr.act = .call env (.releaseCreationDeposit k native) ∧ ReleaseDue env tr.pre k native m
        ∧ x = ⟨native, currentContractAddress, m.creator, m.creationDeposit⟩ := by
  constructor
  · intro hx
    obtain ⟨tr, htr, hxtr⟩ := List.mem_flatMap.mp hx
    obtain ⟨_, _, _, _, hpost⟩ := mem_trace (step X) htr
    rcases releasePayments_of_step (k := k) hpost with hnil | ⟨env, native, m, hact, hdue, hpay⟩
    · rw [hnil] at hxtr
      cases hxtr
    · rw [hpay] at hxtr
      exact ⟨tr, htr, env, native, m, hact, hdue, List.mem_singleton.mp hxtr⟩
  · intro h
    obtain ⟨⟨v, act, v'⟩, htr, env, native, m, hact, hdue, rfl⟩ := h
    obtain ⟨_, _, _, _, hpost⟩ := mem_trace (step X) htr
    change act = _ at hact
    change v' = step X v act at hpost
    change ReleaseDue env v k native m at hdue
    refine List.mem_flatMap.mpr ⟨_, htr, ?_⟩
    rw [hpost, hact, step_of_succeeds hdue.succeeds, releasePayments_release]
    exact List.mem_singleton_self _

/-- A release leaves the balances in other tokens than the one it names. -/
theorem release_other_balance {env : Env} {w : World} {k : Nat} {native other : Address}
    (h : ∀ m, ReleaseDue env w k native m → other ≠ native) (holder : Address) :
    (step X w (.call env (.releaseCreationDeposit k native))).balances other holder
      = w.balances other holder := by
  rcases step_call_cases X env (.releaseCreationDeposit k native) w with hsame | hsucc
  · rw [hsame]
  · rcases hsucc.release with hsame | ⟨m, hdue, hrel⟩
    · rw [hsame]
    · rw [hrel]
      exact if_neg (h m hdue)

/-- **A deposit comes back once, and in kind exactly in the runs whose releases
name the token it was locked in.** -/
theorem deposit_in_kind_iff (X : Externs) (b : Address → Address → Nat) (t s : Nat)
    (as : List Action) (k : Nat) (m₀ : Market)
    (hcreated : createdAs k (trace (step X) (genesis b t s) as) = some m₀)
    (hdeposit : 0 < m₀.creationDeposit) :
    paidBack k (trace (step X) (genesis b t s) as) ≤ m₀.creationDeposit ∧
      (DepositInKind k m₀.creationDeposit m₀.tokenAddress m₀.creator
          (trace (step X) (genesis b t s) as) ↔
        ∀ tr ∈ trace (step X) (genesis b t s) as, ReleasesIn k m₀.tokenAddress tr) := by
  have hpaid := ((depositLedger_run X b t s as k).seen m₀ hcreated).paid
  have honce : paidBack k (trace (step X) (genesis b t s) as) ≤ m₀.creationDeposit := by
    unfold paidBack
    rcases hpaid with hnil | ⟨_, token, hone⟩
    · rw [hnil]
      exact hdeposit.le
    · rw [hone]
      simp
  refine ⟨honce, ?_, fun hC => ⟨honce, ?_, ?_⟩⟩
  · intro h tr htr env native m hact hdue
    exact (h.kind _ (mem_released.mpr ⟨tr, htr, env, native, m, hact, hdue, rfl⟩)).1
  · intro x hx
    constructor
    · obtain ⟨tr, htr, env, native, m, hact, hdue, rfl⟩ := mem_released.mp hx
      exact hC tr htr env native m hact hdue
    · -- the one payment there can be goes to the creator
      rcases hpaid with hnil | ⟨_, token, hone⟩
      · rw [hnil] at hx
        cases hx
      · rw [hone] at hx
        rw [List.mem_singleton.mp hx]
  · intro tr htr env native hact other hother
    obtain ⟨_, _, _, _, hpost⟩ := mem_trace (step X) htr
    rw [hpost, hact, release_other_balance fun m hdue => ?_]
    rw [hC tr htr env native m hact hdue]
    exact hother

/-- Accounts 2 and 3 lock 500 each, in tokens 10 and 11; market 1 is resolved
and its creator asks for the deposit in `native`. -/
def sampleDeposits (native : Address) : List Action :=
  [.call everybody (.initializeContract ⟨1⟩ 0),
    .call everybody (.setCreationDeposit 500),
    .call everybody (.createMarket (sampleMarket ⟨2⟩ ⟨10⟩)),
    .call everybody (.createMarket (sampleMarket ⟨3⟩ ⟨11⟩)),
    .call everybody (.resolveMarket 1 0),
    .call everybody (.releaseCreationDeposit 1 native)]

/-- Asked for in token 10, the deposit comes back in kind. -/
theorem deposit_in_kind_sample :
    DepositInKind 1 500 ⟨10⟩ ⟨2⟩ (trace (step sampleExterns) sampleGenesis
      (sampleDeposits ⟨10⟩)) := by
  refine (deposit_in_kind_iff sampleExterns sampleBalances 0 0 (sampleDeposits ⟨10⟩) 1 _ rfl
    (by decide)).2.mpr ?_
  intro tr htr env native m hact _
  have hmem := act_mem_of_mem_trace (step sampleExterns) htr
  rw [hact] at hmem
  simp only [sampleDeposits, List.mem_cons, List.not_mem_nil, or_false, Action.call.injEq,
    reduceCtorEq, and_false, false_or, Call.releaseCreationDeposit.injEq] at hmem
  exact hmem.2.2

/-- **Asked for in token 11, it is paid from the deposit of account 3.** -/
theorem sampleDeposits_other_token :
    ∃ m₀, createdAs 1 (trace (step sampleExterns) sampleGenesis (sampleDeposits ⟨11⟩)) = some m₀
      ∧ m₀.creationDeposit = 500 ∧ m₀.tokenAddress = ⟨10⟩
      ∧ ¬DepositInKind 1 m₀.creationDeposit m₀.tokenAddress m₀.creator
          (trace (step sampleExterns) sampleGenesis (sampleDeposits ⟨11⟩)) := by
  refine ⟨_, rfl, rfl, rfl, ?_⟩
  intro h
  have hkind := h.kind ⟨⟨11⟩, currentContractAddress, ⟨2⟩, 500⟩ (by decide)
  exact absurd hkind.1 (by decide)

end PredictIQ.Contract
