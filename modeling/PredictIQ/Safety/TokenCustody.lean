/-
  PredictIQ.Safety.TokenCustody: who gets locked governance tokens back?

  The fallback of `cast_vote` takes governance tokens into custody and adds
  them up under `LockedBalance(market, voter)`; `unlock_tokens` pays that sum
  out.  Neither record says which token it counts: both functions read the
  governance token of the moment.  Custody is kept exactly by the runs in
  which the admin never replaces the token while the voter has some locked.

  `unlock_tokens` is no entrypoint, so it joins the contract's actions here.
-/
import PredictIQ.Safety.VoteTallies

namespace PredictIQ.Contract

open Foundation Tx

variable {X : Externs}

/-! ## §1. The machine with `unlock_tokens`. -/

/-- What can happen, calls of `unlock_tokens` included. -/
inductive CustodyAction where
  | act (a : Action)
  | unlock (env : Env) (voter : Address) (marketId : Nat)

def custodyStep (X : Externs) (w : World) : CustodyAction → World
  | .act a => step X w a
  | .unlock env voter marketId => (commit (unlockTokens voter marketId) env w).2

/-! ## §2. The flows of one voter on one market. -/

/-- The amount of `token` a list of transfers moves from `payer` to `payee`. -/
def amountMoved (token payer payee : Address) (xs : List Transfer) : Int :=
  ((xs.filter fun x => x.token = token ∧ x.payer = payer ∧ x.payee = payee).map (·.amount)).sum

theorem amountMoved_singleton (token token' payer payee : Address) (amount : Int) :
    amountMoved token payer payee [⟨token', payer, payee, amount⟩]
      = if token' = token then amount else 0 := by
  unfold amountMoved
  by_cases h : token' = token <;> simp [h]

/-- The transfers made in a step. -/
def custodyTransfers (t : Transition World CustodyAction) : List Transfer :=
  t.post.transfers.drop t.pre.transfers.length

/-- The `token` a step takes from `v` into the contract, if it is a vote on market `k`. -/
def lockInflow (k : Nat) (v token : Address) (t : Transition World CustodyAction) : Int :=
  match t.act with
  | .act (.call _ (.castVote voter id _ _)) =>
      if voter = v ∧ id = k then
        amountMoved token v currentContractAddress (custodyTransfers t)
      else 0
  | _ => 0

/-- The `token` a step pays back to `v`, if it is an unlock for market `k`. -/
def unlockOutflow (k : Nat) (v token : Address) (t : Transition World CustodyAction) : Int :=
  match t.act with
  | .unlock _ voter id =>
      if voter = v ∧ id = k then
        amountMoved token currentContractAddress v (custodyTransfers t)
      else 0
  | _ => 0

/-- The `token` votes of `v` on market `k` have brought in. -/
def lockedIn (k : Nat) (v token : Address) (history : List (Transition World CustodyAction)) :
    Int :=
  (history.map (lockInflow k v token)).sum

/-- The `token` unlocks have returned to `v` for market `k`. -/
def returnedTo (k : Nat) (v token : Address) (history : List (Transition World CustodyAction)) :
    Int :=
  (history.map (unlockOutflow k v token)).sum

/-- The amount of `token` recorded as locked: the record names no token, and is
read as the governance token. -/
def recordedLock (k : Nat) (v token : Address) (w : World) : Int :=
  if w.admin.governanceToken = some token then w.voting.getLocked k v else 0

theorem lockedIn_concat (k : Nat) (v token : Address)
    (history : List (Transition World CustodyAction)) (t : Transition World CustodyAction) :
    lockedIn k v token (history ++ [t]) = lockedIn k v token history + lockInflow k v token t := by
  simp [lockedIn]

theorem returnedTo_concat (k : Nat) (v token : Address)
    (history : List (Transition World CustodyAction)) (t : Transition World CustodyAction) :
    returnedTo k v token (history ++ [t])
      = returnedTo k v token history + unlockOutflow k v token t := by
  simp [returnedTo]

/-- Every token `v` locked on market `k` is returned or on record, at every
point of the run, and an unlock returns just what is outstanding. -/
structure CustodyKept (X : Externs) (w : World) (k : Nat) (v : Address)
    (as : List CustodyAction) : Prop where
  conserved : ∀ bs cs, as = bs ++ cs → ∀ token,
    lockedIn k v token (trace (custodyStep X) w bs)
      = returnedTo k v token (trace (custodyStep X) w bs)
        + recordedLock k v token (run (custodyStep X) w bs)
  exact : ∀ bs env cs w', as = bs ++ .unlock env v k :: cs →
    unlockTokens v k env (run (custodyStep X) w bs) = (.ok (), w') → ∀ token,
      unlockOutflow k v token ⟨run (custodyStep X) w bs, .unlock env v k, w'⟩
        = lockedIn k v token (trace (custodyStep X) w bs)
          - returnedTo k v token (trace (custodyStep X) w bs)

/-- The admin does not replace the governance token while `v` has some locked. -/
def KeepsLockedToken (k : Nat) (v : Address) (t : Transition World CustodyAction) : Prop :=
  ∀ env token, t.act = .act (.call env (.setGovernanceToken token)) → ByAdmin env t.pre →
    t.pre.admin.governanceToken ≠ some token → t.pre.voting.getLocked k v = 0

/-! ## §3. What one step does to the lock. -/

/-- The flows of a step and the record it leaves balance. -/
def Balances (k : Nat) (v : Address) (t : Transition World CustodyAction) : Prop :=
  ∀ token, recordedLock k v token t.pre + lockInflow k v token t
    = unlockOutflow k v token t + recordedLock k v token t.post

/-- A step that moves none of `v`'s tokens and keeps token and record balances. -/
theorem Balances.of_same {k : Nat} {v : Address} {t : Transition World CustodyAction}
    (hin : ∀ token, lockInflow k v token t = 0) (hout : ∀ token, unlockOutflow k v token t = 0)
    (htoken : t.post.admin.governanceToken = t.pre.admin.governanceToken)
    (hlock : t.post.voting.getLocked k v = t.pre.voting.getLocked k v) : Balances k v t := by
  intro token
  have hrec : recordedLock k v token t.post = recordedLock k v token t.pre := by
    unfold recordedLock
    rw [htoken, hlock]
  rw [hin token, hout token, hrec]
  omega

/-- A step that takes `a` of the governance token in, pays `b` of it out, and
moves the record by as much balances. -/
theorem Balances.of_token {k : Nat} {v g : Address} {a b : Int}
    {t : Transition World CustodyAction} (hpre : t.pre.admin.governanceToken = some g)
    (hpost : t.post.admin.governanceToken = some g)
    (hin : ∀ token, lockInflow k v token t = if g = token then a else 0)
    (hout : ∀ token, unlockOutflow k v token t = if g = token then b else 0)
    (hlock : t.post.voting.getLocked k v = t.pre.voting.getLocked k v + a - b) :
    Balances k v t := by
  intro token
  rw [hin token, hout token]
  unfold recordedLock
  rw [hpre, hpost, hlock]
  by_cases ht : g = token
  · rw [if_pos ht, if_pos ht, if_pos (by rw [ht]), if_pos (by rw [ht])]
    omega
  · have hne : ¬some g = some token := fun h => ht (Option.some.inj h)
    rw [if_neg ht, if_neg ht, if_neg hne, if_neg hne]

theorem custodyTransfers_of_same {t : Transition World CustodyAction}
    (h : t.post.transfers = t.pre.transfers) : custodyTransfers t = [] := by
  unfold custodyTransfers
  rw [h]
  exact List.drop_length

theorem lockInflow_of_same {k : Nat} {v token : Address} {t : Transition World CustodyAction}
    (h : t.post.transfers = t.pre.transfers) : lockInflow k v token t = 0 := by
  unfold lockInflow
  rw [custodyTransfers_of_same h]
  split
  · split <;> rfl
  · rfl

theorem unlockOutflow_of_same {k : Nat} {v token : Address} {t : Transition World CustodyAction}
    (h : t.post.transfers = t.pre.transfers) : unlockOutflow k v token t = 0 := by
  unfold unlockOutflow
  rw [custodyTransfers_of_same h]
  split
  · split <;> rfl
  · rfl

/-- Only votes bring locks in. -/
theorem lockInflow_of_not_vote {k : Nat} {v token : Address} {env : Env} {c : Call} {w w' : World}
    (h : ∀ voter id outcome weight, c ≠ .castVote voter id outcome weight) :
    lockInflow k v token ⟨w, .act (.call env c), w'⟩ = 0 := by
  cases c with
  | castVote voter id outcome weight => exact absurd rfl (h voter id outcome weight)
  | _ => rfl

/-- What a vote does to the locks: nothing, or `weight` more governance tokens. -/
theorem CastVoteEffect.custody {env : Env} {w v w' : World} {voter govToken : Address}
    {id outcome : Nat} {weight : Int} {m : Market} {vote : Vote}
    (h : CastVoteEffect env w voter id outcome weight m govToken v vote w') :
    w'.admin = w.admin ∧
      ((w'.transfers = w.transfers ∧ w'.voting.lockedBalance = w.voting.lockedBalance)
        ∨ (w'.transfers = w.transfers ++ [⟨govToken, voter, currentContractAddress, weight⟩]
          ∧ w'.voting.lockedBalance = w.voting.lockedBalance.insert (id, voter)
              (w.voting.getLocked id voter + weight))) := by
  obtain ⟨ledger, actual, _, hweighed, _⟩ := h.weighed
  have hretract : ∀ old, (w.voting.retract id old).lockedBalance = w.voting.lockedBalance := by
    intro old
    cases old <;> rfl
  rw [h.post]
  cases hweighed with
  | snapshot =>
      refine ⟨rfl, Or.inl ⟨rfl, ?_⟩⟩
      exact hretract _
  | locked =>
      refine ⟨rfl, Or.inr ⟨rfl, ?_⟩⟩
      simp only [VotingStore.record, VotingStore.addTally, VotingStore.lock, VotingStore.getLocked,
        hretract]

/-- A vote balances, for every voter and market. -/
theorem CastVoteEffect.balances {env : Env} {w u w' : World} {voter govToken v : Address}
    {id outcome k : Nat} {weight : Int} {m : Market} {vote : Vote} (call : Env)
    (h : CastVoteEffect env w voter id outcome weight m govToken u vote w') :
    Balances k v ⟨w, .act (.call call (.castVote voter id outcome weight)), w'⟩ := by
  obtain ⟨hadmin, hcases⟩ := h.custody
  have htoken : w'.admin.governanceToken = w.admin.governanceToken := by rw [hadmin]
  rcases hcases with ⟨htr, hlock⟩ | ⟨htr, hlock⟩
  · -- weighed by a snapshot: nothing moved
    refine .of_same (fun _ => lockInflow_of_same htr) (fun _ => rfl) htoken ?_
    unfold VotingStore.getLocked
    rw [hlock]
  · by_cases hkey : voter = v ∧ id = k
    · obtain ⟨rfl, rfl⟩ := hkey
      refine .of_token (a := weight) (b := 0) h.token (htoken.trans h.token) ?_ ?_ ?_
      · intro token
        show (if voter = voter ∧ id = id then
          amountMoved token voter currentContractAddress (w'.transfers.drop w.transfers.length)
          else 0) = _
        rw [if_pos ⟨rfl, rfl⟩, htr, List.drop_left, amountMoved_singleton]
      · intro token
        rw [ite_self]
        rfl
      · -- the record grows by what came in
        show (w'.voting.lockedBalance.lookup (id, voter)).getD 0
          = w.voting.getLocked id voter + weight - 0
        rw [hlock, Store.lookup_insert_eq, if_pos rfl]
        show w.voting.getLocked id voter + weight = _
        omega
    · -- somebody else's lock, or another market's
      refine .of_same (fun _ => if_neg hkey) (fun _ => rfl) htoken ?_
      show (w'.voting.lockedBalance.lookup (k, v)).getD 0 = _
      rw [hlock, Store.lookup_insert_eq, if_neg]
      · rfl
      · intro heq
        obtain ⟨rfl, rfl⟩ := Prod.mk.inj heq
        exact hkey ⟨rfl, rfl⟩

/-- An unlock balances, for every voter and market. -/
theorem balances_of_unlock {env : Env} {w w' : World} {voter v : Address} {id k : Nat} {u : Unit}
    (h : unlockTokens voter id env w = (.ok u, w')) :
    Balances k v ⟨w, .unlock env voter id, w'⟩ := by
  obtain ⟨m, govToken, _, _, _, htoken, _, hw'⟩ := unlockTokens_ok h
  have htr : w'.transfers = w.transfers
      ++ [⟨govToken, currentContractAddress, voter, w.voting.getLocked id voter⟩] := by
    rw [hw']
    rfl
  have hlock : w'.voting.lockedBalance = w.voting.lockedBalance.erase (id, voter) := by rw [hw']
  have htoken' : w'.admin.governanceToken = w.admin.governanceToken := by
    rw [hw']
    rfl
  by_cases hkey : voter = v ∧ id = k
  · obtain ⟨rfl, rfl⟩ := hkey
    refine .of_token (a := 0) (b := w.voting.getLocked id voter) htoken (htoken'.trans htoken)
      ?_ ?_ ?_
    · intro token
      rw [ite_self]
      rfl
    · intro token
      show (if voter = voter ∧ id = id then
        amountMoved token currentContractAddress voter (w'.transfers.drop w.transfers.length)
        else 0) = _
      rw [if_pos ⟨rfl, rfl⟩, htr, List.drop_left, amountMoved_singleton]
    · -- the whole record goes out
      show (w'.voting.lockedBalance.lookup (id, voter)).getD 0
        = w.voting.getLocked id voter + 0 - w.voting.getLocked id voter
      rw [hlock, Store.lookup_erase_eq, if_pos rfl]
      show (0 : Int) = _
      omega
  · refine .of_same (fun _ => rfl) (fun _ => if_neg hkey) htoken' ?_
    show (w'.voting.lockedBalance.lookup (k, v)).getD 0 = _
    rw [hlock, Store.lookup_erase_eq, if_neg]
    · rfl
    · intro heq
      obtain ⟨rfl, rfl⟩ := Prod.mk.inj heq
      exact hkey ⟨rfl, rfl⟩

/-- The governance token is written by its setter alone. -/
theorem Effect.governanceToken {env : Env} {w w' : World} {c : Call} (h : Effect X env w c w') :
    w'.admin.governanceToken = w.admin.governanceToken
      ∨ ∃ token, c = .setGovernanceToken token ∧ ByAdmin env w
          ∧ w' = { w with admin.governanceToken := some token } := by
  cases h with
  | appointed _ a h =>
      cases h with
      | governanceToken token byAdmin => exact Or.inr ⟨token, rfl, byAdmin, rfl⟩
      | _ => exact Or.inl rfl
  | created _ p id _ hc h =>
      obtain ⟨_, _, _, hw⟩ := h.frame
      rw [hw]
      exact Or.inl rfl
  | bet b m fee _ h =>
      obtain ⟨_, hw⟩ := h.frame
      rw [hw]
      exact Or.inl rfl
  | voted voter id outcome weight m ledger br evs _ lookup disputed snapshot frame =>
      obtain ⟨_, _, _, _, rfl⟩ := frame
      exact Or.inl rfl
  | _ => exact Or.inl rfl

/-- Calls that neither vote, set the token nor prune the market leave the lock. -/
theorem balances_of_call {env : Env} {w w' : World} {c : Call} {k : Nat} {v : Address}
    (hsucc : Succeeds X env c w w') (hprune : c ≠ .pruneMarket k)
    (hset : ∀ token, c ≠ .setGovernanceToken token) :
    Balances k v ⟨w, .act (.call env c), w'⟩ := by
  have htoken : w'.admin.governanceToken = w.admin.governanceToken := by
    rcases hsucc.effect.governanceToken with h | ⟨token, hc, _⟩
    · exact h
    · exact absurd hc (hset token)
  by_cases hvote : ∃ voter id outcome weight, c = .castVote voter id outcome weight
  · obtain ⟨voter, id, outcome, weight, rfl⟩ := hvote
    obtain ⟨br, evs, m, govToken, u, vote, heff⟩ := hsucc.votes
    exact heff.balances env
  · have hin : ∀ token, lockInflow k v token ⟨w, .act (.call env c), w'⟩ = 0 := fun token =>
      lockInflow_of_not_vote fun voter id outcome weight hc =>
        hvote ⟨voter, id, outcome, weight, hc⟩
    refine .of_same hin (fun _ => rfl) htoken ?_
    show (w'.voting.lockedBalance.lookup (k, v)).getD 0 = _
    rcases hsucc.effect.voting with hc | ⟨id, n, rfl, hv⟩ | hv
    · exact absurd hc hvote
    · -- another market's locks
      have hne : id ≠ k := fun hid => hprune (by rw [hid])
      rw [hv]
      show ((Store.eraseAll w.voting.lockedBalance _).lookup (k, v)).getD 0 = _
      rw [Store.lookup_eraseAll_of_not_mem]
      · rfl
      · intro hmem
        obtain ⟨_, _, heq⟩ := List.mem_map.mp hmem
        exact hne (Prod.mk.inj heq).1
    · rw [hv]
      rfl

/-- Setting the token balances exactly when it keeps it, or nothing is locked. -/
theorem balances_set_iff {env : Env} {w : World} {token : Address} {k : Nat} {v : Address} :
    Balances k v ⟨w, .act (.call env (.setGovernanceToken token)),
        { w with admin.governanceToken := some token }⟩
      ↔ w.admin.governanceToken = some token ∨ w.voting.getLocked k v = 0 := by
  constructor
  · intro h
    by_contra hnot
    obtain ⟨hne, hlocked⟩ := not_or.mp hnot
    -- in the new token there was nothing on record, and now there is
    have hbal : (if w.admin.governanceToken = some token then w.voting.getLocked k v else 0) + 0
        = 0 + if some token = some token then w.voting.getLocked k v else 0 := h token
    rw [if_neg hne, if_pos rfl] at hbal
    omega
  · intro h token'
    show (if w.admin.governanceToken = some token' then w.voting.getLocked k v else 0) + 0
      = 0 + if some token = some token' then w.voting.getLocked k v else 0
    rcases h with h | h
    · rw [h]
      omega
    · rw [h, ite_self, ite_self]

/-- A step that changes nothing balances. -/
theorem balances_of_idle {w : World} {a : CustodyAction} {k : Nat} {v : Address}
    {w' : World} (htr : w'.transfers = w.transfers) (hadmin : w'.admin = w.admin)
    (hvoting : w'.voting = w.voting) : Balances k v ⟨w, a, w'⟩ := by
  refine .of_same (fun _ => lockInflow_of_same htr) (fun _ => unlockOutflow_of_same htr) ?_ ?_
  · show w'.admin.governanceToken = _
    rw [hadmin]
  · show w'.voting.getLocked k v = _
    rw [hvoting]

/-- A change of the governance token. -/
theorem balances_of_set_iff {w : World} {env : Env} {token : Address} {k : Nat} {v : Address} :
    Balances k v ⟨w, .act (.call env (.setGovernanceToken token)),
        custodyStep X w (.act (.call env (.setGovernanceToken token)))⟩
      ↔ KeepsLockedToken k v ⟨w, .act (.call env (.setGovernanceToken token)),
          custodyStep X w (.act (.call env (.setGovernanceToken token)))⟩ := by
  by_cases hadm : ByAdmin env w
  · -- the admin's call gets through
    have hpost : custodyStep X w (.act (.call env (.setGovernanceToken token)))
        = { w with admin.governanceToken := some token } :=
      step_of_succeeds ⟨.unit, done_eq_ok.mpr ⟨setGovernanceToken_ok.mpr ⟨hadm, rfl⟩, rfl⟩⟩
    rw [hpost, balances_set_iff]
    constructor
    · intro h env' token' hact _ hnew
      cases hact
      exact h.resolve_left hnew
    · intro h
      by_cases hsame : w.admin.governanceToken = some token
      · exact Or.inl hsame
      · exact Or.inr (h env token rfl hadm hsame)
  · have hpost : custodyStep X w (.act (.call env (.setGovernanceToken token))) = w := by
      refine step_of_not_succeeds fun w' hsucc => ?_
      obtain ⟨r, hr⟩ := hsucc
      exact hadm (setGovernanceToken_ok.mp (done_eq_ok.mp hr).1).1
    rw [hpost]
    refine iff_of_true (balances_of_idle rfl rfl rfl) ?_
    intro env' token' hact hadm'
    cases hact
    exact absurd hadm' hadm

/-- **A step balances exactly when it does not replace the token of a lock.** -/
theorem balances_iff {w : World} {a : CustodyAction} {k : Nat} {v : Address}
    (hprune : ∀ env, a ≠ .act (.call env (.pruneMarket k))) :
    Balances k v ⟨w, a, custodyStep X w a⟩ ↔ KeepsLockedToken k v ⟨w, a, custodyStep X w a⟩ := by
  cases a with
  | unlock env voter id =>
      refine iff_of_true ?_ (fun env token hact => by cases hact)
      rcases commit_state_cases (unlockTokens voter id) env w with hsame | ⟨u, h⟩
      · have hpost : custodyStep X w (.unlock env voter id) = w := hsame
        rw [hpost]
        exact balances_of_idle rfl rfl rfl
      · exact balances_of_unlock h
  | act a =>
      cases a with
      | advance seconds ledgers =>
          exact iff_of_true (balances_of_idle rfl rfl rfl) (fun env token hact => by cases hact)
      | external balances =>
          exact iff_of_true (balances_of_idle rfl rfl rfl) (fun env token hact => by cases hact)
      | call env c =>
          by_cases hset : ∃ token, c = .setGovernanceToken token
          · obtain ⟨token, rfl⟩ := hset
            exact balances_of_set_iff
          · refine iff_of_true ?_ ?_
            · rcases step_call_cases X env c w with hsame | hsucc
              · have hpost : custodyStep X w (.act (.call env c)) = w := hsame
                rw [hpost]
                exact balances_of_idle rfl rfl rfl
              · exact balances_of_call hsucc (fun hc => hprune env (by rw [hc]))
                  (fun token hc => hset ⟨token, hc⟩)
            · intro env' token hact
              cases hact
              exact absurd ⟨token, rfl⟩ hset

/-! ## §4. Runs. -/

/-- Conservation at every point of a run is balance in every step. -/
theorem conserved_iff {w : World} {k : Nat} {v : Address} (h0 : w.voting.getLocked k v = 0)
    (as : List CustodyAction) :
    (∀ bs cs, as = bs ++ cs → ∀ token,
        lockedIn k v token (trace (custodyStep X) w bs)
          = returnedTo k v token (trace (custodyStep X) w bs)
            + recordedLock k v token (run (custodyStep X) w bs))
      ↔ ∀ t ∈ trace (custodyStep X) w as, Balances k v t := by
  constructor
  · intro h t ht token
    obtain ⟨bs, cs, has, hpre, hpost⟩ := mem_trace (custodyStep X) ht
    -- the run before the step, and with it
    have hbefore := h bs (t.act :: cs) has token
    have hafter := h (bs ++ [t.act]) cs (by rw [has, List.append_assoc]; rfl) token
    have ht : (⟨run (custodyStep X) w bs, t.act, custodyStep X (run (custodyStep X) w bs) t.act⟩ :
        Transition World CustodyAction) = t := by
      rw [← hpre, ← hpost]
    rw [trace_concat, run_concat, lockedIn_concat, returnedTo_concat, ht, ← hpre, ← hpost] at hafter
    rw [← hpre] at hbefore
    omega
  · intro h bs cs has
    have hC : ∀ t ∈ trace (custodyStep X) w bs, Balances k v t := by
      intro t ht
      refine h t ?_
      rw [has, trace_append]
      exact List.mem_append_left _ ht
    refine history_invariant (custodyStep X) (fun tr u => ∀ token,
      lockedIn k v token tr = returnedTo k v token tr + recordedLock k v token u)
      (Balances k v) ?_ ?_ bs hC
    · intro token
      unfold recordedLock
      rw [h0, ite_self]
      rfl
    · intro ds a hI hbal token
      have htoken := hI token
      have hstep := hbal token
      dsimp only at hstep
      rw [lockedIn_concat, returnedTo_concat]
      omega

/-- **Custody of locked governance tokens** is kept exactly when the admin never
replaces the governance token while the voter has some locked. -/
theorem lock_custody_iff (X : Externs) (w : World) (k : Nat) (v : Address)
    (as : List CustodyAction) (h0 : w.voting.getLocked k v = 0)
    (hprune : ∀ env, CustodyAction.act (.call env (.pruneMarket k)) ∉ as) :
    CustodyKept X w k v as ↔ ∀ t ∈ trace (custodyStep X) w as, KeepsLockedToken k v t := by
  have hsteps : (∀ t ∈ trace (custodyStep X) w as, Balances k v t)
      ↔ ∀ t ∈ trace (custodyStep X) w as, KeepsLockedToken k v t := by
    refine forall₂_congr fun t ht => ?_
    obtain ⟨bs, cs, has, _, hpost⟩ := mem_trace (custodyStep X) ht
    have hiff := balances_iff (X := X) (w := t.pre) (a := t.act) (k := k) (v := v) ?_
    · rw [← hpost] at hiff
      exact hiff
    · intro env hact
      refine hprune env ?_
      rw [← hact, has]
      exact List.mem_append_right _ List.mem_cons_self
  rw [← hsteps, ← conserved_iff h0]
  constructor
  · intro h
    exact h.conserved
  · intro h
    refine ⟨h, ?_⟩
    intro bs env cs w' has hunlock token
    -- after the unlock nothing is on record, so all that was has gone out
    have hbefore := h bs _ has token
    have hbal := balances_of_unlock (k := k) (v := v) hunlock token
    obtain ⟨m, govToken, _, _, _, _, _, hw'⟩ := unlockTokens_ok hunlock
    have hgone : recordedLock k v token w' = 0 := by
      unfold recordedLock
      have hzero : w'.voting.getLocked k v = 0 := by
        rw [hw']
        show ((AList.erase (k, v) _).lookup (k, v)).getD 0 = _
        rw [Store.lookup_erase_eq, if_pos rfl]
        rfl
      rw [hzero, ite_self]
    have hin : lockInflow k v token ⟨run (custodyStep X) w bs, .unlock env v k, w'⟩ = 0 := rfl
    rw [hin] at hbal
    dsimp only at hbal
    omega

/-- Voter 3 locks 50 and then 20 more; the market is cancelled and, after what
`between` does, the tokens are unlocked. -/
def sampleCustody (between : List CustodyAction) : List CustodyAction :=
  [.act (.call signedByAll (.castVote ⟨3⟩ 1 0 50)),
    .act (.call signedByAll (.castVote ⟨3⟩ 1 1 20)),
    .act (.call signedByAll (.cancelMarketAdmin 1)),
    .act (.advance 200000 0)] ++ between ++ [.unlock signedByAll ⟨3⟩ 1]

theorem lock_custody_sample :
    CustodyKept sampleExterns sampleBallot 1 ⟨3⟩ (sampleCustody []) := by
  refine (lock_custody_iff sampleExterns sampleBallot 1 ⟨3⟩ (sampleCustody []) rfl ?_).mpr ?_
  · intro env
    simp [sampleCustody]
  · intro t ht env token hact
    have hmem := act_mem_of_mem_trace (custodyStep sampleExterns) ht
    rw [hact] at hmem
    simp [sampleCustody] at hmem

/-- The admin names token 12, of which the contract holds enough. -/
def sampleReplacement : List CustodyAction :=
  sampleCustody [.act (.call signedByAll (.setGovernanceToken ⟨12⟩)),
    .act (.external fun _ _ => 1000000)]

/-- **70 of token 11 were locked, and 70 of token 12 come back.** -/
theorem sampleReplacement_other_token :
    ¬CustodyKept sampleExterns sampleBallot 1 ⟨3⟩ sampleReplacement
      ∧ lockedIn 1 ⟨3⟩ ⟨11⟩ (trace (custodyStep sampleExterns) sampleBallot sampleReplacement) = 70
      ∧ returnedTo 1 ⟨3⟩ ⟨11⟩ (trace (custodyStep sampleExterns) sampleBallot sampleReplacement) = 0
      ∧ returnedTo 1 ⟨3⟩ ⟨12⟩ (trace (custodyStep sampleExterns) sampleBallot sampleReplacement)
          = 70 := by
  have hin : lockedIn 1 ⟨3⟩ ⟨11⟩
      (trace (custodyStep sampleExterns) sampleBallot sampleReplacement) = 70 := by decide
  have hout : returnedTo 1 ⟨3⟩ ⟨11⟩
      (trace (custodyStep sampleExterns) sampleBallot sampleReplacement) = 0 := by decide
  refine ⟨?_, hin, hout, by decide⟩
  intro h
  have hkept := h.conserved sampleReplacement [] (List.append_nil _).symm ⟨11⟩
  have hrec : recordedLock 1 ⟨3⟩ ⟨11⟩
      (run (custodyStep sampleExterns) sampleBallot sampleReplacement) = 0 := by decide
  rw [hin, hout, hrec] at hkept
  omega

end PredictIQ.Contract
