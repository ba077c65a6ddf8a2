/-
  PredictIQ.Safety.FallbackLocks: is what a voter has locked what the vote weighs?

  With a governance token that has no `balance_at`, a vote locks the weight it
  names.  `LockedBalance` adds it to what was locked before, while
  `LockedTokens` and the vote are overwritten; nothing gives the old lock
  back.  The three agree exactly as long as nobody revises a vote.
-/
import PredictIQ.Safety.VoteTallies

namespace PredictIQ.Contract

open Foundation Tx

variable {X : Externs}

/-! ## §1. The weight behind a recorded vote. -/

/-- The weight named by a `cast_vote` of `a` on market `k` that goes through. -/
def castWeight (X : Externs) (k : Nat) (a : Address) (t : Transition World Action) : Option Int :=
  match t.act with
  | .call env (.castVote voter id outcome weight) =>
      if voter = a ∧ id = k ∧ (exec X (.castVote voter id outcome weight) env t.pre).1.isOk = true then some weight
      else none
  | _ => none

/-- The weight behind the recorded vote of `a`: that of the last one that went through. -/
def rawWeight (X : Externs) (k : Nat) (history : List (Transition World Action)) (a : Address) : Option Int :=
  history.foldl (fun last t => (castWeight X k a t).or last) none

theorem rawWeight_concat (X : Externs) (k : Nat) (history : List (Transition World Action))
    (t : Transition World Action) (a : Address) :
    rawWeight X k (history ++ [t]) a = (castWeight X k a t).or (rawWeight X k history a) := by
  unfold rawWeight
  rw [List.foldl_append]
  rfl

theorem exec_isOk_iff {env : Env} {c : Call} {w : World} :
    (exec X c env w).1.isOk = true ↔ ∃ w', Succeeds X env c w w' := by
  unfold Succeeds
  rcases exec X c env w with ⟨_ | r, w'⟩
  · simp [Except.isOk, Except.toBool]
  · simp [Except.isOk, Except.toBool]

theorem succeeds_of_isOk {env : Env} {c : Call} {w : World} (h : (exec X c env w).1.isOk = true) :
    Succeeds X env c w (step X w (.call env c)) := by
  obtain ⟨w', hsucc⟩ := exec_isOk_iff.mp h
  rw [step_of_succeeds hsucc]
  exact hsucc

theorem castWeight_eq_some {k : Nat} {a : Address} {t : Transition World Action} {weight : Int} :
    castWeight X k a t = some weight
      ↔ ∃ env outcome w', t.act = .call env (.castVote a k outcome weight)
        ∧ Succeeds X env (.castVote a k outcome weight) t.pre w' := by
  unfold castWeight
  constructor
  · intro h
    split at h
    · rename_i env voter id outcome weight' hact
      split at h
      · rename_i hcast
        obtain ⟨rfl, rfl, hok⟩ := hcast
        obtain rfl := Option.some.inj h
        obtain ⟨w', hsucc⟩ := exec_isOk_iff.mp hok
        exact ⟨env, outcome, w', hact, hsucc⟩
      · cases h
    · cases h
  · intro h
    obtain ⟨env, outcome, w', hact, hsucc⟩ := h
    simp only [hact, true_and]
    exact if_pos (exec_isOk_iff.mpr ⟨w', hsucc⟩)

/-! ## §2. One market in the voting state. -/

/-- The two voting states agree on all that is stored for market `k`. -/
structure SameOn (k : Nat) (s s' : VotingStore) : Prop where
  vote : ∀ a, s'.vote.lookup (k, a) = s.vote.lookup (k, a)
  lockedTokens : ∀ a, s'.lockedTokens.lookup (k, a) = s.lockedTokens.lookup (k, a)
  lockedBalance : ∀ a, s'.lockedBalance.lookup (k, a) = s.lockedBalance.lookup (k, a)
  voteTally : ∀ o, s'.voteTally.lookup (k, o) = s.voteTally.lookup (k, o)
  disputeVoters : s'.disputeVoters.lookup k = s.disputeVoters.lookup k

section SameOn

variable {k id : Nat} {s s' s'' : VotingStore}

theorem SameOn.refl (k : Nat) (s : VotingStore) : SameOn k s s :=
  ⟨fun _ => rfl, fun _ => rfl, fun _ => rfl, fun _ => rfl, rfl⟩

theorem SameOn.trans (h : SameOn k s s') (h' : SameOn k s' s'') : SameOn k s s'' where
  vote a := (h'.vote a).trans (h.vote a)
  lockedTokens a := (h'.lockedTokens a).trans (h.lockedTokens a)
  lockedBalance a := (h'.lockedBalance a).trans (h.lockedBalance a)
  voteTally o := (h'.voteTally o).trans (h.voteTally o)
  disputeVoters := h'.disputeVoters.trans h.disputeVoters

/-- A write under another market's key is not seen. -/
theorem lookup_insert_other {α β : Type} [DecidableEq α] (t : Store (Nat × α) β) (hne : id ≠ k) (a b : α) (x : β) :
    (t.insert (id, b) x).lookup (k, a) = t.lookup (k, a) := by
  rw [Store.lookup_insert_eq, if_neg]
  intro hkey
  exact hne (Prod.mk.inj hkey).1.symm

/-- Nor is a removal. -/
theorem lookup_eraseAll_other {α β γ : Type} [DecidableEq α] (t : Store (Nat × α) β) (hne : id ≠ k) (a : α)
    (xs : List γ) (f : γ → α) : (Store.eraseAll t (xs.map fun x => (id, f x))).lookup (k, a) = t.lookup (k, a) := by
  refine Store.lookup_eraseAll_of_not_mem fun hmem => ?_
  obtain ⟨x, -, hkey⟩ := List.mem_map.mp hmem
  exact hne (Prod.mk.inj hkey).1

theorem VotingStore.addTally_sameOn (s : VotingStore) (hne : id ≠ k) (o : Nat) (weight : Int) :
    SameOn k s (s.addTally id o weight) :=
  { SameOn.refl k s with voteTally := fun _ => lookup_insert_other _ hne _ _ _ }

theorem VotingStore.retract_sameOn (s : VotingStore) (hne : id ≠ k) (old : Option Vote) :
    SameOn k s (s.retract id old) := by
  cases old with
  | none => exact .refl k s
  | some old => exact s.addTally_sameOn hne _ _

theorem VotingStore.lock_sameOn (s : VotingStore) (hne : id ≠ k) (voter : Address) (weight : Int) (unlockTime : Nat) :
    SameOn k s (s.lock id voter weight unlockTime) :=
  { SameOn.refl k s with
    lockedTokens := fun _ => lookup_insert_other _ hne _ _ _
    lockedBalance := fun _ => lookup_insert_other _ hne _ _ _ }

theorem VotingStore.record_sameOn (s : VotingStore) (vote : Vote) (isFirst : Bool) (hne : vote.marketId ≠ k) :
    SameOn k s (s.record vote isFirst) := by
  refine SameOn.trans ?_ (VotingStore.addTally_sameOn _ hne _ _)
  refine { SameOn.refl k s with vote := fun _ => lookup_insert_other _ hne _ _ _, disputeVoters := ?_ }
  show (if isFirst = true then _ else s.disputeVoters).lookup k = _
  split
  · rw [Store.lookup_insert_eq, if_neg hne.symm]
  · rfl

/-- Pruning a market leaves the others alone. -/
theorem VotingStore.prune_sameOn (s : VotingStore) (hne : id ≠ k) (n : Nat) : SameOn k s (s.prune id n) where
  vote a := lookup_eraseAll_other _ hne a _ _
  lockedTokens a := lookup_eraseAll_other _ hne a _ _
  lockedBalance a := lookup_eraseAll_other _ hne a _ _
  voteTally o := lookup_eraseAll_other _ hne o _ _
  disputeVoters := by
    show (s.disputeVoters.erase id).lookup k = _
    rw [Store.lookup_erase_eq, if_neg hne.symm]

end SameOn

/-! ## §3. What a vote writes. -/

/-- Nothing weighs nothing, in any number of decimals. -/
theorem normalizeWeight_zero {tokenDecimals : Nat} {normalized : Int} (h : normalizeWeight 0 tokenDecimals = some normalized) :
    normalized = 0 := by
  unfold normalizeWeight saturatingMul at h
  split at h
  · obtain rfl := Option.some.inj h
    rw [zero_mul]
    decide
  · split at h
    · obtain ⟨scale, -, rfl⟩ := Option.map_eq_some_iff.mp h
      exact Int.zero_tdiv scale
    · exact (Option.some.inj h).symm

section Vote

variable {env : Env} {w v w' : World} {voter govToken : Address} {id outcome k : Nat} {weight : Int} {m : Market}
  {vote : Vote}

theorem CastVoteEffect.vote_table (h : CastVoteEffect env w voter id outcome weight m govToken v vote w') :
    w'.voting.vote = w.voting.vote.insert (id, voter) vote := by
  obtain ⟨ledger, actual, -, hweighed, -⟩ := h.weighed
  obtain ⟨hvote, -, -⟩ := hweighed.tables
  obtain ⟨rfl, rfl, -⟩ := h.vote_eq
  have hretract : (w.voting.retract vote.marketId (w.voting.vote.lookup (vote.marketId, vote.voter))).vote
      = w.voting.vote := by
    cases w.voting.vote.lookup (vote.marketId, vote.voter) <;> rfl
  rw [h.post]
  show v.voting.vote.insert _ _ = _
  rw [hvote]
  show (w.voting.retract _ _).vote.insert _ _ = _
  rw [hretract]

/-- A vote that was weighed by its balance locks nothing; the other locks the
weight it names on top of what the voter has locked. -/
theorem CastVoteEffect.locks (h : CastVoteEffect env w voter id outcome weight m govToken v vote w') :
    (w'.voting.lockedBalance = w.voting.lockedBalance ∧ w'.voting.lockedTokens = w.voting.lockedTokens
        ∧ ∃ ledger, env.balanceAt govToken voter ledger ≠ none)
      ∨ (weight ≠ 0
        ∧ w'.voting.lockedBalance
          = w.voting.lockedBalance.insert (id, voter) (w.voting.getLocked id voter + weight)
        ∧ ∃ unlockTime, w'.voting.lockedTokens
          = w.voting.lockedTokens.insert (id, voter) ⟨voter, id, weight, unlockTime⟩) := by
  obtain ⟨ledger, actual, -, hweighed, hnorm⟩ := h.weighed
  have hbalance : (w.voting.retract id (w.voting.vote.lookup (id, voter))).lockedBalance = w.voting.lockedBalance := by
    cases w.voting.vote.lookup (id, voter) <;> rfl
  have htokens : (w.voting.retract id (w.voting.vote.lookup (id, voter))).lockedTokens = w.voting.lockedTokens := by
    cases w.voting.vote.lookup (id, voter) <;> rfl
  cases hweighed with
  | snapshot _ answer =>
      refine Or.inl ⟨?_, ?_, ledger, ?_⟩
      · rw [h.post]
        exact hbalance
      · rw [h.post]
        exact htokens
      · rw [answer]
        exact Option.some_ne_none _
  | locked noAnswer auth funded =>
      refine Or.inr ⟨?_, ?_, m.resolutionDeadline, ?_⟩
      · -- a weight of zero normalizes to zero
        rintro rfl
        exact h.weight_ne_zero (normalizeWeight_zero hnorm)
      · rw [h.post]
        show (w.voting.retract _ _).lockedBalance.insert (id, voter)
          (((w.voting.retract _ _).lockedBalance.lookup (id, voter)).getD 0 + weight) = _
        rw [hbalance]
        rfl
      · rw [h.post]
        show (w.voting.retract _ _).lockedTokens.insert (id, voter) _ = _
        rw [htokens]

end Vote

/-! ## §4. One step. -/

/-- A vote on one market leaves the others alone. -/
theorem CastVoteEffect.sameOn {env : Env} {w v w' : World} {voter govToken : Address} {id outcome k : Nat} {weight : Int}
    {m : Market} {vote : Vote} (h : CastVoteEffect env w voter id outcome weight m govToken v vote w') (hne : id ≠ k) :
    SameOn k w.voting w'.voting := by
  obtain ⟨ledger, actual, -, hweighed, -⟩ := h.weighed
  have hretract := w.voting.retract_sameOn hne (w.voting.vote.lookup (id, voter))
  have hweigh : SameOn k w.voting v.voting := by
    cases hweighed with
    | snapshot => exact hretract
    | locked => exact hretract.trans (VotingStore.lock_sameOn _ hne _ _ _)
  have hvote : vote.marketId ≠ k := by
    rw [h.vote_eq.1]
    exact hne
  rw [h.post]
  exact hweigh.trans (v.voting.record_sameOn vote _ hvote)

/-- A step is a vote on market `k` that goes through, or it leaves what is stored
for that market alone. -/
theorem step_votes_cases (k : Nat) (w : World) (a : Action) (hprune : ∀ env, a ≠ .call env (.pruneMarket k)) :
    (∃ env voter outcome weight, a = .call env (.castVote voter k outcome weight)
        ∧ Succeeds X env (.castVote voter k outcome weight) w (step X w a))
      ∨ (SameOn k w.voting (step X w a).voting ∧ ∀ b, castWeight X k b ⟨w, a, step X w a⟩ = none) := by
  by_cases hvote : ∃ env voter outcome weight, a = .call env (.castVote voter k outcome weight)
      ∧ Succeeds X env (.castVote voter k outcome weight) w (step X w a)
  · exact Or.inl hvote
  · refine Or.inr ⟨?_, ?_⟩
    · cases a with
      | call env c =>
          rcases step_call_cases X env c w with hsame | hsucc
          · rw [hsame]
            exact .refl k _
          · rcases hsucc.effect.voting with ⟨voter, id, outcome, weight, rfl⟩ | ⟨id, n, rfl, hv⟩ | hv
            · obtain ⟨br, evs, m, govToken, u, vote, heff⟩ := hsucc.votes
              refine heff.sameOn fun hid => hvote ?_
              subst hid
              exact ⟨env, voter, outcome, weight, rfl, hsucc⟩
            · rw [hv]
              refine w.voting.prune_sameOn (fun hid => hprune env ?_) n
              rw [hid]
            · rw [hv]
              exact .refl k _
      | advance seconds ledgers => exact .refl k _
      | external balances => exact .refl k _
    · intro b
      refine Option.eq_none_iff_forall_ne_some.mpr fun weight hcast => ?_
      obtain ⟨env, outcome, w', hact, hsucc⟩ := castWeight_eq_some.mp hcast
      change a = _ at hact
      subst hact
      refine hvote ⟨env, b, outcome, weight, rfl, ?_⟩
      rw [step_of_succeeds hsucc]
      exact hsucc

/-! ## §5. Runs. -/

/-- For every voter on market `k` the locked balance, the locked tokens and the
weight behind the recorded vote are the same. -/
structure LocksMatch (X : Externs) (k : Nat) (history : List (Transition World Action)) (w : World) : Prop where
  balance : ∀ a, w.voting.lockedBalance.lookup (k, a) = rawWeight X k history a
  tokens : ∀ a, (w.voting.lockedTokens.lookup (k, a)).map (fun locked => locked.amount) = rawWeight X k history a
  recorded : ∀ a, w.voting.vote.lookup (k, a) = none ↔ rawWeight X k history a = none

/-- The governance token that a vote on market `k` meets has no `balance_at`. -/
def FallbackOnly (k : Nat) (t : Transition World Action) : Prop :=
  ∀ env voter outcome weight, t.act = .call env (.castVote voter k outcome weight) →
    ∀ token, t.pre.admin.governanceToken = some token → ∀ ledger, env.balanceAt token voter ledger = none

/-- A vote on market `k` that goes through is its voter's first. -/
def FirstVotes (X : Externs) (k : Nat) (t : Transition World Action) : Prop :=
  ∀ env voter outcome weight, t.act = .call env (.castVote voter k outcome weight) →
    Succeeds X env (.castVote voter k outcome weight) t.pre t.post → t.pre.voting.vote.lookup (k, voter) = none

section Runs

variable {k : Nat} {history : List (Transition World Action)} {v v' : World} {env : Env} {voter : Address}
  {outcome : Nat} {weight : Int}

/-- A vote of `voter` is the last of `voter` and of nobody else. -/
theorem rawWeight_cast (hsucc : Succeeds X env (.castVote voter k outcome weight) v v') (a : Address) :
    rawWeight X k (history ++ [⟨v, .call env (.castVote voter k outcome weight), v'⟩]) a
      = if a = voter then some weight else rawWeight X k history a := by
  rw [rawWeight_concat]
  split
  · rename_i ha
    subst ha
    rw [castWeight_eq_some.mpr ⟨env, outcome, v', rfl, hsucc⟩]
    rfl
  · rename_i ha
    have hnone : castWeight X k a ⟨v, .call env (.castVote voter k outcome weight), v'⟩ = none := by
      refine Option.eq_none_iff_forall_ne_some.mpr fun weight' hcast => ?_
      obtain ⟨env', outcome', _, hact, -⟩ := castWeight_eq_some.mp hcast
      cases hact
      exact ha rfl
    rw [hnone]
    rfl

/-- What a fallback vote leaves: a lock larger by its weight, and a record of it. -/
theorem Succeeds.fallback (hsucc : Succeeds X env (.castVote voter k outcome weight) v v')
    (hfallback : FallbackOnly k ⟨v, .call env (.castVote voter k outcome weight), v'⟩) :
    weight ≠ 0 ∧ v'.voting.lockedBalance = v.voting.lockedBalance.insert (k, voter) (v.voting.getLocked k voter + weight)
      ∧ (∃ unlockTime, v'.voting.lockedTokens = v.voting.lockedTokens.insert (k, voter) ⟨voter, k, weight, unlockTime⟩)
      ∧ ∃ vote, v'.voting.vote = v.voting.vote.insert (k, voter) vote := by
  obtain ⟨br, evs, m, govToken, u, vote, heff⟩ := hsucc.votes
  rcases heff.locks with ⟨-, -, ledger, hanswer⟩ | ⟨hne, hbalance, htokens⟩
  · exact absurd (hfallback env voter outcome weight rfl govToken heff.token ledger) hanswer
  · exact ⟨hne, hbalance, htokens, vote, heff.vote_table⟩

/-- A fallback vote keeps the three equal exactly when it is a first one. -/
theorem LocksMatch.cast_iff (hI : LocksMatch X k history v) (hraw : ∀ a, rawWeight X k history a ≠ some 0)
    (hsucc : Succeeds X env (.castVote voter k outcome weight) v v')
    (hfallback : FallbackOnly k ⟨v, .call env (.castVote voter k outcome weight), v'⟩) :
    LocksMatch X k (history ++ [⟨v, .call env (.castVote voter k outcome weight), v'⟩]) v'
      ↔ v.voting.vote.lookup (k, voter) = none := by
  obtain ⟨-, hbalance, ⟨unlockTime, htokens⟩, vote, hvote⟩ := hsucc.fallback hfallback
  have hold := hI.balance voter
  constructor
  · intro h'
    have hnew := h'.balance voter
    rw [rawWeight_cast hsucc, if_pos rfl, hbalance, Store.lookup_insert_eq, if_pos rfl] at hnew
    have hlocked : v.voting.getLocked k voter + weight = weight := Option.some.inj hnew
    -- what was locked before is the weight of an earlier vote, which is not zero
    rw [hI.recorded voter]
    cases hr : rawWeight X k history voter with
    | none => rfl
    | some r =>
        have hr0 := hraw voter
        rw [hr] at hold hr0
        unfold VotingStore.getLocked at hlocked
        rw [hold] at hlocked
        change r + weight = weight at hlocked
        refine absurd ?_ hr0
        congr 1
        omega
  · intro hfirst
    have hnone : rawWeight X k history voter = none := (hI.recorded voter).mp hfirst
    rw [hnone] at hold
    have hlocked : v.voting.getLocked k voter = 0 := by
      unfold VotingStore.getLocked
      rw [hold]
      rfl
    refine ⟨?_, ?_, ?_⟩
    · intro a
      rw [rawWeight_cast hsucc, hbalance, Store.lookup_insert_eq, hlocked, zero_add]
      simp only [Prod.mk.injEq, true_and, hI.balance a]
    · intro a
      rw [rawWeight_cast hsucc, htokens, Store.lookup_insert_eq, ← hI.tokens a]
      simp only [Prod.mk.injEq, true_and]
      split <;> rfl
    · intro a
      rw [rawWeight_cast hsucc, hvote, Store.lookup_insert_eq]
      simp only [Prod.mk.injEq, true_and]
      split
      · simp
      · exact hI.recorded a

/-- A step that is no vote on the market keeps the three equal. -/
theorem LocksMatch.other (hI : LocksMatch X k history v) {a : Action} (hsame : SameOn k v.voting v'.voting)
    (hcast : ∀ b, castWeight X k b ⟨v, a, v'⟩ = none) : LocksMatch X k (history ++ [⟨v, a, v'⟩]) v' := by
  have hraw : rawWeight X k (history ++ [⟨v, a, v'⟩]) = rawWeight X k history := by
    funext b
    rw [rawWeight_concat, hcast]
    rfl
  refine ⟨?_, ?_, ?_⟩
  · intro b
    rw [hraw, hsame.lockedBalance]
    exact hI.balance b
  · intro b
    rw [hraw, hsame.lockedTokens]
    exact hI.tokens b
  · intro b
    rw [hraw, hsame.vote]
    exact hI.recorded b

/-- No fallback vote weighs zero. -/
theorem rawWeight_concat_ne_zero {t : Transition World Action} (h : ∀ a, rawWeight X k history a ≠ some 0)
    (hfallback : FallbackOnly k t) (a : Address) : rawWeight X k (history ++ [t]) a ≠ some 0 := by
  rw [rawWeight_concat]
  cases hcast : castWeight X k a t with
  | none => exact h a
  | some weight =>
      obtain ⟨env, outcome, w', hact, hsucc⟩ := castWeight_eq_some.mp hcast
      obtain ⟨v, act, v'⟩ := t
      change act = _ at hact
      subst hact
      obtain ⟨hne, -⟩ := hsucc.fallback hfallback
      intro hzero
      exact hne (Option.some.inj hzero)

theorem rawWeight_ne_zero (w : World) (as : List Action) (hfallback : ∀ t ∈ trace (step X) w as, FallbackOnly k t) :
    ∀ a, rawWeight X k (trace (step X) w as) a ≠ some 0 := by
  refine history_invariant (step X) (fun history _ => ∀ a, rawWeight X k history a ≠ some 0) (FallbackOnly k) ?_ ?_
    as hfallback
  · intro a h
    cases h
  · intro bs act h hact
    exact rawWeight_concat_ne_zero h hact

end Runs

/-- A fresh dispute on which nothing is locked. -/
structure FreshLocks (w : World) (k : Nat) : Prop where
  dispute : FreshDispute w k
  balance : ∀ a, w.voting.lockedBalance.lookup (k, a) = none
  tokens : ∀ a, w.voting.lockedTokens.lookup (k, a) = none

/-- **The lock is the vote's weight exactly while nobody votes twice.**  In a run
from a fresh dispute in which the votes on it fall back on locks, locked
balance, locked tokens and the weight behind the recorded vote agree for every
voter in all states, if and only if every vote that goes through is its
voter's first. -/
theorem fallback_locks_iff (X : Externs) (w : World) (k : Nat) (as : List Action) (h0 : FreshLocks w k)
    (hprune : ∀ env, Action.call env (.pruneMarket k) ∉ as)
    (hfallback : ∀ t ∈ trace (step X) w as, FallbackOnly k t) :
    (∀ bs, bs <+: as → LocksMatch X k (trace (step X) w bs) (run (step X) w bs))
      ↔ ∀ t ∈ trace (step X) w as, FirstVotes X k t := by
  constructor
  · intro h t ht env voter outcome weight hact hsucc
    obtain ⟨bs, hbs, hpre, hpost⟩ := prefix_of_mem_trace (step X) ht
    have hbs' : bs <+: as := (List.prefix_append bs _).trans hbs
    have hnext := h _ hbs
    rw [run_concat, trace_concat, hact] at hnext
    have hraw := rawWeight_ne_zero w bs fun t' ht' => hfallback t' (mem_trace_of_isPrefix (step X) hbs' ht')
    have hfall := hfallback t ht
    rw [hpost, run_concat, hact, hpre] at hsucc
    rw [hpre]
    refine ((h bs hbs').cast_iff hraw hsucc ?_).mp hnext
    intro env' voter' outcome' weight' hact' token htoken
    refine hfall env' voter' outcome' weight' (hact.trans hact') token ?_
    rw [hpre]
    exact htoken
  · intro h bs hbs
    refine (history_invariant (step X)
      (fun history v => LocksMatch X k history v ∧ ∀ a, rawWeight X k history a ≠ some 0)
      (fun t => FallbackOnly k t ∧ FirstVotes X k t ∧ ∀ env, t.act ≠ .call env (.pruneMarket k)) ?_ ?_ bs ?_).1
    · refine ⟨⟨h0.balance, ?_, ?_⟩, fun a hzero => by cases hzero⟩
      · intro a
        rw [h0.tokens a]
        rfl
      · intro a
        exact iff_of_true (h0.dispute.noVotes a) rfl
    · intro cs act hJ hC
      obtain ⟨hmatch, hraw⟩ := hJ
      obtain ⟨hfall, hfirst, hnoprune⟩ := hC
      refine ⟨?_, rawWeight_concat_ne_zero hraw hfall⟩
      rcases step_votes_cases (X := X) k (run (step X) w cs) act hnoprune with hvote | ⟨hsame, hcast⟩
      · obtain ⟨env, voter, outcome, weight, rfl, hsucc⟩ := hvote
        exact (hmatch.cast_iff hraw hsucc hfall).mpr (hfirst env voter outcome weight rfl hsucc)
      · exact hmatch.other hsame hcast
    · intro t ht
      have ht' := mem_trace_of_isPrefix (step X) hbs ht
      refine ⟨hfallback t ht', h t ht', fun env hact => hprune env ?_⟩
      exact hact ▸ act_mem_of_mem_trace (step X) ht'

theorem sampleBallot_freshLocks : FreshLocks sampleBallot 1 := by
  refine ⟨⟨⟨_, _, rfl, rfl, rfl⟩, ?_, ?_, rfl⟩, ?_, ?_⟩
  · intro a
    rfl
  · intro o
    rfl
  · intro a
    rfl
  · intro a
    rfl

/-- Two voters, one of whom raises the vote from 70 to 90. -/
def sampleRevision : List Action :=
  [.call signedByAll (.castVote ⟨3⟩ 1 0 50), .call signedByAll (.castVote ⟨4⟩ 1 1 70),
    .call signedByAll (.castVote ⟨4⟩ 1 0 90)]

theorem signedByAll_fallbackOnly (k : Nat) (v v' : World) (c : Call) : FallbackOnly k ⟨v, .call signedByAll c, v'⟩ := by
  intro env voter outcome weight hact token _ ledger
  cases hact
  rfl

theorem sampleRevision_fallback : ∀ t ∈ trace (step sampleExterns) sampleBallot sampleRevision, FallbackOnly 1 t := by
  intro t ht
  have hact : ∃ c, t.act = .call signedByAll c := by
    have hmem := act_mem_of_mem_trace (step sampleExterns) ht
    simp only [sampleRevision, List.mem_cons, List.not_mem_nil, or_false] at hmem
    rcases hmem with h | h | h <;> exact ⟨_, h⟩
  obtain ⟨c, hact⟩ := hact
  obtain ⟨v, act, v'⟩ := t
  change act = _ at hact
  subst hact
  exact signedByAll_fallbackOnly 1 v v' c

theorem fallback_locks_iff_sample :
    (∀ bs, bs <+: sampleRevision →
        LocksMatch sampleExterns 1 (trace (step sampleExterns) sampleBallot bs) (run (step sampleExterns) sampleBallot bs))
      ↔ ∀ t ∈ trace (step sampleExterns) sampleBallot sampleRevision, FirstVotes sampleExterns 1 t :=
  fallback_locks_iff sampleExterns sampleBallot 1 sampleRevision sampleBallot_freshLocks (by simp [sampleRevision])
    sampleRevision_fallback

/-- **160 tokens are locked behind a vote of 90.** -/
theorem sampleRevision_locks_more :
    ¬∀ bs, bs <+: sampleRevision →
      LocksMatch sampleExterns 1 (trace (step sampleExterns) sampleBallot bs) (run (step sampleExterns) sampleBallot bs) := by
  intro h
  have hlast := h _ (List.prefix_refl _)
  have heq := (hlast.balance ⟨4⟩).trans (hlast.tokens ⟨4⟩).symm
  exact absurd heq (by decide +kernel)

end PredictIQ.Contract
