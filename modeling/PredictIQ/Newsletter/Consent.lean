/-
  PredictIQ.Newsletter.Consent: what the table says about a subscriber, and
  what the calls so far say.

  `Standing` is the consent of one address, read off the calls alone: its
  latest upsert that could be stored, and whether its token was confirmed in time, the address was
  unsubscribed, or its record was deleted since.  The rows agree with it as
  long as no call meets one of three rows that the columns cannot tell from
  another: a deleted row that is subscribed again, an unsubscribed row whose
  token is still good, and an unsubscribed row that the clean-up takes for one
  that was never confirmed.
-/
import PredictIQ.Newsletter.Subscribers

namespace PredictIQ.Newsletter

open Foundation

/-! ## §1. Consent as the calls give it. -/

/-- One address since its latest upsert, whose token and time it keeps. -/
structure Standing where
  issued : Option (String × Int) := none
  confirmed : Bool := false
  unsubscribed : Bool := false
  deleted : Bool := false

namespace Standing

/-- How a call made at `now` moves the standing of the address `e`.  A record
that is deleted cannot be unsubscribed, and an upsert whose texts do not go
into their columns fails. -/
def after (ttl : UInt64) (e : String) (now : Int) (st : Standing) : Statement → Standing
  | .upsertPending e' source token =>
      if e' = e ∧ areStorable e' source token = true then { issued := some (token, now) } else st
  | .confirmByToken token =>
      match st.issued with
      | some (token', t₀) =>
          if token' = token ∧ now < t₀ + ttl.toNat * 1000000 then { st with confirmed := true } else st
      | none => st
  | .deleteExpiredPending .. => st
  | .unsubscribe e' => if e' = e ∧ st.deleted = false then { st with unsubscribed := true } else st
  | .softDelete e' => if e' = e then { st with deleted := true } else st
  | .gdprDelete e' => if e' = e then {} else st

theorem after_confirmByToken_of_issued {ttl : UInt64} {e token token' : String} {now t₀ : Int} {st : Standing}
    (h : st.issued = some (token', t₀)) : st.after ttl e now (.confirmByToken token)
      = if token' = token ∧ now < t₀ + ttl.toNat * 1000000 then { st with confirmed := true } else st := by
  simp only [after]
  rw [h]

/-- The token of the latest upsert was confirmed, and nothing came after. -/
def Active (st : Standing) : Prop :=
  st.issued.isSome = true ∧ st.confirmed = true ∧ st.unsubscribed = false ∧ st.deleted = false

/-- The latest upsert was never confirmed nor unsubscribed, and is too old to be. -/
def Lapsed (ttl : UInt64) (now : Int) (st : Standing) : Prop :=
  st.confirmed = false ∧ st.unsubscribed = false
    ∧ ∃ token t₀, st.issued = some (token, t₀) ∧ t₀ + ttl.toNat * 1000000 ≤ now

end Standing

/-- The standing of an address after a history. -/
def standing (ttl : UInt64) (e : String) (history : List (Transition System Action)) : Standing :=
  history.foldl (fun st t => st.after ttl e t.post.now t.act.statement) {}

/-! ## §2. Rows that agree with it. -/

/-- A row and the standing of its address: the columns of a row that is not
deleted say what happened to it. -/
structure RowAgrees (r : NewsletterSubscriber) (st : Standing) : Prop where
  issued : ∃ token, st.issued = some (token, r.createdAt)
    ∧ r.confirmationToken = if st.confirmed then none else some token
  deleted : r.deletedAt.isSome = st.deleted
  pending : r.confirmed = false → r.unsubscribedAt = none → st.confirmed = false ∧ st.unsubscribed = false
  live : st.deleted = false → r.unsubscribedAt.isSome = st.unsubscribed
    ∧ r.confirmed = (st.confirmed && !st.unsubscribed)

/-- An address without a row has nothing left to confirm. -/
def Spent (ttl : UInt64) (now : Int) (st : Standing) : Prop :=
  ∀ token t₀, st.issued = some (token, t₀) → st.confirmed = false ∧ t₀ + ttl.toNat * 1000000 ≤ now

def Agrees (ttl : UInt64) (now : Int) (row : Option NewsletterSubscriber) (st : Standing) : Prop :=
  match row with
  | some r => RowAgrees r st
  | none => Spent ttl now st

/-- What the table shows is what the calls say. -/
theorem Agrees.active_iff {ttl : UInt64} {now : Int} {rows : Subscribers} {e : String} {st : Standing}
    (h : Agrees ttl now (rows.lookup e) st) :
    (newsletterGetByEmail e rows).any (·.isActive) = true ↔ st.Active := by
  unfold newsletterGetByEmail Standing.Active
  cases hrow : rows.lookup e with
  | none =>
      rw [hrow] at h
      constructor
      · intro hnone
        cases hnone
      · rintro ⟨hissued, hconf, _⟩
        obtain ⟨⟨token, t₀⟩, hissued⟩ := Option.isSome_iff_exists.mp hissued
        exact absurd (h token t₀ hissued).1 (by simp [hconf])
  | some r =>
      rw [hrow] at h
      obtain ⟨token, hissued, -⟩ := h.issued
      have hdel := h.deleted
      cases hst : st.deleted with
      | true =>
          -- a deleted row is not shown
          rw [hst] at hdel
          simp [Option.filter, ← Option.not_isSome, hdel]
      | false =>
          obtain ⟨hunsub, hconf⟩ := h.live hst
          rw [hst] at hdel
          simp [Option.filter, ← Option.not_isSome, hdel, NewsletterSubscriber.isActive, hissued, hconf, hunsub]

/-- Time passes. -/
theorem Agrees.mono {ttl : UInt64} {now now' : Int} {row : Option NewsletterSubscriber} {st : Standing}
    (h : Agrees ttl now row st) (hle : now ≤ now') : Agrees ttl now' row st := by
  cases row with
  | some r => exact h
  | none =>
      intro token t₀ hissued
      obtain ⟨hconf, hold⟩ := h token t₀ hissued
      exact ⟨hconf, hold.trans hle⟩

/-! ## §3. One call. -/

/-- The time-to-live can be taken from the time of the call. -/
def Fits (ttl : UInt64) (now : Int) : Prop := cutoff now ttl = some (now - ttl.toNat * 1000000)

instance (ttl : UInt64) (now : Int) : Decidable (Fits ttl now) := inferInstanceAs (Decidable (_ = _))

/-- A call meets no row that the columns cannot tell from another. -/
def Sound (ttl : UInt64) (t : Transition System Action) : Prop :=
  match t.act.statement with
  | .upsertPending e _ _ => ∀ r, t.pre.rows.lookup e = some r → r.deletedAt = none
  | .confirmByToken token => Fits ttl t.post.now ∧ ∀ e r, t.pre.rows.lookup e = some r →
      isConfirmable token (t.post.now - ttl.toNat * 1000000) r = true → r.deletedAt = none → r.unsubscribedAt = none
  | .deleteExpiredPending batchSize order => (cutoff t.post.now ttl ≠ none → Fits ttl t.post.now)
      ∧ ∀ e ∈ (expiredPending t.post.now ttl batchSize order t.pre.rows).getD [], ∀ r,
        t.pre.rows.lookup e = some r → r.unsubscribedAt = none
  | .unsubscribe _ | .softDelete _ | .gdprDelete _ => True

section Calls

variable {ttl : UInt64} {now : Int} {rows : Subscribers} {e : String} {st : Standing}

theorem Agrees.upsertPending (h : Agrees ttl now (rows.lookup e) st) (e' source token : String)
    (hlive : ∀ r, rows.lookup e' = some r → r.deletedAt = none) :
    Agrees ttl now (((Statement.upsertPending e' source token).exec ttl now rows).lookup e)
      (st.after ttl e now (.upsertPending e' source token)) := by
  simp only [Statement.exec, Standing.after]
  by_cases hstorable : areStorable e' source token = true
  case neg =>
    -- the statement fails, and moves nothing
    rw [newsletterUpsertPending, if_neg hstorable, if_neg fun hgood => hstorable hgood.2]
    exact h
  rw [newsletterUpsertPending, if_pos hstorable, Option.getD_some, Store.lookup_insert_eq]
  simp only [hstorable, and_true]
  by_cases he : e = e'
  · subst he
    have hdel : ((rows.lookup e).bind (·.deletedAt)) = none := by
      cases hrow : rows.lookup e with
      | none => rfl
      | some r => exact hlive r hrow
    rw [if_pos rfl, if_pos rfl, hdel]
    exact ⟨⟨token, rfl, rfl⟩, rfl, fun _ _ => ⟨rfl, rfl⟩, fun _ => ⟨rfl, rfl⟩⟩
  · rw [if_neg he, if_neg (Ne.symm he)]
    exact h

/-- The row of a pending token is confirmable as long as the token is good. -/
theorem RowAgrees.confirmable_iff {r : NewsletterSubscriber} (h : RowAgrees r st) (ttl : UInt64) (now : Int)
    (token : String) :
    isConfirmable token (now - ttl.toNat * 1000000) r = true ↔ st.confirmed = false ∧ ∃ token' t₀,
      st.issued = some (token', t₀) ∧ token' = token ∧ now < t₀ + ttl.toNat * 1000000 := by
  obtain ⟨token', hissued, htoken⟩ := h.issued
  unfold isConfirmable
  rw [hissued, htoken]
  cases st.confirmed with
  | true => simp
  | false => simp [sub_lt_iff_lt_add]

theorem Agrees.confirmByToken (h : Agrees ttl now (rows.lookup e) st) (token : String)
    (hfits : Fits ttl now) (hsub : ∀ r, rows.lookup e = some r →
      isConfirmable token (now - ttl.toNat * 1000000) r = true → r.deletedAt = none → r.unsubscribedAt = none) :
    Agrees ttl now (((Statement.confirmByToken token).exec ttl now rows).lookup e)
      (st.after ttl e now (.confirmByToken token)) := by
  rw [lookup_confirmByToken, hfits]
  cases hrow : rows.lookup e with
  | none =>
      rw [hrow] at h
      have hspent : Spent ttl now st := h
      rcases Option.eq_none_or_eq_some st.issued with hissued | ⟨⟨token', t₀⟩, hissued⟩
      · simp only [Standing.after]
        rw [hissued]
        exact hspent
      · -- a token without a row is too old
        have hold := (hspent token' t₀ hissued).2
        rw [Standing.after_confirmByToken_of_issued hissued, if_neg fun hgood => absurd hgood.2 (not_lt.mpr hold)]
        exact hspent
  | some r =>
      rw [hrow] at h
      have hr : RowAgrees r st := h
      obtain ⟨token', hissued, htoken⟩ := hr.issued
      have hiff := hr.confirmable_iff ttl now token
      show RowAgrees (if isConfirmable token (now - ttl.toNat * 1000000) r then _ else r) _
      rw [Standing.after_confirmByToken_of_issued hissued]
      by_cases hgood : token' = token ∧ now < r.createdAt + ttl.toNat * 1000000
      · rw [if_pos hgood]
        by_cases hconf : st.confirmed = false
        · -- the row is confirmed now
          have hmatch := hiff.mpr ⟨hconf, token', r.createdAt, hissued, hgood⟩
          rw [if_pos hmatch]
          refine ⟨⟨token', hissued, rfl⟩, hr.deleted, nofun, fun hlive => ?_⟩
          have hdel : r.deletedAt = none := by
            rw [← Option.not_isSome_iff_eq_none, hr.deleted, show st.deleted = false from hlive]
            simp
          have hunsub := (hr.live hlive).1
          rw [hsub r hrow hmatch hdel] at hunsub
          exact ⟨hunsub, by simp [← hunsub]⟩
        · -- it was confirmed before, and its token is gone
          rw [if_neg fun hmatch => hconf (hiff.mp hmatch).1]
          have hsame : { st with confirmed := true } = st := by
            cases st
            simp_all
          rw [hsame]
          exact hr
      · rw [if_neg hgood, if_neg fun hmatch => ?_]
        · exact hr
        · obtain ⟨-, token'', t₀, hissued', hgood'⟩ := hiff.mp hmatch
          rw [hissued] at hissued'
          cases hissued'
          exact hgood hgood'

/-- What the clean-up takes was never confirmed nor unsubscribed. -/
theorem Agrees.lapsed_of_mem_expiredPending (h : Agrees ttl now (rows.lookup e) st) {batchSize : UInt64}
    {order : RowOrder String} (hfits : cutoff now ttl ≠ none → Fits ttl now)
    (he : e ∈ (expiredPending now ttl batchSize order rows).getD [])
    (hsub : ∀ r, rows.lookup e = some r → r.unsubscribedAt = none) : st.Lapsed ttl now := by
  obtain ⟨c, r, hcut, hrow, hconf, hold⟩ := exists_of_mem_expiredPending he
  have hc : c = now - ttl.toNat * 1000000 := by
    have hfits := hfits (by simp [hcut])
    rw [Fits, hcut] at hfits
    exact Option.some.inj hfits
  subst hc
  rw [hrow] at h
  have hr : RowAgrees r st := h
  obtain ⟨token, hissued, -⟩ := hr.issued
  obtain ⟨hstconf, hstunsub⟩ := hr.pending hconf (hsub r hrow)
  exact ⟨hstconf, hstunsub, token, r.createdAt, hissued, by omega⟩

theorem Agrees.deleteExpiredPending (h : Agrees ttl now (rows.lookup e) st) (batchSize : UInt64)
    (order : RowOrder String) (hfits : cutoff now ttl ≠ none → Fits ttl now)
    (hsub : e ∈ (expiredPending now ttl batchSize order rows).getD [] →
      ∀ r, rows.lookup e = some r → r.unsubscribedAt = none) :
    Agrees ttl now (((Statement.deleteExpiredPending batchSize order).exec ttl now rows).lookup e) st := by
  rw [lookup_deleteExpiredPending]
  by_cases he : e ∈ (expiredPending now ttl batchSize order rows).getD []
  · rw [if_pos he]
    obtain ⟨hconf, -, token, t₀, hissued, hold⟩ := h.lapsed_of_mem_expiredPending hfits he (hsub he)
    intro token' t₀' hissued'
    rw [hissued] at hissued'
    cases hissued'
    exact ⟨hconf, hold⟩
  · rw [if_neg he]
    exact h

theorem Agrees.unsubscribe (h : Agrees ttl now (rows.lookup e) st) (e' : String) :
    Agrees ttl now ((newsletterUnsubscribe now e' rows).2.lookup e) (st.after ttl e now (.unsubscribe e')) := by
  simp only [newsletterUnsubscribe, Standing.after]
  rw [lookup_updateByEmail]
  by_cases he : e = e'
  · subst he
    cases hrow : rows.lookup e with
    | none =>
        rw [hrow] at h
        split <;> exact h
    | some r =>
        rw [hrow] at h
        have hr : RowAgrees r st := h
        have hlive : r.deletedAt = none ↔ st.deleted = false := by
          rw [← hr.deleted, ← Option.not_isSome_iff_eq_none, Bool.not_eq_true]
        show RowAgrees (if e = e ∧ r.deletedAt = none then _ else r) _
        simp only [true_and, hlive]
        split
        · rename_i hst
          exact ⟨hr.issued, hr.deleted, (fun _ hnone => by cases hnone), fun _ => ⟨rfl, by simp⟩⟩
        · exact hr
  · have hne : ¬e' = e := Ne.symm he
    simpa [he, hne] using h

theorem Agrees.softDelete (h : Agrees ttl now (rows.lookup e) st) (e' : String) :
    Agrees ttl now ((newsletterSoftDelete now e' rows).2.lookup e) (st.after ttl e now (.softDelete e')) := by
  simp only [newsletterSoftDelete, Standing.after]
  rw [lookup_updateByEmail]
  by_cases he : e = e'
  · subst he
    cases hrow : rows.lookup e with
    | none =>
        rw [hrow] at h
        rw [if_pos rfl]
        exact h
    | some r =>
        rw [hrow] at h
        have hr : RowAgrees r st := h
        rw [if_pos rfl]
        show RowAgrees (if e = e ∧ r.deletedAt = none then _ else r) _
        have hdel : ∀ at' : Option Int, at'.isSome = true →
            RowAgrees { r with deletedAt := at' } { st with deleted := true } :=
          fun at' hat => ⟨hr.issued, hat, hr.pending, nofun⟩
        split
        · exact hdel _ rfl
        · rename_i hold
          exact hdel r.deletedAt (by simpa [Option.isSome_iff_ne_none] using hold)
  · have hne : ¬e' = e := Ne.symm he
    simpa [he, hne] using h

theorem Agrees.gdprDelete (h : Agrees ttl now (rows.lookup e) st) (e' : String) :
    Agrees ttl now ((newsletterGdprDelete e' rows).2.lookup e) (st.after ttl e now (.gdprDelete e')) := by
  simp only [newsletterGdprDelete, Standing.after]
  rw [Store.lookup_erase_eq]
  by_cases he : e = e'
  · subst he
    rw [if_pos rfl, if_pos rfl]
    intro token t₀ hissued
    cases hissued
  · rw [if_neg he, if_neg (Ne.symm he)]
    exact h

end Calls

/-! ## §4. Every run. -/

/-- **One call.** -/
theorem Agrees.step {ttl : UInt64} {s : System} {a : Action} {e : String} {st : Standing}
    (h : Agrees ttl s.now (s.rows.lookup e) st) (hsound : Sound ttl ⟨s, a, s.step ttl a⟩) :
    Agrees ttl (s.step ttl a).now ((s.step ttl a).rows.lookup e)
      (st.after ttl e (s.step ttl a).now a.statement) := by
  obtain ⟨elapsed, statement⟩ := a
  have h' : Agrees ttl (s.now + elapsed) (s.rows.lookup e) st := h.mono (by omega)
  cases statement with
  | upsertPending e' source token => exact h'.upsertPending e' source token hsound
  | confirmByToken token => exact h'.confirmByToken token hsound.1 (hsound.2 e)
  | deleteExpiredPending batchSize order =>
      exact h'.deleteExpiredPending batchSize order hsound.1 (hsound.2 e)
  | unsubscribe e' => exact h'.unsubscribe e'
  | softDelete e' => exact h'.softDelete e'
  | gdprDelete e' => exact h'.gdprDelete e'

/-- **All runs of sound calls.** -/
theorem agrees_run {ttl : UInt64} {start : Int} {as : List Action}
    (h : ∀ t ∈ trace (System.step ttl) (.initial start) as, Sound ttl t) (e : String) :
    Agrees ttl (run (System.step ttl) (.initial start) as).now
      ((run (System.step ttl) (.initial start) as).rows.lookup e)
      (standing ttl e (trace (System.step ttl) (.initial start) as)) := by
  refine history_invariant (System.step ttl)
    (fun history s => Agrees ttl s.now (s.rows.lookup e) (standing ttl e history)) (Sound ttl) ?_ ?_ as h
  · intro token t₀ hissued
    cases hissued
  · intro as a hagrees hsound
    unfold standing
    rw [List.foldl_append]
    exact hagrees.step hsound

/-- The call `a` is the clean-up. -/
def Action.isCleanUp (a : Action) : Prop := ∃ batchSize order, a.statement = .deleteExpiredPending batchSize order

/-- Newsletter consent: the table shows an active subscriber exactly where the
calls say so, and every row that the clean-up takes away has lapsed. -/
def ConsentKept (ttl : UInt64) (start : Int) (as : List Action) : Prop :=
  (∀ e, (newsletterGetByEmail e (run (System.step ttl) (.initial start) as).rows).any (·.isActive) = true
    ↔ (standing ttl e (trace (System.step ttl) (.initial start) as)).Active)
  ∧ ∀ bs a, bs ++ [a] <+: as → a.isCleanUp → ∀ e,
    (run (System.step ttl) (.initial start) bs).rows.lookup e ≠ none →
    (run (System.step ttl) (.initial start) (bs ++ [a])).rows.lookup e = none →
    (standing ttl e (trace (System.step ttl) (.initial start) bs)).Lapsed ttl
      (run (System.step ttl) (.initial start) (bs ++ [a])).now

/-- The consent of every address is kept in every run of sound calls. -/
theorem consent_kept {ttl : UInt64} {start : Int} {as : List Action}
    (h : ∀ t ∈ trace (System.step ttl) (.initial start) as, Sound ttl t) : ConsentKept ttl start as := by
  constructor
  · intro e
    exact (agrees_run h e).active_iff
  · intro bs a hpre hclean e hrow hgone
    have htrace := fun t ht => h t (mem_trace_of_isPrefix (System.step ttl) hpre ht)
    rw [trace_concat] at htrace
    rw [run_concat] at hgone ⊢
    have hsound := htrace _ (List.mem_append_right _ List.mem_cons_self)
    have hagrees := agrees_run (fun t ht => htrace t (List.mem_append_left _ ht)) e
    obtain ⟨batchSize, order, hstatement⟩ := hclean
    obtain ⟨elapsed, statement⟩ := a
    obtain rfl : statement = .deleteExpiredPending batchSize order := hstatement
    -- the row was there and is gone, so the clean-up selected it
    have hgone' := (lookup_deleteExpiredPending batchSize order).symm.trans hgone
    split at hgone'
    · rename_i hmem
      exact (hagrees.mono (by simp [System.step])).lapsed_of_mem_expiredPending hsound.1 hmem (hsound.2 e hmem)
    · exact absurd hgone' hrow

def sampleSubscribe (elapsed : Nat) (token : String) : Action :=
  ⟨elapsed, .upsertPending "user@example.com" "direct" token⟩

theorem consent_kept_sample : ConsentKept 86400 0
    [sampleSubscribe 0 "token-1", ⟨1, .confirmByToken "token-1"⟩, ⟨1, .unsubscribe "user@example.com"⟩] := by
  refine consent_kept fun t ht => ?_
  rcases List.mem_cons.mp ht with rfl | ht
  · intro r hr
    cases hr
  rcases List.mem_cons.mp ht with rfl | ht
  · refine ⟨by decide +kernel, fun e r hr _ _ => ?_⟩
    -- there is one row, and it was never unsubscribed
    have hrow := (Store.lookup_insert_eq ..).symm.trans hr
    split at hrow
    · rw [← Option.some.inj hrow]
    · cases hrow
  rcases List.mem_cons.mp ht with rfl | ht
  · trivial
  · cases ht

/-- An address subscribes and confirms; its record is deleted softly; it
subscribes and confirms again, and is not shown. -/
def sampleReturn : List Action :=
  [sampleSubscribe 0 "token-1", ⟨1, .confirmByToken "token-1"⟩, ⟨1, .softDelete "user@example.com"⟩,
    sampleSubscribe 1 "token-2", ⟨1, .confirmByToken "token-2"⟩]

/-- An address subscribes and unsubscribes; the old link makes it active. -/
def sampleOldLink : List Action :=
  [sampleSubscribe 0 "token-1", ⟨1, .unsubscribe "user@example.com"⟩, ⟨1, .confirmByToken "token-1"⟩]

/-- An address confirms and unsubscribes; a day later its record is gone. -/
def sampleForgotten : List Action :=
  [sampleSubscribe 0 "token-1", ⟨1, .confirmByToken "token-1"⟩, ⟨1, .unsubscribe "user@example.com"⟩,
    ⟨86400000000, .deleteExpiredPending 100 (.asStored _)⟩]

/-- Each of the three rows that look like another breaks the consent. -/
theorem consent_broken : ¬ConsentKept 86400 0 sampleReturn ∧ ¬ConsentKept 86400 0 sampleOldLink
    ∧ ¬ConsentKept 86400 0 sampleForgotten := by
  refine ⟨fun h => ?_, fun h => ?_, fun h => ?_⟩
  · have hshown := (h.1 "user@example.com").mpr ⟨by decide +kernel, by decide +kernel, by decide +kernel, by decide +kernel⟩
    exact absurd hshown (by decide +kernel)
  · have hactive := (h.1 "user@example.com").mp (by decide +kernel)
    exact absurd hactive.2.2.1 (by decide +kernel)
  · have hlapsed := h.2 (sampleForgotten.take 3) ⟨86400000000, .deleteExpiredPending 100 (.asStored _)⟩
      ⟨[], rfl⟩ ⟨_, _, rfl⟩ "user@example.com" (by decide +kernel) (by decide +kernel)
    exact absurd hlapsed.1 (by decide +kernel)

end PredictIQ.Newsletter
