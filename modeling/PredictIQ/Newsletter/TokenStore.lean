/-
  PredictIQ.Newsletter.TokenStore: the in-memory `TokenStore` of `newsletter.rs`
  beside the table it stands for.

  The store keeps pending tokens and confirmed addresses in two maps, the table
  one row for each address.  Both are driven by the same calls at the same
  times, in microseconds, with a time-to-live of `ttl` seconds.  `Mirrored` is
  what is claimed of a call; it is kept as long as the calls are `Mirrorable`.
-/
import PredictIQ.Newsletter.Consent

namespace PredictIQ.Newsletter

open Foundation

/-! ## §1. The store. -/

inductive ConfirmResult
  | confirmed
  | alreadyConfirmed
  | invalidOrExpired
  deriving DecidableEq

structure PendingEntry where
  token : String
  expiresAt : Int

structure TokenStore where
  pending : Store String PendingEntry := ∅
  confirmed : Store String Bool := ∅

def lifetime (ttl : UInt64) : Int := ttl.toNat * 1000000

namespace TokenStore

/-- `Instant::now() + ttl` panics (`none`) past the last instant of the platform. -/
def subscribe (lastInstant now : Int) (ttl : UInt64) (email token : String) (s : TokenStore) : Option TokenStore :=
  if now + lifetime ttl ≤ lastInstant then
    some { s with pending := s.pending.insert email ⟨token, now + lifetime ttl⟩ }
  else none

/-- The pending entries are walked in any order; `none` is the panic of `expect`. -/
def confirm (now : Int) (order : RowOrder String) (token : String) (s : TokenStore) :
    Option (ConfirmResult × TokenStore) :=
  match s.pending.selectWhere order (·.token == token) 1 with
  | [] => if s.confirmed.entries.any (·.2) then some (.alreadyConfirmed, s) else some (.invalidOrExpired, s)
  | email :: _ =>
      (s.pending.lookup email).map fun entry =>
        let s := { s with pending := s.pending.erase email }
        if now > entry.expiresAt then (.invalidOrExpired, s)
        else (.confirmed, { s with confirmed := s.confirmed.insert email true })

def isConfirmed (email : String) (s : TokenStore) : Bool := (s.confirmed.lookup email).getD false

/-- No pending entry has the token. -/
def Unknown (token : String) (s : TokenStore) : Prop := ∀ e entry, s.pending.lookup e = some entry → entry.token ≠ token

/-- **What `confirm` does**: a token that no entry has is answered by what is
confirmed at all; else an entry with the token is removed, and its address
confirmed in time. -/
theorem confirm_spec (now : Int) (order : RowOrder String) (token : String) (s : TokenStore) :
    (s.Unknown token ∧ ∃ r, s.confirm now order token = some (r, s) ∧ r ≠ .confirmed
      ∧ (r = .alreadyConfirmed ↔ ∃ e, s.isConfirmed e = true))
    ∨ ∃ e entry, s.pending.lookup e = some entry ∧ entry.token = token ∧
      s.confirm now order token = some
        (if now > entry.expiresAt then (.invalidOrExpired, { s with pending := s.pending.erase e })
          else (.confirmed, { s with pending := s.pending.erase e, confirmed := s.confirmed.insert e true })) := by
  unfold confirm
  cases hselect : s.pending.selectWhere order (·.token == token) 1 with
  | nil =>
      -- nobody's token: whether anybody at all is confirmed decides the answer
      refine .inl ⟨fun e entry hentry htoken => ?_, ?_⟩
      · have hmatch : (entry.token == token) = true := beq_iff_eq.mpr htoken
        exact Store.selectWhere_ne_nil hentry hmatch Nat.one_pos hselect
      · have hany : s.confirmed.entries.any (·.2) = true ↔ ∃ e, s.isConfirmed e = true := by
          rw [List.any_eq_true]
          constructor
          · rintro ⟨⟨e, v⟩, hmem, hv⟩
            refine ⟨e, ?_⟩
            unfold isConfirmed
            rw [Store.mem_entries.mp hmem]
            exact hv
          · rintro ⟨e, he⟩
            unfold isConfirmed at he
            cases hlookup : s.confirmed.lookup e with
            | none =>
                rw [hlookup] at he
                cases he
            | some v =>
                rw [hlookup] at he
                exact ⟨⟨e, v⟩, Store.mem_entries.mpr hlookup, he⟩
        by_cases h : s.confirmed.entries.any (·.2)
        · exact ⟨.alreadyConfirmed, if_pos h, nofun, iff_of_true rfl (hany.mp h)⟩
        · exact ⟨.invalidOrExpired, if_neg h, nofun, iff_of_false nofun (mt hany.mpr h)⟩
  | cons e rest =>
      have hmem : e ∈ s.pending.selectWhere order (·.token == token) 1 := hselect ▸ List.mem_cons_self
      obtain ⟨entry, hentry, htoken⟩ := Store.exists_of_mem_selectWhere hmem
      refine .inr ⟨e, entry, hentry, beq_iff_eq.mp htoken, ?_⟩
      simp only [hentry, Option.map_some]

end TokenStore

/-! ## §2. The store and the table. -/

/-- A call on both sides. -/
inductive TokenCall
  | subscribe (email source token : String)
  | confirm (token : String) (order : RowOrder String)

/-- A call, made some time after the one before it. -/
structure TokenAction where
  elapsed : Nat
  call : TokenCall

structure Twins where
  now : Int
  store : TokenStore
  rows : Subscribers

def Twins.initial (now : Int) : Twins := ⟨now, {}, ∅⟩

section Twins

variable (lastInstant : Int) (ttl : UInt64)

/-- A call that panics, or a statement that fails, leaves its side alone. -/
def Twins.step (s : Twins) (a : TokenAction) : Twins :=
  let now := s.now + a.elapsed
  match a.call with
  | .subscribe email source token =>
      { now, store := (s.store.subscribe lastInstant now ttl email token).getD s.store,
        rows := (newsletterUpsertPending now email source token s.rows).getD s.rows }
  | .confirm token order =>
      { now, store := ((s.store.confirm now order token).map (·.2)).getD s.store,
        rows := ((newsletterConfirmByToken now token ttl s.rows).map (·.2)).getD s.rows }

/-- What the store answers to a confirmation. -/
def Twins.answer (s : Twins) (now : Int) (order : RowOrder String) (token : String) : Option ConfirmResult :=
  (s.store.confirm now order token).map (·.1)

/-- The statement updates a row. -/
def Twins.updatesRow (s : Twins) (now : Int) (token : String) : Bool :=
  (newsletterConfirmByToken now token ttl s.rows).any (·.1)

/-- The row's `confirmed` column. -/
def confirmedColumn (email : String) (rows : Subscribers) : Bool := (rows.lookup email).any (·.confirmed)

def twinsAfter (start : Int) (as : List TokenAction) : Twins := run (Twins.step lastInstant ttl) (.initial start) as

/-- The token was confirmed in the course of the calls. -/
def ConfirmedIn (start : Int) (as : List TokenAction) (token : String) : Prop :=
  ∃ bs a order, bs ++ [a] <+: as ∧ a.call = .confirm token order
    ∧ (twinsAfter lastInstant ttl start bs).answer ((twinsAfter lastInstant ttl start bs).now + a.elapsed) order token
      = some .confirmed

/-- **The store mirrors the table** in the call `a` after the calls `as`: both
take a subscription, and a confirmation has one outcome. -/
def Mirrored (start : Int) (as : List TokenAction) (a : TokenAction) : Prop :=
  let s := twinsAfter lastInstant ttl start as
  let now := s.now + a.elapsed
  (match a.call with
    | .subscribe email source token => (s.store.subscribe lastInstant now ttl email token).isSome
        ∧ (newsletterUpsertPending now email source token s.rows).isSome
    | .confirm token order => (s.answer now order token = some .confirmed ↔ s.updatesRow ttl now token)
        ∧ (s.answer now order token = some .alreadyConfirmed → ConfirmedIn lastInstant ttl start as token))
    ∧ ∀ email, (twinsAfter lastInstant ttl start (as ++ [a])).store.isConfirmed email
        = confirmedColumn email (twinsAfter lastInstant ttl start (as ++ [a])).rows

/-- No confirmed address subscribes, and only with texts that go into their columns; a pending token is not confirmed in the very
microsecond it expires, nor in time when the database cannot compute the cutoff;
and a token that is not pending was confirmed before, or nobody was. -/
def Mirrorable (start : Int) (as : List TokenAction) (a : TokenAction) : Prop :=
  let s := twinsAfter lastInstant ttl start as
  let now := s.now + a.elapsed
  match a.call with
  | .subscribe email source token =>
      s.store.isConfirmed email = false ∧ now + lifetime ttl ≤ lastInstant ∧ areStorable email source token = true
  | .confirm token _ =>
      (∀ e entry, s.store.pending.lookup e = some entry → entry.token = token → now ≤ entry.expiresAt →
        now ≠ entry.expiresAt ∧ Fits ttl now)
      ∧ (s.store.Unknown token → (∃ e, s.store.isConfirmed e = true) → ConfirmedIn lastInstant ttl start as token)

/-- The subscription that a call makes. -/
def TokenAction.issued (a : TokenAction) : Option (String × String) :=
  match a.call with
  | .subscribe email _ token => some (token, email)
  | .confirm _ _ => none

/-- No two subscriptions have the same token. -/
def FreshTokens (as : List TokenAction) : Prop := ((as.filterMap TokenAction.issued).map (·.1)).Nodup

/-! ## §3. The cutoff. -/

section Cutoff

variable {ttl} {now c : Int} {token : String} {r : NewsletterSubscriber}

/-- The cutoff is at least a lifetime ago; it is later only for a lifetime that
is negative as an `i64`, and then in the future. -/
theorem cutoff_cases (h : cutoff now ttl = some c) : c = now - lifetime ttl ∨ now ≤ c := by
  unfold cutoff at h
  simp only [Option.ite_none_right_eq_some, Option.some.injEq] at h
  obtain ⟨-, rfl⟩ := h
  have hseconds : ttl.toInt64.toInt = if 2 * ttl.toNat < 2 ^ 64 then (ttl.toNat : Int) else ttl.toNat - 2 ^ 64 :=
    BitVec.toInt_eq_toNat_cond ttl.toBitVec
  have hlt := ttl.toNat_lt
  unfold lifetime
  rw [hseconds]
  split
  · exact .inl rfl
  · right
    omega

/-- **A row that is confirmable** has the token, and its lifetime is not over. -/
theorem confirmable_iff (hcreated : r.createdAt ≤ now) :
    (cutoff now ttl).any (isConfirmable token · r) = true
      ↔ r.confirmationToken = some token ∧ now < r.createdAt + lifetime ttl ∧ Fits ttl now := by
  constructor
  · intro h
    cases hc : cutoff now ttl with
    | none =>
        rw [hc] at h
        cases h
    | some c =>
        rw [hc] at h
        obtain ⟨htoken, hlt⟩ := Bool.and_eq_true_iff.mp h
        have hlt := of_decide_eq_true hlt
        rcases cutoff_cases hc with rfl | hfuture
        · exact ⟨beq_iff_eq.mp htoken, by omega, hc⟩
        · omega
  · rintro ⟨htoken, hlt, hfits⟩
    have hfits : cutoff now ttl = some (now - lifetime ttl) := hfits
    rw [hfits]
    refine Bool.and_eq_true_iff.mpr ⟨beq_iff_eq.mpr htoken, decide_eq_true ?_⟩
    omega

end Cutoff

/-! ## §4. The simulation. -/

/-- A token that was issued to one address only. -/
def Functional (issued : List (String × String)) : Prop :=
  ∀ token e e', (token, e) ∈ issued → (token, e') ∈ issued → e = e'

/-- The two sides agree: a pending entry is a row with its token; a row with a
token is a pending entry, unless its lifetime is over and the entry was removed. -/
structure InSync (issued : List (String × String)) (now : Int) (store : TokenStore) (rows : Subscribers) : Prop where
  confirmed : ∀ e, store.isConfirmed e = confirmedColumn e rows
  pending : ∀ e entry, store.pending.lookup e = some entry → ∃ r, rows.lookup e = some r
    ∧ r.confirmationToken = some entry.token ∧ entry.expiresAt = r.createdAt + lifetime ttl
  created_le : ∀ e r, rows.lookup e = some r → r.createdAt ≤ now
  token : ∀ e r token, rows.lookup e = some r → r.confirmationToken = some token → (token, e) ∈ issued
    ∧ (store.pending.lookup e = some ⟨token, r.createdAt + lifetime ttl⟩ ∨ r.createdAt + lifetime ttl < now)

section Simulation

variable {lastInstant ttl} {issued : List (String × String)} {now now' : Int} {store : TokenStore}
  {rows rows' : Subscribers} {e email source token : String} {entry : PendingEntry} {r : NewsletterSubscriber}

theorem inSync_initial : InSync ttl [] now {} ∅ := ⟨fun _ => rfl, nofun, nofun, nofun⟩

theorem InSync.later (h : InSync ttl issued now store rows) (hle : now ≤ now') : InSync ttl issued now' store rows where
  confirmed := h.confirmed
  pending := h.pending
  created_le e r hr := (h.created_le e r hr).trans hle
  token e r token hr htoken := by
    obtain ⟨hissued, hpending | hover⟩ := h.token e r token hr htoken
    · exact ⟨hissued, .inl hpending⟩
    · exact ⟨hissued, .inr (hover.trans_le hle)⟩

/-- What is confirmable is a pending entry with the token, before it expires. -/
theorem InSync.confirmable_iff (h : InSync ttl issued now store rows) (hr : rows.lookup e = some r) :
    (cutoff now ttl).any (isConfirmable token · r) = true ↔ ∃ entry, store.pending.lookup e = some entry
      ∧ entry.token = token ∧ now < entry.expiresAt ∧ Fits ttl now := by
  rw [Newsletter.confirmable_iff (h.created_le e r hr)]
  constructor
  · rintro ⟨htoken, hlt, hfits⟩
    obtain ⟨-, hpending | hover⟩ := h.token e r token hr htoken
    · exact ⟨_, hpending, rfl, hlt, hfits⟩
    · omega
  · rintro ⟨entry, hpending, rfl, hlt, hfits⟩
    obtain ⟨r', hr', htoken, hexpires⟩ := h.pending e entry hpending
    obtain rfl : r = r' := Option.some.inj (hr.symm.trans hr')
    exact ⟨htoken, hexpires ▸ hlt, hfits⟩

/-- **When the statement updates a row.** -/
theorem InSync.updatesRow_iff {s : Twins} (h : InSync ttl issued now s.store s.rows) :
    s.updatesRow ttl now token = true ↔ ∃ e entry, s.store.pending.lookup e = some entry
      ∧ entry.token = token ∧ now < entry.expiresAt ∧ Fits ttl now := by
  have hupdates : s.updatesRow ttl now token = true ↔ ∃ e r, s.rows.lookup e = some r
      ∧ (cutoff now ttl).any (isConfirmable token · r) = true := by
    unfold Twins.updatesRow newsletterConfirmByToken
    cases cutoff now ttl with
    | none => simp
    | some c => simp [Store.countWhere_pos_iff]
  rw [hupdates]
  constructor
  · rintro ⟨e, r, hr, hmatch⟩
    exact ⟨e, (h.confirmable_iff hr).mp hmatch⟩
  · rintro ⟨e, entry, hpending, hentry⟩
    obtain ⟨r, hr, -⟩ := h.pending e entry hpending
    exact ⟨e, r, hr, (h.confirmable_iff hr).mpr ⟨entry, hpending, hentry⟩⟩

/-- No two pending entries have one token. -/
theorem InSync.entry_unique (h : InSync ttl issued now store rows) (hissued : Functional issued) {e' : String}
    {entry' : PendingEntry} (hentry : store.pending.lookup e = some entry)
    (hentry' : store.pending.lookup e' = some entry') (htoken : entry.token = entry'.token) :
    e = e' ∧ entry = entry' := by
  obtain ⟨r, hr, hrow, -⟩ := h.pending e entry hentry
  obtain ⟨r', hr', hrow', -⟩ := h.pending e' entry' hentry'
  have he := hissued entry.token e e' (h.token e r _ hr hrow).1 (htoken ▸ (h.token e' r' _ hr' hrow').1)
  subst he
  exact ⟨rfl, Option.some.inj (hentry.symm.trans hentry')⟩

theorem InSync.subscribe (h : InSync ttl issued now store rows) (hconf : store.isConfirmed email = false)
    (hstore : newsletterUpsertPending now email source token rows = some rows') :
    InSync ttl (issued ++ [(token, email)]) now
      ⟨store.pending.insert email ⟨token, now + lifetime ttl⟩, store.confirmed⟩ rows' := by
  have hrow : ∀ e, rows'.lookup e = if e = email then some ⟨email, source, false, some token, now, none, none,
      (rows.lookup email).bind (·.deletedAt)⟩ else rows.lookup e := fun e => lookup_upsertPending hstore
  have hentry : ∀ e, (store.pending.insert email ⟨token, now + lifetime ttl⟩).lookup e
      = if e = email then some ⟨token, now + lifetime ttl⟩ else store.pending.lookup e := fun e =>
    Store.lookup_insert_eq _ _ _ _
  -- the row of the address is written anew, and those of others stay in step
  constructor
  · intro e
    show store.isConfirmed e = _
    unfold confirmedColumn
    rw [hrow]
    split
    · next he =>
        subst he
        exact hconf
    · exact h.confirmed e
  · intro e entry hlookup
    rw [hrow]
    rw [hentry] at hlookup
    split at hlookup
    · next he =>
        rw [if_pos he]
        cases hlookup
        exact ⟨_, rfl, rfl, rfl⟩
    · next he =>
        rw [if_neg he]
        exact h.pending e entry hlookup
  · intro e r hr
    rw [hrow] at hr
    split at hr
    · cases hr
      exact le_rfl
    · exact h.created_le e r hr
  · intro e r token' hr htoken
    rw [hentry]
    rw [hrow] at hr
    split at hr
    · next he =>
        subst he
        cases hr
        cases htoken
        rw [if_pos rfl]
        exact ⟨List.mem_append_right _ List.mem_cons_self, .inl rfl⟩
    · next he =>
        rw [if_neg he]
        obtain ⟨hissued, hpending⟩ := h.token e r token' hr htoken
        exact ⟨List.mem_append_left _ hissued, hpending⟩

/-- An entry that has expired is removed, and its row left to the clean-up. -/
theorem InSync.expire (h : InSync ttl issued now store rows) (hentry : store.pending.lookup email = some entry)
    (hexpired : now > entry.expiresAt) :
    InSync ttl issued now ⟨store.pending.erase email, store.confirmed⟩ rows where
  confirmed := h.confirmed
  pending e entry' hlookup := by
    rw [Store.lookup_erase_eq] at hlookup
    split at hlookup
    · cases hlookup
    · exact h.pending e entry' hlookup
  created_le := h.created_le
  token e r token hr htoken := by
    obtain ⟨hissued, hpending⟩ := h.token e r token hr htoken
    refine ⟨hissued, ?_⟩
    rw [Store.lookup_erase_eq]
    by_cases he : e = email
    · subst he
      obtain ⟨r', hr', -, hexpires⟩ := h.pending e entry hentry
      obtain rfl : r = r' := Option.some.inj (hr.symm.trans hr')
      exact .inr (by omega)
    · rw [if_neg he]
      exact hpending

/-- What the statement makes of a row. -/
def confirmedRow (now : Int) (r : NewsletterSubscriber) : NewsletterSubscriber :=
  { r with confirmed := true, confirmationToken := none, confirmedAt := some now, unsubscribedAt := none }

/-- A confirmation in time removes the entry, and confirms the address and its row. -/
theorem InSync.confirm (h : InSync ttl issued now store rows) (hrow : rows.lookup email = some r)
    (hrows : ∀ e, rows'.lookup e = if e = email then some (confirmedRow now r) else rows.lookup e) :
    InSync ttl issued now
      ⟨store.pending.erase email, store.confirmed.insert email true⟩ rows' where
  confirmed e := by
    unfold TokenStore.isConfirmed confirmedColumn
    rw [Store.lookup_insert_eq, hrows]
    by_cases he : e = email
    · rw [if_pos he, if_pos he]
      rfl
    · rw [if_neg he, if_neg he]
      exact h.confirmed e
  pending e entry hlookup := by
    rw [Store.lookup_erase_eq] at hlookup
    rw [hrows]
    split at hlookup
    · cases hlookup
    · next he =>
        rw [if_neg he]
        exact h.pending e entry hlookup
  created_le e r' hr := by
    rw [hrows] at hr
    split at hr
    · cases hr
      exact h.created_le email r hrow
    · exact h.created_le e r' hr
  token e r' token hr htoken := by
    rw [Store.lookup_erase_eq]
    rw [hrows] at hr
    split at hr
    · cases hr
      cases htoken
    · next he =>
        rw [if_neg he]
        exact h.token e r' token hr htoken

theorem InSync.congr (h : InSync ttl issued now store rows) (hrows : ∀ e, rows'.lookup e = rows.lookup e) :
    InSync ttl issued now store rows' where
  confirmed e := by
    unfold confirmedColumn
    rw [hrows]
    exact h.confirmed e
  pending e entry hentry := by
    rw [hrows]
    exact h.pending e entry hentry
  created_le e r hr := h.created_le e r (hrows e ▸ hr)
  token e r token hr := h.token e r token (hrows e ▸ hr)

/-- The rows that the statement leaves. -/
def rowsAfter (ttl : UInt64) (now : Int) (token : String) (rows : Subscribers) : Subscribers :=
  (Statement.confirmByToken token).exec ttl now rows

theorem lookup_rowsAfter : (rowsAfter ttl now token rows).lookup e = (rows.lookup e).map fun r =>
    if (cutoff now ttl).any (isConfirmable token · r) then confirmedRow now r else r :=
  lookup_confirmByToken token

/-- Without an entry that is good the statement changes nothing. -/
theorem InSync.lookup_rowsAfter_of_none (h : InSync ttl issued now store rows)
    (hnone : ∀ e entry, store.pending.lookup e = some entry → entry.token = token →
      ¬(now < entry.expiresAt ∧ Fits ttl now))
    (e : String) : (rowsAfter ttl now token rows).lookup e = rows.lookup e := by
  rw [lookup_rowsAfter]
  cases hr : rows.lookup e with
  | none => rfl
  | some r =>
      rw [Option.map_some, if_neg fun hmatch => ?_]
      obtain ⟨entry, hpending, htoken, hgood⟩ := (h.confirmable_iff hr).mp hmatch
      exact hnone e entry hpending htoken hgood

/-- With one it confirms that row alone. -/
theorem InSync.lookup_rowsAfter_of_entry (h : InSync ttl issued now store rows) (hissued : Functional issued)
    (hentry : store.pending.lookup email = some entry) (hr : rows.lookup email = some r)
    (hgood : now < entry.expiresAt ∧ Fits ttl now) (e : String) :
    (rowsAfter ttl now entry.token rows).lookup e = if e = email then some (confirmedRow now r) else rows.lookup e := by
  rw [lookup_rowsAfter]
  by_cases he : e = email
  · subst he
    rw [if_pos rfl, hr, Option.map_some, if_pos ((h.confirmable_iff hr).mpr ⟨entry, hentry, rfl, hgood⟩)]
  · rw [if_neg he]
    cases hr' : rows.lookup e with
    | none => rfl
    | some r' =>
        rw [Option.map_some, if_neg fun hmatch => ?_]
        obtain ⟨entry', hentry', htoken, -⟩ := (h.confirmable_iff hr').mp hmatch
        exact he (h.entry_unique hissued hentry' hentry htoken).1

/-- **Which confirmations are answered alike**, whatever `P` is asked of a token
that the store takes for one confirmed before. -/
theorem InSync.answers_iff {s : Twins} (h : InSync ttl issued now s.store s.rows) (hissued : Functional issued)
    (order : RowOrder String) (token : String) (P : Prop) :
    ((s.answer now order token = some .confirmed ↔ s.updatesRow ttl now token = true)
        ∧ (s.answer now order token = some .alreadyConfirmed → P))
      ↔ (∀ e entry, s.store.pending.lookup e = some entry → entry.token = token → now ≤ entry.expiresAt →
          now ≠ entry.expiresAt ∧ Fits ttl now)
        ∧ (s.store.Unknown token → (∃ e, s.store.isConfirmed e = true) → P) := by
  rw [h.updatesRow_iff]
  unfold Twins.answer
  rcases s.store.confirm_spec now order token with
    ⟨hunknown, r, hconfirm, hne, hr⟩ | ⟨e, entry, hentry, htoken, hconfirm⟩
  · -- no entry has the token: neither side confirms
    have hno : ¬∃ e entry, s.store.pending.lookup e = some entry ∧ entry.token = token ∧ now < entry.expiresAt
        ∧ Fits ttl now := by
      rintro ⟨e, entry, hentry, htoken, -⟩
      exact hunknown e entry hentry htoken
    rw [hconfirm]
    constructor
    · rintro ⟨-, halready⟩
      refine ⟨fun e entry hentry htoken => absurd htoken (hunknown e entry hentry), fun _ hany => halready ?_⟩
      rw [hr.mpr hany]
      rfl
    · rintro ⟨-, hknown⟩
      refine ⟨iff_of_false (fun heq => hne (Option.some.inj heq)) hno, fun heq => ?_⟩
      exact hknown hunknown (hr.mp (Option.some.inj heq))
  · -- the entry with the token is the only one
    have honly : (∃ e entry, s.store.pending.lookup e = some entry ∧ entry.token = token ∧ now < entry.expiresAt
        ∧ Fits ttl now) ↔ now < entry.expiresAt ∧ Fits ttl now := by
      refine ⟨?_, fun hgood => ⟨e, entry, hentry, htoken, hgood⟩⟩
      rintro ⟨e', entry', hentry', htoken', hgood⟩
      obtain ⟨-, rfl⟩ := h.entry_unique hissued hentry hentry' (htoken.trans htoken'.symm)
      exact hgood
    rw [hconfirm, honly]
    constructor
    · rintro ⟨hupdates, -⟩
      refine ⟨fun e' entry' hentry' htoken' hle => ?_, fun hunknown => absurd htoken (hunknown e entry hentry)⟩
      obtain ⟨-, rfl⟩ := h.entry_unique hissued hentry hentry' (htoken.trans htoken'.symm)
      rw [if_neg (not_lt.mpr hle)] at hupdates
      obtain ⟨hlt, hfits⟩ := hupdates.mp rfl
      exact ⟨hlt.ne, hfits⟩
    · rintro ⟨hentries, -⟩
      by_cases hexpired : now > entry.expiresAt
      · rw [if_pos hexpired]
        refine ⟨iff_of_false nofun fun hgood => ?_, nofun⟩
        omega
      · rw [if_neg hexpired]
        obtain ⟨hne, hfits⟩ := hentries e entry hentry htoken (not_lt.mp hexpired)
        exact ⟨iff_of_true rfl ⟨lt_of_le_of_ne (not_lt.mp hexpired) hne, hfits⟩, nofun⟩

end Simulation

/-! ## §5. Runs. -/

section Runs

variable {lastInstant ttl} {start : Int} {as : List TokenAction} {a : TokenAction}

theorem twinsAfter_concat : twinsAfter lastInstant ttl start (as ++ [a])
    = (twinsAfter lastInstant ttl start as).step lastInstant ttl a := run_concat _ _ _ _

/-- The two sides agree after some calls. -/
def SyncedAfter (lastInstant : Int) (ttl : UInt64) (start : Int) (as : List TokenAction) : Prop :=
  let s := twinsAfter lastInstant ttl start as
  InSync ttl (as.filterMap TokenAction.issued) s.now s.store s.rows

theorem FreshTokens.functional {bs : List TokenAction} (h : FreshTokens as) (hbs : bs <+: as) :
    Functional (bs.filterMap TokenAction.issued) := by
  intro token e e' he he'
  have hsub : ∀ p ∈ bs.filterMap TokenAction.issued, p ∈ as.filterMap TokenAction.issued := fun p hp => by
    obtain ⟨b, hb, hissued⟩ := List.mem_filterMap.mp hp
    exact List.mem_filterMap.mpr ⟨b, hbs.subset hb, hissued⟩
  exact (Prod.ext_iff.mp (List.inj_on_of_nodup_map h (hsub _ he) (hsub _ he') rfl)).2

/-- **A mirrorable call keeps the two sides in step.** -/
theorem SyncedAfter.concat (h : SyncedAfter lastInstant ttl start as)
    (hissued : Functional (as.filterMap TokenAction.issued)) (hgood : Mirrorable lastInstant ttl start as a) :
    SyncedAfter lastInstant ttl start (as ++ [a]) := by
  unfold SyncedAfter at h ⊢
  unfold Mirrorable at hgood
  rw [twinsAfter_concat, List.filterMap_append]
  obtain ⟨elapsed, call⟩ := a
  generalize twinsAfter lastInstant ttl start as = s at h hgood ⊢
  have hsync : InSync ttl (as.filterMap TokenAction.issued) (s.now + elapsed) s.store s.rows := h.later (by omega)
  cases call with
  | subscribe email source token =>
      obtain ⟨hconf, hlast, hstorable⟩ := hgood
      simp only [Twins.step, TokenStore.subscribe, if_pos hlast]
      exact hsync.subscribe hconf (by rw [newsletterUpsertPending, if_pos hstorable]; rfl)
  | confirm token order =>
      obtain ⟨hentries, -⟩ := hgood
      show InSync ttl (_ ++ []) _ _ (rowsAfter ttl (s.now + elapsed) token s.rows)
      rw [List.append_nil]
      rcases s.store.confirm_spec (s.now + elapsed) order token with
        ⟨hunknown, r, hconfirm, -⟩ | ⟨e, entry, hentry, htoken, hconfirm⟩
      · -- an unknown token confirms no row
        simp only [Twins.step, hconfirm]
        refine hsync.congr (hsync.lookup_rowsAfter_of_none fun e entry hentry htoken => ?_)
        exact absurd htoken (hunknown e entry hentry)
      · simp only [Twins.step, hconfirm]
        by_cases hexpired : s.now + elapsed > entry.expiresAt
        · -- the store drops an entry that has expired, and the statement passes its row over
          rw [if_pos hexpired]
          refine (hsync.expire hentry hexpired).congr
            (hsync.lookup_rowsAfter_of_none fun e' entry' hentry' htoken' hgood => ?_)
          obtain ⟨-, rfl⟩ := hsync.entry_unique hissued hentry hentry' (htoken.trans htoken'.symm)
          exact absurd hgood.1 (by omega)
        · rw [if_neg hexpired]
          obtain ⟨hne, hfits⟩ := hentries e entry hentry htoken (not_lt.mp hexpired)
          obtain ⟨r, hr, -⟩ := hsync.pending e entry hentry
          subst htoken
          have hlt : s.now + elapsed < entry.expiresAt := lt_of_le_of_ne (not_lt.mp hexpired) hne
          exact hsync.confirm hr (hsync.lookup_rowsAfter_of_entry hissued hentry hr ⟨hlt, hfits⟩)

/-- **Which calls are mirrored**, with both sides in step. -/
theorem SyncedAfter.mirrored_iff (h : SyncedAfter lastInstant ttl start as)
    (hissued : Functional (as.filterMap TokenAction.issued)) :
    Mirrored lastInstant ttl start as a ↔ Mirrorable lastInstant ttl start as a := by
  have hnext : Mirrorable lastInstant ttl start as a → ∀ email,
      (twinsAfter lastInstant ttl start (as ++ [a])).store.isConfirmed email
        = confirmedColumn email (twinsAfter lastInstant ttl start (as ++ [a])).rows := fun hgood =>
    (h.concat hissued hgood).confirmed
  unfold Mirrored
  unfold SyncedAfter at h
  rw [twinsAfter_concat] at hnext ⊢
  unfold Mirrorable at hnext ⊢
  obtain ⟨elapsed, call⟩ := a
  generalize twinsAfter lastInstant ttl start as = s at h hnext ⊢
  have hsync : InSync ttl (as.filterMap TokenAction.issued) (s.now + elapsed) s.store s.rows := h.later (by omega)
  cases call with
  | subscribe email source token =>
      by_cases hlast : s.now + elapsed + lifetime ttl ≤ lastInstant
      · constructor
        · -- the statement clears the column, which the store's set must not contradict
          rintro ⟨⟨-, hstores⟩, hcolumn⟩
          obtain ⟨rows, hstore⟩ := Option.isSome_iff_exists.mp hstores
          refine ⟨?_, hlast, (Option.ite_none_right_eq_some.mp hstore).1⟩
          have hcolumn := hcolumn email
          simp only [Twins.step, TokenStore.subscribe, if_pos hlast, hstore] at hcolumn
          refine (show s.store.isConfirmed email = confirmedColumn email rows from hcolumn).trans ?_
          unfold confirmedColumn
          rw [lookup_upsertPending hstore, if_pos rfl]
          rfl
        · intro hgood
          refine ⟨⟨?_, ?_⟩, hnext hgood⟩
          · simp only [TokenStore.subscribe, if_pos hlast, Option.isSome_some]
          · simp only [newsletterUpsertPending, if_pos hgood.2.2, Option.isSome_some]
      · simp only [TokenStore.subscribe, if_neg hlast]
        exact iff_of_false (fun hm => by cases hm.1.1) fun hgood => hlast hgood.2.1
  | confirm token order =>
      have hanswers := hsync.answers_iff hissued order token (ConfirmedIn lastInstant ttl start as token)
      exact ⟨fun hm => hanswers.mp hm.1, fun hgood => ⟨hanswers.mpr hgood, hnext hgood⟩⟩

/-- **Which histories are mirrored**: with fresh tokens, those whose calls are all mirrorable. -/
theorem mirrored_iff_mirrorable (lastInstant : Int) (ttl : UInt64) (start : Int) (as : List TokenAction)
    (hfresh : FreshTokens as) :
    AtEachPlace (Mirrored lastInstant ttl start) as ↔ AtEachPlace (Mirrorable lastInstant ttl start) as := by
  refine atEachPlace_iff (SyncedAfter lastInstant ttl start) inSync_initial as
    (fun bs a hprefix hsync => hsync.mirrored_iff ?_) fun bs a hprefix hsync => hsync.concat ?_
  · exact hfresh.functional ((List.prefix_append bs [a]).trans hprefix)
  · exact hfresh.functional ((List.prefix_append bs [a]).trans hprefix)

/-- An address subscribes, is confirmed a second later, and subscribes again. -/
def sampleComesBack : List TokenAction :=
  [⟨0, .subscribe "u@x.org" "direct" "tok-1"⟩, ⟨1000000, .confirm "tok-1" (.asStored _)⟩,
    ⟨0, .subscribe "u@x.org" "direct" "tok-2"⟩]

def sampleLastInstant : Int := 9223372036854775807000000

/-- The first two calls are mirrored. -/
theorem mirrored_sample :
    AtEachPlace (Mirrored sampleLastInstant 3600 0) (sampleComesBack.take 2) := by
  refine (mirrored_iff_mirrorable sampleLastInstant 3600 0 (sampleComesBack.take 2) (by unfold FreshTokens; decide)).mpr ?_
  show AtEachPlace _ ([_] ++ [_])
  refine atEachPlace_concat.mpr ⟨atEachPlace_concat.mpr ⟨atEachPlace_nil _, ⟨rfl, by decide⟩⟩, ?_, ?_⟩
  · intro e entry hentry _ _
    have hlookup :=
      (Store.lookup_insert_eq (∅ : Store String PendingEntry) "u@x.org" e ⟨"tok-1", 3600000000⟩).symm.trans hentry
    split at hlookup
    · cases hlookup
      exact ⟨by decide, by decide⟩
    · cases hlookup
  · intro hunknown
    exact absurd rfl (hunknown "u@x.org" ⟨"tok-1", 3600000000⟩ rfl)

/-- An address that does not go into its column subscribes, and is confirmed. -/
def sampleLongAddress : List TokenAction :=
  [⟨0, .subscribe (.ofList (List.replicate 256 'a')) "direct" "tok-1"⟩, ⟨1, .confirm "tok-1" (.asStored _)⟩]

/-- The third call is not: the store keeps the address confirmed.  Nor is the
confirmation of an address that the table has turned down. -/
theorem not_mirrored_sample :
    FreshTokens sampleComesBack ∧ ¬AtEachPlace (Mirrored sampleLastInstant 3600 0) sampleComesBack
      ∧ FreshTokens sampleLongAddress ∧ ¬AtEachPlace (Mirrored sampleLastInstant 3600 0) sampleLongAddress := by
  refine ⟨by unfold FreshTokens; decide, fun h => ?_, by unfold FreshTokens; decide, fun h => ?_⟩
  · have hcolumn := (h (sampleComesBack.take 2) ⟨0, .subscribe "u@x.org" "direct" "tok-2"⟩ List.prefix_rfl).2 "u@x.org"
    exact absurd hcolumn (by decide)
  · have hanswers := (h (sampleLongAddress.take 1) ⟨1, .confirm "tok-1" (.asStored _)⟩ List.prefix_rfl).1.1
    exact absurd hanswers (by decide +kernel)

end Runs

end Twins

end PredictIQ.Newsletter
