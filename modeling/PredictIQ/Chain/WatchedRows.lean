/-
  PredictIQ.Chain.WatchedRows: the table behind the map of watched transactions.

  A registration spawns the upsert of a row, and a monitor that finds a hash
  settled spawns the update of its status.  Nobody waits for these writes: they
  land in any order, late, or never.  A server that starts watches the pending
  rows that have not expired.  What the row of a hash holds is a function of
  the writes to it that landed, in their order (`rowAfter_writes`); what comes
  back at a start follows (`restored_iff`).
-/
import PredictIQ.Chain.WatchedTxs
import PredictIQ.Foundation.EventLog
import PredictIQ.Foundation.Table
import Mathlib.Data.List.TakeWhile
import Mathlib.Logic.Function.Basic

namespace PredictIQ.Chain

open Foundation

/-! ## §1. The table. -/

/-- The statuses that the table's constraint admits. -/
inductive WatchedStatus where
  | pending | confirmed | expired
  deriving DecidableEq

structure WatchedRow where
  expiresAt : Nat
  status : WatchedStatus
  deriving DecidableEq

abbrev WatchedRows : Type := Store String WatchedRow

namespace WatchedRows

variable (rows : WatchedRows)

def watchedTxUpsert (txHash : String) (expiresAt : Nat) : WatchedRows :=
  match rows.lookup txHash with
  | none => rows.insert txHash ⟨expiresAt, .pending⟩
  | some row => rows.insert txHash ⟨expiresAt, if row.status = .pending then .pending else row.status⟩

def watchedTxMarkResolved (txHash : String) (status : WatchedStatus) : WatchedRows :=
  match rows.lookup txHash with
  | none => rows
  | some row => rows.insert txHash { row with status := status }

/-- `status = 'pending' AND expires_at > NOW()`. -/
def watchedTxLoadPending (order : RowOrder String) (now : Nat) : List String :=
  order.walk ((rows.entries.filter fun e => e.2.status = .pending ∧ now < e.2.expiresAt).map (·.1))

end WatchedRows

/-- What a spawned task writes to the row of a hash. -/
inductive RowWrite where
  | upsert (expiresAt : Nat)
  | markResolved (status : WatchedStatus)
  deriving DecidableEq

structure Spawned where
  txHash : String
  write : RowWrite
  deriving DecidableEq

def Spawned.land (w : Spawned) (rows : WatchedRows) : WatchedRows :=
  match w.write with
  | .upsert expiresAt => rows.watchedTxUpsert w.txHash expiresAt
  | .markResolved status => rows.watchedTxMarkResolved w.txHash status

/-! ## §2. Servers on one table. -/

/-- The table, the maps of the servers, and the writes that are on their way. -/
structure Watching where
  rows : WatchedRows
  servers : Nat → WatchState
  spawned : List Spawned

/-- A server starts, and is answered by the database or not; a registration; the
two halves of the monitor; and a spawned write lands, or never will. -/
inductive WatchingAction where
  | start (server : Nat) (answered : Option (RowOrder String)) (now utcNow : Nat)
  | watch (server : Nat) (hash : String) (now utcNow : Nat)
  | monitorRead (server : Nat)
  | monitorStatus (server : Nat) (status : Option String)
  | land (i : Nat)
  | lose (i : Nat)

/-- `"confirmed"` for `SUCCESS`, and `"expired"` for whatever else settles. -/
def resolvedStatus (status : Option String) : WatchedStatus :=
  if status = some "SUCCESS" then .confirmed else .expired

namespace Watching

def initial : Watching := ⟨∅, fun _ => .initial, []⟩

variable (cfg : WatchConfig) (rowTtl : Nat)

def setServer (s : Watching) (server : Nat) (state : WatchState) : Watching :=
  { s with servers := Function.update s.servers server state }

def spawn (s : Watching) (w : Spawned) : Watching := { s with spawned := s.spawned ++ [w] }

/-- A new process has an empty map. -/
def start (s : Watching) (server : Nat) (answered : Option (RowOrder String)) (now utcNow : Nat) : Watching :=
  s.setServer server (WatchState.initial.step cfg
    (.load (answered.map fun order => s.rows.watchedTxLoadPending order utcNow) now))

/-- What the registration of a hash answers. -/
def registers (s : Watching) (server : Nat) (hash : String) (now : Nat) : Except WatchTxError Unit :=
  (cfg.watchTransaction (s.servers server).watched hash now).1

def watch (s : Watching) (server : Nat) (hash : String) (now utcNow : Nat) : Watching :=
  let s' := s.setServer server ((s.servers server).step cfg (.watch hash now))
  match s.registers cfg server hash now with
  | .ok () => s'.spawn ⟨hash, .upsert (utcNow + rowTtl)⟩
  | .error _ => s'

def monitorStatus (s : Watching) (server : Nat) (status : Option String) : Watching :=
  let s' := s.setServer server ((s.servers server).step cfg (.monitorStatus status))
  match (s.servers server).hashes with
  | hash :: _ => if isSettled status then s'.spawn ⟨hash, .markResolved (resolvedStatus status)⟩ else s'
  | [] => s'

def land (s : Watching) (i : Nat) : Watching :=
  match s.spawned[i]? with
  | some w => { s with rows := w.land s.rows, spawned := s.spawned.eraseIdx i }
  | none => s

def step (s : Watching) : WatchingAction → Watching
  | .start server answered now utcNow => s.start cfg server answered now utcNow
  | .watch server hash now utcNow => s.watch cfg rowTtl server hash now utcNow
  | .monitorRead server => s.setServer server ((s.servers server).step cfg .monitorRead)
  | .monitorStatus server status => s.monitorStatus cfg server status
  | .land i => s.land i
  | .lose i => { s with spawned := s.spawned.eraseIdx i }

/-- The hashes that a server watches. -/
def watched (s : Watching) (server : Nat) : List String := (s.servers server).watched.keys

def after (as : List WatchingAction) : Watching := run (step cfg rowTtl) initial as

def history (as : List WatchingAction) : List (Transition Watching WatchingAction) :=
  trace (step cfg rowTtl) initial as

end Watching

/-- The write that a step made land. -/
def landedBy (t : Transition Watching WatchingAction) : Option Spawned :=
  match t.act with
  | .land i => t.pre.spawned[i]?
  | _ => none

/-- The writes that landed, in their order. -/
def landed (history : List (Transition Watching WatchingAction)) : List Spawned := history.filterMap landedBy

/-- Those to the row of a hash. -/
def writesOf (hash : String) (ws : List Spawned) : List RowWrite :=
  ws.filterMap fun w => if w.txHash = hash then some w.write else none

/-! ## §3. One row. -/

/-- The row of a hash after a write to it. -/
def rowAfter : Option WatchedRow → RowWrite → Option WatchedRow
  | none, .upsert expiresAt => some ⟨expiresAt, .pending⟩
  | some row, .upsert expiresAt => some { row with expiresAt := expiresAt }
  | none, .markResolved _ => none
  | some row, .markResolved status => some { row with status := status }

/-- The expiry that a write sets, if it sets one. -/
def RowWrite.expiry? : RowWrite → Option Nat
  | .upsert expiresAt => some expiresAt
  | .markResolved _ => none

/-- The status that it sets, if it sets one. -/
def RowWrite.status? : RowWrite → Option WatchedStatus
  | .upsert _ => none
  | .markResolved status => some status

def expiries (ws : List RowWrite) : List Nat := ws.filterMap RowWrite.expiry?

/-- The statuses set while there was a row: a mark without a row is lost. -/
def settlements (ws : List RowWrite) : List WatchedStatus :=
  (ws.dropWhile fun w => w.expiry?.isNone).filterMap RowWrite.status?

theorem lookup_land (w : Spawned) (rows : WatchedRows) (hash : String) :
    (w.land rows).lookup hash = if hash = w.txHash then rowAfter (rows.lookup hash) w.write else rows.lookup hash := by
  obtain ⟨txHash, write⟩ := w
  by_cases h : hash = txHash
  · subst h
    rw [if_pos rfl]
    cases write with
    | upsert expiresAt =>
        show (rows.watchedTxUpsert hash expiresAt).lookup hash = _
        unfold WatchedRows.watchedTxUpsert
        cases rows.lookup hash with
        | none => exact (Store.lookup_insert_eq ..).trans (if_pos rfl)
        | some row =>
            refine ((Store.lookup_insert_eq ..).trans (if_pos rfl)).trans ?_
            show some _ = some _
            congr 1
            split
            · rename_i hpending
              rw [← hpending]
            · rfl
    | markResolved status =>
        show (rows.watchedTxMarkResolved hash status).lookup hash = _
        unfold WatchedRows.watchedTxMarkResolved
        cases hrow : rows.lookup hash with
        | none => exact hrow
        | some row => exact (Store.lookup_insert_eq ..).trans (if_pos rfl)
  · rw [if_neg h]
    cases write with
    | upsert expiresAt =>
        show (rows.watchedTxUpsert txHash expiresAt).lookup hash = _
        unfold WatchedRows.watchedTxUpsert
        split <;> exact (Store.lookup_insert_eq ..).trans (if_neg h)
    | markResolved status =>
        show (rows.watchedTxMarkResolved txHash status).lookup hash = _
        unfold WatchedRows.watchedTxMarkResolved
        split
        · rfl
        · exact (Store.lookup_insert_eq ..).trans (if_neg h)

theorem expiries_concat (ws : List RowWrite) (w : RowWrite) :
    expiries (ws ++ [w]) = expiries ws ++ w.expiry?.toList := by
  unfold expiries
  rw [List.filterMap_append]
  cases w <;> rfl

theorem expiries_eq_nil {ws : List RowWrite} : expiries ws = [] ↔ ∀ w ∈ ws, w.expiry? = none :=
  List.filterMap_eq_nil_iff

/-- A status counts if there was a row before it. -/
theorem settlements_concat (ws : List RowWrite) (w : RowWrite) :
    settlements (ws ++ [w]) = settlements ws ++ if expiries ws = [] then [] else w.status?.toList := by
  unfold settlements
  by_cases hnone : expiries ws = []
  · have hdrop : ∀ x ∈ ws, (RowWrite.expiry? x).isNone = true := fun x hx => by
      rw [expiries_eq_nil.mp hnone x hx]
      rfl
    rw [if_pos hnone, List.append_nil, List.dropWhile_append_of_pos hdrop,
      List.dropWhile_eq_nil_iff.mpr hdrop]
    cases w <;> rfl
  · rw [if_neg hnone]
    have hkept : ws.dropWhile (fun w => w.expiry?.isNone) ≠ [] := by
      rw [ne_eq, List.dropWhile_eq_nil_iff]
      intro hall
      exact hnone (expiries_eq_nil.mpr fun x hx => Option.isNone_iff_eq_none.mp (hall x hx))
    rw [List.dropWhile_append, if_neg (by simpa using hkept), List.filterMap_append]
    cases w <;> rfl

/-- **The row of a hash**: its expiry is that of the last upsert, its status the
last that was set while there was a row. -/
theorem rowAfter_writes (ws : List RowWrite) :
    replay rowAfter none ws
      = (expiries ws).getLast?.map fun expiresAt => ⟨expiresAt, (settlements ws).getLast?.getD .pending⟩ := by
  induction ws using List.reverseRecOn with
  | nil => rfl
  | append_singleton ws w ih =>
      rw [replay_append, ih, expiries_concat, settlements_concat]
      cases w with
      | upsert expiresAt =>
          rw [show (RowWrite.upsert expiresAt).expiry?.toList = [expiresAt] from rfl, List.getLast?_concat]
          rw [show (RowWrite.upsert expiresAt).status?.toList = [] from rfl, ite_self, List.append_nil]
          cases hlast : (expiries ws).getLast? with
          | none =>
              -- a row that is new is pending
              have hnone : expiries ws = [] := List.getLast?_eq_none_iff.mp hlast
              have hsettled : settlements ws = [] := by
                unfold settlements
                rw [List.dropWhile_eq_nil_iff.mpr fun x hx => by
                  rw [expiries_eq_nil.mp hnone x hx]
                  rfl]
                rfl
              rw [hsettled]
              rfl
          | some e => rfl
      | markResolved status =>
          rw [show (RowWrite.markResolved status).expiry?.toList = [] from rfl, List.append_nil]
          rw [show (RowWrite.markResolved status).status?.toList = [status] from rfl]
          cases hlast : (expiries ws).getLast? with
          | none => rfl
          | some e =>
              have hsome : expiries ws ≠ [] := fun hnone => by
                rw [hnone] at hlast
                cases hlast
              rw [if_neg hsome, List.getLast?_concat]
              rfl

/-! ## §4. The table after a run. -/

section Runs

variable {cfg : WatchConfig} {rowTtl : Nat} {s : Watching} {hash : String}

theorem landed_concat (history : List (Transition Watching WatchingAction)) (t : Transition Watching WatchingAction) :
    landed (history ++ [t]) = landed history ++ (landedBy t).toList := by
  unfold landed
  rw [List.filterMap_append, List.filterMap_cons]
  cases landedBy t <;> rfl

theorem writesOf_append (hash : String) (ws ws' : List Spawned) :
    writesOf hash (ws ++ ws') = writesOf hash ws ++ writesOf hash ws' := List.filterMap_append

/-- **The step**: only a write that lands changes the table. -/
theorem lookup_step (s : Watching) (a : WatchingAction) (hash : String) :
    (s.step cfg rowTtl a).rows.lookup hash
      = replay rowAfter (s.rows.lookup hash) (writesOf hash (landedBy ⟨s, a, s.step cfg rowTtl a⟩).toList) := by
  cases a with
  | land i =>
      show (s.land i).rows.lookup hash = replay rowAfter _ (writesOf hash s.spawned[i]?.toList)
      unfold Watching.land
      cases s.spawned[i]? with
      | none => rfl
      | some w =>
          show (w.land s.rows).lookup hash = _
          rw [lookup_land]
          by_cases h : w.txHash = hash
          · rw [if_pos h.symm]
            simp [writesOf, h, replay]
          · rw [if_neg fun h' => h h'.symm]
            simp [writesOf, h, replay]
  | start server answered now utcNow => rfl
  | monitorRead server => rfl
  | lose i => rfl
  | watch server hash' now utcNow =>
      show (s.watch cfg rowTtl server hash' now utcNow).rows.lookup hash = s.rows.lookup hash
      unfold Watching.watch
      dsimp only
      split <;> rfl
  | monitorStatus server status =>
      show (s.monitorStatus cfg server status).rows.lookup hash = s.rows.lookup hash
      unfold Watching.monitorStatus
      dsimp only
      split
      · split <;> rfl
      · rfl

variable (cfg rowTtl) in
/-- **The run.** -/
theorem lookup_after (as : List WatchingAction) (hash : String) :
    (Watching.after cfg rowTtl as).rows.lookup hash
      = replay rowAfter none (writesOf hash (landed (Watching.history cfg rowTtl as))) := by
  induction as using List.reverseRecOn with
  | nil => rfl
  | append_singleton as a ih =>
      unfold Watching.history
      rw [trace_concat, landed_concat, writesOf_append, replay_append]
      rw [show replay rowAfter none (writesOf hash (landed (trace (Watching.step cfg rowTtl) .initial as))) = _
        from ih.symm]
      unfold Watching.after
      rw [run_concat]
      exact lookup_step _ a hash

/-! ## §5. Where a record comes from. -/

/-- Some server took the hash on, for a row that expires then. -/
def Accepted (cfg : WatchConfig) (rowTtl : Nat) (history : List (Transition Watching WatchingAction)) (hash : String)
    (expiresAt : Nat) : Prop :=
  ∃ t ∈ history, ∃ server now utcNow, t.act = .watch server hash now utcNow
    ∧ t.pre.registers cfg server hash now = .ok () ∧ expiresAt = utcNow + rowTtl

/-- Some monitor asked about the hash and was told that it is settled. -/
def Told (history : List (Transition Watching WatchingAction)) (hash : String) (settled : WatchedStatus) : Prop :=
  ∃ t ∈ history, ∃ server status, t.act = .monitorStatus server status
    ∧ (t.pre.servers server).hashes.head? = some hash ∧ isSettled status = true ∧ settled = resolvedStatus status

/-- A write says what a server was asked or a monitor was told. -/
def Warranted (cfg : WatchConfig) (rowTtl : Nat) (history : List (Transition Watching WatchingAction)) (w : Spawned) :
    Prop :=
  match w.write with
  | .upsert expiresAt => Accepted cfg rowTtl history w.txHash expiresAt
  | .markResolved settled => Told history w.txHash settled

variable {h h' : List (Transition Watching WatchingAction)}

theorem Accepted.mono {expiresAt : Nat} (hsub : h ⊆ h') (ha : Accepted cfg rowTtl h hash expiresAt) :
    Accepted cfg rowTtl h' hash expiresAt := by
  obtain ⟨t, ht, hrest⟩ := ha
  exact ⟨t, hsub ht, hrest⟩

theorem Told.mono {settled : WatchedStatus} (hsub : h ⊆ h') (ht : Told h hash settled) : Told h' hash settled := by
  obtain ⟨t, hmem, hrest⟩ := ht
  exact ⟨t, hsub hmem, hrest⟩

theorem Told.ne_pending {settled : WatchedStatus} (ht : Told h hash settled) : settled ≠ .pending := by
  obtain ⟨_, _, _, status, _, _, _, rfl⟩ := ht
  unfold resolvedStatus
  split <;> exact fun heq => nomatch heq

theorem Warranted.mono {w : Spawned} (hsub : h ⊆ h') (hw : Warranted cfg rowTtl h w) : Warranted cfg rowTtl h' w := by
  unfold Warranted at hw ⊢
  split
  · rename_i expiresAt hwrite
    rw [hwrite] at hw
    exact Accepted.mono hsub hw
  · rename_i settled hwrite
    rw [hwrite] at hw
    exact Told.mono hsub hw

/-- Writes and watched hashes have a ground in the history. -/
structure Backed (cfg : WatchConfig) (rowTtl : Nat) (h : List (Transition Watching WatchingAction)) (s : Watching) :
    Prop where
  arrived : ∀ w ∈ landed h, Warranted cfg rowTtl h w
  spawned : ∀ w ∈ s.spawned, Warranted cfg rowTtl h w
  watched : ∀ server, ∀ hash ∈ s.watched server, ∃ expiresAt, Accepted cfg rowTtl h hash expiresAt

theorem mem_writesOf {w : RowWrite} {ws : List Spawned} : w ∈ writesOf hash ws ↔ (⟨hash, w⟩ : Spawned) ∈ ws := by
  unfold writesOf
  rw [List.mem_filterMap]
  constructor
  · rintro ⟨⟨txHash, write⟩, hmem, hsome⟩
    split at hsome
    · rename_i heq
      cases hsome
      exact heq ▸ hmem
    · cases hsome
  · exact fun hmem => ⟨_, hmem, if_pos rfl⟩

theorem mem_keys_of_watchTransaction {set : WatchedTxs} {hash' : String} {now : Nat}
    (hmem : hash ∈ (cfg.watchTransaction set hash' now).2.keys) :
    hash ∈ set.keys ∨ hash = hash' ∧ (cfg.watchTransaction set hash' now).1 = .ok () := by
  have hretained : ∀ h, h ∈ (set.retain (cfg.unexpired now)).keys → h ∈ set.keys := by
    intro h hh
    exact (List.filter_sublist.map Prod.fst).subset hh
  unfold WatchConfig.watchTransaction at hmem ⊢
  dsimp only at hmem ⊢
  split at hmem
  · exact .inl (hretained hash hmem)
  · rename_i hnew
    split at hmem
    · exact .inl (hretained hash hmem)
    · rename_i hroom
      rw [if_neg hnew, if_neg hroom]
      rcases WatchedTxs.mem_keys_orInsert.mp hmem with hold | hsame
      · exact .inl (hretained hash hold)
      · exact .inr ⟨hsame, rfl⟩

theorem mem_watchedTxLoadPending {rows : WatchedRows} {order : RowOrder String} {now : Nat} :
    hash ∈ rows.watchedTxLoadPending order now
      ↔ ∃ row, rows.lookup hash = some row ∧ row.status = .pending ∧ now < row.expiresAt := by
  unfold WatchedRows.watchedTxLoadPending
  rw [(order.perm _).mem_iff, List.mem_map]
  constructor
  · rintro ⟨⟨k, row⟩, hmem, rfl⟩
    obtain ⟨hentry, hp⟩ := List.mem_filter.mp hmem
    obtain ⟨hpending, hfresh⟩ := of_decide_eq_true hp
    exact ⟨row, Store.mem_entries.mp hentry, hpending, hfresh⟩
  · rintro ⟨row, hrow, hpending, hfresh⟩
    exact ⟨⟨hash, row⟩, List.mem_filter.mpr ⟨Store.mem_entries.mpr hrow, decide_eq_true ⟨hpending, hfresh⟩⟩, rfl⟩

/-- What a server watches once it has started. -/
theorem mem_watched_start {server : Nat} {answered : Option (RowOrder String)} {now utcNow : Nat} :
    hash ∈ (s.start cfg server answered now utcNow).watched server
      ↔ ∃ order, answered = some order ∧ hash ∈ s.rows.watchedTxLoadPending order utcNow := by
  have hserver : ((s.start cfg server answered now utcNow).servers server).watched
      = loadWatchedTransactions .empty (answered.map fun order => s.rows.watchedTxLoadPending order utcNow) now := by
    show (Function.update s.servers server _ server).watched = _
    rw [Function.update_self]
    rfl
  rw [Watching.watched, hserver, mem_keys_load]
  cases answered with
  | none => simp [WatchedTxs.empty, WatchedTxs.keys]
  | some order => simp [WatchedTxs.empty, WatchedTxs.keys]

/-- **The step**: every new write on its way has a ground in it. -/
theorem mem_spawned_step {a : WatchingAction} {w : Spawned} (hw : w ∈ (s.step cfg rowTtl a).spawned) :
    w ∈ s.spawned ∨ Warranted cfg rowTtl [⟨s, a, s.step cfg rowTtl a⟩] w := by
  cases a with
  | start server answered now utcNow => exact .inl hw
  | monitorRead server => exact .inl hw
  | lose i => exact .inl (List.mem_of_mem_eraseIdx hw)
  | land i =>
      left
      change w ∈ (s.land i).spawned at hw
      unfold Watching.land at hw
      split at hw
      · exact List.mem_of_mem_eraseIdx hw
      · exact hw
  | watch server hash' now utcNow =>
      change w ∈ (s.watch cfg rowTtl server hash' now utcNow).spawned at hw
      unfold Watching.watch at hw
      dsimp only at hw
      split at hw
      · rename_i hok
        rcases List.mem_append.mp hw with hold | hnew
        · exact .inl hold
        · obtain rfl := List.mem_singleton.mp hnew
          exact .inr ⟨_, List.mem_singleton_self _, server, now, utcNow, rfl, hok, rfl⟩
      · exact .inl hw
  | monitorStatus server status =>
      change w ∈ (s.monitorStatus cfg server status).spawned at hw
      unfold Watching.monitorStatus at hw
      dsimp only at hw
      split at hw
      · rename_i hash' rest hhashes
        split at hw
        · rename_i hsettled
          rcases List.mem_append.mp hw with hold | hnew
          · exact .inl hold
          · obtain rfl := List.mem_singleton.mp hnew
            refine .inr ⟨_, List.mem_singleton_self _, server, status, rfl, ?_, hsettled, rfl⟩
            rw [hhashes]
            rfl
        · exact .inl hw
      · exact .inl hw

/-- The map of a server after a change of one server's map. -/
theorem watched_setServer {server k : Nat} {state : WatchState} (hmem : hash ∈ (s.setServer server state).watched k) :
    hash ∈ s.watched k ∨ hash ∈ state.watched.keys ∧ k = server := by
  change hash ∈ (Function.update s.servers server state k).watched.keys at hmem
  by_cases hk : k = server
  · subst hk
    rw [Function.update_self] at hmem
    exact .inr ⟨hmem, rfl⟩
  · rw [Function.update_of_ne hk] at hmem
    exact .inl hmem

/-- **The step**: a hash comes into a map by a registration, or from its row. -/
theorem mem_watched_step {a : WatchingAction} {k : Nat} (hmem : hash ∈ (s.step cfg rowTtl a).watched k) :
    hash ∈ s.watched k ∨ (∃ expiresAt, Accepted cfg rowTtl [⟨s, a, s.step cfg rowTtl a⟩] hash expiresAt)
      ∨ s.rows.lookup hash ≠ none := by
  cases a with
  | lose i => exact .inl hmem
  | land i =>
      left
      change hash ∈ (s.land i).watched k at hmem
      unfold Watching.land at hmem
      split at hmem <;> exact hmem
  | start server answered now utcNow =>
      rcases watched_setServer hmem with hold | ⟨hnew, rfl⟩
      · exact .inl hold
      · have hstart : hash ∈ (s.start cfg k answered now utcNow).watched k := hmem
        obtain ⟨order, _, hpending⟩ := mem_watched_start.mp hstart
        obtain ⟨row, hrow, _⟩ := mem_watchedTxLoadPending.mp hpending
        exact .inr (.inr fun hnone => nomatch hnone.symm.trans hrow)
  | monitorRead server =>
      left
      rcases watched_setServer hmem with hold | ⟨hnew, rfl⟩
      · exact hold
      · change hash ∈ (WatchState.monitorRead _).watched.keys at hnew
        unfold WatchState.monitorRead at hnew
        split at hnew <;> exact hnew
  | monitorStatus server status =>
      left
      have hset : hash ∈ (s.setServer server ((s.servers server).step cfg (.monitorStatus status))).watched k := by
        change hash ∈ (s.monitorStatus cfg server status).watched k at hmem
        unfold Watching.monitorStatus at hmem
        dsimp only at hmem
        split at hmem
        · split at hmem <;> exact hmem
        · exact hmem
      rcases watched_setServer hset with hold | ⟨hnew, rfl⟩
      · exact hold
      · change hash ∈ (WatchState.monitorStatus _ status).watched.keys at hnew
        unfold WatchState.monitorStatus at hnew
        split at hnew
        · exact hnew
        · dsimp only at hnew
          split at hnew
          · exact (List.filter_sublist.map Prod.fst).subset hnew
          · exact hnew
  | watch server hash' now utcNow =>
      have hset : hash ∈ (s.setServer server ((s.servers server).step cfg (.watch hash' now))).watched k := by
        change hash ∈ (s.watch cfg rowTtl server hash' now utcNow).watched k at hmem
        unfold Watching.watch at hmem
        dsimp only at hmem
        split at hmem <;> exact hmem
      rcases watched_setServer hset with hold | ⟨hnew, rfl⟩
      · exact .inl hold
      · rcases mem_keys_of_watchTransaction hnew with hold | ⟨rfl, hok⟩
        · exact .inl hold
        · exact .inr (.inl ⟨_, _, List.mem_singleton_self _, k, now, utcNow, rfl, hok, rfl⟩)

/-- A row is there because a registration landed. -/
theorem accepted_of_row {ws : List Spawned} {row : WatchedRow} (hws : ∀ w ∈ ws, Warranted cfg rowTtl h w)
    (hrow : replay rowAfter none (writesOf hash ws) = some row) :
    Accepted cfg rowTtl h hash row.expiresAt := by
  rw [rowAfter_writes, Option.map_eq_some_iff] at hrow
  obtain ⟨expiresAt, hlast, rfl⟩ := hrow
  obtain ⟨w, hw, hexpiry⟩ := List.mem_filterMap.mp (List.mem_of_getLast? hlast)
  cases w with
  | upsert e =>
      cases hexpiry
      exact hws _ (mem_writesOf.mp hw)
  | markResolved status => cases hexpiry

/-- And its status is pending or one that a monitor was told. -/
theorem told_of_row {ws : List Spawned} {row : WatchedRow} (hws : ∀ w ∈ ws, Warranted cfg rowTtl h w)
    (hrow : replay rowAfter none (writesOf hash ws) = some row) (hsettled : row.status ≠ .pending) :
    Told h hash row.status := by
  rw [rowAfter_writes, Option.map_eq_some_iff] at hrow
  obtain ⟨expiresAt, _, rfl⟩ := hrow
  dsimp only at hsettled ⊢
  cases hlast : (settlements (writesOf hash ws)).getLast? with
  | none =>
      rw [hlast] at hsettled
      exact absurd rfl hsettled
  | some status =>
      obtain ⟨w, hw, hstatus⟩ := List.mem_filterMap.mp (List.mem_of_getLast? hlast)
      have hmem : w ∈ writesOf hash ws := (List.dropWhile_sublist _).subset hw
      cases w with
      | upsert e => cases hstatus
      | markResolved settled =>
          cases hstatus
          exact hws _ (mem_writesOf.mp hmem)

theorem Backed.concat {a : WatchingAction} (hs : Backed cfg rowTtl h s)
    (hrows : ∀ hash, s.rows.lookup hash = replay rowAfter none (writesOf hash (landed h))) :
    Backed cfg rowTtl (h ++ [⟨s, a, s.step cfg rowTtl a⟩]) (s.step cfg rowTtl a) := by
  have hold : h ⊆ h ++ [⟨s, a, s.step cfg rowTtl a⟩] := List.subset_append_left ..
  have hnew : [⟨s, a, s.step cfg rowTtl a⟩] ⊆ h ++ [⟨s, a, s.step cfg rowTtl a⟩] := List.subset_append_right ..
  refine ⟨fun w hw => ?_, fun w hw => ?_, fun k hash hmem => ?_⟩
  · rw [landed_concat] at hw
    rcases List.mem_append.mp hw with hw | hw
    · exact (hs.arrived w hw).mono hold
    · -- what lands was on its way
      refine (hs.spawned w ?_).mono hold
      unfold landedBy at hw
      cases a with
      | land i => exact List.mem_of_getElem? (Option.mem_toList.mp hw)
      | _ => cases hw
  · rcases mem_spawned_step hw with hw | hw
    · exact (hs.spawned w hw).mono hold
    · exact hw.mono hnew
  · rcases mem_watched_step hmem with hwas | ⟨e, haccepted⟩ | hrow
    · obtain ⟨e, haccepted⟩ := hs.watched k hash hwas
      exact ⟨e, haccepted.mono hold⟩
    · exact ⟨e, haccepted.mono hnew⟩
    · obtain ⟨row, hrow⟩ := Option.ne_none_iff_exists'.mp hrow
      exact ⟨_, (accepted_of_row hs.arrived ((hrows hash).symm.trans hrow)).mono hold⟩

theorem backed_after (cfg : WatchConfig) (rowTtl : Nat) (as : List WatchingAction) :
    Backed cfg rowTtl (Watching.history cfg rowTtl as) (Watching.after cfg rowTtl as) := by
  induction as using List.reverseRecOn with
  | nil =>
      refine ⟨fun w hw => ?_, fun w hw => ?_, fun k hash hmem => ?_⟩
      · cases hw
      · cases hw
      · cases hmem
  | append_singleton as a ih =>
      unfold Watching.history Watching.after
      rw [trace_concat, run_concat]
      exact ih.concat fun hash => lookup_after cfg rowTtl as hash

/-! ## §6. What a run leaves, and what comes back. -/

/-- **What a server watches after a restart.**  A hash comes back if and only if
a registration of it landed, no settlement of it landed after the first that did,
and the last one's row has not expired. -/
theorem restored_iff (cfg : WatchConfig) (rowTtl : Nat) (as : List WatchingAction) (server : Nat)
    (order : RowOrder String) (now utcNow : Nat) (hash : String) :
    hash ∈ ((Watching.after cfg rowTtl as).step cfg rowTtl (.start server (some order) now utcNow)).watched server
      ↔ settlements (writesOf hash (landed (Watching.history cfg rowTtl as))) = []
        ∧ ∃ expiresAt, (expiries (writesOf hash (landed (Watching.history cfg rowTtl as)))).getLast? = some expiresAt
          ∧ utcNow < expiresAt := by
  have hbacked := backed_after cfg rowTtl as
  have hrow := lookup_after cfg rowTtl as hash
  show hash ∈ ((Watching.after cfg rowTtl as).start cfg server (some order) now utcNow).watched server ↔ _
  rw [mem_watched_start]
  constructor
  · rintro ⟨order', _, hpending⟩
    obtain ⟨row, hlookup, hstatus, hfresh⟩ := mem_watchedTxLoadPending.mp hpending
    rw [hrow, rowAfter_writes, Option.map_eq_some_iff] at hlookup
    obtain ⟨expiresAt, hlast, rfl⟩ := hlookup
    refine ⟨?_, expiresAt, hlast, hfresh⟩
    cases hsettled : (settlements (writesOf hash (landed (Watching.history cfg rowTtl as)))).getLast? with
    | none => exact List.getLast?_eq_none_iff.mp hsettled
    | some settled =>
        -- a status that was set is not pending
        obtain ⟨w, hw, hset⟩ := List.mem_filterMap.mp (List.mem_of_getLast? hsettled)
        have hmem := mem_writesOf.mp ((List.dropWhile_sublist _).subset hw)
        dsimp only at hstatus
        rw [hsettled] at hstatus
        cases w with
        | upsert e => cases hset
        | markResolved st =>
            cases hset
            exact absurd hstatus (Told.ne_pending (hbacked.arrived _ hmem))
  · rintro ⟨hsettled, expiresAt, hlast, hfresh⟩
    refine ⟨order, rfl, mem_watchedTxLoadPending.mpr ⟨⟨expiresAt, .pending⟩, ?_, rfl, hfresh⟩⟩
    rw [hrow, rowAfter_writes, hlast, hsettled]
    rfl

/-- A settlement that lands before the registration is lost, and the hash comes back. -/
example : "a" ∈ ((Watching.after ⟨1000, 10⟩ 1800 [.watch 0 "a" 0 0, .monitorRead 0, .monitorStatus 0 (some "SUCCESS"),
    .land 1, .land 0]).step ⟨1000, 10⟩ 1800 (.start 0 (some (.asStored String)) 5 5)).watched 0 := by
  decide

/-- What a row says of the history. -/
structure Recorded (cfg : WatchConfig) (rowTtl : Nat) (h : List (Transition Watching WatchingAction)) (hash : String)
    (row : WatchedRow) : Prop where
  accepted : Accepted cfg rowTtl h hash row.expiresAt
  confirmed : row.status = .confirmed → ∃ t ∈ h, ∃ server, t.act = .monitorStatus server (some "SUCCESS")
    ∧ (t.pre.servers server).hashes.head? = some hash
  expired : row.status = .expired → ∃ t ∈ h, ∃ server status, t.act = .monitorStatus server (some status)
    ∧ (t.pre.servers server).hashes.head? = some hash ∧ status ∉ ["SUCCESS", "NOT_FOUND", "PENDING"]

/-- What a monitor was told of a settled hash. -/
theorem Told.cases {settled : WatchedStatus} (ht : Told h hash settled) :
    ∃ t ∈ h, ∃ server status, t.act = .monitorStatus server (some status)
      ∧ (t.pre.servers server).hashes.head? = some hash ∧ status ∉ ["NOT_FOUND", "PENDING"]
      ∧ settled = resolvedStatus (some status) := by
  obtain ⟨t, hmem, server, status, hact, hhead, hsettled, rfl⟩ := ht
  cases status with
  | none => cases hsettled
  | some status =>
      refine ⟨t, hmem, server, status, hact, hhead, ?_, rfl⟩
      simpa [isSettled] using hsettled

theorem recorded_of_row {row : WatchedRow} (haccepted : Accepted cfg rowTtl h hash row.expiresAt)
    (htold : row.status ≠ .pending → Told h hash row.status) : Recorded cfg rowTtl h hash row where
  accepted := haccepted
  confirmed hstatus := by
    obtain ⟨t, hmem, server, status, hact, hhead, _, hsettled⟩ := (htold (by rw [hstatus]; decide)).cases
    rw [hstatus, resolvedStatus] at hsettled
    split at hsettled
    · rename_i hsuccess
      exact ⟨t, hmem, server, hsuccess ▸ hact, hhead⟩
    · cases hsettled
  expired hstatus := by
    obtain ⟨t, hmem, server, status, hact, hhead, hnot, hsettled⟩ := (htold (by rw [hstatus]; decide)).cases
    rw [hstatus, resolvedStatus] at hsettled
    split at hsettled
    · cases hsettled
    · rename_i hother
      refine ⟨t, hmem, server, status, hact, hhead, ?_⟩
      rw [List.mem_cons, not_or]
      exact ⟨fun heq => hother (congrArg some heq), hnot⟩

/-- **The records are honest.**  In every run, whatever lands in which order: a
row says that some server took the hash on, `confirmed` only what a monitor heard
as SUCCESS and `expired` only what it heard as settled otherwise; and only hashes
that were taken on are ever watched. -/
theorem records_honest (cfg : WatchConfig) (rowTtl : Nat) (as : List WatchingAction) :
    (∀ hash row, (Watching.after cfg rowTtl as).rows.lookup hash = some row →
        Recorded cfg rowTtl (Watching.history cfg rowTtl as) hash row)
      ∧ ∀ server, ∀ hash ∈ (Watching.after cfg rowTtl as).watched server,
        ∃ expiresAt, Accepted cfg rowTtl (Watching.history cfg rowTtl as) hash expiresAt := by
  have hbacked := backed_after cfg rowTtl as
  refine ⟨fun hash row hrow => ?_, hbacked.watched⟩
  rw [lookup_after] at hrow
  exact recorded_of_row (accepted_of_row hbacked.arrived hrow) (told_of_row hbacked.arrived hrow)

/-- A settled row stays one under writes that set no row back. -/
theorem settled_replay {ws : List RowWrite} {row : WatchedRow} (hws : .markResolved .pending ∉ ws)
    (hsettled : row.status ≠ .pending) :
    ∃ row', replay rowAfter (some row) ws = some row' ∧ row'.status ≠ .pending := by
  induction ws generalizing row with
  | nil => exact ⟨row, rfl, hsettled⟩
  | cons w ws ih =>
      obtain ⟨hw, hrest⟩ := not_or.mp (mt List.mem_cons.mpr hws)
      cases w with
      | upsert expiresAt => exact ih hrest hsettled
      | markResolved status => exact ih hrest fun hpending => hw (hpending ▸ rfl)

/-- **A settlement is final.**  Once the row of a hash is not pending it never is
again, whatever lands later, so that no server that starts takes the hash back. -/
theorem settled_final (cfg : WatchConfig) (rowTtl : Nat) (as bs : List WatchingAction) {hash : String}
    {row : WatchedRow} (hrow : (Watching.after cfg rowTtl as).rows.lookup hash = some row)
    (hsettled : row.status ≠ .pending) :
    (∃ row', (Watching.after cfg rowTtl (as ++ bs)).rows.lookup hash = some row' ∧ row'.status ≠ .pending)
      ∧ ∀ server answered now utcNow, hash ∉ ((Watching.after cfg rowTtl (as ++ bs)).step cfg rowTtl
          (.start server answered now utcNow)).watched server := by
  have hlater : ∃ row', (Watching.after cfg rowTtl (as ++ bs)).rows.lookup hash = some row'
      ∧ row'.status ≠ .pending := by
    have hbacked := backed_after cfg rowTtl (as ++ bs)
    have hbefore := lookup_after cfg rowTtl as hash
    have hafter := lookup_after cfg rowTtl (as ++ bs) hash
    unfold Watching.history at hbefore hafter
    rw [trace_append] at hafter
    unfold landed at hbefore hafter
    rw [List.filterMap_append, writesOf_append, replay_append, ← hbefore, hrow] at hafter
    rw [hafter]
    refine settled_replay (fun hmem => ?_) hsettled
    refine Told.ne_pending (hbacked.arrived ⟨hash, .markResolved .pending⟩ ?_) rfl
    unfold Watching.history landed
    rw [trace_append, List.filterMap_append]
    exact List.mem_append_right _ (mem_writesOf.mp hmem)
  refine ⟨hlater, fun server answered now utcNow hmem => ?_⟩
  obtain ⟨row', hrow', hstays⟩ := hlater
  have hstart : hash ∈ ((Watching.after cfg rowTtl (as ++ bs)).start cfg server answered now utcNow).watched server :=
    hmem
  obtain ⟨order, _, hpending⟩ := mem_watched_start.mp hstart
  obtain ⟨row'', hrow'', hstatus, _⟩ := mem_watchedTxLoadPending.mp hpending
  cases hrow'.symm.trans hrow''
  exact hstays hstatus

/-- A hash that is taken on, found settled, and taken on again by another server. -/
def sampleSettled : List WatchingAction :=
  [.watch 0 "a" 0 0, .land 0, .monitorRead 0, .monitorStatus 0 (some "SUCCESS"), .land 0]

theorem settled_final_sample :
    (∃ row', (Watching.after ⟨1000, 10⟩ 1800 (sampleSettled ++ [.watch 1 "a" 5 5, .land 0])).rows.lookup "a"
        = some row' ∧ row'.status ≠ .pending)
      ∧ ∀ server answered now utcNow, "a" ∉ ((Watching.after ⟨1000, 10⟩ 1800
          (sampleSettled ++ [.watch 1 "a" 5 5, .land 0])).step ⟨1000, 10⟩ 1800
          (.start server answered now utcNow)).watched server := by
  have hrow : (Watching.after ⟨1000, 10⟩ 1800 sampleSettled).rows.lookup "a" = some ⟨1800, .confirmed⟩ := by decide
  exact settled_final ⟨1000, 10⟩ 1800 sampleSettled [.watch 1 "a" 5 5, .land 0] hrow (by decide)

end Runs

end PredictIQ.Chain
