/-
  PredictIQ.Chain.WatchedTxs: the map of watched transactions of `blockchain.rs`.

  `watch_transaction` evicts what has expired, turns down a hash that is
  watched, and turns down any other when the map is full.  The transaction
  monitor removes what it finds settled.  `load_watched_transactions` puts
  every pending row of the database into the map, however many there are;
  `within_cap_iff` says that nothing else takes the map over its cap.
-/
import PredictIQ.Chain.EventSync
import Mathlib.Data.List.Dedup

namespace PredictIQ.Chain

open Foundation

/-! ## §1. The map. -/

/-- Transaction hashes, each with the time it was first watched. -/
structure WatchedTxs where
  entries : List (String × Nat)
  distinct : (entries.map (·.1)).Nodup

namespace WatchedTxs

def empty : WatchedTxs := ⟨[], List.nodup_nil⟩

variable (set : WatchedTxs)

def keys : List String := set.entries.map (·.1)

def size : Nat := set.entries.length

/-- Keep the entries that meet a condition. -/
def retain (p : String × Nat → Bool) : WatchedTxs :=
  ⟨set.entries.filter p, set.distinct.sublist (List.filter_sublist.map _)⟩

def remove (hash : String) : WatchedTxs := set.retain fun e => e.1 ≠ hash

/-- `entry(hash).or_insert(now)`. -/
def orInsert (hash : String) (now : Nat) : WatchedTxs :=
  if h : hash ∈ set.keys then set
  else ⟨set.entries ++ [(hash, now)], by
    rw [List.map_append, List.nodup_append]
    refine ⟨set.distinct, List.nodup_singleton _, ?_⟩
    rintro a ha b hb rfl
    obtain rfl : a = hash := List.mem_singleton.mp hb
    exact h ha⟩

@[simp] theorem length_keys : set.keys.length = set.size := List.length_map _

variable {set} {hash : String} {now : Nat}

theorem size_retain_le {p : String × Nat → Bool} : (set.retain p).size ≤ set.size :=
  List.length_filter_le _ _

theorem mem_keys_orInsert {h : String} : h ∈ (set.orInsert hash now).keys ↔ h ∈ set.keys ∨ h = hash := by
  unfold orInsert
  split
  case isTrue hin =>
    constructor
    · exact .inl
    · rintro (h | rfl)
      · exact h
      · exact hin
  case isFalse => simp [keys]

theorem size_orInsert_of_not_mem (h : hash ∉ set.keys) :
    (set.orInsert hash now).size = set.size + 1 := by
  unfold orInsert
  rw [dif_neg h]
  exact List.length_append

end WatchedTxs

/-! ## §2. What is done to it. -/

structure WatchConfig where
  watchedTxTtl : Nat
  watchedTxMaxSize : Nat

namespace WatchConfig

variable (cfg : WatchConfig)

/-- An entry that has not outlived its time. -/
def unexpired (now : Nat) (e : String × Nat) : Bool := now - e.2 < cfg.watchedTxTtl

def watchTransaction (set : WatchedTxs) (hash : String) (now : Nat) :
    Except WatchTxError Unit × WatchedTxs :=
  let set := set.retain (cfg.unexpired now)
  if hash ∈ set.keys then (.error .alreadyWatched, set)
  else if set.size ≥ cfg.watchedTxMaxSize then (.error .capReached, set)
  else (.ok (), set.orInsert hash now)

end WatchConfig

/-- The pending rows, when the database answers. -/
def loadWatchedTransactions (set : WatchedTxs) (pending : Option (List String)) (now : Nat) : WatchedTxs :=
  (pending.getD []).foldl (fun set hash => set.orInsert hash now) set

/-- The monitor removes a hash with such a status. -/
def isSettled (status : Option String) : Bool :=
  status.any fun status => status != "NOT_FOUND" && status != "PENDING"

/-- The map, and the hashes that the monitor has yet to ask about. -/
structure WatchState where
  watched : WatchedTxs
  hashes : List String

/-- What takes the lock: the load, a registration by the API or by `sync_once`,
and the monitor, which reads the keys and then asks for one status after another. -/
inductive WatchAction where
  | load (pending : Option (List String)) (now : Nat)
  | watch (hash : String) (now : Nat)
  | monitorRead
  | monitorStatus (status : Option String)

namespace WatchState

def initial : WatchState := ⟨.empty, []⟩

/-- A pass of the monitor begins with the keys that are there. -/
def monitorRead (s : WatchState) : WatchState :=
  if s.hashes.isEmpty then { s with hashes := s.watched.keys } else s

/-- It goes on with the status of the next of them. -/
def monitorStatus (s : WatchState) (status : Option String) : WatchState :=
  match s.hashes with
  | [] => s
  | hash :: rest => ⟨if isSettled status then s.watched.remove hash else s.watched, rest⟩

def step (cfg : WatchConfig) (s : WatchState) : WatchAction → WatchState
  | .load pending now => { s with watched := loadWatchedTransactions s.watched pending now }
  | .watch hash now => { s with watched := (cfg.watchTransaction s.watched hash now).2 }
  | .monitorRead => s.monitorRead
  | .monitorStatus status => s.monitorStatus status

end WatchState

/-! ## §3. How many are watched. -/

variable {cfg : WatchConfig} {set : WatchedTxs} {hash : String} {now : Nat}

theorem mem_keys_load {pending : Option (List String)} {h : String} :
    h ∈ (loadWatchedTransactions set pending now).keys ↔ h ∈ set.keys ++ pending.getD [] := by
  unfold loadWatchedTransactions
  generalize pending.getD [] = rows
  induction rows generalizing set with
  | nil => rw [List.foldl_nil, List.append_nil]
  | cons row rows ih =>
      rw [List.foldl_cons, ih, List.mem_append, List.mem_append, WatchedTxs.mem_keys_orInsert,
        List.mem_cons]
      exact or_assoc

/-- **The load** leaves as many entries as there are hashes, in the map or pending. -/
theorem size_load (set : WatchedTxs) (pending : Option (List String)) (now : Nat) :
    (loadWatchedTransactions set pending now).size = (set.keys ++ pending.getD []).dedup.length := by
  rw [← WatchedTxs.length_keys]
  refine List.Perm.length_eq ((List.perm_ext_iff_of_nodup (WatchedTxs.distinct _)
    (List.nodup_dedup _)).mpr fun h => ?_)
  rw [List.mem_dedup]
  exact mem_keys_load

/-- **A registration** keeps the cap. -/
theorem size_watchTransaction_le (h : set.size ≤ cfg.watchedTxMaxSize) :
    (cfg.watchTransaction set hash now).2.size ≤ cfg.watchedTxMaxSize := by
  have hkept : (set.retain (cfg.unexpired now)).size ≤ cfg.watchedTxMaxSize :=
    Nat.le_trans WatchedTxs.size_retain_le h
  unfold WatchConfig.watchTransaction
  simp only
  split
  case isTrue => exact hkept
  case isFalse hnew =>
    split
    case isTrue => exact hkept
    case isFalse hroom =>
      rw [WatchedTxs.size_orInsert_of_not_mem hnew]
      omega

/-- **A registration that finds the map full** finds that many other hashes in
it, none of them expired. -/
theorem others_of_capReached (h : (cfg.watchTransaction set hash now).1 = .error .capReached) :
    cfg.watchedTxMaxSize
      ≤ (set.entries.filter fun e => cfg.unexpired now e && e.1 != hash).length := by
  unfold WatchConfig.watchTransaction at h
  simp only at h
  split at h
  case isTrue => cases h
  case isFalse hnew =>
    split at h
    case isFalse => cases h
    case isTrue hfull =>
      have hothers : (set.entries.filter fun e => cfg.unexpired now e && e.1 != hash)
          = set.entries.filter (cfg.unexpired now) := by
        refine List.filter_congr fun e he => ?_
        by_cases hlive : cfg.unexpired now e = true
        · have hne : e.1 ≠ hash := by
            rintro rfl
            exact hnew (List.mem_map_of_mem (List.mem_filter.mpr ⟨he, hlive⟩))
          simp [hlive, hne]
        · simp [hlive]
      rw [hothers]
      exact hfull

/-! ## §4. Every interleaving. -/

section Runs

variable (cfg) (actions : List WatchAction)

/-- The state after actions, from the empty map of a new client. -/
def watchAfter : WatchState := run (WatchState.step cfg) .initial actions

/-- No load finds more hashes, in the map and pending together, than the cap. -/
def LoadsFit : Prop :=
  ∀ past pending now, past ++ [.load pending now] <+: actions →
    ((watchAfter cfg past).watched.keys ++ pending.getD []).dedup.length ≤ cfg.watchedTxMaxSize

/-- The map is within its cap, holds a hash once, and is called full only when
that many other hashes are in it. -/
structure WithinCap (set : WatchedTxs) : Prop where
  size_le : set.size ≤ cfg.watchedTxMaxSize
  once : set.keys.Nodup
  full : ∀ hash now, (cfg.watchTransaction set hash now).1 = .error .capReached →
    (set.entries.filter fun e => cfg.unexpired now e && e.1 != hash).length = cfg.watchedTxMaxSize

variable {cfg actions}

/-- The size is what matters; the rest follows. -/
theorem withinCap_iff : WithinCap cfg set ↔ set.size ≤ cfg.watchedTxMaxSize := by
  constructor
  · exact fun h => h.size_le
  · intro hsize
    refine ⟨hsize, set.distinct, fun hash now hfull => ?_⟩
    have hothers := others_of_capReached hfull
    have hle : (set.entries.filter fun e => cfg.unexpired now e && e.1 != hash).length
        ≤ set.entries.length := List.length_filter_le _ _
    exact Nat.le_antisymm (Nat.le_trans hle hsize) hothers

/-- **The step.**  Only a load takes the map over its cap. -/
theorem size_step_le {s : WatchState} {a : WatchAction} (h : s.watched.size ≤ cfg.watchedTxMaxSize)
    (hfits : ∀ pending now, a = .load pending now →
      (s.watched.keys ++ pending.getD []).dedup.length ≤ cfg.watchedTxMaxSize) :
    (s.step cfg a).watched.size ≤ cfg.watchedTxMaxSize := by
  cases a with
  | load pending now =>
      show (loadWatchedTransactions s.watched pending now).size ≤ _
      rw [size_load]
      exact hfits pending now rfl
  | watch hash now => exact size_watchTransaction_le h
  | monitorRead =>
      show s.monitorRead.watched.size ≤ _
      unfold WatchState.monitorRead
      split <;> exact h
  | monitorStatus status =>
      show (s.monitorStatus status).watched.size ≤ _
      unfold WatchState.monitorStatus
      split
      · exact h
      · dsimp only
        split
        · exact Nat.le_trans WatchedTxs.size_retain_le h
        · exact h

/-- **The run.** -/
theorem size_le_of_loadsFit (h : LoadsFit cfg actions) :
    (watchAfter cfg actions).watched.size ≤ cfg.watchedTxMaxSize := by
  induction actions using List.reverseRecOn with
  | nil => exact Nat.zero_le _
  | append_singleton past a ih =>
      have hbefore := ih fun bs pending now hbs => h bs pending now (hbs.trans (List.prefix_append _ _))
      unfold watchAfter
      rw [run_concat]
      refine size_step_le hbefore fun pending now ha => ?_
      exact h past pending now (ha ▸ List.prefix_rfl)

/-- **The map stays within its cap exactly when the loads fit**, along every
interleaving. -/
theorem within_cap_iff :
    (∀ past, past <+: actions → WithinCap cfg (watchAfter cfg past).watched) ↔ LoadsFit cfg actions := by
  constructor
  · intro h past pending now hpast
    have hafter := (h _ hpast).size_le
    unfold watchAfter at hafter
    rw [run_concat] at hafter
    rw [← size_load _ pending now]
    exact hafter
  · intro h past hpast
    exact withinCap_iff.mpr (size_le_of_loadsFit fun bs pending now hbs =>
      h bs pending now (hbs.trans hpast))

end Runs

/-- A cap of one, and two pending rows. -/
theorem load_over_cap :
    ¬∀ past, past <+: [WatchAction.load (some ["a", "b"]) 0] →
      WithinCap ⟨1000, 1⟩ (watchAfter ⟨1000, 1⟩ past).watched := by
  intro h
  have hsize := (h _ List.prefix_rfl).size_le
  revert hsize
  decide

end PredictIQ.Chain
