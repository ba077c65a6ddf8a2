/-
  PredictIQ.Foundation.EventLog: a log of events and the view its readers keep.

  A reader folds `apply` over the log.  A reader who follows one key applies
  the events that carry the key and passes over the rest, so that its view is
  a function of the log's projection to the key: equal projections, equal
  views, whatever else was logged in between.
-/
import Mathlib.Logic.Basic

namespace Foundation

section EventLog

variable {σ ε κ : Type}

/-! ## §1. Reading a log. -/

/-- The view after the whole log is read. -/
def replay (apply : σ → ε → σ) (v : σ) (log : List ε) : σ := log.foldl apply v

variable {apply : σ → ε → σ}

theorem replay_append (v : σ) (log new : List ε) :
    replay apply v (log ++ new) = replay apply (replay apply v log) new := by
  unfold replay
  exact List.foldl_append

/-- Events that change no view may be passed over. -/
theorem replay_of_idle {log : List ε} (h : ∀ ev ∈ log, ∀ v, apply v ev = v) (v : σ) :
    replay apply v log = v := by
  induction log generalizing v with
  | nil => rfl
  | cons ev log ih =>
      show replay apply (apply v ev) log = v
      rw [h ev List.mem_cons_self v]
      exact ih (fun ev' hev' => h ev' (List.mem_cons_of_mem _ hev')) v

/-- What changes no view may be filtered out. -/
theorem replay_filter {p : ε → Bool} (h : ∀ ev, p ev = false → ∀ v, apply v ev = v) (v : σ)
    (log : List ε) : replay apply v (log.filter p) = replay apply v log := by
  induction log generalizing v with
  | nil => rfl
  | cons ev log ih =>
      by_cases hp : p ev = true
      · rw [List.filter_cons_of_pos hp]
        exact ih (apply v ev)
      · rw [List.filter_cons_of_neg hp, ih v]
        show _ = replay apply (apply v ev) log
        rw [h ev (eq_false_of_ne_true hp)]

/-! ## §2. Following a key. -/

variable [DecidableEq κ]

/-- The reader who follows key `k`. -/
def follow (key : ε → Option κ) (apply : σ → ε → σ) (k : κ) (v : σ) (ev : ε) : σ :=
  if key ev = some k then apply v ev else v

/-- The part of the log that carries key `k`. -/
def about (key : ε → Option κ) (k : κ) (log : List ε) : List ε :=
  log.filter fun ev => key ev = some k

variable {key : ε → Option κ} {k : κ}

theorem follow_of_ne {ev : ε} (h : key ev ≠ some k) (v : σ) : follow key apply k v ev = v := by
  unfold follow
  rw [if_neg h]

/-- Events of other keys change nothing. -/
theorem replay_follow_of_ne {log : List ε} (h : ∀ ev ∈ log, key ev ≠ some k) (v : σ) :
    replay (follow key apply k) v log = v :=
  replay_of_idle (fun ev hev => follow_of_ne (h ev hev)) v

/-- Events of the key are all applied. -/
theorem replay_follow_of_eq {log : List ε} (h : ∀ ev ∈ log, key ev = some k) (v : σ) :
    replay (follow key apply k) v log = replay apply v log := by
  induction log generalizing v with
  | nil => rfl
  | cons ev log ih =>
      show replay _ (follow key apply k v ev) log = replay apply (apply v ev) log
      rw [follow, if_pos (h ev List.mem_cons_self)]
      exact ih (fun ev' hev' => h ev' (List.mem_cons_of_mem _ hev')) _

/-- The view is read off the projection. -/
theorem replay_about (v : σ) (log : List ε) :
    replay (follow key apply k) v (about key k log) = replay (follow key apply k) v log := by
  refine replay_filter ?_ v log
  intro ev hev
  exact follow_of_ne (of_decide_eq_false hev)

/-- **Equal projections give equal views.** -/
theorem replay_eq_of_about_eq {log log' : List ε} (h : about key k log = about key k log') (v : σ) :
    replay (follow key apply k) v log = replay (follow key apply k) v log' := by
  rw [← replay_about, h, replay_about]

end EventLog

end Foundation
