/-
  PredictIQ.Foundation.Run: finite runs of a deterministic machine.

  `step : σ → α → σ` performs one labelled action.  `run` is the state after a
  list of actions, `trace` the list of transitions taken on the way.  The
  invariant rules package the induction over a run once: a property of the
  state alone, and a property of the state together with its history, each
  under a side condition that every transition of the run is known to meet.
-/
import Mathlib.Data.List.Induction

namespace Foundation

/-- One step of a run: the state before, the action, the state after. -/
structure Transition (σ α : Type) where
  pre : σ
  act : α
  post : σ

/-- What holds of a history and of one entry more. -/
theorem forall_mem_concat {β : Type*} {P : β → Prop} {l : List β} {x : β} (hl : ∀ y ∈ l, P y) (hx : P x) :
    ∀ y ∈ l ++ [x], P y :=
  List.forall_mem_append.mpr ⟨hl, List.forall_mem_singleton.mpr hx⟩

section Runs

variable {σ α : Type} (step : σ → α → σ)

/-- The state after a list of actions. -/
def run (s : σ) (as : List α) : σ := as.foldl step s

/-- The transitions taken by a list of actions, in order. -/
def trace : σ → List α → List (Transition σ α)
  | _, [] => []
  | s, a :: as => ⟨s, a, step s a⟩ :: trace (step s a) as

@[simp] theorem trace_nil (s : σ) : trace step s [] = [] := rfl

theorem run_append (s : σ) (as bs : List α) :
    run step s (as ++ bs) = run step (run step s as) bs := by
  unfold run
  exact List.foldl_append

theorem run_concat (s : σ) (as : List α) (a : α) :
    run step s (as ++ [a]) = step (run step s as) a := by
  rw [run_append]
  rfl

theorem trace_append (s : σ) (as bs : List α) :
    trace step s (as ++ bs) = trace step s as ++ trace step (run step s as) bs := by
  induction as generalizing s with
  | nil => rfl
  | cons a as ih =>
      show _ :: trace step (step s a) (as ++ bs) = _
      rw [ih]
      rfl

theorem trace_concat (s : σ) (as : List α) (a : α) :
    trace step s (as ++ [a])
      = trace step s as ++ [⟨run step s as, a, step (run step s as) a⟩] := by
  rw [trace_append]
  rfl

/-- Every transition of a run is a step taken from a state of that run. -/
theorem mem_trace {s : σ} {as : List α} {t : Transition σ α} (h : t ∈ trace step s as) :
    ∃ bs cs, as = bs ++ t.act :: cs ∧ t.pre = run step s bs ∧ t.post = step t.pre t.act := by
  induction as generalizing s with
  | nil => simp at h
  | cons a as ih =>
      rcases List.mem_cons.mp h with h | h
      · subst h
        exact ⟨[], as, rfl, rfl, rfl⟩
      · obtain ⟨bs, cs, has, hpre, hpost⟩ := ih h
        exact ⟨a :: bs, cs, by rw [has]; rfl, hpre, hpost⟩

/-- The step taken at a place of a run is in its trace. -/
theorem mem_trace_append_cons (s : σ) (bs : List α) (a : α) (cs : List α) :
    ⟨run step s bs, a, step (run step s bs) a⟩ ∈ trace step s (bs ++ a :: cs) := by
  rw [trace_append]
  exact List.mem_append_right _ List.mem_cons_self

theorem act_mem_of_mem_trace {s : σ} {as : List α} {t : Transition σ α}
    (h : t ∈ trace step s as) : t.act ∈ as := by
  obtain ⟨bs, cs, has, _⟩ := mem_trace step h
  rw [has]
  exact List.mem_append_right _ List.mem_cons_self

/-- Cutting a trace at a transition cuts the run it is the trace of. -/
theorem trace_eq_append_cons {s : σ} {as : List α} {pre post : List (Transition σ α)}
    {t : Transition σ α} (h : trace step s as = pre ++ t :: post) :
    ∃ bs cs, as = bs ++ t.act :: cs ∧ pre = trace step s bs ∧ t.pre = run step s bs
      ∧ t.post = step t.pre t.act ∧ post = trace step t.post cs := by
  induction pre generalizing s as with
  | nil =>
      cases as with
      | nil => cases h
      | cons a as =>
          obtain ⟨rfl, rfl⟩ := List.cons.inj h
          exact ⟨[], as, rfl, rfl, rfl, rfl, rfl⟩
  | cons t₀ pre ih =>
      cases as with
      | nil => cases h
      | cons a as =>
          obtain ⟨rfl, hrest⟩ := List.cons.inj h
          obtain ⟨bs, cs, rfl, rfl, hpre, hpost, hrest⟩ := ih hrest
          exact ⟨a :: bs, cs, rfl, rfl, hpre, hpost, hrest⟩

/-- A run passes through the states of its beginnings. -/
theorem mem_trace_of_isPrefix {s : σ} {as bs : List α} (h : bs <+: as) {t : Transition σ α}
    (ht : t ∈ trace step s bs) : t ∈ trace step s as := by
  obtain ⟨cs, rfl⟩ := h
  rw [trace_append]
  exact List.mem_append_left _ ht

/-- A step of a run ends a beginning of it. -/
theorem prefix_of_mem_trace {s : σ} {as : List α} {t : Transition σ α} (h : t ∈ trace step s as) :
    ∃ bs, bs ++ [t.act] <+: as ∧ t.pre = run step s bs ∧ t.post = run step s (bs ++ [t.act]) := by
  obtain ⟨bs, cs, has, hpre, hpost⟩ := mem_trace step h
  refine ⟨bs, ⟨cs, by rw [has, List.append_assoc]; rfl⟩, hpre, ?_⟩
  rw [hpost, hpre, run_concat]

/-- **History invariants.**  A relation between a history and the state it
led to holds of every run, provided it holds at the start and every
transition that meets the side condition `C` carries it on. -/
theorem history_invariant (J : List (Transition σ α) → σ → Prop)
    (C : Transition σ α → Prop) {s : σ} (h0 : J [] s)
    (hstep : ∀ (as : List α) (a : α), J (trace step s as) (run step s as) →
      C ⟨run step s as, a, step (run step s as) a⟩ →
      J (trace step s as ++ [⟨run step s as, a, step (run step s as) a⟩])
        (step (run step s as) a))
    (as : List α) (hC : ∀ t ∈ trace step s as, C t) :
    J (trace step s as) (run step s as) := by
  induction as using List.reverseRecOn with
  | nil => exact h0
  | append_singleton as a ih =>
      rw [trace_concat] at hC ⊢
      rw [run_concat]
      -- the history so far meets the condition, and so does the last transition
      refine hstep as a (ih fun t ht => hC t (List.mem_append_left _ ht)) ?_
      exact hC _ (List.mem_append_right _ List.mem_cons_self)

/-- **State invariants under a side condition.** -/
theorem run_invariant_of (I : σ → Prop) (C : Transition σ α → Prop) {s : σ} (h0 : I s)
    (hstep : ∀ u a, I u → C ⟨u, a, step u a⟩ → I (step u a))
    (as : List α) (hC : ∀ t ∈ trace step s as, C t) : I (run step s as) :=
  history_invariant step (fun _ u => I u) C h0 (fun _ a hI => hstep _ a hI) as hC

/-- **Where a property is kept.**  If from each state of the invariant a step
leads to the property exactly when it is good, and a good step keeps the
invariant, then the property holds throughout a run exactly when its steps are good. -/
theorem throughout_iff {P I : σ → Prop} {C : σ → α → Prop} {s : σ} (hI : I s) (hP : P s)
    (hiff : ∀ u a, I u → (P (step u a) ↔ C u a)) (hnext : ∀ u a, I u → C u a → I (step u a)) (as : List α) :
    (∀ bs, bs <+: as → P (run step s bs)) ↔ ∀ t ∈ trace step s as, C t.pre t.act := by
  induction as using List.reverseRecOn with
  | nil =>
      have hstart : P (run step s []) := hP
      simpa [List.prefix_nil] using hstart
  | append_singleton as a ih =>
      have hsplit : (∀ bs, bs <+: as ++ [a] → P (run step s bs))
          ↔ (∀ bs, bs <+: as → P (run step s bs)) ∧ P (step (run step s as) a) := by
        simp only [List.prefix_concat_iff, or_imp, forall_and, forall_eq, run_concat]
        exact and_comm
      rw [hsplit, ih, trace_concat]
      simp only [List.mem_append, List.mem_singleton, or_imp, forall_and, forall_eq]
      -- the last step is taken from a state of the invariant
      refine and_congr_right fun hgood => hiff _ a ?_
      exact run_invariant_of step I (fun t => C t.pre t.act) hI hnext as hgood

end Runs

/-! Laws about every place of a list of actions. -/

section Places

variable {α : Type}

/-- `P` holds at every place of a list, of what stands before it and what stands there. -/
def AtEachPlace (P : List α → α → Prop) (as : List α) : Prop := ∀ bs a, bs ++ [a] <+: as → P bs a

theorem atEachPlace_nil (P : List α → α → Prop) : AtEachPlace P [] := fun _ _ h => absurd (List.prefix_nil.mp h) (by simp)

theorem atEachPlace_concat {P : List α → α → Prop} {as : List α} {a : α} :
    AtEachPlace P (as ++ [a]) ↔ AtEachPlace P as ∧ P as a := by
  constructor
  · intro h
    exact ⟨fun bs b hb => h bs b (hb.trans (List.prefix_append _ _)), h as a List.prefix_rfl⟩
  · rintro ⟨has, ha⟩ bs b hb
    rcases List.prefix_concat_iff.mp hb with heq | hb
    · obtain ⟨rfl, rfl⟩ := List.append_singleton_inj.mp heq
      exact ha
    · exact has bs b hb

/-- **Where a promise is kept.**  If at every place that the invariant reaches the
promise is kept exactly by good actions, and good actions carry the invariant on,
then it is kept throughout exactly when every action is good. -/
theorem atEachPlace_iff {P G : List α → α → Prop} (I : List α → Prop) (hnil : I []) (as : List α)
    (hiff : ∀ bs a, bs ++ [a] <+: as → I bs → (P bs a ↔ G bs a))
    (hnext : ∀ bs a, bs ++ [a] <+: as → I bs → G bs a → I (bs ++ [a])) :
    AtEachPlace P as ↔ AtEachPlace G as := by
  suffices hboth : ∀ bs, bs <+: as → (AtEachPlace P bs ↔ AtEachPlace G bs) ∧ (AtEachPlace G bs → I bs) from
    (hboth as List.prefix_rfl).1
  intro bs hbs
  induction bs using List.reverseRecOn with
  | nil => exact ⟨⟨fun _ => atEachPlace_nil G, fun _ => atEachPlace_nil P⟩, fun _ => hnil⟩
  | append_singleton bs a ih =>
      obtain ⟨ihiff, ihI⟩ := ih ((List.prefix_append bs [a]).trans hbs)
      rw [atEachPlace_concat, atEachPlace_concat, ihiff]
      exact ⟨and_congr_right fun hgood => hiff bs a hbs (ihI hgood),
        fun hgood => hnext bs a hbs (ihI hgood.1) hgood.2⟩

end Places

/-! The last entry of a kind in a history. -/

section Last

variable {α : Type} {f g : α → Bool} {l : List α} {x y : α}

/-- `y` is the last entry of `l` that satisfies `f`. -/
def LastWhere (f : α → Bool) (l : List α) (y : α) : Prop :=
  f y = true ∧ ∃ before after, l = before ++ y :: after ∧ ∀ z ∈ after, f z = false

theorem LastWhere.concat_self (hy : f y = true) : LastWhere f (l ++ [y]) y := by
  refine ⟨hy, l, [], rfl, ?_⟩
  intro z hz
  cases hz

/-- An entry of another kind does not count. -/
theorem LastWhere.concat (h : LastWhere f l y) (hx : f x = false) : LastWhere f (l ++ [x]) y := by
  obtain ⟨hy, before, after, hl, hafter⟩ := h
  refine ⟨hy, before, after ++ [x], ?_, forall_mem_concat hafter hx⟩
  rw [hl, List.append_assoc]
  rfl

/-- One more entry is the last of its kind, and leaves the last of the others. -/
theorem lastWhere_concat_iff :
    LastWhere f (l ++ [x]) y ↔ f x = true ∧ y = x ∨ f x = false ∧ LastWhere f l y := by
  constructor
  · rintro ⟨hy, before, after, hl, hafter⟩
    induction after using List.reverseRecOn with
    | nil =>
        obtain rfl : x = y := (List.append_singleton_inj.mp hl).2
        exact .inl ⟨hy, rfl⟩
    | append_singleton after z _ =>
        rw [← List.cons_append, ← List.append_assoc] at hl
        obtain ⟨hbefore, rfl⟩ := List.append_singleton_inj.mp hl
        exact .inr ⟨hafter x (List.mem_append_right _ List.mem_cons_self), hy, before, after, hbefore,
          fun w hw => hafter w (List.mem_append_left _ hw)⟩
  · rintro (⟨hx, rfl⟩ | ⟨hx, h⟩)
    · exact LastWhere.concat_self hx
    · exact h.concat hx

/-- The last of a kind is the last of each kind in it that it belongs to. -/
theorem LastWhere.narrow (h : LastWhere f l y) (hg : g y = true)
    (hgf : ∀ z, g z = true → f z = true) : LastWhere g l y := by
  obtain ⟨_, before, after, hl, hafter⟩ := h
  refine ⟨hg, before, after, hl, ?_⟩
  intro z hz
  by_contra hgz
  have hfz := hgf z (eq_true_of_ne_false hgz)
  rw [hafter z hz] at hfz
  cases hfz

end Last

end Foundation
