/-
  PredictIQ.Foundation.Pages: reading a list page by page.

  A page holds at most `n` of the items that come after a cursor and are in
  reach; the cursor is the key of the last item of the page before.  Between
  two pages the reach may grow.  Whoever reads until a page comes back short
  has read all that was in reach from the start: `mem_of_reads`.
-/
import Mathlib.Data.List.Basic

namespace Foundation

namespace Pages

variable {α κ : Type} [DecidableEq κ] (key : α → κ)

/-- The items behind a cursor; without a cursor, all of them. -/
def after (cursor : Option κ) (xs : List α) : List α :=
  match cursor with
  | none => xs
  | some k => (xs.dropWhile fun x => key x ≠ k).tail

/-- One page. -/
def page (n : Nat) (reach : α → Bool) (cursor : Option κ) (xs : List α) : List α :=
  ((after key cursor xs).filter reach).take n

/-- Page after page, from a cursor up to the first short one. -/
inductive Reads (n : Nat) (xs : List α) (wanted : α → Bool) : Option κ → List α → Prop where
  | last (cursor : Option κ) (reach : α → Bool) : (∀ x, wanted x = true → reach x = true) →
      (page key n reach cursor xs).length < n → Reads n xs wanted cursor (page key n reach cursor xs)
  | more (cursor : Option κ) (reach : α → Bool) (front : List α) (x : α) (rest : List α) :
      (∀ y, wanted y = true → reach y = true) → page key n reach cursor xs = front ++ [x] →
      Reads n xs wanted (some (key x)) rest → Reads n xs wanted cursor (front ++ [x] ++ rest)

variable {key} {n : Nat} {xs : List α} {reach wanted : α → Bool} {cursor : Option κ}

/-- What comes behind an item of a list without repeated keys. -/
theorem after_key {front back : List α} {x : α} (hxs : xs = front ++ x :: back) (hkeys : (xs.map key).Nodup) :
    after key (some (key x)) xs = back := by
  have hfront : ∀ y ∈ front, key y ≠ key x := by
    intro y hy heq
    subst hxs
    rw [List.map_append, List.map_cons] at hkeys
    exact (List.nodup_append.mp hkeys).2.2 (key y) (List.mem_map_of_mem hy) (key x) List.mem_cons_self heq
  have hdrop : xs.dropWhile (fun y => key y ≠ key x) = x :: back := by
    rw [hxs, List.dropWhile_append_of_pos (by simpa using hfront)]
    exact List.dropWhile_cons_of_neg (by simp)
  show (xs.dropWhile fun y => key y ≠ key x).tail = back
  rw [hdrop]
  rfl

variable (key) in
theorem after_suffix (cursor : Option κ) (xs : List α) : after key cursor xs <:+ xs := by
  cases cursor with
  | none => exact List.suffix_rfl
  | some k => exact (List.tail_suffix _).trans (List.dropWhile_suffix _)

/-- A short page holds everything in reach. -/
theorem mem_page_of_short (hshort : (page key n reach cursor xs).length < n) {x : α}
    (hx : x ∈ after key cursor xs) (hreach : reach x = true) : x ∈ page key n reach cursor xs := by
  have hmem : x ∈ (after key cursor xs).filter reach := List.mem_filter.mpr ⟨hx, hreach⟩
  unfold page at hshort ⊢
  rw [List.length_take] at hshort
  rwa [List.take_of_length_le (by omega)]

/-- It holds all of that, in order. -/
theorem page_eq_of_short (hshort : (page key n reach cursor xs).length < n) :
    page key n reach cursor xs = (after key cursor xs).filter reach := by
  unfold page at hshort ⊢
  rw [List.length_take] at hshort
  exact List.take_of_length_le (by omega)

/-- What is in reach is on the page, and then behind its last item. -/
theorem filter_after_eq (hkeys : (xs.map key).Nodup) {front : List α} {x : α}
    (hpage : page key n reach cursor xs = front ++ [x]) :
    (after key cursor xs).filter reach = front ++ [x] ++ (after key (some (key x)) xs).filter reach := by
  obtain ⟨before, hbefore⟩ := after_suffix key cursor xs
  -- the last item of the page, where it stands in the list
  have htake : (front ++ [x]) ++ ((after key cursor xs).filter reach).drop n = (after key cursor xs).filter reach := by
    rw [← hpage]
    exact List.take_append_drop n _
  obtain ⟨left, right, hsplit, hleft, hright⟩ := List.filter_eq_append_iff.mp htake.symm
  obtain ⟨l₁, l₂, rfl, hl₁, hl₂⟩ := List.filter_eq_append_iff.mp hleft
  obtain ⟨m₁, m₂, rfl, hm₁, hxreach, hm₂⟩ := List.filter_eq_cons_iff.mp hl₂
  have hback : after key (some (key x)) xs = m₂ ++ right := by
    have hxs : xs = (before ++ l₁ ++ m₁) ++ x :: (m₂ ++ right) := by
      rw [← hbefore, hsplit]
      simp only [List.append_assoc, List.cons_append]
    exact after_key hxs hkeys
  rw [hback, List.filter_append, hm₂, List.nil_append, hright]
  exact htake.symm

/-- What is in reach is on the page, or behind its last item. -/
theorem mem_page_or_after (hkeys : (xs.map key).Nodup) {front : List α} {x y : α}
    (hpage : page key n reach cursor xs = front ++ [x]) (hy : y ∈ after key cursor xs) (hreach : reach y = true) :
    y ∈ front ++ [x] ∨ y ∈ after key (some (key x)) xs := by
  have hmem : y ∈ (after key cursor xs).filter reach := List.mem_filter.mpr ⟨hy, hreach⟩
  rw [filter_after_eq hkeys hpage, List.mem_append] at hmem
  exact hmem.imp_right fun h => (List.mem_filter.mp h).1

/-- **Reading to the end** misses nothing that was wanted all the time. -/
theorem mem_of_reads (hkeys : (xs.map key).Nodup) {ys : List α} (h : Reads key n xs wanted cursor ys) :
    ∀ x ∈ after key cursor xs, wanted x = true → x ∈ ys := by
  induction h with
  | last cursor reach hreach hshort => exact fun x hx hw => mem_page_of_short hshort hx (hreach x hw)
  | more cursor reach front last rest hreach hpage _ ih =>
      intro x hx hw
      rcases mem_page_or_after hkeys hpage hx (hreach x hw) with hpage | hafter
      · exact List.mem_append_left _ hpage
      · exact List.mem_append_right _ (ih x hafter hw)

/-- What is on a page is in reach. -/
theorem reach_of_mem_page {x : α} (hx : x ∈ page key n reach cursor xs) : x ∈ xs ∧ reach x = true := by
  have hx := List.mem_filter.mp (List.mem_of_mem_take hx)
  exact ⟨(after_suffix key cursor xs).subset hx.1, hx.2⟩

end Pages

end Foundation
