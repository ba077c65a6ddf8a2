/-
  PredictIQ.Foundation.CycleSearch: a depth-first search for a cycle.

  Nodes are white, grey while the search is inside them, black once it left
  them.  The path holds the grey nodes, from the root on.  A grey neighbour
  closes a cycle, which is the path from it on.  The search neither invents nor
  misses one: what it returns is a cycle, and if it returns none there is none.
-/
import Mathlib.Data.List.Chain
import Mathlib.Data.List.Nodup
import Mathlib.Data.List.Perm.Subperm
import Mathlib.Logic.Function.Basic
import Mathlib.Logic.Relation

namespace Foundation

inductive Color
  | white | grey | black
  deriving DecidableEq, Repr

/-- What a search carries along. -/
structure Search (α : Type) where
  color : α → Color
  path : List α

/-- Why a search stops early: a cycle, or a recursion deeper than allowed. -/
inductive Stop (α : Type)
  | cycle (nodes : List α)
  | depth

section Searches

variable {α : Type} (next : α → List α)

/-! ## §1. The search. -/

/-- Into a node. -/
def Search.enter [DecidableEq α] (s : Search α) (n : α) : Search α :=
  { color := Function.update s.color n .grey, path := s.path ++ [n] }

/-- Out of it again. -/
def Search.leave [DecidableEq α] (s : Search α) (n : α) : Search α :=
  { color := Function.update s.color n .black, path := s.path.dropLast }

/-- The part of the path that an edge back to `n` closes. -/
def closedBy [DecidableEq α] (n : α) (path : List α) : Option (List α) :=
  if n ∈ path then some (path.dropWhile (· ≠ n) ++ [n]) else none

/-- The neighbours one after the other; `go` searches from one of them. -/
def scan [DecidableEq α] (go : α → Search α → Except (Stop α) (Search α)) :
    List α → Search α → Except (Stop α) (Search α)
  | [], s => .ok s
  | n :: ns, s =>
      match if s.color n = .grey then closedBy n s.path else none with
      | some cycle => .error (.cycle cycle)
      | none => go n s >>= scan go ns

def visit [DecidableEq α] : Nat → α → Search α → Except (Stop α) (Search α)
  | 0, _, _ => .error .depth
  | depth + 1, n, s => do
      let s' ← scan (visit depth) (next n) (s.enter n)
      return s'.leave n

/-- From every node of a list that is still white. -/
def searchAll [DecidableEq α] (depth : Nat) : List α → Search α → Except (Stop α) (Search α)
  | [], s => .ok s
  | n :: ns, s =>
      if s.color n = .white then visit next depth n s >>= searchAll depth ns else searchAll depth ns s

/-- Before the search. -/
def Search.start : Search α := ⟨fun _ => .white, []⟩

/-! ## §2. Cycles. -/

/-- An edge of the graph. -/
def Edge (a b : α) : Prop := b ∈ next a

/-- A closed walk, with its first node repeated at the end. -/
def IsCycle (c : List α) : Prop := ∃ n mid, c = n :: mid ++ [n] ∧ c.IsChain (Edge next)

/-- No way from a node leads to a cycle. -/
def ClearFrom (n : α) : Prop :=
  ∀ m, Relation.ReflTransGen (Edge next) n m → ¬Relation.TransGen (Edge next) m m

def Acyclic : Prop := ∀ n, ¬Relation.TransGen (Edge next) n n

variable {next}

theorem transGen_of_isChain {n m : α} {mid : List α} (h : (n :: mid ++ [m]).IsChain (Edge next)) :
    Relation.TransGen (Edge next) n m := by
  induction mid generalizing n with
  | nil => exact .single (List.isChain_pair.mp h)
  | cons k mid ih =>
      obtain ⟨hnk, hrest⟩ := List.isChain_cons_cons.mp h
      exact .head hnk (ih hrest)

theorem IsCycle.not_acyclic {c : List α} (h : IsCycle next c) : ¬Acyclic next := by
  obtain ⟨n, mid, rfl, hchain⟩ := h
  exact fun hacyclic => hacyclic n (transGen_of_isChain hchain)

theorem clearFrom_of_next {n : α} (h : ∀ m ∈ next n, ClearFrom next m) : ClearFrom next n := by
  intro m hnm hcycle
  rcases Relation.ReflTransGen.cases_head hnm with rfl | ⟨k, hk, hkm⟩
  · -- a cycle through the node itself goes through a neighbour
    obtain ⟨k, hk, hkn⟩ := Relation.TransGen.head'_iff.mp hcycle
    exact h k hk n hkn hcycle
  · exact h k hk m hkm hcycle

/-! ## §3. The invariant. -/

variable (next) in
/-- The path is the grey nodes in the order of a walk, and black nodes are clear. -/
structure Search.Sound (s : Search α) : Prop where
  grey : ∀ n, s.color n = .grey ↔ n ∈ s.path
  nodup : s.path.Nodup
  walk : s.path.IsChain (Edge next)
  black : ∀ n, s.color n = .black → ClearFrom next n

theorem Search.Sound.start : Search.Sound next Search.start :=
  ⟨fun n => by simp [Search.start], List.nodup_nil, .nil, fun n h => by cases h⟩

variable [DecidableEq α]

/-- Entering a new node that the last one leads to. -/
theorem Search.Sound.enter {s : Search α} (h : s.Sound next) {n : α} (hnew : n ∉ s.path)
    (hedge : ∀ m ∈ s.path.getLast?, Edge next m n) : (s.enter n).Sound next := by
  refine ⟨fun m => ?_, ?_, ?_, fun m hm => ?_⟩
  · show Function.update s.color n .grey m = .grey ↔ m ∈ s.path ++ [n]
    rw [Function.update_apply, List.mem_append, List.mem_singleton]
    by_cases hm : m = n
    · simp [hm]
    · simp [hm, h.grey m]
  · show (s.path ++ [n]).Nodup
    exact List.nodup_append.mpr ⟨h.nodup, List.nodup_singleton n, fun a ha b hb => by
      rw [List.mem_singleton.mp hb]
      exact fun hab => hnew (hab ▸ ha)⟩
  · show (s.path ++ [n]).IsChain (Edge next)
    refine List.isChain_append.mpr ⟨h.walk, .singleton n, ?_⟩
    intro m hm k hk
    obtain rfl : n = k := Option.some.inj hk
    exact hedge m hm
  · change Function.update s.color n .grey m = .black at hm
    rw [Function.update_apply] at hm
    split at hm
    · cases hm
    · exact h.black m hm

/-- Leaving the last node, once it is clear. -/
theorem Search.Sound.leave {s : Search α} (h : s.Sound next) {n : α} {path : List α}
    (hpath : s.path = path ++ [n]) (hclear : ClearFrom next n) : (s.leave n).Sound next := by
  have hleft : (s.leave n).path = path := by
    show s.path.dropLast = path
    rw [hpath, List.dropLast_concat]
  have hnodup := h.nodup
  rw [hpath, List.nodup_append] at hnodup
  obtain ⟨hpathNodup, _, hdisjoint⟩ := hnodup
  refine ⟨fun m => ?_, ?_, ?_, fun m hm => ?_⟩
  · rw [hleft]
    show Function.update s.color n .black m = .grey ↔ m ∈ path
    rw [Function.update_apply]
    by_cases hm : m = n
    · rw [if_pos hm, hm]
      exact iff_of_false (fun hb => nomatch hb) fun hmem => hdisjoint n hmem n List.mem_cons_self rfl
    · rw [if_neg hm, h.grey m, hpath, List.mem_append, List.mem_singleton]
      exact ⟨fun hmem => hmem.resolve_right hm, Or.inl⟩
  · rw [hleft]
    exact hpathNodup
  · rw [hleft]
    have hwalk := h.walk
    rw [hpath] at hwalk
    exact (List.isChain_append.mp hwalk).1
  · change Function.update s.color n .black m = .black at hm
    rw [Function.update_apply] at hm
    split at hm
    · rename_i hmn
      rw [hmn]
      exact hclear
    · exact h.black m hm

/-- An edge from the end of the path back into it closes a cycle. -/
theorem isCycle_closedBy {path : List α} {last n : α} {c : List α} (hwalk : path.IsChain (Edge next))
    (hlast : path.getLast? = some last) (hedge : Edge next last n) (h : closedBy n path = some c) :
    IsCycle next c := by
  unfold closedBy at h
  split at h
  · rename_i hmem
    obtain rfl := Option.some.inj h
    obtain ⟨front, back, rfl, hfront⟩ := List.eq_append_cons_of_mem hmem
    have hdrop : (front ++ n :: back).dropWhile (· ≠ n) = n :: back := by
      rw [List.dropWhile_append_of_pos fun m hm => by
        have hne : m ≠ n := fun heq => hfront (heq ▸ hm)
        simpa using hne]
      exact List.dropWhile_cons_of_neg (by simp)
    rw [hdrop]
    refine ⟨n, back, rfl, List.isChain_append.mpr ⟨(List.isChain_append.mp hwalk).2.1, .singleton n, ?_⟩⟩
    intro m hm k hk
    obtain rfl : n = k := Option.some.inj hk
    -- the end of the cycle is the end of the path
    rw [List.getLast?_append_of_ne_nil _ (List.cons_ne_nil n back)] at hlast
    obtain rfl : last = m := Option.some.inj (hlast.symm.trans hm)
    exact hedge
  · cases h

/-! ## §4. What a search finds. -/

variable (next) in
/-- What came of looking at nodes: a cycle, or they are all black now, the path
is as it was, and what was black still is. -/
def Sought (s : Search α) (ns : List α) : Except (Stop α) (Search α) → Prop
  | .ok s' => s'.Sound next ∧ s'.path = s.path ∧ (∀ n ∈ ns, s'.color n = .black)
      ∧ ∀ n, s.color n = .black → s'.color n = .black
  | .error (.cycle c) => IsCycle next c
  | .error .depth => False

omit [DecidableEq α] in
/-- One look after the other. -/
theorem Sought.andThen {s : Search α} {ns ms : List α} {r : Except (Stop α) (Search α)}
    {rest : Search α → Except (Stop α) (Search α)} (h : Sought next s ns r)
    (hrest : ∀ s' : Search α, s'.Sound next → s'.path = s.path → (∀ n ∈ ns, s'.color n = .black) →
      Sought next s' ms (rest s')) : Sought next s (ns ++ ms) (r >>= rest) := by
  cases r with
  | error stop => cases stop <;> exact h
  | ok s' =>
      obtain ⟨hs', hpath, hblack, hkeeps⟩ := h
      have hafter := hrest s' hs' hpath hblack
      show Sought next s (ns ++ ms) (rest s')
      cases hres : rest s' with
      | error stop =>
          rw [hres] at hafter
          cases stop <;> exact hafter
      | ok t =>
          rw [hres] at hafter
          obtain ⟨ht, htpath, htblack, htkeeps⟩ := hafter
          refine ⟨ht, htpath.trans hpath, ?_, fun m hm => htkeeps m (hkeeps m hm)⟩
          intro m hm
          rcases List.mem_append.mp hm with hm | hm
          · exact htkeeps m (hblack m hm)
          · exact htblack m hm

/-- The neighbours of the last node, if searching from each is as it should be. -/
theorem scan_sought {go : α → Search α → Except (Stop α) (Search α)} {last : α} {ns : List α} {s : Search α}
    (hs : s.Sound next) (hlast : s.path.getLast? = some last) (hns : ∀ n ∈ ns, Edge next last n)
    (hgo : ∀ n ∈ ns, ∀ s' : Search α, s'.Sound next → s'.path = s.path → n ∉ s'.path →
      Sought next s' [n] (go n s')) :
    Sought next s ns (scan go ns s) := by
  induction ns generalizing s with
  | nil => exact ⟨hs, rfl, fun n hn => absurd hn List.not_mem_nil, fun n h => h⟩
  | cons n ns ih =>
      rw [scan]
      by_cases hgrey : s.color n = .grey
      · -- an edge back into the path
        have hclosed : closedBy n s.path = some (s.path.dropWhile (· ≠ n) ++ [n]) := if_pos ((hs.grey n).mp hgrey)
        rw [if_pos hgrey, hclosed]
        exact isCycle_closedBy hs.walk hlast (hns n List.mem_cons_self) hclosed
      · rw [if_neg hgrey]
        have hnew : n ∉ s.path := fun hmem => hgrey ((hs.grey n).mpr hmem)
        refine (hgo n List.mem_cons_self s hs rfl hnew).andThen ?_
        intro s' hs' hpath _
        exact ih hs' (hpath ▸ hlast) (fun m hm => hns m (List.mem_cons_of_mem _ hm))
          fun m hm t ht htpath => hgo m (List.mem_cons_of_mem _ hm) t ht (htpath.trans hpath)

omit [DecidableEq α] in
/-- A path of different nodes is no longer than the nodes there are. -/
theorem length_path_lt {nodes path : List α} {n : α} (hnodup : path.Nodup) (hsub : path ⊆ nodes)
    (hn : n ∈ nodes) (hnew : n ∉ path) : path.length < nodes.length := by
  have hcons : (n :: path).Nodup := List.nodup_cons.mpr ⟨hnew, hnodup⟩
  have hsub' : n :: path ⊆ nodes := List.cons_subset.mpr ⟨hn, hsub⟩
  exact (hcons.subperm hsub').length_le

section Closed

variable {nodes : List α} (hnodes : ∀ n ∈ nodes, ∀ m ∈ next n, m ∈ nodes)
include hnodes

/-- **Searching from a node**: a cycle, or the node is clear; and a search that
may go as deep as there are nodes never stops for its depth. -/
theorem visit_sought {depth : Nat} {n : α} {s : Search α} (hs : s.Sound next) (hnew : n ∉ s.path)
    (hedge : ∀ m ∈ s.path.getLast?, Edge next m n) (hn : n ∈ nodes) (hsub : s.path ⊆ nodes)
    (hdepth : nodes.length ≤ s.path.length + depth) :
    Sought next s [n] (visit next depth n s) := by
  have hlen := length_path_lt hs.nodup hsub hn hnew
  induction depth generalizing n s with
  | zero => omega
  | succ depth ih =>
      have hin := hs.enter hnew hedge
      have hpath : (s.enter n).path = s.path ++ [n] := rfl
      have hsub' : (s.enter n).path ⊆ nodes := by
        rw [hpath]
        exact List.append_subset.mpr ⟨hsub, List.cons_subset.mpr ⟨hn, List.nil_subset _⟩⟩
      have hscan : Sought next (s.enter n) (next n) (scan (visit next depth) (next n) (s.enter n)) := by
        refine scan_sought hin List.getLast?_concat (fun m hm => hm) ?_
        intro m hm t ht htpath hmnew
        have hmn : m ∈ nodes := hnodes n hn m hm
        have htsub : t.path ⊆ nodes := htpath ▸ hsub'
        refine ih ht hmnew ?_ hmn htsub ?_ (length_path_lt ht.nodup htsub hmn hmnew)
        · intro k hk
          rw [htpath, hpath, List.getLast?_concat] at hk
          obtain rfl := Option.some.inj hk
          exact hm
        · rw [htpath, hpath, List.length_append, List.length_singleton]
          omega
      rw [visit]
      cases hres : scan (visit next depth) (next n) (s.enter n) with
      | error stop =>
          rw [hres] at hscan
          cases stop <;> exact hscan
      | ok s' =>
          rw [hres] at hscan
          obtain ⟨hs', hpath', hblack, hkeeps⟩ := hscan
          have hclear : ClearFrom next n := clearFrom_of_next fun m hm => hs'.black m (hblack m hm)
          refine ⟨hs'.leave (hpath'.trans hpath) hclear, ?_, ?_, ?_⟩
          · show s'.path.dropLast = s.path
            rw [hpath', hpath, List.dropLast_concat]
          · intro m hm
            rw [List.mem_singleton.mp hm]
            exact Function.update_self ..
          · intro m hm
            show Function.update s'.color n .black m = .black
            rw [Function.update_apply]
            split
            · rfl
            · rename_i hmn
              refine hkeeps m ?_
              show Function.update s.color n .grey m = .black
              rw [Function.update_of_ne hmn, hm]

theorem searchAll_sought {depth : Nat} {ns : List α} {s : Search α} (hs : s.Sound next)
    (hempty : s.path = []) (hns : ns ⊆ nodes) (hdepth : nodes.length ≤ depth) :
    Sought next s ns (searchAll next depth ns s) := by
  induction ns generalizing s with
  | nil => exact ⟨hs, rfl, fun n hn => absurd hn List.not_mem_nil, fun n h => h⟩
  | cons n ns ih =>
      obtain ⟨hn, hrest⟩ := List.cons_subset.mp hns
      have hnew : n ∉ s.path := by
        rw [hempty]
        exact List.not_mem_nil
      rw [searchAll]
      split
      · have hone : Sought next s [n] (visit next depth n s) :=
          visit_sought hnodes hs hnew (by rw [hempty]; exact fun m hm => nomatch hm) hn
            (by rw [hempty]; exact List.nil_subset _) (by omega)
        exact hone.andThen fun s' hs' hpath _ => ih hs' (hpath.trans hempty) hrest
      · rename_i hwhite
        -- a node that is neither white nor on the path is black
        have hblack : s.color n = .black := by
          cases hc : s.color n with
          | white => exact absurd hc hwhite
          | grey => exact absurd ((hs.grey n).mp hc) hnew
          | black => rfl
        have hone : Sought next s [n] (.ok s) :=
          ⟨hs, rfl, fun m hm => List.mem_singleton.mp hm ▸ hblack, fun m h => h⟩
        have htwo := hone.andThen fun s' hs' hpath _ => ih hs' (hpath.trans hempty) hrest
        exact htwo

/-- **The search is exact.**  Over all nodes it ends in a cycle of the graph, or
in a search state, and then the graph has no cycle. -/
theorem searchAll_exact {depth : Nat} (hdepth : nodes.length ≤ depth) (hall : ∀ n m, m ∈ next n → n ∈ nodes) :
    (∃ c, searchAll next depth nodes Search.start = .error (.cycle c) ∧ IsCycle next c)
      ∨ (∃ s, searchAll next depth nodes Search.start = .ok s) ∧ Acyclic next := by
  have hsought : Sought next Search.start nodes (searchAll next depth nodes Search.start) :=
    searchAll_sought hnodes .start rfl (List.Subset.refl _) hdepth
  cases hres : searchAll next depth nodes Search.start with
  | error stop =>
      rw [hres] at hsought
      cases stop with
      | cycle c => exact .inl ⟨c, rfl, hsought⟩
      | depth => exact hsought.elim
  | ok s =>
      rw [hres] at hsought
      obtain ⟨hs, _, hblack, _⟩ := hsought
      refine .inr ⟨⟨s, rfl⟩, ?_⟩
      intro n hcycle
      -- a node on a cycle has an edge, so it was looked at
      obtain ⟨m, hm, _⟩ := Relation.TransGen.head'_iff.mp hcycle
      exact hs.black n (hblack n (hall n m hm)) n .refl hcycle

end Closed

end Searches

end Foundation
