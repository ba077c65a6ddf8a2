/-
  PredictIQ.Foundation.Markup: texts without tags and with single spaces.

  A tag goes from an opening mark to the next closing mark, whatever is
  between; an opening mark without a closing mark behind it is no tag.  `tidy`
  takes the tags out, makes one space of every run of white space and trims.
  What it leaves is `Tidy`, is left as it is by another call, and is nothing
  exactly when nothing but white space is outside the tags.
-/
import PredictIQ.Foundation.Strips
import Mathlib.Data.List.Chain

namespace Foundation

/-- The marks of a tag, and white space, one letter of which is the space. -/
structure Marks (α : Type) where
  isSpace : α → Bool
  space : α
  opening : α
  closing : α
  isSpace_space : isSpace space = true
  isSpace_opening : isSpace opening = false
  isSpace_closing : isSpace closing = false
  opening_ne_closing : opening ≠ closing

namespace Marks

variable {α : Type} [DecidableEq α] (M : Marks α)

/-! ## §1. Three passes. -/

/-- Without tags; `inTag` says that one has been opened. -/
def stripTags (inTag : Bool) : List α → List α
  | [] => []
  | c :: rest =>
      if inTag then stripTags (decide (c ≠ M.closing)) rest
      else if c = M.opening ∧ M.closing ∈ rest then stripTags true rest
      else c :: stripTags false rest

omit [DecidableEq α] in
/-- One space for each run; `after` says that a space was written last. -/
def collapse (after : Bool) : List α → List α
  | [] => []
  | c :: rest =>
      if M.isSpace c then if after then collapse true rest else M.space :: collapse true rest
      else c :: collapse false rest

def tidy (text : List α) : List α := strip M.isSpace (M.collapse false (M.stripTags false text))

/-- No opening mark is before a closing mark, all white space are single spaces,
and none of them is at an end. -/
structure Tidy (text : List α) : Prop where
  noTag : ¬[M.opening, M.closing].Sublist text
  plain : ∀ c ∈ text, M.isSpace c = true → c = M.space
  single : text.IsChain fun c d => ¬(M.isSpace c = true ∧ M.isSpace d = true)
  head : ∀ c ∈ text.head?, M.isSpace c = false
  last : ∀ c ∈ text.getLast?, M.isSpace c = false

/-- A place that is in no tag: nothing was opened since the last closing mark
before it, or nothing is closed from it on. -/
def Outside (before : List α) (c : α) (after : List α) : Prop :=
  M.opening ∉ before.rtakeWhile (· ≠ M.closing) ++ [c] ∨ M.closing ∉ c :: after

variable {M} {text rest before : List α} {inTag after : Bool} {c : α}

/-! ## §2. Tags. -/

theorem stripTags_cons : M.stripTags inTag (c :: rest) =
    if inTag then M.stripTags (decide (c ≠ M.closing)) rest
    else if c = M.opening ∧ M.closing ∈ rest then M.stripTags true rest
    else c :: M.stripTags false rest := rfl

theorem stripTags_sublist (inTag : Bool) (text : List α) : (M.stripTags inTag text).Sublist text := by
  induction text generalizing inTag with
  | nil => exact List.Sublist.refl []
  | cons c rest ih =>
      rw [stripTags_cons]
      split
      · exact (ih _).cons c
      · split
        · exact (ih _).cons c
        · exact (ih _).cons_cons c

/-- **No tag is left**: an opening mark stays only when no closing mark follows. -/
theorem noTag_stripTags (inTag : Bool) (text : List α) : ¬[M.opening, M.closing].Sublist (M.stripTags inTag text) := by
  induction text generalizing inTag with
  | nil => exact fun h => nomatch h
  | cons c rest ih =>
      rw [stripTags_cons]
      split
      · exact ih _
      · split
        · exact ih _
        · next hopen =>
            intro h
            rcases List.cons_sublist_cons'.mp h with hrest | ⟨hc, hrest⟩
            · exact ih false hrest
            · exact hopen ⟨hc.symm, (stripTags_sublist false rest).subset (List.singleton_sublist.mp hrest)⟩

/-- A text without a tag stays as it is. -/
theorem stripTags_eq_self (h : ¬[M.opening, M.closing].Sublist text) : M.stripTags false text = text := by
  induction text with
  | nil => rfl
  | cons c rest ih =>
      rw [stripTags_cons, if_neg Bool.false_ne_true, if_neg ?_, ih fun hrest => h (hrest.cons c)]
      rintro ⟨rfl, hclosing⟩
      exact h ((List.singleton_sublist.mpr hclosing).cons_cons _)

/-- What is outside tags is the first place, or a place behind it. -/
theorem exists_outside_cons_iff {d : α} {rest : List α} :
    (∃ front back, d :: rest = front ++ c :: back ∧ M.Outside (before ++ front) c back)
      ↔ (c = d ∧ M.Outside before d rest) ∨ ∃ front back, rest = front ++ c :: back
        ∧ M.Outside (before ++ [d] ++ front) c back := by
  constructor
  · rintro ⟨front, back, hsplit, houtside⟩
    cases front with
    | nil =>
        obtain ⟨rfl, rfl⟩ := List.cons.inj hsplit
        exact .inl ⟨rfl, by rwa [List.append_nil] at houtside⟩
    | cons e front =>
        obtain ⟨rfl, rfl⟩ := List.cons.inj hsplit
        exact .inr ⟨front, back, rfl, by rwa [List.append_assoc]⟩
  · rintro (⟨rfl, houtside⟩ | ⟨front, back, rfl, houtside⟩)
    · exact ⟨[], rest, rfl, by rwa [List.append_nil]⟩
    · exact ⟨d :: front, back, rfl, by rwa [List.append_assoc] at houtside⟩

/-- **What is left** are the places outside tags. -/
theorem mem_stripTags_of (hin : inTag = true ↔ M.opening ∈ before.rtakeWhile (· ≠ M.closing) ∧ M.closing ∈ text) :
    c ∈ M.stripTags inTag text ↔ ∃ front back, text = front ++ c :: back ∧ M.Outside (before ++ front) c back := by
  induction text generalizing inTag before with
  | nil => simp [stripTags]
  | cons d rest ih =>
      have hsince : (before ++ [d]).rtakeWhile (· ≠ M.closing)
          = if d = M.closing then [] else before.rtakeWhile (· ≠ M.closing) ++ [d] := by
        rw [List.rtakeWhile_concat]
        by_cases hd : d = M.closing <;> simp [hd]
      rw [exists_outside_cons_iff, stripTags_cons]
      unfold Outside at *
      cases inTag with
      | true =>
          -- inside a tag, which the character ends or goes on with
          obtain ⟨hopening, hclosing⟩ := hin.mp rfl
          rw [if_pos rfl, @ih (before ++ [d])]
          · refine ⟨.inr, fun h => h.resolve_left ?_⟩
            rintro ⟨-, hout | hout⟩
            · exact hout (List.mem_append_left _ hopening)
            · exact hout hclosing
          · rw [hsince, decide_eq_true_iff]
            by_cases hd : d = M.closing
            · simp [hd]
            · rw [if_neg hd]
              have hrest := (List.mem_cons.mp hclosing).resolve_left (Ne.symm hd)
              exact iff_of_true hd ⟨List.mem_append_left _ hopening, hrest⟩
      | false =>
          have hnot : ¬(M.opening ∈ before.rtakeWhile (· ≠ M.closing) ∧ M.closing ∈ d :: rest) := fun h =>
            Bool.false_ne_true (hin.mpr h)
          rw [if_neg Bool.false_ne_true]
          by_cases hopen : d = M.opening ∧ M.closing ∈ rest
          · -- a tag begins only where it ends somewhere
            obtain ⟨rfl, hclosing⟩ := hopen
            rw [if_pos ⟨rfl, hclosing⟩, @ih (before ++ [M.opening])]
            · refine ⟨.inr, fun h => h.resolve_left ?_⟩
              rintro ⟨-, hout | hout⟩
              · exact hout (List.mem_append_right _ List.mem_cons_self)
              · exact hout (List.mem_cons_of_mem _ hclosing)
            · rw [hsince, if_neg M.opening_ne_closing]
              exact iff_of_true rfl ⟨List.mem_append_right _ List.mem_cons_self, hclosing⟩
          · rw [if_neg hopen, List.mem_cons, @ih (before ++ [d])]
            · have hout : M.opening ∉ before.rtakeWhile (· ≠ M.closing) ++ [d] ∨ M.closing ∉ d :: rest := by
                by_contra hboth
                rw [not_or, not_not, not_not] at hboth
                obtain ⟨hopening, hclosing⟩ := hboth
                rcases List.mem_append.mp hopening with hopening | hopening
                · exact hnot ⟨hopening, hclosing⟩
                · have hd := (List.mem_singleton.mp hopening).symm
                  exact hopen ⟨hd, (List.mem_cons.mp hclosing).resolve_left (hd ▸ M.opening_ne_closing.symm)⟩
              exact or_congr_left ⟨fun h => ⟨h, hout⟩, And.left⟩
            · rw [hsince]
              refine iff_of_false Bool.false_ne_true ?_
              rintro ⟨hopening, hclosing⟩
              by_cases hd : d = M.closing
              · rw [if_pos hd] at hopening
                cases hopening
              · rw [if_neg hd] at hopening
                rcases List.mem_append.mp hopening with hopening | hopening
                · exact hnot ⟨hopening, List.mem_cons_of_mem _ hclosing⟩
                · exact hopen ⟨(List.mem_singleton.mp hopening).symm, hclosing⟩

theorem mem_stripTags : c ∈ M.stripTags false text ↔
    ∃ front back, text = front ++ c :: back ∧ M.Outside front c back := by
  have hstart : false = true ↔ M.opening ∈ ([] : List α).rtakeWhile (· ≠ M.closing) ∧ M.closing ∈ text := by simp
  exact mem_stripTags_of hstart

/-! ## §3. White space. -/

section Spaces

omit [DecidableEq α]

theorem collapse_cons : M.collapse after (c :: rest) =
    if M.isSpace c then if after then M.collapse true rest else M.space :: M.collapse true rest
    else c :: M.collapse false rest := rfl

/-- The visible letters stay. -/
theorem filter_collapse (after : Bool) (text : List α) :
    (M.collapse after text).filter (fun c => !M.isSpace c) = text.filter fun c => !M.isSpace c := by
  induction text generalizing after with
  | nil => rfl
  | cons c rest ih =>
      rw [collapse_cons]
      by_cases hc : M.isSpace c
      · rw [if_pos hc, List.filter_cons_of_neg (by simp [hc])]
        cases after with
        | true => exact ih true
        | false =>
            rw [if_neg Bool.false_ne_true, List.filter_cons_of_neg (by simp [M.isSpace_space])]
            exact ih true
      · rw [if_neg hc, List.filter_cons_of_pos (by simp [hc]), List.filter_cons_of_pos (by simp [hc]), ih]

theorem length_collapse_le (after : Bool) (text : List α) : (M.collapse after text).length ≤ text.length := by
  induction text generalizing after with
  | nil => exact Nat.le_refl 0
  | cons c rest ih =>
      have hrest := ih true
      have hrest' := ih false
      rw [collapse_cons]
      split
      · split <;> simp only [List.length_cons] <;> omega
      · simp only [List.length_cons]
        omega

theorem plain_collapse (after : Bool) (text : List α) :
    ∀ c ∈ M.collapse after text, M.isSpace c = true → c = M.space := by
  induction text generalizing after with
  | nil => exact nofun
  | cons d rest ih =>
      intro c hc hspace
      rw [collapse_cons] at hc
      split at hc
      · split at hc
        · exact ih true c hc hspace
        · rcases List.mem_cons.mp hc with rfl | hc
          · rfl
          · exact ih true c hc hspace
      · next hd =>
          rcases List.mem_cons.mp hc with rfl | hc
          · exact absurd hspace hd
          · exact ih false c hc hspace

/-- **No two white spaces meet**, and none comes first after a space. -/
theorem single_collapse (after : Bool) (text : List α) :
    (M.collapse after text).IsChain (fun c d => ¬(M.isSpace c = true ∧ M.isSpace d = true))
      ∧ (after = true → ∀ c ∈ (M.collapse after text).head?, M.isSpace c = false) := by
  induction text generalizing after with
  | nil => exact ⟨List.isChain_nil, fun _ => nofun⟩
  | cons c rest ih =>
      rw [collapse_cons]
      by_cases hc : M.isSpace c
      · obtain ⟨hchain, hhead⟩ := ih true
        rw [if_pos hc]
        cases after with
        | true => exact ⟨hchain, hhead⟩
        | false =>
            refine ⟨List.isChain_cons.mpr ⟨fun d hd hboth => ?_, hchain⟩, nofun⟩
            rw [hhead rfl d hd] at hboth
            cases hboth.2
      · obtain ⟨hchain, -⟩ := ih false
        rw [if_neg hc]
        refine ⟨List.isChain_cons.mpr ⟨fun d _ hboth => hc hboth.1, hchain⟩, fun _ d hd => ?_⟩
        obtain rfl := Option.some.inj hd
        exact Bool.eq_false_iff.mpr hc

/-- Single spaces stay as they are. -/
theorem collapse_eq_self (hplain : ∀ c ∈ text, M.isSpace c = true → c = M.space)
    (hsingle : text.IsChain fun c d => ¬(M.isSpace c = true ∧ M.isSpace d = true))
    (hhead : after = true → ∀ c ∈ text.head?, M.isSpace c = false) : M.collapse after text = text := by
  induction text generalizing after with
  | nil => rfl
  | cons c rest ih =>
      obtain ⟨hnext, hchain⟩ := List.isChain_cons.mp hsingle
      have hrest : ∀ after, (after = true → ∀ d ∈ rest.head?, M.isSpace d = false) → M.collapse after rest = rest :=
        fun after h => ih (fun d hd => hplain d (List.mem_cons_of_mem _ hd)) hchain h
      rw [collapse_cons]
      by_cases hc : M.isSpace c
      · have hafter : ¬after = true := fun h => by
          rw [hhead h c rfl] at hc
          cases hc
        rw [if_pos hc, if_neg hafter, hplain c List.mem_cons_self hc, hrest true fun _ d hd => ?_]
        exact Bool.eq_false_iff.mpr fun hspace => hnext d hd ⟨hc, hspace⟩
      · rw [if_neg hc, hrest false nofun]

end Spaces

/-! ## §4. All passes. -/

omit [DecidableEq α] in
/-- A tag is in a text when it is in its visible letters. -/
theorem tag_sublist_filter_iff :
    [M.opening, M.closing].Sublist (text.filter fun c => !M.isSpace c) ↔ [M.opening, M.closing].Sublist text := by
  constructor
  · exact fun h => h.trans List.filter_sublist
  · intro h
    have hfilter := h.filter fun c => !M.isSpace c
    rwa [List.filter_cons_of_pos (by simp [M.isSpace_opening]), List.filter_cons_of_pos (by simp [M.isSpace_closing]),
      List.filter_nil] at hfilter

/-- **What is left is tidy.** -/
theorem tidy_tidy (text : List α) : M.Tidy (M.tidy text) where
  noTag h := by
    have hcollapse := h.trans (strip_sublist _ _)
    rw [← tag_sublist_filter_iff, filter_collapse, tag_sublist_filter_iff] at hcollapse
    exact noTag_stripTags false text hcollapse
  plain c hc := plain_collapse false _ c ((strip_sublist _ _).subset hc)
  single := List.IsChain.infix (single_collapse false _).1 (strip_segment _ _)
  head _ := head?_strip
  last _ := getLast?_strip

/-- A tidy text stays as it is. -/
theorem Tidy.tidy_eq (h : M.Tidy text) : M.tidy text = text := by
  unfold tidy
  rw [stripTags_eq_self h.noTag, collapse_eq_self h.plain h.single fun h => absurd h Bool.false_ne_true,
    strip_eq_self h.head h.last]

theorem length_tidy_le (text : List α) : (M.tidy text).length ≤ text.length :=
  calc (M.tidy text).length
      ≤ (M.collapse false (M.stripTags false text)).length := (strip_sublist _ _).length_le
    _ ≤ (M.stripTags false text).length := length_collapse_le _ _
    _ ≤ text.length := (stripTags_sublist _ _).length_le

/-- **Something is left** when a visible letter is outside the tags. -/
theorem tidy_ne_nil_iff : M.tidy text ≠ [] ↔
    ∃ front c back, text = front ++ c :: back ∧ M.isSpace c = false ∧ M.Outside front c back := by
  have hvisible : M.tidy text ≠ [] ↔ ∃ c ∈ M.stripTags false text, M.isSpace c = false := by
    have hspaces : M.tidy text = []
        ↔ (M.collapse false (M.stripTags false text)).filter (fun c => !M.isSpace c) = [] := by
      unfold tidy
      rw [strip_eq_nil_iff, List.filter_eq_nil_iff]
      simp
    rw [ne_eq, hspaces, filter_collapse, List.filter_eq_nil_iff]
    simp
  rw [hvisible]
  constructor
  · rintro ⟨c, hc, hspace⟩
    obtain ⟨front, back, hsplit, houtside⟩ := mem_stripTags.mp hc
    exact ⟨front, c, back, hsplit, hspace, houtside⟩
  · rintro ⟨front, c, back, hsplit, hspace, houtside⟩
    exact ⟨c, mem_stripTags.mpr ⟨front, back, hsplit, houtside⟩, hspace⟩

end Marks

end Foundation
