/-
  PredictIQ.Email.WebhookText: the texts of a webhook's events.

  `stripHtmlAndTruncate` keeps what is outside tags, takes eight patterns out
  of it, one after the other and each as often as it is found in the
  lower-cased text, and cuts the rest.  A pattern is taken out at the byte
  offsets it has in the lower-cased copy; where these are no offsets of
  characters the function panics, which is `none` here.

  How a character lower-cases is left open: one or more characters.  That a
  final sigma differs from the others is left out; both have two bytes, and no
  pattern has either.
-/
import PredictIQ.Foundation.Factors

namespace PredictIQ.WebhookText

open Foundation

/-! ## §1. Bytes. -/

def utf8Len : List Char → Nat
  | [] => 0
  | c :: cs => c.utf8Size + utf8Len cs

/-- Cut a text at a byte, if a character begins there or the text ends. -/
def splitAtByte : Nat → List Char → Option (List Char × List Char)
  | 0, cs => some ([], cs)
  | _ + 1, [] => none
  | n + 1, c :: cs =>
      if c.utf8Size ≤ n + 1 then (splitAtByte (n + 1 - c.utf8Size) cs).map fun s => (c :: s.1, s.2) else none

/-- `drain(pos..pos + len)`. -/
def drain (cs : List Char) (pos len : Nat) : Option (List Char) := do
  let front ← splitAtByte pos cs
  let back ← splitAtByte len front.2
  return front.1 ++ back.2

/-! ## §2. The function. -/

structure Scan where
  inTag : Bool
  out : List Char

def Scan.push (s : Scan) (ch : Char) : Scan :=
  if ch = '<' then { s with inTag := true }
  else if ch = '>' then { s with inTag := false }
  else if s.inTag then s
  else { s with out := s.out ++ [ch] }

/-- The characters outside `<...>`. -/
def stripTags (input : List Char) : List Char := (input.foldl Scan.push ⟨false, []⟩).out

def dangerous : List (List Char) :=
  ["javascript:".toList, "vbscript:".toList, "data:text/html".toList, "onerror=".toList, "onload=".toList,
    "onclick=".toList, "eval(".toList, "expression(".toList]

section Strip

variable (lowerChar : Char → List Char)

def toLowercase (cs : List Char) : List Char := cs.flatMap lowerChar

/-- Take a pattern out as long as it is found; every round but the last makes the text shorter. -/
def removePattern (pat : List Char) : (fuel : Nat) → List Char → Option (List Char)
  | 0, _ => none
  | fuel + 1, out =>
      match beforeFirst pat (toLowercase lowerChar out) with
      | some front => (drain out (utf8Len front) (utf8Len pat)).bind (removePattern pat fuel)
      | none => some out

def removePatterns : List (List Char) → List Char → Option (List Char)
  | [], out => some out
  | pat :: pats, out => (removePattern lowerChar pat (out.length + 1) out).bind (removePatterns pats)

def stripHtmlAndTruncate (input : List Char) (maxLen : Nat) : Option (List Char) :=
  (removePatterns lowerChar dangerous (stripTags input)).map (·.take maxLen)

end Strip

/-! ## §3. What is claimed of it. -/

/-- The last bracket of a text opens a tag. -/
def opened (before : List Char) : Bool := (before.filter fun c => c = '<' || c = '>').getLast? = some '<'

/-- The characters of a text that are no brackets and do not follow an opened tag. -/
def outsideFrom (before : List Char) : List Char → List Char
  | [] => []
  | c :: cs =>
      if c ≠ '<' ∧ c ≠ '>' ∧ opened before = false then c :: outsideFrom (before ++ [c]) cs
      else outsideFrom (before ++ [c]) cs

def outsideTags (input : List Char) : List Char := outsideFrom [] input

section Sanitizing

variable (lowerChar : Char → List Char)

/-- A short text without brackets and patterns, taken from outside the tags,
that is not changed by another round. -/
structure IsSanitized (input : List Char) (maxLen : Nat) (text : List Char) : Prop where
  length_le : text.length ≤ maxLen
  brackets : '<' ∉ text ∧ '>' ∉ text
  harmless : ∀ pat ∈ dangerous, ¬pat <:+: toLowercase lowerChar text
  sublist : text.Sublist (outsideTags input)
  again : stripHtmlAndTruncate lowerChar text maxLen = some text

/-- **The function does not panic**, and its result is sanitized. -/
def Sanitizes (input : List Char) (maxLen : Nat) : Prop :=
  ∃ text, stripHtmlAndTruncate lowerChar input maxLen = some text ∧ IsSanitized lowerChar input maxLen text

/-- One round: a pattern is found in a text, behind `front` in the lower-cased
copy; the patterns before it have had their turn. -/
structure Removal where
  earlier : List (List Char)
  pattern : List Char
  text : List Char
  front : List Char
deriving DecidableEq

/-- The rounds for one pattern. -/
def removalsOf (earlier : List (List Char)) (pat : List Char) : (fuel : Nat) → List Char → List Removal
  | 0, _ => []
  | fuel + 1, out =>
      match beforeFirst pat (toLowercase lowerChar out) with
      | some front =>
          ⟨earlier, pat, out, front⟩ ::
            ((drain out (utf8Len front) (utf8Len pat)).map (removalsOf earlier pat fuel)).getD []
      | none => []

def removalsFrom : (earlier pats : List (List Char)) → List Char → List Removal
  | _, [], _ => []
  | earlier, pat :: pats, out =>
      removalsOf lowerChar earlier pat (out.length + 1) out ++
        ((removePattern lowerChar pat (out.length + 1) out).map (removalsFrom (earlier ++ [pat]) pats)).getD []

/-- All rounds on an input. -/
def removals (input : List Char) : List Removal := removalsFrom lowerChar [] dangerous (stripTags input)

namespace Removal

variable (r : Removal)

/-- What the round leaves. -/
def rest : Option (List Char) := drain r.text (utf8Len r.front) (utf8Len r.pattern)

/-- The offsets in the lower-cased copy are those of what lower-cases to the pattern. -/
def Faithful : Prop :=
  ∃ x y z, r.text = x ++ y ++ z ∧ toLowercase lowerChar x = r.front ∧ toLowercase lowerChar y = r.pattern
    ∧ utf8Len x = utf8Len r.front ∧ utf8Len y = utf8Len r.pattern

/-- The two sides do not join into a pattern that has had its turn. -/
def JoinsNone : Prop := ∀ rest, r.rest = some rest → ∀ pat ∈ r.earlier, ¬pat <:+: toLowercase lowerChar rest

/-- They do not within the first characters. -/
def LeavesNone (maxLen : Nat) : Prop :=
  ∀ rest, r.rest = some rest → ∀ pat ∈ r.earlier, ¬pat <:+: toLowercase lowerChar (rest.take maxLen)

end Removal

end Sanitizing

/-! ## §4. Bytes that are taken out. -/

section Bytes

variable {cs x y z : List Char} {n pos len : Nat}

theorem utf8Len_cons (c : Char) (cs : List Char) : utf8Len (c :: cs) = c.utf8Size + utf8Len cs := rfl

theorem length_le_utf8Len (cs : List Char) : cs.length ≤ utf8Len cs := by
  induction cs with
  | nil => exact Nat.le_refl _
  | cons c cs ih =>
      have hpos := c.utf8Size_pos
      rw [utf8Len_cons, List.length_cons]
      omega

theorem splitAtByte_append (x y : List Char) : splitAtByte (utf8Len x) (x ++ y) = some (x, y) := by
  induction x with
  | nil =>
      show splitAtByte 0 y = _
      cases y <;> rfl
  | cons c x ih =>
      have hpos := c.utf8Size_pos
      obtain ⟨n, hn⟩ : ∃ n, utf8Len (c :: x) = n + 1 := ⟨utf8Len (c :: x) - 1, by rw [utf8Len_cons]; omega⟩
      have hrest : n + 1 - c.utf8Size = utf8Len x := by
        rw [← hn, utf8Len_cons]
        omega
      rw [hn, List.cons_append]
      unfold splitAtByte
      rw [if_pos (by rw [← hn, utf8Len_cons]; omega), hrest, ih]
      rfl

theorem eq_of_splitAtByte (h : splitAtByte n cs = some (x, y)) : cs = x ++ y ∧ utf8Len x = n := by
  induction cs generalizing n x with
  | nil =>
      cases n with
      | zero =>
          cases h
          exact ⟨rfl, rfl⟩
      | succ n => cases h
  | cons c cs ih =>
      cases n with
      | zero =>
          cases h
          exact ⟨rfl, rfl⟩
      | succ n =>
          unfold splitAtByte at h
          split at h
          · obtain ⟨⟨x', y'⟩, hsplit, hxy⟩ := Option.map_eq_some_iff.mp h
            cases hxy
            obtain ⟨rfl, hlen⟩ := ih hsplit
            exact ⟨rfl, by rw [utf8Len_cons, hlen]; omega⟩
          · cases h

/-- What is taken out stood between two characters. -/
theorem drain_eq_some_iff {rest : List Char} : drain cs pos len = some rest ↔
    ∃ x y z, cs = x ++ y ++ z ∧ utf8Len x = pos ∧ utf8Len y = len ∧ rest = x ++ z := by
  unfold drain
  constructor
  · intro h
    obtain ⟨⟨x, back⟩, hfront, hrest⟩ := Option.bind_eq_some_iff.mp h
    obtain ⟨⟨y, z⟩, hback, hrest⟩ := Option.bind_eq_some_iff.mp hrest
    obtain ⟨rfl, hx⟩ := eq_of_splitAtByte hfront
    obtain ⟨rfl, hy⟩ := eq_of_splitAtByte hback
    exact ⟨x, y, z, (List.append_assoc ..).symm, hx, hy, (Option.some.inj hrest).symm⟩
  · rintro ⟨x, y, z, rfl, rfl, rfl, rfl⟩
    rw [List.append_assoc, splitAtByte_append]
    show (splitAtByte (utf8Len y) (y ++ z)).bind _ = _
    rw [splitAtByte_append]
    rfl

theorem utf8Len_pos (h : y ≠ []) : 0 < utf8Len y := by
  cases y with
  | nil => exact absurd rfl h
  | cons c y =>
      have hpos := c.utf8Size_pos
      rw [utf8Len_cons]
      omega

/-- A text out of which something is taken gets shorter. -/
theorem length_lt_of_drain {rest : List Char} (h : drain cs pos len = some rest) (hlen : 0 < len) :
    rest.length < cs.length := by
  obtain ⟨x, y, z, rfl, -, hy, rfl⟩ := drain_eq_some_iff.mp h
  have hne : y ≠ [] := by
    rintro rfl
    exact absurd hy (Nat.ne_of_lt hlen)
  have hpos := List.length_pos_iff.mpr hne
  simp only [List.length_append]
  omega

theorem sublist_of_drain {rest : List Char} (h : drain cs pos len = some rest) : rest.Sublist cs := by
  obtain ⟨x, y, z, rfl, -, -, rfl⟩ := drain_eq_some_iff.mp h
  rw [List.append_assoc]
  exact (List.sublist_append_right y z).append_left x

end Bytes

/-! ## §5. Tags. -/

section Tags

variable {input text : List Char}

/-- The scan knows whether a tag is open, and has what is outside of them. -/
theorem foldl_push (before : List Char) (input out : List Char) :
    input.foldl Scan.push ⟨opened before, out⟩
      = ⟨opened (before ++ input), out ++ outsideFrom before input⟩ := by
  induction input generalizing before out with
  | nil => rw [List.foldl_nil, outsideFrom, List.append_nil, List.append_nil]
  | cons c cs ih =>
      -- a bracket opens or closes the tag whatever came before it
      have hopened : opened (before ++ [c]) = if c = '<' then true else if c = '>' then false else opened before := by
        unfold opened
        rw [List.filter_append, List.filter_singleton]
        by_cases hlt : c = '<'
        · simp [hlt]
        · by_cases hgt : c = '>'
          · simp [hgt]
          · simp [hlt, hgt]
      have hpush : Scan.push ⟨opened before, out⟩ c
          = ⟨opened (before ++ [c]), out ++ if c ≠ '<' ∧ c ≠ '>' ∧ opened before = false then [c] else []⟩ := by
        rw [hopened]
        unfold Scan.push
        by_cases hlt : c = '<'
        · simp [hlt]
        · by_cases hgt : c = '>'
          · simp [hgt]
          · cases opened before <;> simp [hlt, hgt]
      have hout : outsideFrom before (c :: cs)
          = (if c ≠ '<' ∧ c ≠ '>' ∧ opened before = false then [c] else []) ++ outsideFrom (before ++ [c]) cs := by
        rw [outsideFrom]
        split <;> rfl
      rw [List.foldl_cons, hpush, ih, hout, List.append_assoc, List.append_assoc, List.singleton_append]

/-- **Stripping the tags** leaves what is outside of them. -/
theorem stripTags_eq (input : List Char) : stripTags input = outsideTags input := by
  unfold stripTags outsideTags
  have hscan := foldl_push [] input []
  rw [List.nil_append, List.nil_append] at hscan
  exact congrArg Scan.out hscan

theorem mem_outsideFrom {before : List Char} {c : Char} (h : c ∈ outsideFrom before input) : c ≠ '<' ∧ c ≠ '>' := by
  induction input generalizing before with
  | nil => cases h
  | cons c' cs ih =>
      unfold outsideFrom at h
      split at h
      · rename_i hkeep
        rcases List.mem_cons.mp h with rfl | h
        · exact ⟨hkeep.1, hkeep.2.1⟩
        · exact ih h
      · exact ih h

theorem brackets_of_sublist (h : text.Sublist (outsideTags input)) : '<' ∉ text ∧ '>' ∉ text :=
  ⟨fun hmem => (mem_outsideFrom (h.subset hmem)).1 rfl, fun hmem => (mem_outsideFrom (h.subset hmem)).2 rfl⟩

/-- A text without brackets is outside tags. -/
theorem stripTags_of_no_brackets (h : '<' ∉ text ∧ '>' ∉ text) : stripTags text = text := by
  have hall : ∀ out cs : List Char, '<' ∉ cs ∧ '>' ∉ cs → cs.foldl Scan.push ⟨false, out⟩ = ⟨false, out ++ cs⟩ := by
    intro out cs hcs
    induction cs generalizing out with
    | nil => rw [List.foldl_nil, List.append_nil]
    | cons c cs ih =>
        simp only [List.mem_cons, not_or] at hcs
        have hpush : Scan.push ⟨false, out⟩ c = ⟨false, out ++ [c]⟩ := by
          unfold Scan.push
          rw [if_neg (Ne.symm hcs.1.1), if_neg (Ne.symm hcs.2.1)]
          rfl
        rw [List.foldl_cons, hpush, ih _ ⟨hcs.1.2, hcs.2.2⟩, List.append_assoc]
        rfl
  unfold stripTags
  rw [hall [] text h]
  rfl

end Tags

/-! ## §6. Rounds. -/

/-- Rounds that lead from one text to another. -/
def Leads : List Char → List Removal → List Char → Prop
  | out, [], last => out = last
  | out, r :: rs, last => r.text = out ∧ ∃ rest, r.rest = some rest ∧ Leads rest rs last

section Rounds

variable {lowerChar : Char → List Char} {earlier pats : List (List Char)} {pat out last : List Char}
  {rs rs' : List Removal} {r : Removal} {fuel : Nat}

theorem leads_append : Leads out (rs ++ rs') last ↔ ∃ mid, Leads out rs mid ∧ Leads mid rs' last := by
  induction rs generalizing out with
  | nil => exact ⟨fun h => ⟨out, rfl, h⟩, fun ⟨_, hmid, h⟩ => (show out = _ from hmid) ▸ h⟩
  | cons r rs ih =>
      constructor
      · rintro ⟨htext, rest, hrest, hleads⟩
        obtain ⟨mid, hmid, hlast⟩ := ih.mp hleads
        exact ⟨mid, ⟨htext, rest, hrest, hmid⟩, hlast⟩
      · rintro ⟨mid, ⟨htext, rest, hrest, hmid⟩, hlast⟩
        exact ⟨htext, rest, hrest, ih.mpr ⟨mid, hmid, hlast⟩⟩

/-- A round in the middle, and what follows. -/
theorem Leads.split (h : Leads out (rs ++ r :: rs') last) : ∃ rest, r.rest = some rest ∧ Leads rest rs' last := by
  obtain ⟨-, -, -, hleads⟩ := leads_append.mp h
  exact hleads

theorem Leads.rest_ne_none (h : Leads out rs last) (hr : r ∈ rs) : r.rest ≠ none := by
  obtain ⟨before, after, rfl⟩ := List.append_of_mem hr
  obtain ⟨rest, hrest, -⟩ := h.split
  exact hrest ▸ Option.some_ne_none rest

/-- The last round leaves the last text. -/
theorem Leads.rest_of_getLast (h : Leads out rs last) (hr : r ∈ rs.getLast?) : r.rest = some last := by
  obtain ⟨before, rfl⟩ := List.getLast?_eq_some_iff.mp hr
  obtain ⟨rest, hrest, hleads⟩ := h.split
  exact hrest.trans (congrArg some hleads)

theorem Leads.sublist (h : Leads out rs last) : last.Sublist out := by
  induction rs generalizing out with
  | nil => exact (show out = last from h) ▸ List.Sublist.refl out
  | cons r rs ih =>
      obtain ⟨rfl, rest, hrest, hleads⟩ := h
      exact (ih hleads).trans (sublist_of_drain hrest)

/-- **Faithful rounds** keep a pattern that is apart from theirs. -/
theorem Leads.kept {p : List Char} (h : Leads out rs last)
    (hrs : ∀ r ∈ rs, r.Faithful lowerChar ∧ Apart p r.pattern) (hp : p <:+: toLowercase lowerChar out) :
    p <:+: toLowercase lowerChar last := by
  induction rs generalizing out with
  | nil => exact (show out = last from h) ▸ hp
  | cons r rs ih =>
      obtain ⟨rfl, rest, hrest, hleads⟩ := h
      obtain ⟨⟨x, y, z, htext, -, hy, hxlen, hylen⟩, hapart⟩ := hrs r List.mem_cons_self
      have hdrain : r.rest = some (x ++ z) := drain_eq_some_iff.mpr ⟨x, y, z, htext, hxlen, hylen, rfl⟩
      have hrest' : rest = x ++ z := Option.some.inj (hrest.symm.trans hdrain)
      rw [htext] at hp
      unfold toLowercase at hp hy
      rw [List.flatMap_append, List.flatMap_append, hy] at hp
      refine ih hleads (fun r hr => hrs r (List.mem_cons_of_mem _ hr)) ?_
      unfold toLowercase
      rw [hrest', List.flatMap_append]
      exact infix_removed_of_apart hapart hp

/-- **With faithful rounds** a pattern that two sides join into is there to the end. -/
theorem Leads.joined_kept {rest p : List Char} (h : Leads out rs last)
    (hgrows : rs.Pairwise fun r r' => r.earlier <+: r'.earlier)
    (hrs : ∀ r ∈ rs, r.Faithful lowerChar ∧ ∀ p ∈ r.earlier, Apart p r.pattern) (hr : r ∈ rs) (hrest : r.rest = some rest)
    (hp : p ∈ r.earlier) (hin : p <:+: toLowercase lowerChar rest) :
    ∃ r' ∈ rs.getLast?, p ∈ r'.earlier ∧ p <:+: toLowercase lowerChar last := by
  obtain ⟨before, after, rfl⟩ := List.append_of_mem hr
  obtain ⟨rest', hrest', hafter⟩ := h.split
  cases hrest.symm.trans hrest'
  have hearlier : ∀ r' ∈ after, p ∈ r'.earlier := fun r' hr' =>
    (List.rel_of_pairwise_cons (List.pairwise_append.mp hgrows).2.1 hr').subset hp
  have hkept : p <:+: toLowercase lowerChar last := by
    refine hafter.kept (fun r' hr' => ?_) hin
    obtain ⟨hfaithful, hapart⟩ := hrs r' (List.mem_append_right _ (List.mem_cons_of_mem _ hr'))
    exact ⟨hfaithful, hapart p (hearlier r' hr')⟩
  refine ⟨after.getLast?.getD r, by rw [List.getLast?_append, List.getLast?_cons]; rfl, ?_, hkept⟩
  cases hlast : after.getLast? with
  | none => exact hp
  | some r' => exact hearlier r' (List.mem_of_getLast? hlast)

theorem Removal.Faithful.rest_ne_none (h : r.Faithful lowerChar) : r.rest ≠ none := by
  obtain ⟨x, y, z, htext, -, -, hxlen, hylen⟩ := h
  have hdrain : r.rest = some (x ++ z) := drain_eq_some_iff.mpr ⟨x, y, z, htext, hxlen, hylen, rfl⟩
  exact hdrain ▸ Option.some_ne_none _

/-! ## §7. The rounds of the function. -/

variable (lowerChar) in
/-- **One pattern's rounds** lead to a text without it, or one of them panics. -/
theorem removePattern_spec (earlier : List (List Char)) (hpat : pat ≠ []) (hfuel : out.length < fuel) :
    (∃ last, removePattern lowerChar pat fuel out = some last
      ∧ Leads out (removalsOf lowerChar earlier pat fuel out) last ∧ ¬pat <:+: toLowercase lowerChar last)
    ∨ (removePattern lowerChar pat fuel out = none
      ∧ ∃ r ∈ removalsOf lowerChar earlier pat fuel out, r.rest = none) := by
  induction fuel generalizing out with
  | zero => exact absurd hfuel (Nat.not_lt_zero _)
  | succ fuel ih =>
      cases hfront : beforeFirst pat (toLowercase lowerChar out) with
      | none =>
          have hclean := beforeFirst_eq_none_iff.mp hfront
          simp only [removePattern, removalsOf, hfront]
          exact .inl ⟨out, rfl, rfl, hclean⟩
      | some front =>
          cases hrest : drain out (utf8Len front) (utf8Len pat) with
          | none =>
              simp only [removePattern, removalsOf, hfront, hrest]
              exact .inr ⟨rfl, ⟨earlier, pat, out, front⟩, List.mem_cons_self, hrest⟩
          | some rest =>
              -- a round shortens the text, so the fuel that is left suffices
              have hshort := length_lt_of_drain hrest (utf8Len_pos hpat)
              simp only [removePattern, removalsOf, hfront, hrest]
              rcases ih (show rest.length < fuel by omega) with ⟨last, hlast, hleads, hclean⟩ | ⟨hnone, r, hr, hrnone⟩
              · exact .inl ⟨last, hlast, ⟨rfl, rest, hrest, hleads⟩, hclean⟩
              · exact .inr ⟨hnone, r, List.mem_cons_of_mem _ hr, hrnone⟩

theorem mem_getD_map {α β : Type} {o : Option α} {f : α → List β} {x : β} :
    x ∈ (o.map f).getD [] ↔ ∃ a, o = some a ∧ x ∈ f a := by
  cases o <;> simp

theorem sublist_of_removePattern (h : removePattern lowerChar pat fuel out = some last) : last.Sublist out := by
  induction fuel generalizing out with
  | zero => cases h
  | succ fuel ih =>
      unfold removePattern at h
      split at h
      · obtain ⟨rest, hrest, hlast⟩ := Option.bind_eq_some_iff.mp h
        exact (ih hlast).trans (sublist_of_drain hrest)
      · cases h
        exact List.Sublist.refl _

/-- In a round for a pattern it is found in some characters of the first text. -/
theorem mem_removalsOf (hr : r ∈ removalsOf lowerChar earlier pat fuel out) :
    (r.earlier = earlier ∧ r.pattern = pat)
      ∧ r.front ++ r.pattern <+: toLowercase lowerChar r.text ∧ r.text.Sublist out := by
  induction fuel generalizing out with
  | zero => cases hr
  | succ fuel ih =>
      unfold removalsOf at hr
      split at hr
      · rename_i front hfront
        rcases List.mem_cons.mp hr with rfl | hr
        · exact ⟨⟨rfl, rfl⟩, prefix_of_beforeFirst hfront, List.Sublist.refl out⟩
        · obtain ⟨rest, hrest, hr⟩ := mem_getD_map.mp hr
          obtain ⟨hround, hfound, hsub⟩ := ih hr
          exact ⟨hround, hfound, hsub.trans (sublist_of_drain hrest)⟩
      · cases hr

/-- The rounds go through the list: what a round has behind it and its own
pattern begin the list. -/
theorem mem_removalsFrom (hr : r ∈ removalsFrom lowerChar earlier pats out) :
    (earlier <+: r.earlier ∧ r.earlier ++ [r.pattern] <+: earlier ++ pats)
      ∧ r.front ++ r.pattern <+: toLowercase lowerChar r.text ∧ r.text.Sublist out := by
  induction pats generalizing earlier out with
  | nil => cases hr
  | cons pat pats ih =>
      unfold removalsFrom at hr
      rcases List.mem_append.mp hr with hr | hr
      · obtain ⟨⟨hearlier, hpattern⟩, hfound⟩ := mem_removalsOf hr
        refine ⟨?_, hfound⟩
        rw [hearlier, hpattern]
        exact ⟨List.prefix_rfl, pats, by rw [List.append_assoc, List.singleton_append]⟩
      · obtain ⟨mid, hmid, hr⟩ := mem_getD_map.mp hr
        obtain ⟨⟨hbehind, hbegin⟩, hfound, hsub⟩ := ih hr
        rw [List.append_assoc, List.singleton_append] at hbegin
        exact ⟨⟨(List.prefix_append earlier [pat]).trans hbehind, hbegin⟩, hfound,
          hsub.trans (sublist_of_removePattern hmid)⟩

/-- What has had its turn only grows. -/
theorem removalsFrom_pairwise (earlier pats : List (List Char)) (out : List Char) :
    (removalsFrom lowerChar earlier pats out).Pairwise fun r r' => r.earlier <+: r'.earlier := by
  induction pats generalizing earlier out with
  | nil => exact List.Pairwise.nil
  | cons pat pats ih =>
      unfold removalsFrom
      refine List.pairwise_append.mpr ⟨List.pairwise_of_forall_mem_list fun r hr r' hr' => ?_, ?_, fun r hr r' hr' => ?_⟩
      · rw [(mem_removalsOf hr).1.1, (mem_removalsOf hr').1.1]
      · cases removePattern lowerChar pat (out.length + 1) out with
        | none => exact List.Pairwise.nil
        | some mid => exact ih (earlier ++ [pat]) mid
      · obtain ⟨mid, -, hr'⟩ := mem_getD_map.mp hr'
        rw [(mem_removalsOf hr).1.1]
        exact (List.prefix_append earlier [pat]).trans (mem_removalsFrom hr').1.1

variable (lowerChar) in
/-- **All rounds** lead to a text in which a pattern stands only if the last
round was for a later one, or one of them panics. -/
theorem removePatterns_spec (earlier : List (List Char)) (hpats : ∀ p ∈ pats, p ≠ []) (out : List Char) :
    (∃ last, removePatterns lowerChar pats out = some last
      ∧ Leads out (removalsFrom lowerChar earlier pats out) last
      ∧ ∀ p ∈ pats, p <:+: toLowercase lowerChar last →
        ∃ r ∈ (removalsFrom lowerChar earlier pats out).getLast?, p ∈ r.earlier)
    ∨ (removePatterns lowerChar pats out = none
      ∧ ∃ r ∈ removalsFrom lowerChar earlier pats out, r.rest = none) := by
  induction pats generalizing earlier out with
  | nil => exact .inl ⟨out, rfl, rfl, fun p hp => absurd hp List.not_mem_nil⟩
  | cons pat pats ih =>
      have hrest := ih (earlier ++ [pat]) fun p hp => hpats p (List.mem_cons_of_mem _ hp)
      rcases removePattern_spec lowerChar earlier (hpats pat List.mem_cons_self) (Nat.lt_add_one out.length) with
        ⟨mid, hmid, hleads, hclean⟩ | ⟨hnone, r, hr, hrnone⟩
      · simp only [removePatterns, removalsFrom, hmid]
        rcases hrest mid with ⟨last, hlast, hleads', hleft⟩ | ⟨hnone, r, hr, hrnone⟩
        · have hlastRound : ∀ r ∈ (removalsFrom lowerChar (earlier ++ [pat]) pats mid).getLast?,
              r ∈ (removalsOf lowerChar earlier pat (out.length + 1) out
                ++ removalsFrom lowerChar (earlier ++ [pat]) pats mid).getLast? := by
            intro r hr
            rw [List.getLast?_append, Option.mem_def.mp hr]
            rfl
          refine .inl ⟨last, hlast, leads_append.mpr ⟨mid, hleads, hleads'⟩, fun p hp hin => ?_⟩
          rcases List.mem_cons.mp hp with rfl | hp
          · cases hr : (removalsFrom lowerChar (earlier ++ [p]) pats mid).getLast? with
            | none =>
                -- without a later round the text is the one without `p`
                rw [List.getLast?_eq_none_iff.mp hr] at hleads'
                exact absurd ((show mid = last from hleads') ▸ hin) hclean
            | some r =>
                have hbehind := (mem_removalsFrom (List.mem_of_getLast? hr)).1.1
                exact ⟨r, hlastRound r hr, hbehind.subset (List.mem_append_right _ List.mem_cons_self)⟩
          · obtain ⟨r, hr, hmem⟩ := hleft p hp hin
            exact ⟨r, hlastRound r hr, hmem⟩
        · exact .inr ⟨hnone, r, List.mem_append_right _ hr, hrnone⟩
      · refine .inr ⟨?_, r, List.mem_append_left _ hr, hrnone⟩
        unfold removePatterns
        rw [hnone]
        rfl

/-- A beginning of the copy is the copy of a beginning. -/
theorem splits_of_prefix {cs front : List Char}
    (hwidth : ∀ c ∈ cs, ∃ d, lowerChar c = [d] ∧ d.utf8Size = c.utf8Size) (h : front <+: toLowercase lowerChar cs) :
    ∃ x z, cs = x ++ z ∧ toLowercase lowerChar x = front ∧ utf8Len x = utf8Len front := by
  induction cs generalizing front with
  | nil => exact ⟨[], [], rfl, (List.prefix_nil.mp h).symm, by rw [List.prefix_nil.mp h]⟩
  | cons c cs ih =>
      cases front with
      | nil => exact ⟨[], c :: cs, rfl, rfl, rfl⟩
      | cons d front =>
          obtain ⟨d', hlower, hsize⟩ := hwidth c List.mem_cons_self
          unfold toLowercase at h
          rw [List.flatMap_cons, hlower, List.singleton_append, List.cons_prefix_cons] at h
          obtain ⟨rfl, hfront⟩ := h
          obtain ⟨x, z, rfl, rfl, hlen⟩ := ih (fun c hc => hwidth c (List.mem_cons_of_mem _ hc)) hfront
          refine ⟨c :: x, z, rfl, ?_, ?_⟩
          · unfold toLowercase
            rw [List.flatMap_cons, hlower, List.singleton_append]
          · rw [utf8Len_cons, utf8Len_cons, hlen, hsize]

/-- **Characters that lower-case to one of their size** make every round faithful. -/
theorem faithful_of_width (hwidth : ∀ c ∈ out, ∃ d, lowerChar c = [d] ∧ d.utf8Size = c.utf8Size)
    (hr : r ∈ removalsFrom lowerChar earlier pats out) : r.Faithful lowerChar := by
  obtain ⟨-, hfound, hsub⟩ := mem_removalsFrom hr
  have hwidth' : ∀ c ∈ r.text, ∃ d, lowerChar c = [d] ∧ d.utf8Size = c.utf8Size :=
    fun c hc => hwidth c (hsub.subset hc)
  obtain ⟨x, w, hx, hfront, hxlen⟩ := splits_of_prefix hwidth' ((List.prefix_append _ _).trans hfound)
  have hpattern : r.pattern <+: toLowercase lowerChar w := by
    unfold toLowercase at hfound hfront ⊢
    rwa [hx, List.flatMap_append, hfront, List.prefix_append_right_inj] at hfound
  obtain ⟨y, z, rfl, hy, hylen⟩ :=
    splits_of_prefix (fun c hc => hwidth' c (hx ▸ List.mem_append_right x hc)) hpattern
  exact ⟨x, y, z, by rw [hx, List.append_assoc], hfront, hy, hxlen, hylen⟩

/-- A text without the patterns stays as it is. -/
theorem removePatterns_of_clean (h : ∀ p ∈ pats, ¬p <:+: toLowercase lowerChar out) :
    removePatterns lowerChar pats out = some out := by
  induction pats with
  | nil => rfl
  | cons pat pats ih =>
      have hnone := beforeFirst_eq_none_iff.mpr (h pat List.mem_cons_self)
      simp only [removePatterns, removePattern, hnone]
      exact ih fun p hp => h p (List.mem_cons_of_mem _ hp)

end Rounds

/-! ## §8. When the result is sanitized. -/

section Results

variable (lowerChar : Char → List Char)

theorem dangerous_ne_nil : ∀ p ∈ dangerous, p ≠ [] := by decide

/-- No two of the patterns overlap. -/
theorem dangerous_apart : dangerous.Pairwise Apart := by decide

variable {lowerChar} in
theorem not_infix_of_prefix {p text text' : List Char} (htext : text' <+: text)
    (h : ¬p <:+: toLowercase lowerChar text) : ¬p <:+: toLowercase lowerChar text' := by
  obtain ⟨rest, rfl⟩ := htext
  intro hp
  unfold toLowercase at h hp
  rw [List.flatMap_append] at h
  exact h (hp.trans (List.prefix_append _ _).isInfix)

variable {lowerChar} in
/-- Characters from outside the tags are sanitized if they have no pattern. -/
theorem isSanitized_take {input last : List Char} {maxLen : Nat} (hsub : last.Sublist (outsideTags input))
    (hclean : ∀ p ∈ dangerous, ¬p <:+: toLowercase lowerChar (last.take maxLen)) :
    IsSanitized lowerChar input maxLen (last.take maxLen) := by
  have hsublist := (List.take_sublist maxLen last).trans hsub
  refine ⟨List.length_take_le maxLen last, brackets_of_sublist hsublist, hclean, hsublist, ?_⟩
  unfold stripHtmlAndTruncate
  rw [stripTags_of_no_brackets (brackets_of_sublist hsublist), removePatterns_of_clean hclean, Option.map_some,
    List.take_take, Nat.min_self]

/-- **A result is sanitized** if every round takes out whole characters and the
last one leaves no pattern that has had its turn. -/
theorem sanitizes_iff_last (input : List Char) (maxLen : Nat) : Sanitizes lowerChar input maxLen ↔
    (∀ r ∈ removals lowerChar input, r.rest ≠ none)
      ∧ ∀ r ∈ (removals lowerChar input).getLast?, r.LeavesNone lowerChar maxLen := by
  unfold Sanitizes stripHtmlAndTruncate removals
  rcases removePatterns_spec lowerChar [] dangerous_ne_nil (stripTags input) with
    ⟨last, hlast, hleads, hleft⟩ | ⟨hnone, r, hr, hrnone⟩
  · rw [hlast]
    constructor
    · rintro ⟨text, htext, hsanitized⟩
      cases htext
      refine ⟨fun r => hleads.rest_ne_none, fun r hr rest hrest p hp => ?_⟩
      -- what the last round leaves is the text before it is cut
      cases hrest.symm.trans (hleads.rest_of_getLast hr)
      have hbegin := (mem_removalsFrom (List.mem_of_getLast? hr)).1.2
      exact hsanitized.harmless p (hbegin.subset (List.mem_append_left _ hp))
    · rintro ⟨-, hnone⟩
      refine ⟨last.take maxLen, rfl, isSanitized_take (stripTags_eq input ▸ hleads.sublist) fun p hp hin => ?_⟩
      have hfound : p <:+: toLowercase lowerChar last :=
        Decidable.by_contra fun h => not_infix_of_prefix (List.take_prefix maxLen last) h hin
      obtain ⟨r, hr, hmem⟩ := hleft p hp hfound
      exact hnone r hr last (hleads.rest_of_getLast hr) p hmem hin
  · rw [hnone]
    refine ⟨fun h => ?_, fun h => absurd hrnone (h.1 r hr)⟩
    obtain ⟨text, htext, -⟩ := h
    cases htext

/-- With faithful rounds the last one leaves no pattern if and only if none joins any. -/
theorem last_leaves_none_iff (input : List Char) (hfaithful : ∀ r ∈ removals lowerChar input, r.Faithful lowerChar) :
    (∀ maxLen, ∀ r ∈ (removals lowerChar input).getLast?, r.LeavesNone lowerChar maxLen)
      ↔ ∀ r ∈ removals lowerChar input, r.JoinsNone lowerChar := by
  constructor
  · intro hleaves r hr rest hrest p hp hin
    rcases removePatterns_spec lowerChar [] dangerous_ne_nil (stripTags input) with
      ⟨last, -, hleads, -⟩ | ⟨-, r', hr', hrnone⟩
    · have hapart : ∀ r ∈ removals lowerChar input, ∀ p ∈ r.earlier, Apart p r.pattern := by
        intro r hr p hp
        have hbegin := dangerous_apart.sublist (mem_removalsFrom hr).1.2.sublist
        exact (List.pairwise_append.mp hbegin).2.2 p hp r.pattern List.mem_cons_self
      obtain ⟨r', hr', hp', hkept⟩ := hleads.joined_kept (removalsFrom_pairwise [] dangerous (stripTags input))
        (fun r hr => ⟨hfaithful r hr, hapart r hr⟩) hr hrest hp hin
      refine hleaves last.length r' hr' last (hleads.rest_of_getLast hr') p hp' ?_
      rwa [List.take_length]
    · exact absurd hrnone (hfaithful r' hr').rest_ne_none
  · intro hjoins maxLen r hr rest hrest p hp
    exact not_infix_of_prefix (List.take_prefix maxLen rest) (hjoins r (List.mem_of_getLast? hr) rest hrest p hp)

/-- **The result is sanitized** for a text and a length if and only if every
round takes out whole characters and the last one leaves, among the first
characters, no pattern that has had its turn.  Where the lower-cased copies
have the offsets of their texts, it is for every length if and only if no round
joins its two sides into such a pattern. -/
theorem strip_sanitizes_iff (input : List Char) :
    (∀ maxLen, Sanitizes lowerChar input maxLen ↔
      (∀ r ∈ removals lowerChar input, r.rest ≠ none)
        ∧ ∀ r ∈ (removals lowerChar input).getLast?, r.LeavesNone lowerChar maxLen)
    ∧ ((∀ r ∈ removals lowerChar input, r.Faithful lowerChar) →
      ((∀ maxLen, Sanitizes lowerChar input maxLen) ↔ ∀ r ∈ removals lowerChar input, r.JoinsNone lowerChar)) := by
  refine ⟨sanitizes_iff_last lowerChar input, fun hfaithful => ?_⟩
  rw [← last_leaves_none_iff lowerChar input hfaithful]
  refine forall_congr' fun maxLen => (sanitizes_iff_last lowerChar input maxLen).trans ?_
  exact and_iff_right fun r hr => (hfaithful r hr).rest_ne_none

/-- The Kelvin sign and ASCII as they lower-case. -/
def sampleLower (c : Char) : List Char := [if c = '\u212A' then 'k' else c.toLower]

/-- A pattern is taken out of a text, and the two sides join into none. -/
theorem strip_sanitizes_sample : ∀ maxLen, Sanitizes sampleLower "<b>a</b>onLOAD=b".toList maxLen := by
  refine ((strip_sanitizes_iff sampleLower "<b>a</b>onLOAD=b".toList).2 fun r => faithful_of_width ?_).mpr ?_
  · have hwidth : ((stripTags "<b>a</b>onLOAD=b".toList).all fun c =>
        decide (sampleLower c = [c.toLower] ∧ c.toLower.utf8Size = c.utf8Size)) = true := by decide
    exact fun c hc => ⟨c.toLower, of_decide_eq_true (List.all_eq_true.mp hwidth c hc)⟩
  · have hround : removals sampleLower "<b>a</b>onLOAD=b".toList
        = [⟨dangerous.take 4, "onload=".toList, "aonLOAD=b".toList, "a".toList⟩] := by decide
    rw [hround]
    intro r hr rest hrest
    cases List.mem_singleton.mp hr
    cases hrest.symm.trans (show _ = some "ab".toList by decide)
    decide

/-- Two sides join into a pattern that has had its turn, and the Kelvin sign
makes the copy shorter than the text: the function panics. -/
theorem strip_joins_and_panics :
    ¬Sanitizes sampleLower "javaonload=script:".toList 18 ∧ ¬Sanitizes sampleLower "onclic\u212A=".toList 18 := by
  constructor
  · rintro ⟨text, htext, hsanitized⟩
    cases htext.symm.trans (show _ = some "javascript:".toList by decide)
    exact absurd hsanitized.harmless (by decide)
  · rintro ⟨text, htext, -⟩
    cases htext.symm.trans (show _ = none by decide)

end Results

end PredictIQ.WebhookText
