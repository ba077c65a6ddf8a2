/-
  PredictIQ.Api.InputText: the texts of requests, `sanitize_string` and
  `validate_string` of `validation.rs`.

  A text with one of the patterns is turned down; of any other the tags, the
  control characters and the white space around it are left out.  What is left
  has a pattern exactly when one lies across something that was left out, and
  the bounds on its length count bytes.

  How a character lower-cases is left open but for white space, which has no
  lower case.  That a final sigma differs from the others is left out; no
  pattern has either.
-/
import PredictIQ.Email.Service
import PredictIQ.Email.WebhookText
import PredictIQ.Foundation.Strips

namespace PredictIQ.InputText

open Foundation
open Email (isWhitespace)
open WebhookText (utf8Len opened outsideFrom outsideTags toLowercase)

/-! ## §1. The functions. -/

structure ValidationError where
  error : String
  field : String
  message : String
  deriving DecidableEq

/-- How characters lower-case; white space does not. -/
structure LowerCase where
  lowerChar : Char → List Char
  lowerChar_space : ∀ c, isWhitespace c = true → lowerChar c = [c]

def rejectPatterns : List (List Char) :=
  ["<script".toList, "</script".toList, "javascript:".toList, "vbscript:".toList, "data:text/html".toList,
    "on error=".toList, "onerror=".toList, "onload=".toList, "onclick=".toList, "onmouseover=".toList,
    "onfocus=".toList, "expression(".toList, "&#".toList, "&lt;script".toList]

def stripHtmlTags (input : List Char) : List Char := WebhookText.stripTags input

/-- `char::is_control`. -/
def isControl (c : Char) : Bool := c.toNat ≤ 0x1F || (0x7F ≤ c.toNat && c.toNat ≤ 0x9F)

def staysIn (c : Char) : Bool := c = '\t' || c = '\n' || c = '\r' || (!isControl c && c != '\x00')

def stripControlChars (input : List Char) : List Char := input.filter staysIn

section Functions

variable (L : LowerCase)

def containsInjection (value : List Char) : Bool :=
  rejectPatterns.any fun pat => decide (pat <:+: toLowercase L.lowerChar value)

def sanitizeString (fieldName : String) (value : List Char) : Except ValidationError (List Char) :=
  if containsInjection L value then
    .error ⟨"invalid_content", fieldName,
      "Field '" ++ fieldName ++ "' contains disallowed content (script tags or event handlers)."⟩
  else .ok (strip isWhitespace (stripControlChars (stripHtmlTags value)))

def validateString (fieldName : String) (value : List Char) (minLen maxLen : Nat) :
    Except ValidationError (List Char) := do
  let sanitized ← sanitizeString L fieldName value
  if utf8Len sanitized < minLen then
    .error ⟨"too_short", fieldName,
      "Field '" ++ fieldName ++ "' must be at least " ++ toString minLen ++ " characters."⟩
  else if maxLen < utf8Len sanitized then
    .error ⟨"too_long", fieldName,
      "Field '" ++ fieldName ++ "' must be at most " ++ toString maxLen ++ " characters."⟩
  else .ok sanitized

end Functions

/-! ## §2. What is claimed of them. -/

/-- A character that stays: no bracket, outside tags, and no control character. -/
def stays (before : List Char) (c : Char) : Bool := c != '<' && c != '>' && !opened before && staysIn c

/-- The characters of a text that stay. -/
def visible (value : List Char) : List Char := keptFrom stays (fun c => [c]) [] value

section Claims

variable (L : LowerCase)

/-- A text without control characters, brackets and patterns, that is
sanitized to itself. -/
structure IsClean (fieldName : String) (text : List Char) : Prop where
  control : ∀ c ∈ text, isControl c = true → c = '\t' ∨ c = '\n' ∨ c = '\r'
  brackets : '<' ∉ text ∧ '>' ∉ text
  harmless : ∀ pat ∈ rejectPatterns, ¬pat <:+: toLowercase L.lowerChar text
  stable : sanitizeString L fieldName text = .ok text

/-- What a text is sanitized to is clean. -/
def SanitizesClean (fieldName : String) (value : List Char) : Prop :=
  ∀ text, sanitizeString L fieldName value = .ok text → IsClean L fieldName text

/-- A text is valid exactly when it is sanitized to a number of characters
within the bounds. -/
def CountsCharacters (fieldName : String) (value : List Char) (minLen maxLen : Nat) : Prop :=
  (∃ text, validateString L fieldName value minLen maxLen = .ok text)
    ↔ ∃ text, sanitizeString L fieldName value = .ok text ∧ minLen ≤ text.length ∧ text.length ≤ maxLen

/-- Characters that stay on both sides of one that does not are a pattern together. -/
def JoinsAcross (value : List Char) : Prop := ∃ pat ∈ rejectPatterns, LiesAcross stays L.lowerChar [] pat value

/-- The bytes of a text are on the side of a bound on which its characters are not. -/
def BytesMislead (text : List Char) (minLen maxLen : Nat) : Prop :=
  text.length < minLen ∧ minLen ≤ utf8Len text ∧ utf8Len text ≤ maxLen
    ∨ minLen ≤ text.length ∧ text.length ≤ maxLen ∧ maxLen < utf8Len text

end Claims

/-! ## §3. What stays of a text. -/

section Visible

variable {value text : List Char}

theorem outsideFrom_filter (before value : List Char) :
    (outsideFrom before value).filter staysIn = keptFrom stays (fun c => [c]) before value := by
  induction value generalizing before with
  | nil => rfl
  | cons c cs ih =>
      rw [keptFrom, ← ih, outsideFrom]
      unfold stays
      by_cases hout : c ≠ '<' ∧ c ≠ '>' ∧ opened before = false
      · obtain ⟨hlt, hgt, hopened⟩ := hout
        rw [if_pos ⟨hlt, hgt, hopened⟩, List.filter_cons]
        by_cases hin : staysIn c = true
        · simp [hlt, hgt, hopened, hin]
        · simp [hin]
      · have hnot : (c != '<' && c != '>' && !opened before && staysIn c) = false := by
          simp only [ne_eq, not_and, Bool.not_eq_false] at hout
          by_cases hlt : c = '<'
          · simp [hlt]
          · by_cases hgt : c = '>'
            · simp [hgt]
            · simp [hout hlt hgt]
        rw [if_neg hout, hnot]
        rfl

/-- **Stripping tags and control characters** leaves the characters that stay. -/
theorem strips_eq (value : List Char) : stripControlChars (stripHtmlTags value) = visible value := by
  unfold stripControlChars stripHtmlTags visible
  rw [WebhookText.stripTags_eq]
  exact outsideFrom_filter [] value

theorem mem_visible {c : Char} (h : c ∈ visible value) : c ≠ '<' ∧ c ≠ '>' ∧ staysIn c = true := by
  unfold visible at h
  rw [← outsideFrom_filter] at h
  obtain ⟨hout, hin⟩ := List.mem_filter.mp h
  exact ⟨(WebhookText.mem_outsideFrom hout).1, (WebhookText.mem_outsideFrom hout).2, hin⟩

/-- A text of characters that stay, without brackets, is left as it is. -/
theorem strips_eq_self (hbrackets : '<' ∉ text ∧ '>' ∉ text) (hstay : ∀ c ∈ text, staysIn c = true) :
    stripControlChars (stripHtmlTags text) = text := by
  unfold stripControlChars stripHtmlTags
  rw [WebhookText.stripTags_of_no_brackets hbrackets]
  exact List.filter_eq_self.mpr hstay

theorem toLowercase_visible (lowerChar : Char → List Char) (value : List Char) :
    toLowercase lowerChar (visible value) = keptFrom stays lowerChar [] value := by
  unfold toLowercase visible
  rw [flatMap_keptFrom]
  congr 1
  funext c
  exact List.flatMap_singleton lowerChar c

end Visible

/-! ## §4. Patterns. -/

section Patterns

variable {L : LowerCase} {value text : List Char}

theorem containsInjection_iff :
    containsInjection L value = true ↔ ∃ pat ∈ rejectPatterns, pat <:+: toLowercase L.lowerChar value := by
  unfold containsInjection
  rw [List.any_eq_true]
  simp only [decide_eq_true_eq]

theorem rejectPatterns_ne_nil : ∀ pat ∈ rejectPatterns, pat ≠ [] := by decide

/-- No pattern begins or ends with white space. -/
theorem rejectPatterns_ends : ∀ pat ∈ rejectPatterns,
    (∀ c ∈ pat.head?, isWhitespace c = false) ∧ ∀ c ∈ pat.getLast?, isWhitespace c = false := by
  have hends : ∀ pat ∈ rejectPatterns,
      pat.head?.all (fun c => !isWhitespace c) = true ∧ pat.getLast?.all (fun c => !isWhitespace c) = true := by
    decide
  intro pat hpat
  obtain ⟨hhead, hlast⟩ := hends pat hpat
  refine ⟨fun c hc => ?_, fun c hc => ?_⟩
  · rw [Option.mem_def.mp hc] at hhead
    simpa using hhead
  · rw [Option.mem_def.mp hc] at hlast
    simpa using hlast

/-- White space around a text makes no pattern. -/
theorem infix_strip_iff {pat : List Char} (hpat : pat ∈ rejectPatterns) :
    pat <:+: toLowercase L.lowerChar (strip isWhitespace text) ↔ pat <:+: toLowercase L.lowerChar text := by
  -- lower-casing keeps the white space at both ends apart from the rest
  have hspace : ∀ cs : List Char, (∀ c ∈ cs, isWhitespace c = true) → toLowercase L.lowerChar cs = cs := by
    intro cs hcs
    induction cs with
    | nil => rfl
    | cons c cs ih =>
        have hrest := ih fun d hd => hcs d (List.mem_cons_of_mem _ hd)
        unfold toLowercase at hrest ⊢
        rw [List.flatMap_cons, L.lowerChar_space c (hcs c List.mem_cons_self), hrest, List.singleton_append]
  obtain ⟨front, back, htext, hfront, hback⟩ := exists_strip isWhitespace text
  have hlower : toLowercase L.lowerChar text
      = front ++ toLowercase L.lowerChar (strip isWhitespace text) ++ back := by
    conv_lhs => rw [htext]
    unfold toLowercase at hspace ⊢
    rw [List.flatMap_append, List.flatMap_append, hspace front hfront, hspace back hback]
  rw [hlower]
  constructor
  · intro h
    exact h.trans (List.infix_append front _ back)
  · -- a pattern has no white space at its ends, so it cannot reach into that of the text
    obtain ⟨hhead, hlast⟩ := rejectPatterns_ends pat hpat
    exact infix_of_padded (rejectPatterns_ne_nil pat hpat) hhead hlast hfront hback

/-- **What is left of a text has a pattern** if it had one, or one lies across
something that was left out. -/
theorem containsInjection_left_iff (hvalue : containsInjection L value = false) :
    containsInjection L (strip isWhitespace (visible value)) = true ↔ JoinsAcross L value := by
  rw [containsInjection_iff]
  refine exists_congr fun pat => and_congr_right fun hpat => ?_
  rw [infix_strip_iff hpat, toLowercase_visible]
  constructor
  · intro h
    refine (infix_of_kept h).resolve_left fun hplain => ?_
    have hinjects := containsInjection_iff.mpr ⟨pat, hpat, hplain⟩
    rw [hvalue] at hinjects
    cases hinjects
  · exact LiesAcross.isWord

end Patterns

/-! ## §5. When the claims hold. -/

section Results

variable (L : LowerCase) (fieldName : String) (value : List Char)

variable {L fieldName value} in
theorem sanitizeString_eq_ok_iff {text : List Char} : sanitizeString L fieldName value = .ok text
    ↔ containsInjection L value = false ∧ text = strip isWhitespace (visible value) := by
  unfold sanitizeString
  rw [strips_eq]
  cases containsInjection L value with
  | true => simp
  | false => simp [eq_comm]

variable {L fieldName value} in
theorem validateString_eq_ok_iff {minLen maxLen : Nat} {text : List Char} :
    validateString L fieldName value minLen maxLen = .ok text
      ↔ sanitizeString L fieldName value = .ok text ∧ minLen ≤ utf8Len text ∧ utf8Len text ≤ maxLen := by
  unfold validateString
  cases sanitizeString L fieldName value with
  | error e => exact iff_of_false nofun fun h => nomatch h.1
  | ok sanitized =>
      show (if _ then _ else _ : Except ValidationError (List Char)) = .ok text ↔ _
      rw [Except.ok.injEq]
      constructor
      · intro h
        split at h
        · cases h
        · split at h
          · cases h
          · cases h
            exact ⟨rfl, by omega, by omega⟩
      · rintro ⟨rfl, hmin, hmax⟩
        rw [if_neg (by omega), if_neg (by omega)]

variable {L fieldName value} in
/-- Every error names the field. -/
theorem field_of_validateString {minLen maxLen : Nat} {e : ValidationError}
    (h : validateString L fieldName value minLen maxLen = .error e) : e.field = fieldName := by
  unfold validateString at h
  cases hsanitize : sanitizeString L fieldName value with
  | error e' =>
      rw [hsanitize] at h
      cases h
      unfold sanitizeString at hsanitize
      split at hsanitize
      · cases hsanitize
        rfl
      · cases hsanitize
  | ok sanitized =>
      rw [hsanitize] at h
      change (if _ then _ else _ : Except ValidationError (List Char)) = _ at h
      split at h
      · cases h
        rfl
      · split at h
        · cases h
          rfl
        · cases h

/-- **What a text is sanitized to is clean** unless a pattern lies across
something that is left out of it. -/
theorem sanitizesClean_iff :
    SanitizesClean L fieldName value ↔ containsInjection L value = true ∨ ¬JoinsAcross L value := by
  cases hvalue : containsInjection L value with
  | true =>
      -- a text that is turned down is sanitized to nothing
      refine iff_of_true (fun text h => ?_) (.inl rfl)
      have hnone := (sanitizeString_eq_ok_iff.mp h).1
      rw [hvalue] at hnone
      cases hnone
  | false =>
      have hleft := containsInjection_left_iff hvalue
      have hsub := (strip_sublist isWhitespace (visible value)).subset
      constructor
      · intro h
        refine .inr fun hjoins => ?_
        obtain ⟨pat, hpat, hin⟩ := containsInjection_iff.mp (hleft.mpr hjoins)
        exact (h _ (sanitizeString_eq_ok_iff.mpr ⟨hvalue, rfl⟩)).harmless pat hpat hin
      · rintro (hinjects | hjoins) text htext
        · cases hinjects
        · obtain ⟨-, rfl⟩ := sanitizeString_eq_ok_iff.mp htext
          have hclean := Bool.eq_false_iff.mpr (mt hleft.mp hjoins)
          have hbrackets : '<' ∉ strip isWhitespace (visible value) ∧ '>' ∉ strip isWhitespace (visible value) :=
            ⟨fun h => (mem_visible (hsub h)).1 rfl, fun h => (mem_visible (hsub h)).2.1 rfl⟩
          have hstay : ∀ c ∈ strip isWhitespace (visible value), staysIn c = true := fun c hc =>
            (mem_visible (hsub hc)).2.2
          -- control characters, patterns, and a second sanitizing
          refine ⟨fun c hc hcontrol => ?_, hbrackets, fun pat hpat hin => ?_, ?_⟩
          · have hin := hstay c hc
            unfold staysIn at hin
            simpa [hcontrol, or_assoc] using hin
          · rw [containsInjection_iff.mpr ⟨pat, hpat, hin⟩] at hclean
            cases hclean
          · unfold sanitizeString
            rw [if_neg (Bool.eq_false_iff.mp hclean), strips_eq_self hbrackets hstay, strip_strip]

/-- **A text is measured in characters** unless its bytes are on the other side of a bound. -/
theorem countsCharacters_iff (minLen maxLen : Nat) : CountsCharacters L fieldName value minLen maxLen
    ↔ containsInjection L value = true ∨ ¬BytesMislead (strip isWhitespace (visible value)) minLen maxLen := by
  have hbytes := WebhookText.length_le_utf8Len (strip isWhitespace (visible value))
  unfold CountsCharacters BytesMislead
  simp only [validateString_eq_ok_iff, sanitizeString_eq_ok_iff]
  cases containsInjection L value with
  | true => simp
  | false =>
      simp only [true_and, exists_eq_left, reduceCtorEq, false_or]
      omega

/-- **Sanitizing is clean and stable, and validation counts characters**: for
every text, exactly when it is turned down, or no pattern lies across something
that is left out of it, or its bytes do not mislead. -/
theorem sanitizing_iff :
    (SanitizesClean L fieldName value ↔ containsInjection L value = true ∨ ¬JoinsAcross L value)
      ∧ ∀ minLen maxLen, CountsCharacters L fieldName value minLen maxLen ↔
        containsInjection L value = true ∨ ¬BytesMislead (strip isWhitespace (visible value)) minLen maxLen :=
  ⟨sanitizesClean_iff L fieldName value, countsCharacters_iff L fieldName value⟩

end Results

/-! ## §6. Texts that are not. -/

/-- White space is not upper case. -/
theorem not_isUpper_of_isWhitespace {c : Char} (h : isWhitespace c = true) : ¬c.isUpper = true := by
  intro hupper
  have hrange : 65 ≤ c.val ∧ c.val ≤ 90 := of_decide_eq_true hupper
  have hlow : 65 ≤ c.toNat := UInt32.le_iff_toNat_le.mp hrange.1
  have hhigh : c.toNat ≤ 90 := UInt32.le_iff_toNat_le.mp hrange.2
  unfold Email.isWhitespace at h
  simp at h
  omega

/-- ASCII as it lower-cases. -/
def asciiLower : LowerCase where
  lowerChar c := if c.isUpper then [c.toLower] else [c]
  lowerChar_space _ h := if_neg (not_isUpper_of_isWhitespace h)

/-- A tag stands inside a pattern, and an accented letter has two bytes. -/
theorem tag_inside_pattern :
    ¬SanitizesClean asciiLower "title" "java<b>script:".toList
      ∧ ¬CountsCharacters asciiLower "title" "\u00E9".toList 1 1 := by
  constructor
  · intro h
    have hclean := h "javascript:".toList (by decide)
    exact hclean.harmless "javascript:".toList (by decide) (by decide)
  · intro h
    obtain ⟨text, htext⟩ := h.mpr ⟨"\u00E9".toList, by decide, by decide, by decide⟩
    cases htext.symm.trans (show _ = Except.error ⟨"too_long", "title",
      "Field 'title' must be at most 1 characters."⟩ by decide)

end PredictIQ.InputText
