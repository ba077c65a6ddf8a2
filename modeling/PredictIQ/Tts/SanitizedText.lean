/-
  PredictIQ.Tts.SanitizedText: `sanitizeInput`, and the texts that providers get.

  A string is a list of 16-bit units; the service works on strings of whole
  characters, to which the same three passes apply.  A text is `Speakable`
  when it is refused or something visible in it is outside the tags: those are
  the texts of which a non-empty text is left.
-/
import PredictIQ.Foundation.Markup
import PredictIQ.Foundation.Rely
import PredictIQ.Tts.Service

namespace PredictIQ.Tts.SanitizedText

open Foundation

/-! ## §1. The function. -/

/-- White space by its code, for `\s` and for `trim`. -/
def isSpaceCode (n : Nat) : Bool :=
  (9 ≤ n && n ≤ 13) || n = 0x20 || n = 0xa0 || n = 0x1680 || (0x2000 ≤ n && n ≤ 0x200a) || n = 0x2028 || n = 0x2029
    || n = 0x202f || n = 0x205f || n = 0x3000 || n = 0xfeff

def unitMarks : Marks UInt16 where
  isSpace u := isSpaceCode u.toNat
  space := 0x20
  opening := 0x3C
  closing := 0x3E
  isSpace_space := by decide
  isSpace_opening := by decide
  isSpace_closing := by decide
  opening_ne_closing := by decide

structure InputValidationError where
  message : String

def sanitizeInput (text : List UInt16) : Except InputValidationError (List UInt16) :=
  if (strip unitMarks.isSpace text).length = 0 then .error ⟨"Input text must be a non-empty string"⟩
  else if text.length > maxInputLength then
    .error ⟨"Input text exceeds maximum length of " ++ toString maxInputLength ++ " characters"⟩
  else
    let stripped := unitMarks.stripTags false text
    .ok (strip unitMarks.isSpace (unitMarks.collapse false stripped))

/-! ## §2. What is claimed of it. -/

/-- **What is returned** is not empty and no longer than the text, has no tag and
only single spaces inside, and is returned again for itself. -/
def Sanitizes (text : List UInt16) : Prop :=
  ∀ out, sanitizeInput text = .ok out →
    out ≠ [] ∧ out.length ≤ text.length ∧ unitMarks.Tidy out ∧ sanitizeInput out = .ok out

/-- A text that is refused, for white space or for its length; or one with a
visible letter outside the tags. -/
def Speakable {α : Type} [DecidableEq α] (M : Marks α) (length : List α → Nat) (text : List α) : Prop :=
  (∀ c ∈ text, M.isSpace c = true) ∨ length text > maxInputLength
    ∨ ∃ front c back, text = front ++ c :: back ∧ M.isSpace c = false ∧ M.Outside front c back

theorem sanitizeInput_cases (text : List UInt16) :
    (((∀ c ∈ text, unitMarks.isSpace c = true) ∨ text.length > maxInputLength) ∧ ∃ e, sanitizeInput text = .error e)
    ∨ (¬(∀ c ∈ text, unitMarks.isSpace c = true) ∧ text.length ≤ maxInputLength
      ∧ sanitizeInput text = .ok (unitMarks.tidy text)) := by
  have hempty : (strip unitMarks.isSpace text).length = 0 ↔ ∀ c ∈ text, unitMarks.isSpace c = true := by
    rw [List.length_eq_zero_iff, strip_eq_nil_iff]
  unfold sanitizeInput
  by_cases hspaces : ∀ c ∈ text, unitMarks.isSpace c = true
  · rw [if_pos (hempty.mpr hspaces)]
    exact .inl ⟨.inl hspaces, _, rfl⟩
  · rw [if_neg (mt hempty.mp hspaces)]
    by_cases hlong : text.length > maxInputLength
    · rw [if_pos hlong]
      exact .inl ⟨.inr hlong, _, rfl⟩
    · rw [if_neg hlong]
      exact .inr ⟨hspaces, Nat.not_lt.mp hlong, rfl⟩

/-- **Which texts are sanitized.** -/
theorem sanitizes_iff (text : List UInt16) : Sanitizes text ↔ Speakable unitMarks List.length text := by
  unfold Sanitizes Speakable
  rcases sanitizeInput_cases text with ⟨hrefused, e, he⟩ | ⟨hvisible, hshort, hok⟩
  · rw [he]
    exact iff_of_true nofun (hrefused.imp_right .inl)
  · rw [hok]
    have htidy := unitMarks.tidy_tidy text
    have hlength := unitMarks.length_tidy_le text
    constructor
    · intro h
      exact .inr (.inr (Marks.tidy_ne_nil_iff.mp (h _ rfl).1))
    · intro h
      have hne : unitMarks.tidy text ≠ [] :=
        Marks.tidy_ne_nil_iff.mpr ((h.resolve_left hvisible).resolve_left (Nat.not_lt.mpr hshort))
      rintro out hout
      obtain rfl := Except.ok.inj hout
      refine ⟨hne, hlength, htidy, ?_⟩
      -- the second call refuses nothing, and has nothing to do
      rcases sanitizeInput_cases (unitMarks.tidy text) with ⟨hspaces | hlong, -⟩ | ⟨-, -, hagain⟩
      · obtain ⟨c, hc⟩ := Option.ne_none_iff_exists'.mp (mt List.head?_eq_none_iff.mp hne)
        have hspace := hspaces c (List.mem_of_head? hc)
        rw [htidy.head c hc] at hspace
        cases hspace
      · omega
      · rw [hagain, htidy.tidy_eq]

/-! ## §3. Texts of the service. -/

def charMarks : Marks Char where
  isSpace := isSpace
  space := ' '
  opening := '<'
  closing := '>'
  isSpace_space := by decide
  isSpace_opening := by decide
  isSpace_closing := by decide
  opening_ne_closing := by decide

theorem stripTags_eq (inTag : Bool) (text : List Char) : stripTags inTag text = charMarks.stripTags inTag text := by
  induction text generalizing inTag with
  | nil => cases inTag <;> rfl
  | cons c rest ih =>
      rw [Marks.stripTags_cons, ← ih, ← ih, ← ih]
      cases inTag with
      | true =>
          have hnext : (c != '>') = decide (c ≠ '>') := by
            by_cases hc : c = '>' <;> simp [hc]
          exact congrArg (stripTags · rest) hnext
      | false =>
          rw [if_neg Bool.false_ne_true, stripTags]
          by_cases hopen : c = '<' ∧ '>' ∈ rest
          · rw [if_pos (by simpa using hopen)]
            exact (if_pos hopen).symm
          · rw [if_neg (by simpa using hopen)]
            exact (if_neg hopen).symm

theorem collapseSpaces_eq (after : Bool) (text : List Char) :
    collapseSpaces after text = charMarks.collapse after text := by
  induction text generalizing after with
  | nil => cases after <;> rfl
  | cons c rest ih =>
      rw [Marks.collapse_cons, ← ih, ← ih, collapseSpaces]
      rfl

/-- The service makes the same three passes. -/
theorem sanitizeInput_eq_ok {text sanitized : String} (h : Tts.sanitizeInput text = .ok sanitized) :
    ¬(∀ c ∈ text.toList, charMarks.isSpace c = true) ∧ utf16Length text.toList ≤ maxInputLength
      ∧ sanitized.toList = charMarks.tidy text.toList := by
  unfold Tts.sanitizeInput at h
  split at h
  · cases h
  · next hspaces =>
      split at h
      · cases h
      · next hlong =>
          obtain rfl := Except.ok.inj h
          refine ⟨fun hall => hspaces ?_, Nat.not_lt.mp hlong, ?_⟩
          · rw [List.isEmpty_iff]
            exact strip_eq_nil_iff.mpr hall
          · rw [String.toList_ofList, stripTags_eq, collapseSpaces_eq]
            rfl

/-- **A speakable text is sanitized to a text that is not empty.** -/
theorem sanitized_ne_empty {text sanitized : String} (h : Speakable charMarks utf16Length text.toList)
    (hok : Tts.sanitizeInput text = .ok sanitized) : sanitized ≠ "" := by
  obtain ⟨hvisible, hshort, htidy⟩ := sanitizeInput_eq_ok hok
  have hne := Marks.tidy_ne_nil_iff.mpr ((h.resolve_left hvisible).resolve_left (Nat.not_lt.mpr hshort))
  rintro rfl
  exact hne htidy.symm

/-! ## §4. Texts that reach a provider. -/

section Providers

variable (W : Setting) (cfg : TTSConfig)

/-- No empty text is spoken, nor made a job of. -/
def Allowed : Command → Prop
  | .callProvider _ text _ => text ≠ ""
  | .createJob spec => spec.text ≠ ""
  | _ => True

/-- A job is made as asked. -/
def Fair : (q : Command) → Reply q → Prop
  | .createJob spec, made => made.2.spec = spec
  | _, _ => True

theorem serves : Machine.Serves (server W cfg) Fair (fun (_ : Nat) => Allowed) fun _ => True := by
  intro c s p q v s' _ _ hexec
  refine ⟨?_, trivial⟩
  cases q with
  | createJob spec =>
      obtain ⟨rfl, -⟩ := Prod.ext_iff.mp (Option.some.inj hexec)
      rfl
  | _ => trivial

variable {W cfg} {spec : JobSpec} {α : Type} {good : α → Prop}

/-- A question that is allowed, whatever the answer. -/
theorem keeps_ask {q : Command} (h : Allowed q) : (ask q).Keeps Fair Allowed fun _ => True :=
  Prog.keeps_call h fun _ _ => trivial

theorem keeps_persistJob (ref : Nat) : (persistJob cfg ref).Keeps Fair Allowed fun _ => True := by
  unfold persistJob
  split
  · exact keeps_ask trivial
  · exact Prog.keeps_pure trivial

theorem keeps_callProvider {text : String} (h : text ≠ "") (provider : TTSProvider) (voice : TTSVoice) :
    (callProvider cfg provider text voice).Keeps Fair Allowed fun _ => True := by
  unfold callProvider
  split
  · exact keeps_ask h
  · exact Prog.keeps_fail _

/-- Both providers get the text of the job. -/
theorem keeps_generateWithFallback (h : spec.text ≠ "") :
    (generateWithFallback cfg spec).Keeps Fair Allowed fun _ => True := by
  unfold generateWithFallback
  refine Prog.keeps_attempt_bind (keeps_callProvider h _ _) (fun _ _ => Prog.keeps_pure trivial) fun _ => ?_
  dsimp only
  split
  · exact Prog.keeps_fail _
  · exact Prog.keeps_attempt_bind (keeps_callProvider h _ _) (fun _ _ => Prog.keeps_pure trivial) fun _ => Prog.keeps_fail _

theorem keeps_saveAudio (buffer : Buffer) (id : String) :
    (saveAudio cfg buffer id).Keeps Fair Allowed fun _ => True := by
  unfold saveAudio
  exact Prog.keeps_bind (keeps_ask trivial) fun _ _ =>
    Prog.keeps_bind (keeps_ask trivial) fun _ _ => Prog.keeps_pure trivial

theorem keeps_finish (ref : Nat) (id : String) (buffer : Buffer) :
    (finish cfg ref id buffer).Keeps Fair Allowed fun _ => True := by
  unfold finish
  refine Prog.keeps_bind (keeps_saveAudio buffer id) fun _ _ => ?_
  exact Prog.keeps_bind (keeps_ask trivial) fun _ _ => keeps_persistJob ref

theorem keeps_process (h : spec.text ≠ "") (ref : Nat) (id : String) :
    (process W cfg ref id spec).Keeps Fair Allowed fun _ => True := by
  have hspeak : (do let buffer ← generateWithFallback cfg spec; finish cfg ref id buffer).Keeps Fair Allowed
      fun _ => True :=
    Prog.keeps_bind (keeps_generateWithFallback h) fun buffer _ => keeps_finish ref id buffer
  unfold process
  refine Prog.keeps_bind (keeps_ask trivial) fun _ _ => Prog.keeps_bind (keeps_persistJob ref) fun _ _ => ?_
  split
  · exact hspeak
  · next key _ =>
      have hget : (cacheGet cfg key).Keeps Fair Allowed fun _ => True := by
        unfold cacheGet
        split <;> exact keeps_ask trivial
      have hset : ∀ buffer, (cacheSet cfg key buffer).Keeps Fair Allowed fun _ => True := fun buffer => by
        unfold cacheSet
        split <;> exact keeps_ask trivial
      refine Prog.keeps_bind hget fun cached _ => ?_
      split
      · exact keeps_finish ref id _
      · exact Prog.keeps_bind (keeps_generateWithFallback h) fun buffer _ =>
          Prog.keeps_bind (hset buffer) fun _ _ => keeps_finish ref id buffer

theorem keeps_background (h : spec.text ≠ "") (ref : Nat) (id : String) :
    (background W cfg ref id spec).Keeps Fair Allowed fun _ => True := by
  unfold background
  refine Prog.keeps_attempt_bind (keeps_process h ref id) (fun _ _ => Prog.keeps_pure trivial) fun err => ?_
  unfold handleProcessError
  refine Prog.keeps_bind (keeps_ask trivial) fun failed _ => ?_
  split
  · exact Prog.keeps_pure trivial
  · exact Prog.keeps_attempt_bind (keeps_persistJob _) (fun _ _ => Prog.keeps_pure trivial) fun _ => Prog.keeps_pure trivial

/-- The text that a task is to speak can be spoken, or is refused. -/
def SpeakableTask : Task → Prop
  | .enqueue r | .enqueueAsync r => Speakable charMarks utf16Length r.text.toList
  | .waitTick .. => True

/-- A job is made of a text that is not empty. -/
theorem keeps_createJob {r : Request} (h : Speakable charMarks utf16Length r.text.toList) (owner : String) :
    (createJob cfg r owner).Keeps Fair Allowed fun made => made.2.spec.text ≠ "" := by
  unfold createJob
  refine Prog.keeps_bind (Prog.keeps_done (fun sanitized => sanitized ≠ "") fun _ => sanitized_ne_empty h) fun _ hne => ?_
  refine Prog.keeps_call hne fun made hfair => ?_
  have hspec : made.2.spec = _ := hfair
  rw [hspec]
  exact hne

theorem keeps_resolveOwner (credential : Option String) :
    (resolveOwner cfg credential).Keeps Fair Allowed fun _ => True := by
  unfold resolveOwner
  split
  · exact Prog.keeps_pure trivial
  · exact Prog.keeps_done _ fun _ _ => trivial

theorem keeps_redisIncr (key : String) (windowMs : Int) : (redisIncr key windowMs).Keeps Fair Allowed fun _ => True := by
  unfold redisIncr
  refine Prog.keeps_bind (keeps_ask trivial) fun count _ => ?_
  dsimp only
  split
  · exact Prog.keeps_bind (keeps_ask trivial) fun _ _ => Prog.keeps_pure trivial
  · exact Prog.keeps_pure trivial

theorem keeps_limitRate (isShared : Bool) (key : Option String) :
    (limitRate cfg isShared key).Keeps Fair Allowed fun _ => True := by
  unfold limitRate
  split
  · exact Prog.keeps_pure trivial
  · split
    · exact Prog.keeps_pure trivial
    · split
      · unfold checkSharedRate
        refine Prog.keeps_bind (keeps_redisIncr _ _) fun count _ => ?_
        split
        · exact Prog.keeps_fail _
        · exact Prog.keeps_pure trivial
      · unfold checkRate
        refine Prog.keeps_bind (keeps_ask trivial) fun count _ => ?_
        split
        · exact Prog.keeps_fail _
        · exact Prog.keeps_pure trivial

/-- **A call with a speakable text** asks no provider for an empty one. -/
theorem keeps_body {p : Nat} {task : Task} (h : SpeakableTask task) :
    (body W cfg p task).Keeps Fair Allowed fun _ => True := by
  cases task with
  | enqueue r =>
      show (enqueue W cfg r).Keeps Fair Allowed fun _ => True
      unfold enqueue
      refine Prog.keeps_bind (keeps_resolveOwner _) fun owner _ => Prog.keeps_bind (keeps_limitRate _ _) fun _ _ => ?_
      exact Prog.keeps_bind (keeps_createJob h owner) fun made hne => keeps_background hne _ _
  | enqueueAsync r =>
      show (enqueueAsync W cfg r).Keeps Fair Allowed fun _ => True
      unfold enqueueAsync
      refine Prog.keeps_bind (keeps_resolveOwner _) fun owner _ => Prog.keeps_bind (keeps_limitRate _ _) fun _ _ => ?_
      exact Prog.keeps_bind (keeps_createJob h owner) fun made hne =>
        Prog.keeps_bind (keeps_persistJob _) fun _ _ => keeps_background hne _ _
  | waitTick id start timeoutMs =>
      show (waitTick id start timeoutMs).Keeps Fair Allowed fun _ => True
      unfold waitTick
      refine Prog.keeps_bind (keeps_ask trivial) fun found _ => ?_
      split
      · exact Prog.keeps_fail _
      · split
        · exact keeps_ask trivial
        · exact Prog.keeps_fail _
        · split
          · exact Prog.keeps_fail _
          · exact Prog.keeps_pure trivial

/-- No provider is asked to speak an empty text in a run of the service. -/
def SpeaksNoEmpty (W : Setting) (cfg : TTSConfig) (now : Int) (as : List Action) : Prop :=
  ∀ x ∈ (run (step W cfg) (.idle (State.initial now)) as).log, ∀ provider text voice,
    x.2.question = .callProvider provider text voice → text ≠ ""

theorem speaksNoEmpty_of_speakable {now : Int} {as : List Action}
    (h : ∀ p task, .start p task ∈ as → SpeakableTask task) :
    SpeaksNoEmpty W cfg now as := by
  have hrun := Machine.rely_run_of (s := State.initial now) (body W cfg) (outside cfg) (serves W cfg) trivial
    (fun _ _ _ => trivial) as fun p task hstart => keeps_body (h p task hstart)
  intro x hx provider text voice hquestion
  have hallowed := hrun.log x hx
  rw [hquestion] at hallowed
  exact hallowed

end Providers

/-- **Which texts are sanitized**, as strings of units; and in a run of the service
whose texts are speakable, no provider is asked to speak an empty one. -/
theorem sanitizeInput_speaks_iff (text : List UInt16) (W : Setting) (cfg : TTSConfig) (now : Int) (as : List Action) :
    (Sanitizes text ↔ Speakable unitMarks List.length text)
      ∧ ((∀ p task, .start p task ∈ as → SpeakableTask task) → SpeaksNoEmpty W cfg now as) :=
  ⟨sanitizes_iff text, speaksNoEmpty_of_speakable⟩

/-- A text of two tags is sanitized to nothing. -/
theorem only_tags : ¬Sanitizes [0x3C, 0x62, 0x3E, 0x3C, 0x2F, 0x62, 0x3E] := by
  intro h
  exact (h [] rfl).1 rfl

end PredictIQ.Tts.SanitizedText
