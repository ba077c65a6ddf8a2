/-
  PredictIQ.Email.Types: the data of the email service (`email/types.rs`).

  Ids are kept by their hyphenated text, which is what Redis stores and sorts
  by.  A member of `email:processing` is `worker_id:job_id`, or a bare job id
  in the old format.  A `serde_json::Value` is kept by its text: neither the
  queue nor the service looks inside one.  Timestamps are whole seconds.
-/
import PredictIQ.Foundation.LuaPattern
import PredictIQ.Foundation.SortedSet
import Mathlib.Data.String.Basic

namespace PredictIQ.Email

open Foundation

/-! ## §1. Ids. -/

def isHexDigit (c : Char) : Bool := ('0' ≤ c && c ≤ '9') || ('a' ≤ c && c ≤ 'f')

/-- Groups of hexadecimal digits of the given lengths, with hyphens between. -/
def isHyphenated : List Nat → List Char → Bool
  | [], cs => cs.isEmpty
  | [n], cs => cs.length == n && cs.all isHexDigit
  | n :: ns, cs => (cs.take n).length == n && (cs.take n).all isHexDigit
      && (cs.drop n).head? == some '-' && isHyphenated ns (cs.drop (n + 1))

/-- `uuid::Uuid`, by the text of `to_string`. -/
structure Uuid where
  text : String
  hyphenated : isHyphenated [8, 4, 4, 4, 12] text.toList = true
  deriving DecidableEq

theorem Uuid.text_injective : Function.Injective Uuid.text := by
  rintro ⟨t, ht⟩ ⟨t', ht'⟩ h
  obtain rfl : t = t' := h
  rfl

/-- Redis orders members of one score by their bytes. -/
instance : LinearOrder Uuid := LinearOrder.lift' Uuid.text Uuid.text_injective

theorem exists_of_isHyphenated {n m : Nat} {ns : List Nat} {cs : List Char}
    (h : isHyphenated (n :: m :: ns) cs = true) :
    ∃ a rest, cs = a ++ '-' :: rest ∧ a.length = n ∧ a.all isHexDigit = true
      ∧ isHyphenated (m :: ns) rest = true := by
  simp only [isHyphenated, Bool.and_eq_true, beq_iff_eq] at h
  obtain ⟨⟨⟨hlen, hhex⟩, hhead⟩, hrest⟩ := h
  obtain ⟨tail, htail⟩ := List.head?_eq_some_iff.mp hhead
  refine ⟨cs.take n, cs.drop (n + 1), ?_, hlen, hhex, hrest⟩
  have hdrop : cs.drop (n + 1) = tail := by
    rw [← List.tail_drop, htail]
    rfl
  rw [hdrop, ← htail, List.take_append_drop]

/-- Such a text is made of hexadecimal digits and hyphens. -/
theorem hexDigit_or_hyphen {ns : List Nat} {cs : List Char} (h : isHyphenated ns cs = true) :
    ∀ c ∈ cs, isHexDigit c = true ∨ c = '-' := by
  induction ns generalizing cs with
  | nil =>
      obtain rfl : cs = [] := List.isEmpty_iff.mp h
      simp
  | cons n ns ih =>
      cases ns with
      | nil =>
          intro c hc
          exact .inl (List.all_eq_true.mp (Bool.and_eq_true_iff.mp h).2 c hc)
      | cons m ns =>
          obtain ⟨a, rest, rfl, _, hhex, hrest⟩ := exists_of_isHyphenated h
          intro c hc
          rcases List.mem_append.mp hc with hc | hc
          · exact .inl (List.all_eq_true.mp hhex c hc)
          · rcases List.mem_cons.mp hc with hc | hc
            · exact .inr hc
            · exact ih hrest c hc

namespace Uuid

theorem colon_not_mem (u : Uuid) : ':' ∉ u.text.toList := by
  intro h
  rcases hexDigit_or_hyphen u.hyphenated _ h with h | h
  · exact absurd h (by decide)
  · exact absurd h (by decide)

/-- The text begins with eight digits, a hyphen and two more digits. -/
theorem exists_text_eq (u : Uuid) : ∃ a c b₀ b₁ rest, u.text.toList = a ++ c :: '-' :: b₀ :: b₁ :: rest
    ∧ a.length = 7 ∧ '-' ∉ a ∧ c ≠ '-' ∧ b₀ ≠ '-' ∧ b₁ ≠ '-' ∧ rest ≠ [] ∧ rest.head? ≠ some '-' := by
  obtain ⟨g, rest, htext, hlen, hhex, hrest⟩ := exists_of_isHyphenated u.hyphenated
  obtain ⟨b, rest, rfl, hlenb, hhexb, _⟩ := exists_of_isHyphenated hrest
  have hne : ∀ {cs : List Char}, cs.all isHexDigit = true → ∀ c ∈ cs, c ≠ '-' := by
    rintro cs hcs c hc rfl
    exact absurd (List.all_eq_true.mp hcs _ hc) (by decide)
  match g, b, hlen, hlenb with
  | [a₀, a₁, a₂, a₃, a₄, a₅, a₆, c], [b₀, b₁, b₂, b₃], _, _ =>
      have hg := hne hhex
      have hb := hne hhexb
      refine ⟨[a₀, a₁, a₂, a₃, a₄, a₅, a₆], c, b₀, b₁, b₂ :: b₃ :: '-' :: rest, htext, rfl, ?_,
        hg c (by simp), hb b₀ (by simp), hb b₁ (by simp), List.cons_ne_nil _ _, ?_⟩
      · exact fun h => hg '-' (List.mem_append_left [c] h) rfl
      · exact fun h => hb b₂ (by simp) (Option.some.inj h)

/-- As a pattern the text matches at the head of no id: its first hyphen is
read as a lazy repetition, and nothing then matches the hyphen of the id. -/
theorem not_matchHere_text (u v : Uuid) (p : List Char) :
    ¬LuaPattern.matchHere (u.text.toList ++ p) v.text.toList = true := by
  intro h
  obtain ⟨a, c, b₀, b₁, rest, hu, hlen, ha, hc, hb₀, hb₁, hne, hhead⟩ := u.exists_text_eq
  obtain ⟨a', c', b₀', b₁', rest', hv, hlen', _⟩ := v.exists_text_eq
  rw [hu, hv, List.append_assoc] at h
  obtain ⟨t, ht, h⟩ := LuaPattern.exists_of_matchHere_append ha (List.cons_ne_nil _ _)
    (fun hd => hc (Option.some.inj hd)) h
  obtain ⟨-, rfl⟩ := List.append_inj ht (hlen'.trans hlen.symm)
  obtain ⟨n, t, hrep, h⟩ := LuaPattern.exists_of_minExpand (by simpa [LuaPattern.matchHere] using h)
  obtain ⟨t, rfl, -⟩ := LuaPattern.exists_of_matchHere_append (u := [b₀, b₁]) (by simp [hb₀.symm, hb₁.symm])
    (by simp [hne]) (by simpa [hne] using hhead) h
  -- the hyphen of `v` would be `b₁`, `b₀` or the repeated `c`
  rcases n with _ | _ | n
  · exact hb₁ (List.cons.inj (List.cons.inj hrep).2).1.symm
  · exact hb₀ (List.cons.inj (List.cons.inj hrep).2).1.symm
  · exact hc (List.cons.inj (List.cons.inj hrep).2).1.symm

end Uuid

/-! ## §2. Members of the processing set. -/

inductive Member where
  | owned (worker job : Uuid)
  | bare (job : Uuid)
  deriving DecidableEq

namespace Member

/-- The member as Redis holds it. -/
def text : Member → String
  | .owned worker job => worker.text ++ ":" ++ job.text
  | .bare job => job.text

theorem toList_text_owned (w j : Uuid) :
    (owned w j).text.toList = w.text.toList ++ ':' :: j.text.toList := by
  simp [text]

theorem colon_mem_owned (w j : Uuid) : ':' ∈ (owned w j).text.toList := by
  rw [toList_text_owned]
  exact List.mem_append_right _ List.mem_cons_self

/-- What follows a colon in the text of a member is its job. -/
theorem colon_suffix_iff {m : Member} {cs : List Char} :
    ':' :: cs <:+ m.text.toList ↔ ∃ w j, m = owned w j ∧ cs = j.text.toList := by
  constructor
  · rintro ⟨u, hu⟩
    cases m with
    | owned w j =>
        rw [toList_text_owned, eq_comm,
          List.append_cons_inj_of_notMem w.colon_not_mem j.colon_not_mem] at hu
        exact ⟨w, j, rfl, hu.2.2.symm⟩
    | bare j =>
        have hcolon : ':' ∈ (bare j).text.toList := hu ▸ List.mem_append_right u List.mem_cons_self
        exact absurd hcolon j.colon_not_mem
  · rintro ⟨w, j, rfl, rfl⟩
    exact ⟨w.text.toList, (toList_text_owned w j).symm⟩

theorem text_injective : Function.Injective text := by
  intro m m' h
  cases m with
  | owned w j =>
      cases m' with
      | owned w' j' =>
          have hlist := congrArg String.toList h
          rw [toList_text_owned, toList_text_owned,
            List.append_cons_inj_of_notMem w.colon_not_mem j.colon_not_mem] at hlist
          obtain rfl := Uuid.text_injective (String.toList_injective hlist.1)
          obtain rfl := Uuid.text_injective (String.toList_injective hlist.2.2)
          rfl
      | bare j' => exact absurd (congrArg String.toList h ▸ colon_mem_owned w j) j'.colon_not_mem
  | bare j =>
      cases m' with
      | owned w' j' =>
          exact absurd (congrArg String.toList h.symm ▸ colon_mem_owned w' j') j.colon_not_mem
      | bare j' => rw [Uuid.text_injective h]

instance : LinearOrder Member := LinearOrder.lift' text text_injective

/-- `member.ends_with(suffix)`. -/
def endsWith (m : Member) (suffix : String) : Bool := suffix.toList.isSuffixOf m.text.toList

/-- The test that `mark_completed` and `mark_failed` make of each member. -/
theorem endsWith_job {m : Member} {j : Uuid} :
    m.endsWith (":" ++ j.text) = true ↔ ∃ w, m = owned w j := by
  have hsuffix : (":" ++ j.text).toList = ':' :: j.text.toList := by simp
  rw [endsWith, List.isSuffixOf_iff_suffix, hsuffix, colon_suffix_iff]
  constructor
  · rintro ⟨w, j', rfl, hj⟩
    exact ⟨w, by rw [Uuid.text_injective (String.toList_injective hj)]⟩
  · rintro ⟨w, rfl⟩
    exact ⟨w, j, rfl, rfl⟩

/-- What `mark_completed` and `mark_failed` find is an entry of the job. -/
theorem owned_of_find {members : List Member} {m : Member} {j : Uuid}
    (h : members.find? (·.endsWith (":" ++ j.text)) = some m) : ∃ w, m = owned w j :=
  endsWith_job.mp (by simpa using List.find?_some h)

/-- The test that the recovery script makes of each member:
`member:find(':' .. job_id .. '$') or member == job_id`. -/
def isOf (m : Member) (j : Uuid) : Bool :=
  LuaPattern.find (":" ++ j.text ++ "$").toList m.text.toList || m.text == j.text

/-- The recovery script finds bare members only: the hyphens of the id are
repetitions in its pattern. -/
theorem isOf_iff {m : Member} {j : Uuid} : m.isOf j = true ↔ m = bare j := by
  have hpattern : (":" ++ j.text ++ "$").toList = ':' :: (j.text.toList ++ ['$']) := by simp
  have hfind : ¬LuaPattern.find (":" ++ j.text ++ "$").toList m.text.toList = true := by
    intro hfind
    obtain ⟨s, hs, hmatch⟩ := List.any_eq_true.mp hfind
    rw [hpattern] at hmatch
    have hhead : (j.text.toList ++ ['$']).head? ≠ some '-' := by
      obtain ⟨a, c, b₀, b₁, rest, htext, hlen, ha, _⟩ := j.exists_text_eq
      match a, hlen with
      | a₀ :: a, _ =>
          rw [htext]
          exact fun h => ha (List.mem_cons.mpr (.inl (Option.some.inj h).symm))
    obtain ⟨cs, rfl, hrest⟩ := LuaPattern.exists_of_matchHere_cons
      (List.append_ne_nil_of_right_ne_nil _ (List.cons_ne_nil _ _)) hhead hmatch
    obtain ⟨w, j', rfl, rfl⟩ := colon_suffix_iff.mp ((List.mem_tails _ _).mp hs)
    exact Uuid.not_matchHere_text j j' _ hrest
  rw [isOf, Bool.or_eq_true, or_iff_right hfind, beq_iff_eq]
  exact ⟨fun h => text_injective h, fun h => congrArg text h⟩

end Member

/-! ## §3. Jobs and events. -/

/-- `serde_json::Value`. -/
abbrev Value : Type := String

inductive EmailJobType where
  | newsletterConfirmation | waitlistConfirmation | contactFormAutoResponse | welcomeEmail
  | custom (s : String)
  deriving DecidableEq, Repr

def EmailJobType.asStr : EmailJobType → String
  | .newsletterConfirmation => "newsletter_confirmation"
  | .waitlistConfirmation => "waitlist_confirmation"
  | .contactFormAutoResponse => "contact_form_auto_response"
  | .welcomeEmail => "welcome_email"
  | .custom s => s

inductive EmailJobStatus where
  | pending | processing | completed | failed | cancelled
  deriving DecidableEq, Repr

def EmailJobStatus.asStr : EmailJobStatus → String
  | .pending => "pending"
  | .processing => "processing"
  | .completed => "completed"
  | .failed => "failed"
  | .cancelled => "cancelled"

/-- A row of `email_jobs`. -/
structure EmailJob where
  id : Uuid
  jobType : String
  recipientEmail : String
  templateName : String
  templateData : Value
  status : String
  priority : Int
  attempts : Int
  maxAttempts : Int
  errorMessage : Option String
  createdAt : Int
  deriving DecidableEq

/-- A row of `email_events`. -/
structure EmailEvent where
  emailJobId : Option Uuid
  messageId : Option String
  eventType : String
  recipientEmail : String
  metadata : Value
  deriving DecidableEq

/-- The payload that `mark_failed` puts beside a dead-lettered job. -/
structure DlqPayload where
  jobType : String
  recipientEmail : String
  templateName : String
  templateData : Value
  deriving DecidableEq

/-- A row of `email_dead_letter_jobs`. -/
structure DeadLetterJob where
  payload : DlqPayload
  failureReason : String
  retryCount : Int
  deriving DecidableEq

/-- The body of a request to SendGrid's `/v3/mail/send`. -/
structure Payload where
  toEmail : String
  subject : String
  fromEmail : String
  textContent : String
  htmlContent : String
  templateName : String
  deriving DecidableEq

/-- What SendGrid answers: a status and the `x-message-id` header. -/
structure Response where
  status : Nat
  messageId : Option String
  deriving DecidableEq

/-- `status.is_success()`. -/
def Response.isSuccess (r : Response) : Bool := 200 ≤ r.status && r.status < 300

end PredictIQ.Email
