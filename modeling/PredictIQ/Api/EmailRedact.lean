/-
  PredictIQ.Api.EmailRedact: addresses in logs, `redact_email` of
  `body_redact.rs`.

  A part that is longer than a byte is cut at its first byte, which panics
  (`none` here) when its first character has more; a part of one byte is shown
  as it is.  `Conceals` is what is claimed: at most a character of each part is
  shown, and addresses that differ in the rest alone are redacted alike.
-/
import PredictIQ.Email.WebhookText
import PredictIQ.Foundation.Text

namespace PredictIQ.EmailRedact

open Foundation
open WebhookText (utf8Len splitAtByte)

/-! ## §1. The function. -/

def stars : List Char := "***".toList

/-- `&part[0..1]` and three stars, for a part longer than a byte. -/
def abridge (part : List Char) : Option (List Char) :=
  if 1 < utf8Len part then (splitAtByte 1 part).map (·.1 ++ stars) else some part

/-- The name before the last dot is abridged; a domain without a dot is not shown. -/
def redactDomain (domainPart : List Char) : Option (List Char) :=
  match cutLast '.' domainPart with
  | some (namePart, tld) => (abridge namePart).map (· ++ '.' :: tld)
  | none => some stars

def redactEmail (email : List Char) : Option (List Char) :=
  if email = [] then some []
  else
    match cutFirst '@' email with
    | some (localPart, domainPart) => do
        let redactedLocal ← abridge localPart
        let redactedDomain ← redactDomain domainPart
        return redactedLocal ++ '@' :: redactedDomain
    | none => some "***@***".toList

/-! ## §2. What is claimed of it. -/

/-- What stands before the last dot, or everything. -/
def nameOf (domain : List Char) : List Char := ((cutLast '.' domain).map (·.1)).getD domain

/-- The text from the last dot on. -/
def tldOf (domain : List Char) : List Char := ((cutLast '.' domain).map ('.' :: ·.2)).getD []

/-- A text that shows at most the first character of a part, and stars. -/
def ShowsFirst (part text : List Char) : Prop :=
  ∃ shown, shown <+: part ∧ shown.length ≤ 1 ∧ (text = shown ∨ text = shown ++ stars)

/-- An address in its two parts. -/
def IsAddress (localPart domain email : List Char) : Prop := email = localPart ++ '@' :: domain ∧ '@' ∉ localPart

/-- The redacted text shows at most the first characters of the local part and
of the domain's name, and the text from the last dot. -/
def Hides (email text : List Char) : Prop :=
  ∀ localPart domain, IsAddress localPart domain email →
    ∃ before shown, text = before ++ '@' :: (shown ++ stars ++ tldOf domain)
    ∧ ShowsFirst localPart before ∧ shown <+: nameOf domain ∧ shown.length ≤ 1

/-- Addresses with longer parts that have the first characters and the text
from the last dot in common. -/
def Alike (email email' : List Char) : Prop :=
  ∃ localPart domain localPart' domain', IsAddress localPart domain email ∧ IsAddress localPart' domain' email'
    ∧ (1 < localPart.length ∧ 1 < localPart'.length ∧ localPart.head? = localPart'.head?)
    ∧ (1 < (nameOf domain).length ∧ 1 < (nameOf domain').length ∧ (nameOf domain).head? = (nameOf domain').head?)
    ∧ tldOf domain = tldOf domain'

/-- **Redaction does not panic**, hides, and tells no two addresses apart that
show the same. -/
def Conceals (email : List Char) : Prop :=
  (∃ text, redactEmail email = some text ∧ Hides email text)
    ∧ ∀ email', Alike email email' → ∃ text, redactEmail email = some text ∧ redactEmail email' = some text

/-- A part whose first character has one byte. -/
def StartsNarrow (part : List Char) : Prop := ∀ c ∈ part.head?, c.utf8Size = 1

/-- The local part is empty or begins with a character of one byte, and so does
the domain's name, which has another behind it, if there is a dot. -/
def Redactable (email : List Char) : Prop :=
  ∀ localPart domain, IsAddress localPart domain email →
    StartsNarrow localPart ∧ ('.' ∈ domain → StartsNarrow (nameOf domain) ∧ 1 < (nameOf domain).length)

/-! ## §3. Parts. -/

section Parts

variable {part domain localPart email : List Char}

theorem abridge_of_long {c : Char} {cs : List Char} (hc : c.utf8Size = 1) (hcs : cs ≠ []) :
    abridge (c :: cs) = some (c :: stars) := by
  have hlen : 1 < utf8Len (c :: cs) := by
    have hpos := WebhookText.utf8Len_pos hcs
    rw [WebhookText.utf8Len_cons]
    omega
  have hsplit : splitAtByte 1 (c :: cs) = some ([c], cs) := by
    have happend := WebhookText.splitAtByte_append [c] cs
    rwa [show utf8Len [c] = 1 from hc] at happend
  unfold abridge
  rw [if_pos hlen, hsplit]
  rfl

/-- **A part is cut** when its first character has one byte, and panics otherwise. -/
theorem abridge_spec (part : List Char) : (StartsNarrow part ∧ ∃ text, abridge part = some text
    ∧ ShowsFirst part text ∧ (1 < part.length → ∃ c ∈ part.head?, text = c :: stars) ∧ (part.length ≤ 1 → text = part))
    ∨ (¬StartsNarrow part ∧ abridge part = none) := by
  cases part with
  | nil => exact .inl ⟨nofun, [], rfl, ⟨[], List.prefix_rfl, Nat.zero_le _, .inl rfl⟩, nofun, fun _ => rfl⟩
  | cons c cs =>
      by_cases hc : c.utf8Size = 1
      · refine .inl ⟨fun d hd => by cases hd; exact hc, ?_⟩
        by_cases hcs : cs = []
        · subst hcs
          have hshort : abridge [c] = some [c] := by
            unfold abridge
            rw [if_neg (by rw [show utf8Len [c] = 1 from hc]; decide)]
          exact ⟨[c], hshort, ⟨[c], List.prefix_rfl, Nat.le_refl _, .inl rfl⟩, fun h => absurd h (Nat.lt_irrefl _),
            fun _ => rfl⟩
        · refine ⟨c :: stars, abridge_of_long hc hcs, ⟨[c], ⟨cs, rfl⟩, Nat.le_refl _, .inr rfl⟩, fun _ => ⟨c, rfl, rfl⟩,
            fun h => ?_⟩
          have hpos := List.length_pos_iff.mpr hcs
          rw [List.length_cons] at h
          omega
      · -- the first byte ends inside the first character
        refine .inr ⟨fun h => hc (h c rfl), ?_⟩
        have hlen : 1 < utf8Len (c :: cs) := by
          have hpos := c.utf8Size_pos
          rw [WebhookText.utf8Len_cons]
          omega
        have hsplit : splitAtByte 1 (c :: cs) = none := by
          have hpos := c.utf8Size_pos
          have hwide : ¬c.utf8Size ≤ 1 := by omega
          exact if_neg hwide
        unfold abridge
        rw [if_pos hlen, hsplit]
        rfl

/-- A domain without a dot is hidden; in another only the name is abridged. -/
theorem redactDomain_spec (domain : List Char) :
    ('.' ∉ domain ∧ nameOf domain = domain ∧ tldOf domain = [] ∧ redactDomain domain = some stars)
    ∨ ('.' ∈ domain ∧ (∃ tld, tldOf domain = '.' :: tld)
      ∧ redactDomain domain = (abridge (nameOf domain)).map (· ++ tldOf domain)) := by
  unfold nameOf tldOf redactDomain
  by_cases hdot : '.' ∈ domain
  · obtain ⟨name, tld, rfl, htld⟩ := exists_cutLast hdot
    rw [cutLast_append htld]
    exact .inr ⟨hdot, ⟨tld, rfl⟩, rfl⟩
  · rw [cutLast_of_not_mem hdot]
    exact .inl ⟨hdot, rfl, rfl, rfl⟩

/-- The text from the last dot tells whether there is a dot. -/
theorem mem_dot_iff : '.' ∈ domain ↔ tldOf domain ≠ [] := by
  rcases redactDomain_spec domain with ⟨hdot, -, htld, -⟩ | ⟨hdot, ⟨tld, htld⟩, -⟩
  · exact iff_of_false hdot fun hne => hne htld
  · exact iff_of_true hdot (htld ▸ List.cons_ne_nil _ _)

theorem redactEmail_of_isAddress (h : IsAddress localPart domain email) : redactEmail email =
    (abridge localPart).bind fun redactedLocal =>
      (redactDomain domain).map fun redactedDomain => redactedLocal ++ '@' :: redactedDomain := by
  obtain ⟨rfl, hlocal⟩ := h
  unfold redactEmail
  rw [if_neg (List.append_ne_nil_of_right_ne_nil _ (List.cons_ne_nil _ _)), cutFirst_append hlocal]
  show (do let redactedLocal ← abridge localPart
           let redactedDomain ← redactDomain domain
           return redactedLocal ++ '@' :: redactedDomain) = _
  cases abridge localPart <;> cases redactDomain domain <;> rfl

/-- An address is in two parts at its first `@`. -/
theorem IsAddress.unique {localPart' domain' : List Char} (h : IsAddress localPart domain email)
    (h' : IsAddress localPart' domain' email) : localPart = localPart' ∧ domain = domain' := by
  have hcut : some (localPart, domain) = some (localPart', domain') := by
    rw [← cutFirst_append h.2, ← h.1, h'.1, cutFirst_append h'.2]
  exact Prod.ext_iff.mp (Option.some.inj hcut)

/-- Nothing is shown of the local part that could be an `@`. -/
theorem ShowsFirst.not_mem {text : List Char} (h : ShowsFirst part text) (hpart : '@' ∉ part) : '@' ∉ text := by
  obtain ⟨shown, hshown, -, rfl | rfl⟩ := h
  · exact fun hmem => hpart (hshown.subset hmem)
  · intro hmem
    rcases List.mem_append.mp hmem with hmem | hmem
    · exact hpart (hshown.subset hmem)
    · exact absurd hmem (by decide)

end Parts

/-! ## §4. Which addresses are concealed. -/

section Addresses

variable {localPart domain email : List Char}

/-- **What a redactable address becomes.** -/
theorem redactEmail_of_redactable (h : IsAddress localPart domain email) (hlocal : StartsNarrow localPart)
    (hname : '.' ∈ domain → StartsNarrow (nameOf domain) ∧ 1 < (nameOf domain).length) :
    ∃ before shown, redactEmail email = some (before ++ '@' :: (shown ++ stars ++ tldOf domain))
      ∧ ShowsFirst localPart before ∧ (1 < localPart.length → ∃ c ∈ localPart.head?, before = c :: stars)
      ∧ shown <+: nameOf domain ∧ shown.length ≤ 1
      ∧ ('.' ∈ domain → ∃ c ∈ (nameOf domain).head?, shown = [c]) ∧ ('.' ∉ domain → shown = []) := by
  obtain ⟨-, before, hbefore, hshows, hlong, -⟩ := (abridge_spec localPart).resolve_right fun hwide => hwide.1 hlocal
  rw [redactEmail_of_isAddress h, hbefore]
  rcases redactDomain_spec domain with ⟨hdot, -, htld, hdomain⟩ | ⟨hdot, -, hdomain⟩
  · refine ⟨before, [], ?_, hshows, hlong, List.nil_prefix, Nat.zero_le _, fun hmem => absurd hmem hdot, fun _ => rfl⟩
    rw [hdomain, htld]
    rfl
  · obtain ⟨hnarrow, hlen⟩ := hname hdot
    obtain ⟨-, name, habridge, -, hname, -⟩ := (abridge_spec (nameOf domain)).resolve_right fun hwide => hwide.1 hnarrow
    obtain ⟨c, hc, rfl⟩ := hname hlen
    refine ⟨before, [c], ?_, hshows, hlong, ?_, Nat.le_refl _, fun _ => ⟨c, hc, rfl⟩, fun hmem => absurd hdot hmem⟩
    · rw [hdomain, habridge]
      rfl
    · obtain ⟨rest, hrest⟩ := List.head?_eq_some_iff.mp hc
      rw [hrest]
      exact ⟨rest, rfl⟩

/-- A redacted address is redactable: its parts were cut, and the name's is told
from what follows by the stars. -/
theorem redactable_of_hides {text : List Char} (htext : redactEmail email = some text) (hhides : Hides email text) :
    Redactable email := by
  intro localPart domain h
  rw [redactEmail_of_isAddress h] at htext
  obtain ⟨redactedLocal, hlocal, htext⟩ := Option.bind_eq_some_iff.mp htext
  obtain ⟨redactedDomain, hdomain, rfl⟩ := Option.map_eq_some_iff.mp htext
  -- a part that was cut, or shown whole, begins with a character of one byte
  have hcut : ∀ part text, abridge part = some text → StartsNarrow part := fun part text hpart => by
    rcases abridge_spec part with hnarrow | hwide
    · exact hnarrow.1
    · rw [hwide.2] at hpart
      cases hpart
  refine ⟨hcut _ _ hlocal, fun hdot => ?_⟩
  obtain ⟨-, -, hname⟩ := (redactDomain_spec domain).resolve_left fun hnone => hnone.1 hdot
  rw [hname] at hdomain
  obtain ⟨name, hname, rfl⟩ := Option.map_eq_some_iff.mp hdomain
  refine ⟨hcut _ _ hname, ?_⟩
  -- Were the name one character at most, it would stand in the text without stars.
  by_contra hshort
  obtain ⟨-, same, hsame, -, -, hwhole⟩ := (abridge_spec (nameOf domain)).resolve_right fun hwide =>
    hwide.1 (hcut _ _ hname)
  have hname : name = nameOf domain := (Option.some.inj (hname.symm.trans hsame)).trans (hwhole (Nat.not_lt.mp hshort))
  obtain ⟨before, shown, heq, hbefore, -, -⟩ := hhides localPart domain h
  obtain ⟨-, first, hfirst, hshows, -, -⟩ := (abridge_spec localPart).resolve_right fun hwide => hwide.1 (hcut _ _ hlocal)
  have hfirst : redactedLocal = first := Option.some.inj (hlocal.symm.trans hfirst)
  -- both texts are cut at their first `@`
  obtain ⟨-, hbehind⟩ := IsAddress.unique ⟨heq, hbefore.not_mem h.2⟩ ⟨rfl, (hfirst ▸ hshows).not_mem h.2⟩
  have hlen := congrArg List.length (List.append_cancel_right hbehind)
  rw [hname, List.length_append, show stars.length = 3 from rfl] at hlen
  omega

/-- **Which addresses are concealed.** -/
theorem conceals_iff (email : List Char) : Conceals email ↔ Redactable email := by
  constructor
  · rintro ⟨⟨text, htext, hhides⟩, -⟩
    exact redactable_of_hides htext hhides
  · intro h
    by_cases hat : '@' ∈ email
    · obtain ⟨localPart, domain, hemail, hlocal⟩ := exists_cutFirst hat
      have haddress : IsAddress localPart domain email := ⟨hemail, hlocal⟩
      obtain ⟨hnarrow, hname⟩ := h _ _ haddress
      obtain ⟨before, shown, htext, hbefore, hlong, hshown, hlen, hfirst, hnone⟩ :=
        redactEmail_of_redactable haddress hnarrow hname
      refine ⟨⟨_, htext, fun localPart' domain' haddress' => ?_⟩, fun email' halike => ⟨_, htext, ?_⟩⟩
      · obtain ⟨rfl, rfl⟩ := haddress.unique haddress'
        exact ⟨before, shown, rfl, hbefore, hshown, hlen⟩
      · obtain ⟨_, _, localPart', domain', hsame, haddress', ⟨hlong₁, hlong', hheads⟩, ⟨-, hname', hnames⟩, htlds⟩ :=
          halike
        obtain ⟨rfl, rfl⟩ := haddress.unique hsame
        -- The other address is redactable too, since its parts begin alike.
        have hnarrow' : StartsNarrow localPart' := fun c hc => hnarrow c (hheads ▸ hc)
        have hdots : '.' ∈ domain ↔ '.' ∈ domain' := by rw [mem_dot_iff, mem_dot_iff, htlds]
        obtain ⟨before', shown', htext', -, hlong'', -, -, hfirst', hnone'⟩ :=
          redactEmail_of_redactable haddress' hnarrow' fun hdot =>
            ⟨fun c hc => (hname (hdots.mpr hdot)).1 c (hnames ▸ hc), hname'⟩
        obtain ⟨c, hc, rfl⟩ := hlong hlong₁
        obtain ⟨c', hc', rfl⟩ := hlong'' hlong'
        have hchars : c' = c := Option.some.inj (hc'.symm.trans (hheads ▸ hc))
        have hshowns : shown' = shown := by
          by_cases hdot : '.' ∈ domain
          · obtain ⟨d, hd, rfl⟩ := hfirst hdot
            obtain ⟨d', hd', rfl⟩ := hfirst' (hdots.mp hdot)
            rw [Option.some.inj (hd'.symm.trans (hnames ▸ hd))]
          · rw [hnone hdot, hnone' (mt hdots.mpr hdot)]
        rw [htext', hchars, hshowns, htlds]
    · -- A text without an `@` is hidden whole, and like no address.
      have hnone : ∀ localPart domain, ¬IsAddress localPart domain email := fun localPart domain haddress => by
        apply hat
        rw [haddress.1]
        exact List.mem_append_right _ List.mem_cons_self
      have htotal : ∃ text, redactEmail email = some text := by
        unfold redactEmail
        rw [cutFirst_of_not_mem hat]
        split <;> exact ⟨_, rfl⟩
      obtain ⟨text, htext⟩ := htotal
      exact ⟨⟨text, htext, fun _ _ haddress => absurd haddress (hnone _ _)⟩,
        fun _ ⟨_, _, _, _, haddress, _⟩ => absurd haddress (hnone _ _)⟩

/-- The address of one whose name begins with a letter of two bytes is not
redacted: the request that logs it panics. -/
theorem redactEmail_panics : redactEmail "\u00e9milie@example.com".toList = none
    ∧ ¬Conceals "\u00e9milie@example.com".toList := by
  have hpanic : redactEmail "\u00e9milie@example.com".toList = none := by decide
  refine ⟨hpanic, fun ⟨⟨text, htext, _⟩, _⟩ => ?_⟩
  rw [hpanic] at htext
  cases htext

end Addresses

end PredictIQ.EmailRedact
