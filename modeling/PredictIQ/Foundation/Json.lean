/-
  PredictIQ.Foundation.Json: JSON values.

  An object is a list of members, as a text has them: a key may be there twice.
  `value` is what a reader keeps of it: the members in the order of their keys,
  and of members with one key the last.  Numbers are of any type.

  `write` is the compact text of a value without numbers, and `read` reads such
  texts back.
-/
import Mathlib.Data.String.Basic

namespace Foundation

inductive Json (N : Type) where
  | null
  | bool (value : Bool)
  | number (value : N)
  | string (value : String)
  | array (items : List (Json N))
  | object (members : List (String × Json N))

namespace Json

variable {N : Type}

def isObject : Json N → Bool
  | .object _ => true
  | _ => false

/-! ## §1. Induction. -/

/-- What carries over from the items and the members of a value to it. -/
structure CarriesOver (P : Json N → Prop) : Prop where
  null : P .null
  bool : ∀ b, P (.bool b)
  number : ∀ n, P (.number n)
  string : ∀ s, P (.string s)
  array : ∀ items, (∀ v ∈ items, P v) → P (.array items)
  object : ∀ members, (∀ m ∈ members, P m.2) → P (.object members)

mutual

theorem CarriesOver.all {P : Json N → Prop} (h : CarriesOver P) : ∀ v, P v
  | .null => h.null
  | .bool b => h.bool b
  | .number n => h.number n
  | .string s => h.string s
  | .array items => h.array items (h.items items)
  | .object members => h.object members (h.members members)

theorem CarriesOver.items {P : Json N → Prop} (h : CarriesOver P) : ∀ items : List (Json N), ∀ v ∈ items, P v
  | [] => fun _ hv => nomatch hv
  | v :: items => List.forall_mem_cons.mpr ⟨h.all v, h.items items⟩

theorem CarriesOver.members {P : Json N → Prop} (h : CarriesOver P) :
    ∀ members : List (String × Json N), ∀ m ∈ members, P m.2
  | [] => fun _ hm => nomatch hm
  | (_, v) :: members => List.forall_mem_cons.mpr ⟨h.all v, h.members members⟩

end

/-- **Induction over a value**, by its items and the values of its members. -/
@[elab_as_elim, induction_eliminator]
theorem induct {P : Json N → Prop} (null : P .null) (bool : ∀ b, P (.bool b)) (number : ∀ n, P (.number n))
    (string : ∀ s, P (.string s)) (array : ∀ items, (∀ v ∈ items, P v) → P (.array items))
    (object : ∀ members, (∀ m ∈ members, P m.2) → P (.object members)) (v : Json N) : P v :=
  CarriesOver.all ⟨null, bool, number, string, array, object⟩ v

/-! ## §2. Depth. -/

mutual

/-- How deep containers are nested. -/
def depth : Json N → Nat
  | .array items => depthItems items + 1
  | .object members => depthMembers members + 1
  | _ => 0

def depthItems : List (Json N) → Nat
  | [] => 0
  | v :: items => max (depth v) (depthItems items)

def depthMembers : List (String × Json N) → Nat
  | [] => 0
  | (_, v) :: members => max (depth v) (depthMembers members)

end

theorem depthItems_le_iff {items : List (Json N)} {n : Nat} : depthItems items ≤ n ↔ ∀ v ∈ items, depth v ≤ n := by
  induction items with
  | nil => simp [depthItems]
  | cons v items ih => simp [depthItems, ih]

theorem depthMembers_le_iff {members : List (String × Json N)} {n : Nat} :
    depthMembers members ≤ n ↔ ∀ m ∈ members, depth m.2 ≤ n := by
  induction members with
  | nil => simp [depthMembers]
  | cons m members ih => simp [depthMembers, ih]

/-! ## §3. What a reader keeps. -/

/-- A member among members in the order of their keys, in the place of one with its key. -/
def setMember (key : String) (v : Json N) : List (String × Json N) → List (String × Json N)
  | [] => [(key, v)]
  | m :: members =>
      if key = m.1 then (key, v) :: members
      else if key < m.1 then (key, v) :: m :: members
      else m :: setMember key v members

mutual

/-- The value that a reader keeps of one with any members. -/
def value : Json N → Json N
  | .array items => .array (valueItems items)
  | .object members => .object (valueMembers [] members)
  | v => v

def valueItems : List (Json N) → List (Json N)
  | [] => []
  | v :: items => value v :: valueItems items

def valueMembers (map : List (String × Json N)) : List (String × Json N) → List (String × Json N)
  | [] => map
  | (key, v) :: members => valueMembers (setMember key (value v) map) members

end

/-- The keys of every object are in order, so that none is there twice. -/
inductive Normal : Json N → Prop
  | null : Normal .null
  | bool (b : Bool) : Normal (.bool b)
  | number (n : N) : Normal (.number n)
  | string (s : String) : Normal (.string s)
  | array {items : List (Json N)} : (∀ v ∈ items, Normal v) → Normal (.array items)
  | object {members : List (String × Json N)} : (members.map Prod.fst).Pairwise (· < ·) →
      (∀ m ∈ members, Normal m.2) → Normal (.object members)

section Members

variable {key : String} {v : Json N} {map members : List (String × Json N)} {m : String × Json N}

theorem mem_setMember (h : m ∈ setMember key v map) : m = (key, v) ∨ m ∈ map := by
  induction map with
  | nil => exact .inl (List.mem_singleton.mp h)
  | cons m' map ih =>
      unfold setMember at h
      split at h
      · exact (List.mem_cons.mp h).imp_right (List.mem_cons_of_mem _)
      · split at h
        · exact List.mem_cons.mp h
        · rcases List.mem_cons.mp h with rfl | h
          · exact .inr List.mem_cons_self
          · exact (ih h).imp_right (List.mem_cons_of_mem _)

theorem pairwise_setMember (h : (map.map Prod.fst).Pairwise (· < ·)) :
    ((setMember key v map).map Prod.fst).Pairwise (· < ·) := by
  induction map with
  | nil => exact List.pairwise_singleton _ _
  | cons m' map ih =>
      obtain ⟨hfirst, hrest⟩ := List.pairwise_cons.mp h
      unfold setMember
      split
      · rename_i hkey
        rw [List.map_cons, hkey]
        exact h
      · rename_i hne
        split
        · rename_i hlt
          refine List.pairwise_cons.mpr ⟨fun key' hkey' => ?_, h⟩
          rcases List.mem_cons.mp hkey' with rfl | hkey'
          · exact hlt
          · exact lt_trans hlt (hfirst key' hkey')
        · rename_i hnot
          have hgt : m'.1 < key := lt_of_le_of_ne (not_lt.mp hnot) (Ne.symm hne)
          refine List.pairwise_cons.mpr ⟨fun key' hkey' => ?_, ih hrest⟩
          obtain ⟨m'', hm'', rfl⟩ := List.mem_map.mp hkey'
          rcases mem_setMember hm'' with rfl | hm''
          · exact hgt
          · exact hfirst _ (List.mem_map_of_mem hm'')

/-- A key behind all others goes to the end. -/
theorem setMember_of_lt (h : ∀ m ∈ map, m.1 < key) : setMember key v map = map ++ [(key, v)] := by
  induction map with
  | nil => rfl
  | cons m' map ih =>
      have hlt := h m' List.mem_cons_self
      unfold setMember
      rw [if_neg (ne_of_gt hlt), if_neg (not_lt_of_gt hlt), ih fun m hm => h m (List.mem_cons_of_mem _ hm)]
      rfl

theorem mem_valueMembers (h : m ∈ valueMembers map members) :
    m ∈ map ∨ ∃ m' ∈ members, m = (m'.1, value m'.2) := by
  induction members generalizing map with
  | nil => exact .inl h
  | cons m' members ih =>
      rcases ih h with h | ⟨m'', hm'', rfl⟩
      · rcases mem_setMember h with rfl | h
        · exact .inr ⟨m', List.mem_cons_self, rfl⟩
        · exact .inl h
      · exact .inr ⟨m'', List.mem_cons_of_mem _ hm'', rfl⟩

theorem pairwise_valueMembers (h : (map.map Prod.fst).Pairwise (· < ·)) :
    ((valueMembers map members).map Prod.fst).Pairwise (· < ·) := by
  induction members generalizing map with
  | nil => exact h
  | cons m members ih => exact ih (pairwise_setMember h)

theorem valueItems_eq (items : List (Json N)) : valueItems items = items.map value := by
  induction items with
  | nil => rfl
  | cons v items ih => rw [valueItems, List.map_cons, ih]

/-- Members whose keys are in order are kept as they are. -/
theorem valueMembers_eq_append (hvalue : ∀ m ∈ members, value m.2 = m.2)
    (h : ((map ++ members).map Prod.fst).Pairwise (· < ·)) : valueMembers map members = map ++ members := by
  induction members generalizing map with
  | nil => exact (List.append_nil map).symm
  | cons m members ih =>
      have hlt : ∀ m' ∈ map, m'.1 < m.1 := by
        rw [List.map_append] at h
        intro m' hm'
        exact (List.pairwise_append.mp h).2.2 _ (List.mem_map_of_mem hm') _ List.mem_cons_self
      rw [List.append_cons] at h ⊢
      rw [valueMembers, hvalue m List.mem_cons_self, setMember_of_lt hlt]
      exact ih (fun m hm => hvalue m (List.mem_cons_of_mem _ hm)) h

end Members

/-- **A reader keeps** members in order. -/
theorem normal_value (v : Json N) : (value v).Normal := by
  induction v with
  | null => exact .null
  | bool b => exact .bool b
  | number n => exact .number n
  | string s => exact .string s
  | array items ih =>
      refine .array fun v hv => ?_
      rw [valueItems_eq] at hv
      obtain ⟨v', hv', rfl⟩ := List.mem_map.mp hv
      exact ih v' hv'
  | object members ih =>
      refine .object (pairwise_valueMembers List.Pairwise.nil) fun m hm => ?_
      rcases mem_valueMembers hm with hm | ⟨m', hm', rfl⟩
      · cases hm
      · exact ih m' hm'

/-- **A normal value** is kept as it is. -/
theorem Normal.value_eq {v : Json N} (h : v.Normal) : value v = v := by
  induction h with
  | null => rfl
  | bool b => rfl
  | number n => rfl
  | string s => rfl
  | array _ ih =>
      rw [value, valueItems_eq, List.map_congr_left ih, List.map_id']
  | object hkeys _ ih =>
      rw [value, valueMembers_eq_append ih (List.nil_append _ ▸ hkeys), List.nil_append]

/-- What a reader keeps is not nested deeper. -/
theorem depth_value_le (v : Json N) : depth (value v) ≤ depth v := by
  induction v with
  | null | bool b | number n | string s => exact Nat.le_refl _
  | array items ih =>
      refine Nat.succ_le_succ (depthItems_le_iff.mpr fun v hv => ?_)
      rw [valueItems_eq] at hv
      obtain ⟨v', hv', rfl⟩ := List.mem_map.mp hv
      exact (ih v' hv').trans (depthItems_le_iff.mp (Nat.le_refl _) v' hv')
  | object members ih =>
      refine Nat.succ_le_succ (depthMembers_le_iff.mpr fun m hm => ?_)
      rcases mem_valueMembers hm with hm | ⟨m', hm', rfl⟩
      · cases hm
      · exact (ih m' hm').trans (depthMembers_le_iff.mp (Nat.le_refl _) m' hm')

/-! ## §4. Compact texts. -/

/-- A quote or a backslash goes behind a backslash. -/
def escape : List Char → List Char
  | [] => []
  | c :: cs => if c = '\x22' ∨ c = '\\' then '\\' :: c :: escape cs else c :: escape cs

/-- What stands before the quote that ends a string, and what follows it. -/
def unescape : List Char → Option (List Char × List Char)
  | [] => none
  | [c] => if c = '\x22' then some ([], []) else none
  | c :: d :: cs =>
      if c = '\x22' then some ([], d :: cs)
      else if c = '\\' then (unescape cs).map fun s => (d :: s.1, s.2)
      else (unescape (d :: cs)).map fun s => (c :: s.1, s.2)

def writeString (s : String) : List Char := '\x22' :: (escape s.toList ++ ['\x22'])

mutual

/-- A value without numbers as a text without white space. -/
def write : Json Empty → List Char
  | .null => "null".toList
  | .bool true => "true".toList
  | .bool false => "false".toList
  | .number n => nomatch n
  | .string s => writeString s
  | .array items => '[' :: writeItems [] items
  | .object members => '\x7b' :: writeMembers [] members

/-- Items, each behind a separator, and the bracket behind them. -/
def writeItems (sep : List Char) : List (Json Empty) → List Char
  | [] => [']']
  | v :: items => sep ++ write v ++ writeItems [','] items

def writeMembers (sep : List Char) : List (String × Json Empty) → List Char
  | [] => ['\x7d']
  | (key, v) :: members => sep ++ (writeString key ++ ':' :: write v) ++ writeMembers [','] members

end

def readString : List Char → Option (String × List Char)
  | '\x22' :: cs => (unescape cs).map fun s => (.ofList s.1, s.2)
  | _ => none

mutual

/-- The value at the front of a text, and what follows it. -/
def read : (fuel : Nat) → List Char → Option (Json Empty × List Char)
  | 0, _ => none
  | _ + 1, 'n' :: 'u' :: 'l' :: 'l' :: cs => some (.null, cs)
  | _ + 1, 't' :: 'r' :: 'u' :: 'e' :: cs => some (.bool true, cs)
  | _ + 1, 'f' :: 'a' :: 'l' :: 's' :: 'e' :: cs => some (.bool false, cs)
  | _ + 1, '\x22' :: cs => (readString ('\x22' :: cs)).map fun r => (.string r.1, r.2)
  | fuel + 1, '[' :: cs => (readItems fuel [] cs).map fun r => (.array r.1, r.2)
  | fuel + 1, '\x7b' :: cs => (readMembers fuel [] cs).map fun r => (.object r.1, r.2)
  | _ + 1, _ => none

def readItems : (fuel : Nat) → (sep : List Char) → List Char → Option (List (Json Empty) × List Char)
  | 0, _, _ => none
  | fuel + 1, sep, cs =>
      if cs.head? = some ']' then some ([], cs.tail)
      else if sep <+: cs then do
        let item ← read fuel (cs.drop sep.length)
        let items ← readItems fuel [','] item.2
        return (item.1 :: items.1, items.2)
      else none

def readMembers : (fuel : Nat) → (sep : List Char) → List Char → Option (List (String × Json Empty) × List Char)
  | 0, _, _ => none
  | fuel + 1, sep, cs =>
      if cs.head? = some '\x7d' then some ([], cs.tail)
      else if sep <+: cs then do
        let key ← readString (cs.drop sep.length)
        let item ← if key.2.head? = some ':' then read fuel key.2.tail else none
        let members ← readMembers fuel [','] item.2
        return ((key.1, item.1) :: members.1, members.2)
      else none

end

def readText (text : String) : Option (Json Empty) :=
  match read (text.toList.length + 1) text.toList with
  | some (v, []) => some v
  | _ => none

def writeText (v : Json Empty) : String := .ofList (write v)

theorem unescape_escape (cs rest : List Char) : unescape (escape cs ++ '\x22' :: rest) = some (cs, rest) := by
  induction cs with
  | nil => cases rest <;> rfl
  | cons c cs ih =>
      unfold escape
      by_cases hc : c = '\x22' ∨ c = '\\'
      · rw [if_pos hc, List.cons_append, List.cons_append, unescape, if_neg (by decide), if_pos rfl, ih]
        rfl
      · rw [if_neg hc, List.cons_append]
        obtain ⟨hquote, hslash⟩ := not_or.mp hc
        -- something follows the character: another one, or the quote at the end
        obtain ⟨d, ds, hds⟩ : ∃ d ds, escape cs ++ '\x22' :: rest = d :: ds :=
          List.exists_cons_of_ne_nil (List.append_ne_nil_of_right_ne_nil _ (List.cons_ne_nil _ _))
        rw [hds] at ih ⊢
        rw [unescape, if_neg hquote, if_neg hslash, ih]
        rfl

theorem readString_writeString (s : String) (rest : List Char) :
    readString (writeString s ++ rest) = some (s, rest) := by
  unfold writeString
  rw [List.cons_append, List.append_assoc, List.singleton_append, readString, unescape_escape, Option.map_some,
    String.ofList_toList]

/-- A text of a value begins with none of the characters that end one. -/
theorem head?_write (v : Json Empty) : ∃ c cs, write v = c :: cs ∧ c ≠ ']' := by
  cases v with
  | null => exact ⟨'n', _, rfl, by decide⟩
  | bool b =>
      cases b with
      | true => exact ⟨'t', _, rfl, by decide⟩
      | false => exact ⟨'f', _, rfl, by decide⟩
  | number n => exact nomatch n
  | string s => exact ⟨'\x22', _, rfl, by decide⟩
  | array items => exact ⟨'[', _, rfl, by decide⟩
  | object members => exact ⟨'\x7b', _, rfl, by decide⟩

section RoundTrip

variable {fuel : Nat} {rest : List Char}

/-- Values that are read back, with fuel for their texts. -/
def ReadBack (v : Json Empty) : Prop :=
  ∀ fuel rest, (write v).length < fuel → read fuel (write v ++ rest) = some (v, rest)

theorem readItems_writeItems {sep : List Char} {items : List (Json Empty)} (hsep : sep = [] ∨ sep = [','])
    (hitems : ∀ v ∈ items, ReadBack v) (hfuel : (writeItems sep items).length < fuel) :
    readItems fuel sep (writeItems sep items ++ rest) = some (items, rest) := by
  induction items generalizing sep fuel with
  | nil =>
      cases fuel with
      | zero => exact absurd hfuel (Nat.not_lt_zero _)
      | succ fuel => rfl
  | cons v items ih =>
      cases fuel with
      | zero => exact absurd hfuel (Nat.not_lt_zero _)
      | succ fuel =>
          obtain ⟨c, cs, hwrite, hc⟩ := head?_write v
          have hhead : (sep ++ (write v ++ (writeItems [','] items ++ rest))).head? ≠ some ']' := by
            rcases hsep with rfl | rfl
            · rw [hwrite]
              simpa using hc
            · simp
          have hpos : 0 < (write v).length := by
            rw [hwrite]
            exact Nat.succ_pos _
          simp only [writeItems, List.length_append] at hfuel
          have hmore : 0 < (writeItems [','] items).length := by
            cases items <;> simp [writeItems]
          rw [writeItems, List.append_assoc, List.append_assoc, readItems, if_neg hhead, if_pos (List.prefix_append _ _),
            List.drop_left, hitems v List.mem_cons_self fuel _ (by omega), Option.bind_eq_bind, Option.bind_some,
            ih (.inr rfl) (fun v hv => hitems v (List.mem_cons_of_mem _ hv)) (by omega)]
          rfl

theorem readMembers_writeMembers {sep : List Char} {members : List (String × Json Empty)}
    (hsep : sep = [] ∨ sep = [',']) (hmembers : ∀ m ∈ members, ReadBack m.2)
    (hfuel : (writeMembers sep members).length < fuel) :
    readMembers fuel sep (writeMembers sep members ++ rest) = some (members, rest) := by
  induction members generalizing sep fuel with
  | nil =>
      cases fuel with
      | zero => exact absurd hfuel (Nat.not_lt_zero _)
      | succ fuel => rfl
  | cons m members ih =>
      obtain ⟨key, v⟩ := m
      cases fuel with
      | zero => exact absurd hfuel (Nat.not_lt_zero _)
      | succ fuel =>
          have hhead : (sep ++ (writeString key ++ (':' :: (write v ++ (writeMembers [','] members ++ rest))))).head?
              ≠ some '\x7d' := by
            rcases hsep with rfl | rfl <;> simp [writeString]
          simp only [writeMembers, List.length_append, List.length_cons] at hfuel
          have hvalue := hmembers (key, v) List.mem_cons_self fuel (writeMembers [','] members ++ rest)
            (show (write v).length < fuel by omega)
          have hrest := ih (.inr rfl) (fun m hm => hmembers m (List.mem_cons_of_mem _ hm))
            (show (writeMembers [','] members).length < fuel by omega)
          rw [writeMembers, List.append_assoc, List.append_assoc, List.append_assoc, List.cons_append, readMembers,
            if_neg hhead, if_pos (List.prefix_append _ _), List.drop_left, readString_writeString]
          show (read fuel (write v ++ (writeMembers [','] members ++ rest))).bind _ = _
          rw [show read fuel (write v ++ _) = some (v, writeMembers [','] members ++ rest) from hvalue, Option.bind_some]
          show (readMembers fuel [','] (writeMembers [','] members ++ rest)).bind _ = _
          rw [hrest]
          rfl

theorem readBack (v : Json Empty) : ReadBack v := by
  induction v with
  | null =>
      intro fuel rest hfuel
      cases fuel with
      | zero => exact absurd hfuel (Nat.not_lt_zero _)
      | succ fuel => rfl
  | bool b =>
      intro fuel rest hfuel
      cases fuel with
      | zero => exact absurd hfuel (Nat.not_lt_zero _)
      | succ fuel => cases b <;> rfl
  | number n => exact nomatch n
  | string s =>
      intro fuel rest hfuel
      cases fuel with
      | zero => exact absurd hfuel (Nat.not_lt_zero _)
      | succ fuel =>
          show (readString (writeString s ++ rest)).map _ = _
          rw [readString_writeString]
          rfl
  | array items ih =>
      intro fuel rest hfuel
      cases fuel with
      | zero => exact absurd hfuel (Nat.not_lt_zero _)
      | succ fuel =>
          show (readItems fuel [] (writeItems [] items ++ rest)).map _ = _
          rw [readItems_writeItems (.inl rfl) ih (Nat.lt_of_succ_lt_succ hfuel)]
          rfl
  | object members ih =>
      intro fuel rest hfuel
      cases fuel with
      | zero => exact absurd hfuel (Nat.not_lt_zero _)
      | succ fuel =>
          show (readMembers fuel [] (writeMembers [] members ++ rest)).map _ = _
          rw [readMembers_writeMembers (.inl rfl) ih (Nat.lt_of_succ_lt_succ hfuel)]
          rfl

/-- **What is written is read back.** -/
theorem readText_writeText (v : Json Empty) : readText (writeText v) = some v := by
  have hread := readBack v _ [] (Nat.lt_add_one (write v).length)
  unfold readText writeText
  rw [List.append_nil] at hread
  rw [String.toList_ofList, hread]

end RoundTrip

end Json

end Foundation
