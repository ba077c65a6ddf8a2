/-
  PredictIQ.Api.KeySchema: the key templates of the contract's storage.

  `validate` collects what is wrong with a schema: an empty template, one
  without its placeholder, or templates that refer to one another in a circle.
  What it accepts is exactly a schema without these faults, a circle it reports
  is one, and the keys of an accepted schema tell ids and users apart.
-/
import PredictIQ.Foundation.CycleSearch
import PredictIQ.Foundation.Templates
import PredictIQ.Foundation.Text

namespace PredictIQ.KeySchema

open Foundation

/-! ## §1. The schema. -/

/-- `config::ContractKeySchema`. -/
structure ContractKeySchema where
  version : String
  market : String
  platformStats : String
  userBets : String
  oracleResult : String
  healthCheck : String
  deriving DecidableEq

/-- From the environment, with the defaults of version 1. -/
def ContractKeySchema.fromEnv (env : String → Option String) : ContractKeySchema :=
  let platformStats := (env "CONTRACT_KEY_PLATFORM_STATS").getD "platform:stats"
  { version := (env "CONTRACT_KEY_VERSION").getD "1.0.0"
    market := (env "CONTRACT_KEY_MARKET").getD "market:\x7bid\x7d"
    platformStats := platformStats
    userBets := (env "CONTRACT_KEY_USER_BETS").getD "user_bets:\x7bid\x7d"
    oracleResult := (env "CONTRACT_KEY_ORACLE_RESULT").getD "oracle_result:\x7bid\x7d"
    healthCheck := (env "CONTRACT_KEY_HEALTH_CHECK").getD platformStats }

/-- `str::contains`. -/
def contains (template word : String) : Bool := decide (word.toList <:+: template.toList)

/-- `str::replace`. -/
def replace (template word value : String) : String :=
  String.ofList (filled word.toList value.toList template.toList)

/-- The placeholder for a name. -/
def placeholder (name : String) : String := "\x7b" ++ name ++ "\x7d"

def fields : List String := ["market", "platform_stats", "user_bets", "oracle_result", "health_check"]

/-- The template of a field; none of another name. -/
def ContractKeySchema.template (s : ContractKeySchema) : String → Option String
  | "market" => some s.market
  | "platform_stats" => some s.platformStats
  | "user_bets" => some s.userBets
  | "oracle_result" => some s.oracleResult
  | "health_check" => some s.healthCheck
  | _ => none

/-- `deps`: the fields whose placeholders a field's template has in it. -/
def ContractKeySchema.deps (s : ContractKeySchema) (name : String) : List String :=
  match s.template name with
  | some template => fields.filter fun field => contains template (placeholder field)
  | none => []

/-! ## §2. Validation. -/

/-- No recursion goes deeper than there are fields. -/
def ContractKeySchema.detectCycle (s : ContractKeySchema) : Option String :=
  match searchAll s.deps fields.length fields Search.start with
  | .error (.cycle cycle) => some (" → ".intercalate cycle)
  | _ => none

/-- The faults of a template that needs the placeholder. -/
def idErrors (name template : String) : List String :=
  if template = "" then [name ++ ": template must not be empty"]
  else if contains template (placeholder "id") = false then
    [name ++ ": template \"" ++ template ++ "\" is missing the \x7bid\x7d placeholder"]
  else []

/-- The faults of one that does not. -/
def emptyErrors (name template : String) : List String :=
  if template = "" then [name ++ ": template must not be empty"] else []

def cycleErrors : Option String → List String
  | some cyclePath => ["contract key schema contains circular dependency: " ++ cyclePath]
  | none => []

/-- Every fault found, in the order of the checks. -/
def ContractKeySchema.errors (s : ContractKeySchema) : List String :=
  idErrors "market" s.market ++ idErrors "user_bets" s.userBets ++ idErrors "oracle_result" s.oracleResult
    ++ emptyErrors "platform_stats" s.platformStats ++ emptyErrors "health_check" s.healthCheck
    ++ cycleErrors s.detectCycle

def ContractKeySchema.validate (s : ContractKeySchema) : Except (List String) Unit :=
  if s.errors = [] then .ok () else .error s.errors

/-! ## §3. Key builders. -/

def ContractKeySchema.marketKey (s : ContractKeySchema) (marketId : Int) : String :=
  replace s.market (placeholder "id") (toString marketId)

def ContractKeySchema.userBetsKey (s : ContractKeySchema) (user : String) : String :=
  replace s.userBets (placeholder "id") user

def ContractKeySchema.oracleResultKey (s : ContractKeySchema) (marketId : Int) : String :=
  replace s.oracleResult (placeholder "id") (toString marketId)

/-- Market 12 under the default schema. -/
example : (ContractKeySchema.fromEnv fun _ => none).marketKey 12 = "market:12" := by decide

/-! ## §4. What is accepted. -/

/-- A schema without faults. -/
structure ContractKeySchema.Valid (s : ContractKeySchema) : Prop where
  market : contains s.market (placeholder "id") = true
  userBets : contains s.userBets (placeholder "id") = true
  oracleResult : contains s.oracleResult (placeholder "id") = true
  platformStats : s.platformStats ≠ ""
  healthCheck : s.healthCheck ≠ ""
  acyclic : Acyclic s.deps

theorem placeholder_ne_nil (name : String) : (placeholder name).toList ≠ [] := by
  simp [placeholder, String.toList_append]

/-- What has the placeholder is not empty. -/
theorem idErrors_eq_nil {name template : String} :
    idErrors name template = [] ↔ contains template (placeholder "id") = true := by
  unfold idErrors
  split
  · rename_i hempty
    rw [hempty]
    refine iff_of_false (List.cons_ne_nil _ _) fun h => ?_
    exact placeholder_ne_nil "id" (List.infix_nil.mp (of_decide_eq_true h))
  · cases contains template (placeholder "id") <;> simp

theorem emptyErrors_eq_nil {name template : String} : emptyErrors name template = [] ↔ template ≠ "" := by
  unfold emptyErrors
  split <;> simp_all

theorem cycleErrors_eq_nil {o : Option String} : cycleErrors o = [] ↔ o = none := by
  cases o <;> simp [cycleErrors]

theorem mem_fields_of_deps {s : ContractKeySchema} {m n : String} (h : m ∈ s.deps n) : n ∈ fields ∧ m ∈ fields := by
  unfold ContractKeySchema.deps at h
  split at h
  · rename_i template htemplate
    refine ⟨?_, (List.mem_filter.mp h).1⟩
    -- only the fields have templates
    unfold ContractKeySchema.template at htemplate
    split at htemplate <;> first | decide | cases htemplate
  · cases h

/-- The search asks for the edges of fields only, and these lead to fields. -/
theorem search_exact (s : ContractKeySchema) :
    (∃ c, searchAll s.deps fields.length fields Search.start = .error (.cycle c) ∧ IsCycle s.deps c)
      ∨ (∃ t, searchAll s.deps fields.length fields Search.start = .ok t) ∧ Acyclic s.deps :=
  searchAll_exact (fun _ _ _ hm => (mem_fields_of_deps hm).2) (le_refl fields.length)
    fun _ _ hm => (mem_fields_of_deps hm).1

/-- No search goes deeper than there are fields. -/
theorem search_ends (s : ContractKeySchema) :
    searchAll s.deps fields.length fields Search.start ≠ .error .depth := by
  rcases search_exact s with ⟨c, hres, _⟩ | ⟨⟨t, hres⟩, _⟩
  · rw [hres]
    exact fun h => nomatch h
  · rw [hres]
    exact fun h => nomatch h

/-- **The search for a circle is exact**: it names one if there is one, and else none. -/
theorem detectCycle_exact (s : ContractKeySchema) :
    (∃ c, s.detectCycle = some (" → ".intercalate c) ∧ IsCycle s.deps c)
      ∨ s.detectCycle = none ∧ Acyclic s.deps := by
  unfold ContractKeySchema.detectCycle
  rcases search_exact s with ⟨c, hres, hcycle⟩ | ⟨⟨t, hres⟩, hacyclic⟩
  · rw [hres]
    exact .inl ⟨c, rfl, hcycle⟩
  · rw [hres]
    exact .inr ⟨rfl, hacyclic⟩

theorem detectCycle_eq_none {s : ContractKeySchema} : s.detectCycle = none ↔ Acyclic s.deps := by
  rcases detectCycle_exact s with ⟨c, hres, hcycle⟩ | ⟨hres, hacyclic⟩
  · rw [hres]
    exact iff_of_false (fun h => nomatch h) hcycle.not_acyclic
  · exact iff_of_true hres hacyclic

theorem validate_eq_ok {s : ContractKeySchema} : s.validate = .ok () ↔ s.Valid := by
  have herrors : s.validate = .ok () ↔ s.errors = [] := by
    unfold ContractKeySchema.validate
    split
    · rename_i h
      exact iff_of_true rfl h
    · rename_i h
      exact iff_of_false (fun h => nomatch h) h
  rw [herrors]
  unfold ContractKeySchema.errors
  simp only [List.append_eq_nil_iff, idErrors_eq_nil, emptyErrors_eq_nil, cycleErrors_eq_nil, detectCycle_eq_none]
  constructor
  · rintro ⟨⟨⟨⟨⟨hm, hu⟩, ho⟩, hp⟩, hh⟩, hc⟩
    exact ⟨hm, hu, ho, hp, hh, hc⟩
  · rintro ⟨hm, hu, ho, hp, hh, hc⟩
    exact ⟨⟨⟨⟨⟨hm, hu⟩, ho⟩, hp⟩, hh⟩, hc⟩

/-- **Validation is exact.**  A schema is accepted exactly when the three templates
with an id have its placeholder, the other two are not empty, and no template
refers to itself in a circle; the search for circles always ends within as many
levels as there are fields; and a schema with a circle is refused with a message
that names one, field by field, each referring to the next. -/
theorem schema_validation_exact (s : ContractKeySchema) :
    (s.validate = .ok () ↔ s.Valid)
      ∧ searchAll s.deps fields.length fields Search.start ≠ .error .depth
      ∧ (¬Acyclic s.deps → ∃ c, IsCycle s.deps c ∧ s.validate = .error s.errors
        ∧ "contract key schema contains circular dependency: " ++ " → ".intercalate c ∈ s.errors) := by
  refine ⟨validate_eq_ok, search_ends s, ?_⟩
  intro hcyclic
  rcases detectCycle_exact s with ⟨c, hres, hcycle⟩ | ⟨_, hacyclic⟩
  · have hmem : "contract key schema contains circular dependency: " ++ " → ".intercalate c ∈ s.errors := by
      unfold ContractKeySchema.errors
      rw [hres]
      exact List.mem_append_right _ List.mem_cons_self
    exact ⟨c, hcycle, if_neg (List.ne_nil_of_mem hmem), hmem⟩
  · exact absurd hacyclic hcyclic

/-- Market and user-bets templates that refer to each other. -/
def sampleCircle : ContractKeySchema :=
  { ContractKeySchema.fromEnv fun _ => none with
    market := "m:\x7bid\x7d:\x7buser_bets\x7d"
    userBets := "u:\x7bid\x7d:\x7bmarket\x7d" }

theorem schema_validation_exact_circle :
    ∃ c, IsCycle sampleCircle.deps c ∧ sampleCircle.validate = .error sampleCircle.errors
      ∧ "contract key schema contains circular dependency: " ++ " → ".intercalate c ∈ sampleCircle.errors := by
  refine (schema_validation_exact sampleCircle).2.2 ?_
  refine IsCycle.not_acyclic (c := ["market", "user_bets", "market"]) ⟨"market", ["user_bets"], rfl, ?_⟩
  refine List.isChain_cons_cons.mpr ⟨?_, List.isChain_pair.mpr ?_⟩
  · show "user_bets" ∈ sampleCircle.deps "market"
    decide
  · show "market" ∈ sampleCircle.deps "user_bets"
    decide

/-! ## §5. Keys. -/

theorem replace_inj {template value value' : String} (h : contains template (placeholder "id") = true)
    (heq : replace template (placeholder "id") value = replace template (placeholder "id") value') :
    value = value' := by
  have hfilled := String.ofList_injective heq
  exact String.toList_injective (filled_inj (placeholder_ne_nil "id") (of_decide_eq_true h) hfilled)

/-- **The keys of an accepted schema tell ids and users apart.** -/
theorem schema_keys_distinct (s : ContractKeySchema) (h : s.validate = .ok ()) :
    Function.Injective s.marketKey ∧ Function.Injective s.oracleResultKey ∧ Function.Injective s.userBetsKey := by
  have hvalid := validate_eq_ok.mp h
  refine ⟨fun i j hij => ?_, fun i j hij => ?_, fun u v huv => ?_⟩
  · exact toString_int_inj (replace_inj hvalid.market hij)
  · exact toString_int_inj (replace_inj hvalid.oracleResult hij)
  · exact replace_inj hvalid.userBets huv

theorem schema_keys_distinct_default :
    Function.Injective (ContractKeySchema.fromEnv fun _ => none).marketKey :=
  (schema_keys_distinct (ContractKeySchema.fromEnv fun _ => none) (by decide)).1

end PredictIQ.KeySchema
