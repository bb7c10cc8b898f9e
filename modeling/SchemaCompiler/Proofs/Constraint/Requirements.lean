import SchemaCompiler.Constraint.Rules

/-!
# Requirements and the validators that carry them

A node states requirements on its value: the ends of a range, a choice of values and a pattern.
Validators put them together: both ends into one range, and a choice of texts with a pattern
into one pattern. They carry every requirement that a value or a list states on itself.
-/

namespace SchemaCompiler
namespace Constraint

open SchemaCompiler.Schema

/-- A requirement on a value, or on the length of a text or the size of a list. -/
inductive Requirement where
  | atLeast (family : Family) (bound : Literal)
  | atMost (family : Family) (bound : Literal)
  | oneOf (family : Family) (values : List Literal)
  | matching (pattern : String)
deriving Repr, DecidableEq

/-! ## What a node states -/

/-- The ends of a range that are given. -/
def endRequirements
    (family : Family)
    (literal : α → Literal)
    (min max : Option α) : List Requirement :=
  (min.map fun value => .atLeast family (literal value)).toList
    ++ (max.map fun value => .atMost family (literal value)).toList

/-- The choice of values, if there is one. -/
def choiceRequirements
    (family : Family)
    (literal : α → Literal)
    (values : List α) : List Requirement :=
  if values.isEmpty then [] else [.oneOf family (values.map literal)]

/-- What a number is to be. -/
def numberRequirements
    (family : Family)
    (literal : α → Literal)
    (facets : NumberFacets α) : List Requirement :=
  endRequirements family literal facets.min facets.max
    ++ choiceRequirements family literal facets.values

/-- What a text is to be. -/
def stringRequirements (facets : StringFacets) : List Requirement :=
  endRequirements .string .size facets.minLength facets.maxLength
    ++ choiceRequirements .string .string facets.values
    ++ ((pattern? facets).map .matching).toList

/-- What a canonical node states on its own value, without those of its parts. -/
def requirements : Node → List Requirement
  | .scalar _ (.bool _) | .object .. => []
  | .scalar _ (.int facets) => numberRequirements .int64 .int facets
  | .scalar _ (.float facets) => numberRequirements .float64 .float facets
  | .scalar _ (.string facets) => stringRequirements facets
  | .array _ facets _ => endRequirements .list .size facets.minItems facets.maxItems

/-! ## What validators carry -/

/-- The requirement can be read off the validator as it was stated. -/
inductive Validator.Carries : Validator → Requirement → Prop
  | atLeast {family : Family} {range : Range Literal} {bound : Literal} :
      range.min? = some bound →
      Carries (.range family range) (.atLeast family bound)
  | atMost {family : Family} {range : Range Literal} {bound : Literal} :
      range.max? = some bound →
      Carries (.range family range) (.atMost family bound)
  | oneOf (family : Family) (values : List Literal) :
      Carries (.oneOf family values) (.oneOf family values)
  | matching (pattern : String) : Carries (.matching pattern) (.matching pattern)
  /-- A text of the choice matches the first part of a merged pattern. -/
  | mergedChoice (values : List String) (pattern : String) :
      Carries (.matching (mergedPattern values pattern)) (.oneOf .string (values.map .string))
  | mergedPattern (values : List String) (pattern : String) :
      Carries (.matching (mergedPattern values pattern)) (.matching pattern)

/-- Each of the requirements is carried by some validator. -/
def CarryAll (validators : List Validator) (stated : List Requirement) : Prop :=
  ∀ requirement ∈ stated, ∃ validator ∈ validators, validator.Carries requirement

/-- Without validators nothing is carried. -/
theorem carryAll_nil_iff {stated : List Requirement} : CarryAll [] stated ↔ stated = [] := by
  simp [CarryAll, List.eq_nil_iff_forall_not_mem]

/-- Nothing has to be carried where nothing is stated. -/
theorem carryAll_nil (validators : List Validator) : CarryAll validators [] :=
  List.forall_mem_nil _

namespace CarryAll

variable
  {validators others : List Validator}
  {stated rest : List Requirement}

theorem of_subset
    (carried : CarryAll validators stated)
    (more : validators ⊆ others) :
    CarryAll others stated := by
  intro requirement isStated
  obtain ⟨validator, member, carries⟩ := carried requirement isStated
  exact ⟨validator, more member, carries⟩

theorem append
    (first : CarryAll validators stated)
    (second : CarryAll others rest) :
    CarryAll (validators ++ others) (stated ++ rest) :=
  List.forall_mem_append.mpr
    ⟨first.of_subset (List.subset_append_left ..), second.of_subset (List.subset_append_right ..)⟩

end CarryAll

/-- A range has the ends that are given. -/
theorem carryAll_rangeValidators
    (family : Family)
    (literal : α → Literal)
    (min max : Option α) :
    CarryAll (rangeValidators family literal min max) (endRequirements family literal min max) := by
  intro requirement isStated
  rcases List.mem_append.mp isStated with isLower | isUpper
  · obtain ⟨least, rfl, rfl⟩ := Option.map_eq_some_iff.mp (Option.mem_toList.mp isLower)
    cases max <;> exact ⟨_, List.mem_singleton.mpr rfl, .atLeast rfl⟩
  · obtain ⟨most, rfl, rfl⟩ := Option.map_eq_some_iff.mp (Option.mem_toList.mp isUpper)
    cases min <;> exact ⟨_, List.mem_singleton.mpr rfl, .atMost rfl⟩

theorem carryAll_numberValidators
    (family : Family)
    (literal : α → Literal)
    (facets : NumberFacets α) :
    CarryAll (numberValidators family literal facets)
      (numberRequirements family literal facets) := by
  refine (carryAll_rangeValidators family literal _ _).append ?_
  unfold choiceRequirements
  split
  · exact carryAll_nil _
  · exact List.forall_mem_singleton.mpr ⟨_, List.mem_singleton.mpr rfl, .oneOf _ _⟩

/-- A choice and a pattern are carried each by its own validator, or by one for both. -/
theorem carryAll_formValidators (facets : StringFacets) :
    CarryAll (formValidators facets)
      (choiceRequirements .string .string facets.values
        ++ ((pattern? facets).map .matching).toList) := by
  unfold formValidators choiceRequirements
  cases facets.values with
  | nil =>
      cases pattern? facets with
      | none => exact carryAll_nil _
      | some pattern =>
          exact List.forall_mem_singleton.mpr ⟨_, List.mem_singleton.mpr rfl, .matching pattern⟩
  | cons value rest =>
      cases pattern? facets with
      | none => exact List.forall_mem_singleton.mpr ⟨_, List.mem_singleton.mpr rfl, .oneOf _ _⟩
      | some pattern =>
          refine List.forall_mem_cons.mpr ⟨?_, List.forall_mem_singleton.mpr ?_⟩
          · exact ⟨_, List.mem_singleton.mpr rfl, .mergedChoice (value :: rest) pattern⟩
          · exact ⟨_, List.mem_singleton.mpr rfl, .mergedPattern (value :: rest) pattern⟩

theorem carryAll_stringValidators (facets : StringFacets) :
    CarryAll (stringValidators facets) (stringRequirements facets) := by
  rw [stringRequirements, List.append_assoc]
  exact (carryAll_rangeValidators .string .size _ _).append (carryAll_formValidators facets)

/-- Validators on a value carry what a node states, if it is no list. -/
theorem carryAll_valueValidators
    {node : Node}
    (noList : node.element? = none) :
    CarryAll (valueValidators node) (requirements node) := by
  cases node with
  | scalar declaration facets =>
      cases facets with
      | bool facets => exact carryAll_nil _
      | int facets => exact carryAll_numberValidators .int64 .int facets
      | float facets => exact carryAll_numberValidators .float64 .float facets
      | string facets => exact carryAll_stringValidators facets
  | array declaration facets element => cases noList
  | object declaration facets children => exact carryAll_nil _

/-- For a list they carry nothing: its size is checked by validators of lists. -/
theorem carryAll_valueValidators_iff (node : Node) :
    CarryAll (valueValidators node) (requirements node) ↔
      requirements node = [] ∨ node.element? = none := by
  cases node with
  | scalar declaration facets => exact iff_of_true (carryAll_valueValidators rfl) (.inr rfl)
  | object declaration facets children =>
      exact iff_of_true (carryAll_valueValidators rfl) (.inr rfl)
  | array declaration facets element =>
      rw [valueValidators, carryAll_nil_iff, Node.element?, or_iff_left (by simp)]

end Constraint
end SchemaCompiler
