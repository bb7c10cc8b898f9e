import SchemaCompiler.Proofs.Code.Identifiers
import SchemaCompiler.Resource.Schema

/-!
# Code of attributes

What an attribute states about itself is written with a fixed stock of identifiers and with its
floating point numbers, whatever its names and texts are. The call that makes an attribute is the
only code that names the type of attributes, so attributes can be counted in their code.
-/

namespace SchemaCompiler

open SchemaCompiler.Number (Binary64)

/-! ## Floating point numbers -/

namespace Constraint

/-- Floating point number of a literal. -/
def Literal.floats : Literal → List Binary64
  | .float value => [value]
  | .int _ | .size _ | .string _ => []

/-- Literals of a check. -/
def Validator.literals : Validator → List Literal
  | .range _ ends => ends.min?.toList ++ ends.max?.toList
  | .oneOf _ values => values
  | .matching _ => []
  | .exactlyOneOf names => names.map .string

/-- Floating point numbers of checks. -/
def floatsOf (validators : List Validator) : List Binary64 :=
  validators.flatMap fun validator => validator.literals.flatMap Literal.floats

end Constraint

namespace Resource

open SchemaCompiler.Code (Token)
open SchemaCompiler.Code.Token (NamesAll namesAll_append namesAll_call namesAll_nil
  namesAll_of_namesOf_eq namesAll_separated namesOf)
open SchemaCompiler.Constraint (Literal Validator floatsOf)
open SchemaCompiler.Schema

/-- Floating point number of a default. -/
def defaultFloats : DefaultValue → List Binary64
  | .float value => [value]
  | .bool _ | .int _ | .string _ => []

/-- Floating point numbers in the checks of an attribute, in those of its elements and in its
default. -/
def AttributeFacts.floats (facts : AttributeFacts) : List Binary64 :=
  floatsOf facts.validators ++ floatsOf facts.elementValidators
    ++ facts.exposure.defaultValue?.toList.flatMap defaultFloats

/-! ## Facts -/

/-- Identifiers in the code of checks. -/
def checkNames : List String :=
  ["int64_validator", "float64_validator", "string_validator", "list_validator",
    "object_validator", "between", "at_least", "at_most", "length_between", "length_at_least",
    "length_at_most", "size_between", "size_at_least", "size_at_most", "one_of", "regex_matches",
    "exactly_one_of"]

/-- Other identifiers in the code of what an attribute states about itself. -/
def factNames : List String :=
  ["required", "optional", "computed", "default_value", "true", "false", "sensitive",
    "requires_replace", "unordered", "validators", "element_validators", "description"]

/-- The property holds of the fixed identifiers. -/
structure Familiar (Good : String → Prop) : Prop where
  check : ∀ name ∈ checkNames, Good name
  fact : ∀ name ∈ factNames, Good name

section Facts

variable {Good : String → Prop}

theorem namesAll_literals
    {literals : List Literal}
    (written : ∀ number ∈ literals.flatMap Literal.floats, NamesAll Good (Token.float number)) :
    NamesAll Good (Literal.list literals) := by
  refine namesAll_separated (List.forall_mem_map.mpr fun literal member => ?_)
  cases literal with
  | float value =>
      exact written value (List.mem_flatMap.mpr ⟨.float value, member, List.mem_cons_self⟩)
  | int value | size value =>
      exact namesAll_of_namesOf_eq (Token.namesOf_integer _) (List.forall_mem_nil _)
  | string value =>
      exact namesAll_of_namesOf_eq (by simp [Literal.tokens]) (List.forall_mem_nil _)

theorem namesAll_validatorCall
    {moduleName function : String}
    {arguments : List Token}
    (ofModule : Good moduleName)
    (own : Good function)
    (inside : NamesAll Good arguments) :
    NamesAll Good (Validator.call moduleName function arguments) :=
  namesAll_of_namesOf_eq (by simp [Validator.call])
    (List.forall_mem_cons.mpr ⟨ofModule, List.forall_mem_cons.mpr ⟨own, inside⟩⟩)

theorem namesAll_bracketed
    {tokens : List Token}
    (inside : NamesAll Good tokens) :
    NamesAll Good [Token.bracketed tokens] :=
  namesAll_of_namesOf_eq (by simp) inside

/-- The code of a check has its literals and fixed names. -/
theorem namesAll_validator
    {validator : Validator}
    (familiar : Familiar Good)
    (written : ∀ number ∈ validator.literals.flatMap Literal.floats,
      NamesAll Good (Token.float number)) :
    NamesAll Good validator.tokens := by
  have modules : ∀ family : Constraint.Family, Good family.moduleName := by
    intro family
    cases family <;> exact familiar.check _ (by decide)
  have literals := namesAll_literals written
  cases validator with
  | range family ends =>
      cases ends <;>
        exact namesAll_validatorCall (modules family)
          (familiar.check _ (by cases family <;> decide)) literals
  | oneOf family values =>
      exact namesAll_validatorCall (modules family) (familiar.check _ (by decide))
        (namesAll_bracketed literals)
  | matching pattern =>
      exact namesAll_validatorCall (familiar.check _ (by decide)) (familiar.check _ (by decide))
        (namesAll_of_namesOf_eq (by simp) (List.forall_mem_nil _))
  | exactlyOneOf names =>
      exact namesAll_validatorCall (familiar.check _ (by decide)) (familiar.check _ (by decide))
        (namesAll_bracketed literals)

theorem namesAll_validatorTokens
    {name : String}
    {validators : List Validator}
    (familiar : Familiar Good)
    (own : Good name)
    (written : ∀ number ∈ floatsOf validators, NamesAll Good (Token.float number)) :
    NamesAll Good (Attribute.validatorTokens name validators) := by
  unfold Attribute.validatorTokens
  split
  · exact namesAll_nil
  · refine namesAll_call own (namesAll_bracketed ?_)
    refine namesAll_separated (List.forall_mem_map.mpr fun validator member => ?_)
    exact namesAll_validator familiar fun number inside =>
      written number (List.mem_flatMap.mpr ⟨validator, member, inside⟩)

theorem namesAll_flagTokens
    {name : String}
    (flag : Bool)
    (own : Good name) :
    NamesAll Good (Attribute.flagTokens flag name) := by
  unfold Attribute.flagTokens
  split
  · exact namesAll_call own namesAll_nil
  · exact namesAll_nil

theorem namesAll_exposureTokens
    {exposure : Exposure}
    (familiar : Familiar Good)
    (written : ∀ number ∈ exposure.defaultValue?.toList.flatMap defaultFloats,
      NamesAll Good (Token.float number)) :
    NamesAll Good (Attribute.exposureTokens exposure) := by
  have flag : ∀ {name : String}, name ∈ factNames → NamesAll Good (Token.call name []) :=
    fun member => namesAll_call (familiar.fact _ member) namesAll_nil
  cases exposure with
  | required | optional | computed => exact flag (by decide)
  | optionalComputed value =>
      simp only [Attribute.exposureTokens, namesAll_append]
      refine ⟨⟨flag (by decide), flag (by decide)⟩,
        namesAll_call (familiar.fact _ (by decide)) ?_⟩
      cases value with
      | bool value =>
          refine namesAll_of_namesOf_eq (by simp [Attribute.defaultTokens])
            (List.forall_mem_singleton.mpr (familiar.fact (toString value) ?_))
          cases value <;> decide
      | int value => exact namesAll_of_namesOf_eq (Token.namesOf_integer _) (List.forall_mem_nil _)
      | float value => exact written value List.mem_cons_self
      | string value =>
          exact namesAll_of_namesOf_eq (by simp [Attribute.defaultTokens]) (List.forall_mem_nil _)

/-- What an attribute states about itself is written with fixed names and with its numbers. -/
theorem namesAll_factTokens
    {facts : AttributeFacts}
    (familiar : Familiar Good)
    (written : ∀ number ∈ facts.floats, NamesAll Good (Token.float number)) :
    NamesAll Good (Attribute.factTokens facts) := by
  rw [AttributeFacts.floats, List.forall_mem_append, List.forall_mem_append] at written
  obtain ⟨⟨checks, elementChecks⟩, default⟩ := written
  have own : ∀ name ∈ factNames, Good name := familiar.fact
  simp only [Attribute.factTokens, namesAll_append]
  refine ⟨⟨⟨⟨⟨⟨namesAll_exposureTokens familiar default, ?_⟩, ?_⟩, ?_⟩, ?_⟩, ?_⟩, ?_⟩
  · exact namesAll_flagTokens _ (own _ (by decide))
  · exact namesAll_flagTokens _ (own _ (by decide))
  · exact namesAll_flagTokens _ (own _ (by decide))
  · exact namesAll_validatorTokens familiar (own _ (by decide)) checks
  · exact namesAll_validatorTokens familiar (own _ (by decide)) elementChecks
  · split
    · exact namesAll_nil
    · exact namesAll_call (own _ (by decide))
        (namesAll_of_namesOf_eq (by simp) (List.forall_mem_nil _))

end Facts

/-! ## Constructors -/

/-- The call that makes an attribute names the type and itself. -/
theorem namesOf_constructor
    (function name : String)
    (arguments : List Token) :
    namesOf (Attribute.constructor function name arguments) =
      "Attribute" :: function :: namesOf arguments := by
  simp [Attribute.constructor]

/-- Identifiers in the code of types. -/
def typeNames : List String :=
  ["bool", "int64", "float64", "string", "list", "single_nested", "list_nested", "vec",
    "ElementType", "Bool", "Int64", "Float64", "String", "Json"]

theorem mem_typeNames_of_elementType
    (type : ElementType) :
    ∀ name ∈ namesOf type.tokens, name ∈ typeNames := by
  induction type with
  | bool | int64 | float64 | string | json =>
      simp only [ElementType.tokens, Token.namesOf_path]
      decide
  | list element hypothesis =>
      have lead : ∀ name ∈ ["ElementType", "list"], name ∈ typeNames := by decide
      have same : namesOf (ElementType.list element).tokens =
          ["ElementType", "list"] ++ namesOf element.tokens := by
        simp [ElementType.tokens]
      rw [same]
      exact List.forall_mem_append.mpr ⟨lead, hypothesis⟩

/-- The call that makes an attribute without attributes of its own has the names of its type. -/
theorem exists_namesOf_plainTokens
    (name : String)
    (type : PlainType) :
    ∃ others, namesOf (Attribute.plainTokens name type) = "Attribute" :: others ∧
      ∀ other ∈ others, other ∈ typeNames := by
  cases type with
  | bool | int64 | float64 | string =>
      refine ⟨_, namesOf_constructor _ _ _, ?_⟩
      rw [Token.namesOf_nil]
      decide
  | list element =>
      refine ⟨_, namesOf_constructor _ _ _, List.forall_mem_cons.mpr ⟨by decide, ?_⟩⟩
      rw [Token.namesOf_cons, Token.names_alone, List.nil_append]
      exact mem_typeNames_of_elementType element

/-- The call that makes an attribute with attributes of its own names those of its type. -/
theorem namesOf_nestedConstructor
    (nesting : Nesting)
    (name : String)
    (attributes : List Attribute) :
    namesOf (Attribute.constructor (Attribute.nestingName nesting) name
        [.alone ',', .identifier "vec", .alone '!',
          .bracketed (Attribute.listTokens attributes)]) =
      ["Attribute", Attribute.nestingName nesting, "vec"]
        ++ namesOf (Attribute.listTokens attributes) := by
  simp [namesOf_constructor]

theorem nestingName_mem_typeNames (nesting : Nesting) :
    Attribute.nestingName nesting ∈ typeNames := by
  cases nesting <;> decide

/-! ## Counting attributes in code -/

theorem count_eq_zero_of_ne
    {names : List String}
    (others : ∀ name ∈ names, name ≠ "Attribute") :
    names.count "Attribute" = 0 :=
  List.count_eq_zero.mpr fun member => others _ member rfl

theorem ne_attribute_of_mem_typeNames : ∀ name ∈ typeNames, name ≠ "Attribute" := by
  decide

/-- What an attribute states about itself makes no attribute. -/
theorem count_factTokens (facts : AttributeFacts) :
    (namesOf (Attribute.factTokens facts)).count "Attribute" = 0 := by
  refine count_eq_zero_of_ne (namesAll_factTokens ⟨by decide, by decide⟩ fun number _ => ?_)
  cases finite : number.isFinite with
  | true =>
      exact namesAll_of_namesOf_eq (Token.namesOf_float_of_isFinite finite) (List.forall_mem_nil _)
  | false =>
      obtain ⟨name, strange, same⟩ := Token.exists_namesOf_float finite
      have others : ∀ name ∈ Token.strangeNumbers, name ≠ "Attribute" := by decide
      exact namesAll_of_namesOf_eq same
        (List.forall_mem_cons.mpr ⟨by decide, List.forall_mem_singleton.mpr (others name strange)⟩)

theorem count_plainTokens
    (name : String)
    (type : PlainType) :
    (namesOf (Attribute.plainTokens name type)).count "Attribute" = 1 := by
  obtain ⟨others, same, typed⟩ := exists_namesOf_plainTokens name type
  have absent : others.count "Attribute" = 0 :=
    count_eq_zero_of_ne fun other member => ne_attribute_of_mem_typeNames other (typed other member)
  rw [same, List.count_cons_self, absent]

mutual

/-- The code of an attribute names the type once for it and for every attribute inside it. -/
theorem count_tokens : ∀ shown : Attribute,
    (namesOf shown.tokens).count "Attribute" = shown.count
  | .plain facts type => by
      rw [Attribute.tokens, Token.namesOf_append, List.count_append, count_plainTokens,
        count_factTokens, Attribute.count]
  | .nested facts nesting attributes => by
      have other := ne_attribute_of_mem_typeNames _ (nestingName_mem_typeNames nesting)
      rw [Attribute.tokens, Token.namesOf_append, List.count_append, count_factTokens,
        namesOf_nestedConstructor, List.count_append, count_listTokens attributes, Attribute.count]
      simp [other, Nat.add_comm]

theorem count_listTokens : ∀ attributes : List Attribute,
    (namesOf (Attribute.listTokens attributes)).count "Attribute" = Attribute.countAll attributes
  | [] => by
      rw [Attribute.listTokens, Token.namesOf_nil, List.count_nil, Attribute.countAll]
  | [last] => by
      rw [Attribute.listTokens, count_tokens last, Attribute.countAll, Attribute.countAll,
        Nat.add_zero]
  | first :: second :: rest => by
      have others := count_listTokens (second :: rest)
      rw [Attribute.listTokens, Token.namesOf_append, Token.namesOf_cons, Token.names_alone,
        List.nil_append, List.count_append, count_tokens first, others]
      · rfl
      · exact List.cons_ne_nil second rest

end

end Resource
end SchemaCompiler
