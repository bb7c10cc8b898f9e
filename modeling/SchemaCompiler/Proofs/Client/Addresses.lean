import Mathlib.Algebra.Order.BigOperators.Group.List
import Mathlib.Data.List.Basic
import SchemaCompiler.Proofs.Client.AddressParts
import SchemaCompiler.Proofs.Client.Assembly
import SchemaCompiler.Proofs.Code.Evaluation

/-!
# Addresses with their placeholders filled

The method for the address of an input puts its fields in place of the placeholders that
they are bound to. It pairs every opening brace with the next closing one, so that a
placeholder behind a brace that is still open is not found, though a field is bound to it.
The main statement says that this is the only way for a bound placeholder to stay as it is
written.
-/

namespace SchemaCompiler
namespace Client

open SchemaCompiler.Code (Argument Receiver TemplatePart evaluate fill? templateParts?)
open SchemaCompiler.Schema (Function Registry placeholdersFrom)

/-! ## Parameters of an address -/

namespace Input

/-- Parameters are bound to placeholders that are recognized. -/
def BindsRecognized (input : Input) : Prop :=
  ∀ parameter ∈ input.addressParameters,
    parameter.placeholder ∈ placeholdersFrom none input.address.toList

/-- All opening braces in front of a bound placeholder are closed there. -/
def IsFlat (input : Input) : Prop :=
  ∀ parameter ∈ input.addressParameters, ∀ front behind,
    input.address.toList =
        front ++ '\x7b' :: parameter.placeholder.toList ++ '\x7d' :: behind →
      ClosesBraces front

end Input

/-- The inputs of functions bind recognized placeholders of their addresses only. -/
theorem bindsRecognized_of_convertInput
    [Name.Lettering]
    {registry : Registry}
    {index : TypeIndex}
    {lead : String}
    {function : Function}
    {definitions : Definitions}
    (made : convertInput registry index lead function = .ok definitions) :
    ∀ input ∈ definitions.inputs, input.address = function.uri ∧ input.BindsRecognized := by
  obtain ⟨taken, struct, emission, itemized, converted, rfl⟩ := exists_of_convertInput made
  refine List.forall_mem_singleton.mpr ⟨rfl, fun parameter member => ?_⟩
  obtain ⟨placeholder, isPlaceholder, bound⟩ := List.mem_filterMap.mp member
  obtain ⟨field, -, rfl⟩ := Option.map_eq_some_iff.mp bound
  exact isPlaceholder

variable
  {input : Input}
  {parameters : List AddressParameter}

theorem Input.BindsRecognized.isPlaceholder
    (binds : input.BindsRecognized) :
    ∀ parameter ∈ input.addressParameters, IsPlaceholder parameter.placeholder.toList := by
  intro parameter member
  have recognized := binds parameter member
  rw [← filterMap_recognizedParts] at recognized
  obtain ⟨part, isPart, named⟩ := List.mem_filterMap.mp recognized
  cases part with
  | sign character => cases named
  | bracketed name =>
      rw [← Option.some_inj.mp named, String.toList_ofList]
      exact isPlaceholder_of_mem none (by simp) isPart

namespace AddressPart

/-- A part with a parameter is a placeholder that the parameter is bound to. -/
theorem of_parameter?_eq_some
    {part : AddressPart}
    {parameter : AddressParameter}
    (bound : part.parameter? parameters = some parameter) :
    parameter ∈ parameters ∧ part = .bracketed parameter.placeholder.toList := by
  cases part with
  | sign character => cases bound
  | bracketed name =>
      have named := List.find?_some bound
      refine ⟨List.mem_of_find?_eq_some bound, ?_⟩
      rw [of_decide_eq_true named, String.toList_ofList]

/-- A part with the placeholder of a parameter has a parameter. -/
theorem parameter?_ne_none
    {parameter : AddressParameter}
    (member : parameter ∈ parameters) :
    (bracketed parameter.placeholder.toList).parameter? parameters ≠ none := by
  intro unbound
  have other := List.find?_eq_none.mp unbound parameter member
  simp at other

/-- A bound part is recognized as it is. -/
theorem recognizedParts_written
    {part : AddressPart}
    {parameter : AddressParameter}
    (arePlaceholders : ∀ parameter ∈ parameters, IsPlaceholder parameter.placeholder.toList)
    (bound : part.parameter? parameters = some parameter) :
    recognizedParts none part.written = [part] := by
  obtain ⟨member, rfl⟩ := of_parameter?_eq_some bound
  exact recognizedParts_append_placeholder (arePlaceholders parameter member) [] []

/-- A part without a parameter has no placeholder inside that has one. -/
def HidesNone (parameters : List AddressParameter) (part : AddressPart) : Prop :=
  part.parameter? parameters = none →
    ∀ inner ∈ recognizedParts none part.written, inner.parameter? parameters = none

end AddressPart

/-- In a flat address no part hides a bound placeholder. -/
theorem Input.IsFlat.hidesNone
    (flat : input.IsFlat)
    {part : AddressPart}
    (isPart : part ∈ addressParts none input.address.toList) :
    part.HidesNone input.addressParameters := by
  intro unbound inner recognized
  by_contra bound
  obtain ⟨parameter, bound⟩ := Option.ne_none_iff_exists'.mp bound
  obtain ⟨member, rfl⟩ := AddressPart.of_parameter?_eq_some bound
  cases part with
  | sign character => simp [AddressPart.written] at recognized
  | bracketed name =>
      obtain ⟨front, behind, split⟩ := exists_of_mem_recognizedParts recognized
      have noClosing := not_mem_of_mem_addressParts none (by simp) isPart
      have ends : '\x7b' :: name ++ '\x7d' :: [] =
          (front ++ '\x7b' :: parameter.placeholder.toList) ++ '\x7d' :: behind := split
      obtain ⟨same, -, rfl⟩ := (List.append_cons_inj_of_notMem
        (by simpa using noClosing) List.not_mem_nil).mp ends
      cases front with
      | nil =>
          obtain rfl : name = parameter.placeholder.toList := List.tail_eq_of_cons_eq same
          exact AddressPart.parameter?_ne_none member unbound
      | cons first front =>
          obtain ⟨rfl, rfl⟩ := List.cons_eq_cons.mp same
          obtain ⟨before, after, parts⟩ := List.append_of_mem isPart
          have written := written_addressParts none input.address.toList
          rw [parts] at written
          have closes := flat parameter member
            (before.flatMap AddressPart.written ++ '\x7b' :: front)
            (after.flatMap AddressPart.written)
            (by simpa [pending, AddressPart.written] using written.symm)
          exact noClosing (List.mem_append_left _ (closes _ front rfl))

/-- An address whose parts hide no bound placeholder is flat. -/
theorem Input.isFlat_of_hidesNone
    (arePlaceholders : ∀ parameter ∈ input.addressParameters,
      IsPlaceholder parameter.placeholder.toList)
    (hidesNone : ∀ part ∈ addressParts none input.address.toList,
      part.HidesNone input.addressParameters) :
    input.IsFlat := by
  intro parameter member front behind split
  by_contra opened
  obtain ⟨before, name, rfl, closes, noClosing⟩ := exists_of_not_closesBraces opened
  have isPlaceholder := arePlaceholders parameter member
  let around := AddressPart.bracketed (name ++ '\x7b' :: parameter.placeholder.toList)
  have isPart : around ∈ addressParts none input.address.toList := by
    have inside : '\x7d' ∉ name ++ '\x7b' :: parameter.placeholder.toList := by
      simp [noClosing, isPlaceholder.noClosing]
    have read := addressParts_some_append inside [] behind
    have cut := addressParts_append none (by simp) closes
      ('\x7b' :: (name ++ '\x7b' :: parameter.placeholder.toList) ++ '\x7d' :: behind)
    rw [List.cons_append, addressParts, if_pos rfl, read, List.nil_append] at cut
    rw [split]
    simp only [List.append_assoc, List.cons_append] at cut ⊢
    rw [cut]
    exact List.mem_append_right _ List.mem_cons_self
  have unbound : around.parameter? input.addressParameters = none := by
    by_contra bound
    obtain ⟨other, bound⟩ := Option.ne_none_iff_exists'.mp bound
    obtain ⟨isOther, same⟩ := AddressPart.of_parameter?_eq_some bound
    have noOpening := (arePlaceholders other isOther).noOpening
    rw [← AddressPart.bracketed.inj same] at noOpening
    simp at noOpening
  have recognized :
      .bracketed parameter.placeholder.toList ∈ recognizedParts none around.written := by
    have read := recognizedParts_append_placeholder isPlaceholder ('\x7b' :: name) []
    simp only [around, AddressPart.written, List.append_assoc, List.cons_append] at read ⊢
    rw [read]
    exact List.mem_append_right _ List.mem_cons_self
  exact AddressPart.parameter?_ne_none member (hidesNone around isPart unbound _ recognized)

/-! ## Filled addresses -/

namespace AddressPart

/-- The characters that stand for a part, where parameters have the given texts. -/
def filled
    (parameters : List AddressParameter)
    (text : AddressParameter → String)
    (part : AddressPart) : List Char :=
  match part.parameter? parameters with
  | some parameter => (text parameter).toList
  | none => part.written

/-- What the template of a part is read as. -/
def templateParts (parameters : List AddressParameter) (part : AddressPart) : List TemplatePart :=
  match part.parameter? parameters with
  | some _ => [.argument]
  | none => part.written.map .sign

theorem templateParts?_template_append
    (parameters : List AddressParameter)
    (part : AddressPart)
    (rest : List Char) :
    templateParts? (part.template parameters ++ rest) =
      (templateParts? rest).map (part.templateParts parameters ++ ·) := by
  rw [template, templateParts]
  cases part.parameter? parameters with
  | some parameter => exact Code.templateParts?_argumentSign_append rest
  | none => exact Code.templateParts?_escapeBraces_append part.written rest

/-- The template of an address is read part by part. -/
theorem templateParts?_flatMap_template
    (parameters : List AddressParameter)
    (parts : List AddressPart) :
    templateParts? (parts.flatMap (template parameters)) =
      some (parts.flatMap (templateParts parameters)) := by
  induction parts with
  | nil => rfl
  | cons part rest hypothesis =>
      rw [List.flatMap_cons, templateParts?_template_append, hypothesis]
      rfl

/-- There is an argument for each sign of one. -/
theorem count_argument_flatMap
    (parameters : List AddressParameter)
    (parts : List AddressPart) :
    (parts.flatMap (templateParts parameters)).count .argument =
      (parts.filterMap (parameter? parameters)).length := by
  induction parts with
  | nil => rfl
  | cons part rest hypothesis =>
      rw [List.flatMap_cons, List.count_append, hypothesis, templateParts]
      cases bound : part.parameter? parameters with
      | some parameter => simp [bound, Nat.add_comm]
      | none => simp [bound, List.count_eq_zero]

/-- The template of an address is filled part by part. -/
theorem fill?_flatMap_templateParts
    (parameters : List AddressParameter)
    (text : AddressParameter → String)
    (parts : List AddressPart) :
    fill? (parts.flatMap (templateParts parameters))
        ((parts.filterMap (parameter? parameters)).map text) =
      some (parts.flatMap (filled parameters text)) := by
  induction parts with
  | nil => rfl
  | cons part rest hypothesis =>
      rw [List.flatMap_cons, List.flatMap_cons, templateParts, filled]
      cases bound : part.parameter? parameters with
      | some parameter =>
          rw [List.filterMap_cons_some bound, List.map_cons, List.singleton_append,
            Code.fill?_argument_cons, hypothesis]
          rfl
      | none =>
          rw [List.filterMap_cons_none bound, Code.fill?_map_sign_append, hypothesis]
          rfl

end AddressPart

namespace Input

/-- A value that is an input: it has the address as a constant, and a field that fills a
placeholder may be missing if the parameter says so. -/
structure Fits (input : Input) (receiver : Receiver) : Prop where
  address : receiver.constants addressConstant = some input.address
  isOption : ∀ parameter ∈ input.addressParameters,
    (receiver.fields parameter.field).isOption = parameter.isOptional

/-- The address cut into the given parts, with the placeholders among them replaced by the
fields that are bound to them; a missing field counts as empty. -/
def filled (input : Input) (receiver : Receiver) (parts : List AddressPart) : String :=
  String.ofList (parts.flatMap (AddressPart.filled input.addressParameters
    fun parameter => (receiver.fields parameter.field).textOrEmpty))

end Input

/-- The argument of a parameter is read as the text of its field. -/
theorem AddressParameter.text?_argument
    {receiver : Receiver}
    {parameter : AddressParameter}
    (fits : (receiver.fields parameter.field).isOption = parameter.isOptional) :
    parameter.argument.text? receiver = some (receiver.fields parameter.field).textOrEmpty := by
  rw [argument, Argument.text?, ← fits]
  cases receiver.fields parameter.field <;> rfl

/-- The arguments of an address are read as the texts of the fields that fill it. -/
theorem mapM_text?_arguments
    {receiver : Receiver}
    (fits : ∀ parameter ∈ parameters,
      (receiver.fields parameter.field).isOption = parameter.isOptional)
    (parts : List AddressPart) :
    (parts.filterMap fun part =>
        (part.parameter? parameters).map AddressParameter.argument).mapM
          (Argument.text? receiver) =
      some ((parts.filterMap (AddressPart.parameter? parameters)).map fun parameter =>
        (receiver.fields parameter.field).textOrEmpty) := by
  induction parts with
  | nil => rfl
  | cons part rest hypothesis =>
      cases bound : part.parameter? parameters with
      | none =>
          rw [List.filterMap_cons_none bound, List.filterMap_cons_none (by rw [bound]; rfl),
            hypothesis]
      | some parameter =>
          have member := (AddressPart.of_parameter?_eq_some bound).1
          rw [List.filterMap_cons_some bound, List.filterMap_cons_some (by rw [bound]; rfl),
            List.mapM_cons, AddressParameter.text?_argument (fits parameter member), hypothesis]
          rfl

/-- Without parameters an address is as written. -/
theorem AddressPart.flatMap_filled_of_unbound
    {text : AddressParameter → String}
    {parts : List AddressPart}
    (unbound : ∀ part ∈ parts, part.parameter? parameters = none) :
    parts.flatMap (filled parameters text) = parts.flatMap written := by
  refine List.flatMap_congr fun part isPart => ?_
  rw [filled, unbound part isPart]

/-- The expression of an address gives the address with the parts that the scan finds filled. -/
theorem evaluate_addressExpression
    {receiver : Receiver}
    (fits : input.Fits receiver) :
    evaluate receiver input.addressExpression.tokens =
      some (input.filled receiver (addressParts none input.address.toList)) := by
  rw [Input.addressExpression]
  split
  next isEmpty =>
    have unbound : ∀ part ∈ addressParts none input.address.toList,
        part.parameter? input.addressParameters = none := by
      intro part _
      rw [List.isEmpty_iff.mp isEmpty]
      cases part <;> rfl
    rw [Code.evaluate_ownedConstant, fits.address, Input.filled,
      AddressPart.flatMap_filled_of_unbound unbound, written_addressParts]
    simp [pending]
  next =>
    have split : templateParts? (String.ofList ((addressParts none input.address.toList).flatMap
        (AddressPart.template input.addressParameters))).toList =
          some ((addressParts none input.address.toList).flatMap
            (AddressPart.templateParts input.addressParameters)) := by
      rw [String.toList_ofList, AddressPart.templateParts?_flatMap_template]
    have read := mapM_text?_arguments fits.isOption (addressParts none input.address.toList)
    dsimp only
    rw [Code.evaluate_filled split read, AddressPart.fill?_flatMap_templateParts]
    rfl

/-! ## Where both ways agree -/

namespace AddressPart

/-- A part that hides no bound placeholder is filled like what is recognized in it. -/
theorem HidesNone.flatMap_filled
    {part : AddressPart}
    (hidesNone : part.HidesNone parameters)
    (arePlaceholders : ∀ parameter ∈ parameters, IsPlaceholder parameter.placeholder.toList)
    (text : AddressParameter → String) :
    (recognizedParts none part.written).flatMap (filled parameters text) =
      part.filled parameters text := by
  cases bound : part.parameter? parameters with
  | some parameter =>
      rw [recognizedParts_written arePlaceholders bound, List.flatMap_singleton]
  | none =>
      rw [flatMap_filled_of_unbound (hidesNone bound), written_recognizedParts, filled, bound]
      rfl

/-- Empty fields make a part no longer than written. -/
theorem length_filled_le
    {text : AddressParameter → String}
    (empty : ∀ parameter ∈ parameters, text parameter = "")
    (part : AddressPart) :
    (part.filled parameters text).length ≤ part.written.length := by
  rw [filled]
  split
  next parameter bound => simp [empty parameter (of_parameter?_eq_some bound).1]
  next => exact Nat.le_refl _

/-- A part that hides a bound placeholder is longer than what is recognized in it if fields are
empty. -/
theorem length_flatMap_filled_lt
    {text : AddressParameter → String}
    (empty : ∀ parameter ∈ parameters, text parameter = "")
    {part : AddressPart}
    (hides : ¬part.HidesNone parameters) :
    ((recognizedParts none part.written).flatMap (filled parameters text)).length <
      (part.filled parameters text).length := by
  simp only [HidesNone, not_forall] at hides
  obtain ⟨unbound, inner, recognized, bound⟩ := hides
  have written := written_recognizedParts none part.written
  have shorter : (inner.filled parameters text).length < inner.written.length := by
    obtain ⟨parameter, bound⟩ := Option.ne_none_iff_exists'.mp bound
    obtain ⟨member, rfl⟩ := of_parameter?_eq_some bound
    rw [filled, bound]
    simp [empty parameter member, AddressPart.written]
  calc ((recognizedParts none part.written).flatMap (filled parameters text)).length
      < ((recognizedParts none part.written).flatMap AddressPart.written).length := by
        rw [List.length_flatMap, List.length_flatMap]
        exact List.sum_lt_sum _ _ (fun other _ => length_filled_le empty other)
          ⟨inner, recognized, shorter⟩
    _ = (part.filled parameters text).length := by
        rw [written, filled, unbound]
        rfl

end AddressPart

/-- An address is flat exactly if none of its parts hides a bound placeholder. -/
theorem Input.BindsRecognized.isFlat_iff
    (binds : input.BindsRecognized) :
    input.IsFlat ↔
      ∀ part ∈ addressParts none input.address.toList, part.HidesNone input.addressParameters :=
  ⟨fun flat _ isPart => flat.hidesNone isPart, isFlat_of_hidesNone binds.isPlaceholder⟩

/-- Both ways to cut a flat address fill it alike. -/
theorem Input.IsFlat.filled_eq
    (flat : input.IsFlat)
    (binds : input.BindsRecognized)
    (receiver : Receiver) :
    input.filled receiver (addressParts none input.address.toList) =
      input.filled receiver (recognizedParts none input.address.toList) := by
  have split := recognizedParts_eq_flatMap none (by simp) input.address.toList
  rw [pending, List.nil_append] at split
  rw [Input.filled, Input.filled, split, List.flatMap_assoc]
  refine congrArg String.ofList (List.flatMap_congr fun part isPart => ?_)
  exact ((flat.hidesNone isPart).flatMap_filled binds.isPlaceholder _).symm

/-- An address that is not flat is filled in two ways if fields are empty. -/
theorem Input.BindsRecognized.filled_ne
    (binds : input.BindsRecognized)
    (nested : ¬input.IsFlat)
    {receiver : Receiver}
    (empty : ∀ parameter ∈ input.addressParameters,
      (receiver.fields parameter.field).textOrEmpty = "") :
    input.filled receiver (addressParts none input.address.toList) ≠
      input.filled receiver (recognizedParts none input.address.toList) := by
  have split := recognizedParts_eq_flatMap none (by simp) input.address.toList
  rw [pending, List.nil_append] at split
  rw [binds.isFlat_iff] at nested
  push Not at nested
  obtain ⟨part, isPart, hides⟩ := nested
  intro same
  have sameLength := congrArg List.length (String.ofList_injective same)
  rw [split, List.flatMap_assoc, List.length_flatMap, List.length_flatMap] at sameLength
  refine absurd sameLength.symm (Nat.ne_of_lt (List.sum_lt_sum _ _ (fun other _ => ?_)
    ⟨part, isPart, AddressPart.length_flatMap_filled_lt empty hides⟩))
  by_cases hidesNone : other.HidesNone input.addressParameters
  · rw [hidesNone.flatMap_filled binds.isPlaceholder]
  · exact (AddressPart.length_flatMap_filled_lt empty hidesNone).le

/-- A flat address is filled in all placeholders that fields are bound to. -/
theorem Input.IsFlat.evaluate_addressExpression
    (flat : input.IsFlat)
    (binds : input.BindsRecognized)
    {receiver : Receiver}
    (fits : input.Fits receiver) :
    evaluate receiver input.addressExpression.tokens =
      some (input.filled receiver (recognizedParts none input.address.toList)) := by
  rw [Client.evaluate_addressExpression fits, flat.filled_eq binds receiver]

/-- So are the addresses of the inputs that functions are converted to, if they are flat. -/
theorem evaluate_address_of_convertInput
    [Name.Lettering]
    {registry : Registry}
    {index : TypeIndex}
    {lead : String}
    {function : Function}
    {definitions : Definitions}
    (made : convertInput registry index lead function = .ok definitions)
    (declared : input ∈ definitions.inputs)
    (flat : input.IsFlat)
    {receiver : Receiver}
    (fits : input.Fits receiver) :
    evaluate receiver input.addressExpression.tokens =
      some (input.filled receiver (recognizedParts none function.uri.toList)) := by
  obtain ⟨address, binds⟩ := bindsRecognized_of_convertInput made input declared
  rw [← address]
  exact flat.evaluate_addressExpression binds fits

/-- The method for the address of an input fills a template with as many signs for arguments as
arguments, and gives the address with the fields in place of the placeholders between the
braces that it pairs. These are all placeholders that fields are bound to as long as none of
them stands behind an open brace. One that does is left as written, which shows where fields are
empty. -/
theorem address_filled_iff_flat
    (binds : input.BindsRecognized) :
    (∀ template arguments, input.addressExpression = .filled template arguments →
      ∃ parts, templateParts? template.toList = some parts ∧
        parts.count .argument = arguments.length) ∧
    ∀ receiver, input.Fits receiver →
      evaluate receiver input.addressExpression.tokens =
          some (input.filled receiver (addressParts none input.address.toList)) ∧
        (input.IsFlat → evaluate receiver input.addressExpression.tokens =
          some (input.filled receiver (recognizedParts none input.address.toList))) ∧
        (¬input.IsFlat →
          (∀ parameter ∈ input.addressParameters,
            (receiver.fields parameter.field).textOrEmpty = "") →
          evaluate receiver input.addressExpression.tokens ≠
            some (input.filled receiver (recognizedParts none input.address.toList))) := by
  refine ⟨fun template arguments isFilled => ?_, fun receiver fits => ?_⟩
  · rw [Input.addressExpression] at isFilled
    split at isFilled
    · cases isFilled
    · cases isFilled
      refine ⟨_, by rw [String.toList_ofList, AddressPart.templateParts?_flatMap_template], ?_⟩
      rw [AddressPart.count_argument_flatMap, ← List.map_filterMap, List.length_map]
  · refine ⟨evaluate_addressExpression fits,
      fun flat => flat.evaluate_addressExpression binds fits, fun nested empty => ?_⟩
    rw [evaluate_addressExpression fits, ne_eq, Option.some_inj]
    exact binds.filled_ne nested empty

/-- The input of a call whose address has two bound placeholders and one that is not. -/
def unitInput : Input where
  struct := { name := "UnitReadInput" }
  method := "GET"
  address := "/interfaces/\x7bname\x7d/units/\x7bunit\x7d/\x7bstale\x7d"
  addressParameters := [⟨"name", "name", false⟩, ⟨"unit", "unit", true⟩]

/-- Such an input without a unit. -/
def unitReceiver : Receiver where
  constants _ := some unitInput.address
  fields field := if field = "name" then .value "eth0" else .option none

/-- The address of the call with its two fields. -/
theorem address_filled_unitInput :
    unitInput.BindsRecognized ∧ unitInput.Fits unitReceiver ∧ unitInput.IsFlat ∧
      evaluate unitReceiver unitInput.addressExpression.tokens =
        some "/interfaces/eth0/units//\x7bstale\x7d" := by
  have binds : unitInput.BindsRecognized := by
    unfold Input.BindsRecognized
    decide
  have fits : unitInput.Fits unitReceiver := ⟨rfl, by decide⟩
  have flat : unitInput.IsFlat := by
    rw [binds.isFlat_iff]
    unfold AddressPart.HidesNone
    decide
  refine ⟨binds, fits, flat, ?_⟩
  rw [((address_filled_iff_flat binds).2 unitReceiver fits).2.1 flat]
  decide

/-- The input of a call whose address has a placeholder between the braces of another. -/
def nestedInput : Input where
  struct := { name := "NestedReadInput" }
  method := "GET"
  address := "/\x7ba\x7bb\x7d\x7d"
  addressParameters := [⟨"b", "b", false⟩]

/-- Such an input with an empty field. -/
def nestedReceiver : Receiver where
  constants _ := some nestedInput.address
  fields _ := .value ""

/-- Not every bound placeholder is filled. -/
theorem not_address_filled_nestedInput :
    ¬∀ (input : Input) (receiver : Receiver), input.BindsRecognized → input.Fits receiver →
      evaluate receiver input.addressExpression.tokens =
        some (input.filled receiver (recognizedParts none input.address.toList)) := by
  intro filled
  have binds : nestedInput.BindsRecognized := by
    unfold Input.BindsRecognized
    decide
  have fits : nestedInput.Fits nestedReceiver := ⟨rfl, by decide⟩
  have same := filled nestedInput nestedReceiver binds fits
  rw [evaluate_addressExpression fits] at same
  exact absurd same (by decide)

end Client
end SchemaCompiler
