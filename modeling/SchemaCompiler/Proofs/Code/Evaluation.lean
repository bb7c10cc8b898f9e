import SchemaCompiler.Code.Expression
import SchemaCompiler.Proofs.Text.Literals

/-!
# Values of generated expressions

A method of a generated type returns the value of one expression. `evaluate` takes
the tokens of such an expression apart and computes its value as the language of
the generated code does: a literal stands for its text, a chain of calls is worked
off from the left, and a format template is filled with its arguments. Tokens that
are no such expression, or that would not compile, have no value.
-/

namespace SchemaCompiler
namespace Code

/-! ## Fields of the value at hand -/

/-- What a field holds, as it is shown: a value, or a value that may be missing. -/
inductive Held where
  | value (shown : String)
  | option (shown : Option String)
deriving Repr, DecidableEq

namespace Held

/-- The value may be missing. -/
def isOption : Held → Bool
  | .value _ => false
  | .option _ => true

/-- The text of the value; a missing one has none. -/
def toOption : Held → Option String
  | .value shown => some shown
  | .option shown => shown

/-- The text of the value, empty if it is missing. -/
def textOrEmpty (held : Held) : String := held.toOption.getD ""

/-- The text in a template; an option has none there. -/
def shown? : Held → Option String
  | .value shown => some shown
  | .option _ => none

/-- What a call of a method gives. -/
def call? : Held → String → List Token → Option Held
  | .value shown, "to_string", [] => some (.value shown)
  | .value shown, "as_str", [] => some (.value shown)
  | .option shown, "as_deref", [] => some (.option shown)
  | .option shown, "as_ref", [] => some (.option shown)
  | .option shown, "map",
      [.identifier "ToString", .sign ':' true, .sign ':' false, .identifier "to_string"] =>
    some (.option shown)
  | .option shown, "unwrap_or_default", [] => some (.value (shown.getD ""))
  | _, _, _ => none

/-- What a chain of calls gives. -/
def calls? (held : Held) : List Token → Option Held
  | [] => some held
  | .sign '.' _ :: .identifier name :: .group .parenthesis arguments :: rest =>
      (held.call? name arguments).bind fun next => next.calls? rest
  | _ => none

end Held

/-- The value that a method is called on: texts of the constants of its type, and what
its fields hold. -/
structure Receiver where
  constants : String → Option String
  fields : String → Held

/-- What a literal, a field or a constant gives, with the calls behind it. -/
def operand? (receiver : Receiver) : List Token → Option Held
  | .literal literal :: calls =>
      (Text.literalValue? literal).bind fun text => Held.calls? (.value text) calls
  | .identifier "self" :: .sign '.' _ :: .identifier field :: calls =>
      (receiver.fields field).calls? calls
  | .identifier "Self" :: .sign ':' true :: .sign ':' false :: .identifier name :: calls =>
      (receiver.constants name).bind fun text => Held.calls? (.value text) calls
  | _ => none

/-! ## Format templates -/

/-- Part of a format template. -/
inductive TemplatePart where
  | sign (character : Char)
  | argument
deriving Repr, DecidableEq

/-- Parts of a format template, in which a brace that is text is written twice. -/
def templateParts? : List Char → Option (List TemplatePart)
  | [] => some []
  | first :: rest =>
      if first = '\x7b' then
        match rest with
        | [] => none
        | second :: rest =>
            if second = '\x7b' then (templateParts? rest).map (.sign '\x7b' :: ·)
            else if second = '\x7d' then (templateParts? rest).map (.argument :: ·)
            else none
      else if first = '\x7d' then
        match rest with
        | [] => none
        | second :: rest =>
            if second = '\x7d' then (templateParts? rest).map (.sign '\x7d' :: ·) else none
      else (templateParts? rest).map (.sign first :: ·)

/-- The text of a template whose arguments have the given texts, if they are as many. -/
def fill? : List TemplatePart → List String → Option (List Char)
  | [], [] => some []
  | .sign character :: parts, texts => (fill? parts texts).map (character :: ·)
  | .argument :: parts, text :: texts => (fill? parts texts).map (text.toList ++ ·)
  | _, _ => none

/-! ## Expressions -/

/-- The token is a comma. -/
def isComma : Token → Bool
  | .sign ',' _ => true
  | _ => false

/-- Arguments between commas, where `current` is what was read of the first one. -/
def splitArguments (current : List Token) : List Token → List (List Token)
  | [] => if current.isEmpty then [] else [current]
  | token :: rest =>
      if isComma token then current :: splitArguments [] rest
      else splitArguments (current ++ [token]) rest

/-- The text that an expression gives. -/
def evaluate (receiver : Receiver) : List Token → Option String
  | [.identifier "format", .sign '!' _,
      .group .parenthesis (.literal literal :: .sign ',' _ :: arguments)] => do
    let template ← Text.literalValue? literal
    let parts ← templateParts? template.toList
    let texts ← (splitArguments [] arguments).mapM fun argument =>
      (operand? receiver argument).bind Held.shown?
    let filled ← fill? parts texts
    return String.ofList filled
  | tokens => (operand? receiver tokens).bind Held.shown?

/-! ## Values of templates -/

/-- A character that is no brace is read as itself. -/
theorem templateParts?_cons
    {character : Char}
    (noBrace : character ≠ '\x7b' ∧ character ≠ '\x7d')
    (rest : List Char) :
    templateParts? (character :: rest) = (templateParts? rest).map (.sign character :: ·) := by
  rw [templateParts?.eq_def]
  simp [noBrace]

/-- Text with its braces written twice is read as its characters. -/
theorem templateParts?_escapeBraces_append (text rest : List Char) :
    templateParts? (escapeBraces text ++ rest) =
      (templateParts? rest).map (text.map .sign ++ ·) := by
  induction text with
  | nil => simp [escapeBraces]
  | cons character text hypothesis =>
      have step : templateParts? (escapeBraces (character :: text) ++ rest) =
          (templateParts? (escapeBraces text ++ rest)).map (.sign character :: ·) := by
        by_cases opening : character = '\x7b'
        · simp [escapeBraces, templateParts?, opening]
        · by_cases closing : character = '\x7d'
          · simp [escapeBraces, templateParts?, closing]
          · simp [escapeBraces, opening, closing, templateParts?_cons]
      rw [step, hypothesis, Option.map_map]
      rfl

/-- The sign for an argument is read as one. -/
theorem templateParts?_argumentSign_append (rest : List Char) :
    templateParts? (argumentSign ++ rest) = (templateParts? rest).map (.argument :: ·) := by
  simp [argumentSign, templateParts?]

/-- Characters of a template need no arguments. -/
theorem fill?_map_sign_append
    (text : List Char)
    (parts : List TemplatePart)
    (texts : List String) :
    fill? (text.map .sign ++ parts) texts = (fill? parts texts).map (text ++ ·) := by
  induction text with
  | nil => simp
  | cons character text hypothesis =>
      rw [List.map_cons, List.cons_append, fill?, hypothesis, Option.map_map]
      rfl

@[simp] theorem fill?_argument_cons
    (parts : List TemplatePart)
    (text : String)
    (texts : List String) :
    fill? (.argument :: parts) (text :: texts) = (fill? parts texts).map (text.toList ++ ·) := rfl

/-! ## Values of expressions -/

namespace FieldReading

/-- What is read of a field. -/
def read? : FieldReading → Held → Option String
  | .itself, .value shown => some shown
  | .text, .value shown => some shown
  | .textOrEmpty, .option shown => some (shown.getD "")
  | .shownOrEmpty, .option shown => some (shown.getD "")
  | _, _ => none

/-- The calls of a reading give what it reads. -/
theorem calls?_tokens
    (reading : FieldReading)
    (held : Held) :
    (held.calls? reading.tokens).bind Held.shown? = reading.read? held := by
  cases reading <;> cases held <;> rfl

/-- No reading has a comma outside brackets. -/
theorem not_isComma_of_mem_tokens
    {reading : FieldReading}
    {token : Token}
    (member : token ∈ reading.tokens) :
    isComma token = false := by
  cases reading <;>
    simp only [tokens, Token.call, List.mem_append, List.mem_cons, List.not_mem_nil, or_false,
      Token.alone, Token.parenthesized] at member
  case text => rcases member with rfl | rfl | rfl <;> rfl
  case textOrEmpty => rcases member with (rfl | rfl | rfl) | rfl | rfl | rfl <;> rfl
  case shownOrEmpty =>
    rcases member with ((rfl | rfl | rfl) | rfl | rfl | rfl) | rfl | rfl | rfl <;> rfl

end FieldReading

namespace Argument

/-- The text of an argument. -/
def text? (receiver : Receiver) (argument : Argument) : Option String :=
  argument.reading.read? (receiver.fields argument.field)

theorem operand?_tokens
    (receiver : Receiver)
    (argument : Argument) :
    (operand? receiver argument.tokens).bind Held.shown? = argument.text? receiver :=
  argument.reading.calls?_tokens (receiver.fields argument.field)

/-- No argument has a comma outside brackets. -/
theorem not_isComma_of_mem_tokens
    {argument : Argument}
    {token : Token}
    (member : token ∈ argument.tokens) :
    isComma token = false := by
  rcases List.mem_append.mp member with front | calls
  · simp only [Token.alone, List.mem_cons, List.not_mem_nil, or_false] at front
    rcases front with rfl | rfl | rfl <;> rfl
  · exact FieldReading.not_isComma_of_mem_tokens calls

end Argument

/-- What stands in front of the first comma belongs to the first argument. -/
theorem splitArguments_append
    {argument : List Token}
    (clear : ∀ token ∈ argument, isComma token = false)
    (current rest : List Token) :
    splitArguments current (argument ++ rest) = splitArguments (current ++ argument) rest := by
  induction argument generalizing current with
  | nil => simp
  | cons token argument hypothesis =>
      obtain ⟨first, others⟩ := List.forall_mem_cons.mp clear
      rw [List.cons_append, splitArguments, first, if_neg Bool.false_ne_true, hypothesis others,
        List.append_assoc, List.singleton_append]

/-- Arguments with commas between them are taken apart again. -/
theorem splitArguments_separated
    {arguments : List (List Token)}
    (filled : ∀ argument ∈ arguments, argument ≠ [])
    (clear : ∀ argument ∈ arguments, ∀ token ∈ argument, isComma token = false) :
    splitArguments [] (Token.separated arguments) = arguments := by
  induction arguments with
  | nil => rfl
  | cons first rest hypothesis =>
      obtain ⟨firstFilled, restFilled⟩ := List.forall_mem_cons.mp filled
      obtain ⟨firstClear, restClear⟩ := List.forall_mem_cons.mp clear
      cases rest with
      | nil =>
          have split := splitArguments_append firstClear [] []
          rw [List.append_nil, List.nil_append] at split
          rw [Token.separated, split, splitArguments, List.isEmpty_eq_false_iff.mpr firstFilled]
          rfl
      | cons second others =>
          have comma : isComma (Token.alone ',') = true := rfl
          rw [Token.separated, splitArguments_append firstClear, List.nil_append, splitArguments,
            comma, if_pos rfl, hypothesis restFilled restClear]
          simp

/-- An owned copy of a literal is its text. -/
theorem evaluate_ownedText
    (receiver : Receiver)
    (text : String) :
    evaluate receiver (Expression.ownedText text).tokens = some text := by
  have operand : evaluate receiver (Expression.ownedText text).tokens =
      ((Text.literalValue? (Text.literalText text)).bind fun text =>
        Held.calls? (.value text) (Token.call "to_string" [])).bind Held.shown? := rfl
  rw [operand, Text.literalValue?_literalText]
  rfl

/-- An owned copy of a constant is the text of the constant. -/
theorem evaluate_ownedConstant
    (receiver : Receiver)
    (name : String) :
    evaluate receiver (Expression.ownedConstant name).tokens = receiver.constants name := by
  have operand : evaluate receiver (Expression.ownedConstant name).tokens =
      ((receiver.constants name).bind fun text =>
        Held.calls? (.value text) (Token.call "to_string" [])).bind Held.shown? := rfl
  rw [operand]
  cases receiver.constants name <;> rfl

/-- A filled template is its text with the texts of its arguments. -/
theorem evaluate_filled
    {receiver : Receiver}
    {template : String}
    {arguments : List Argument}
    {parts : List TemplatePart}
    {texts : List String}
    (split : templateParts? template.toList = some parts)
    (read : arguments.mapM (Argument.text? receiver) = some texts) :
    evaluate receiver (Expression.filled template arguments).tokens =
      (fill? parts texts).map String.ofList := by
  have separated : splitArguments [] (Token.separated (arguments.map Argument.tokens)) =
      arguments.map Argument.tokens := by
    refine splitArguments_separated (List.forall_mem_map.mpr fun _ _ => by simp [Argument.tokens])
      (List.forall_mem_map.mpr fun _ _ _ => Argument.not_isComma_of_mem_tokens)
  have each : (arguments.map Argument.tokens).mapM (fun argument =>
      (operand? receiver argument).bind Held.shown?) = some texts := by
    rw [List.mapM_map, ← read]
    exact congrArg (List.mapM · arguments) (funext (Argument.operand?_tokens receiver))
  simp only [Expression.tokens, Expression.fillTokens, Token.string, Token.alone,
    Token.parenthesized, evaluate, Text.literalValue?_literalText, separated, each]
  simp only [Option.bind_eq_bind, Option.bind_some, split]
  cases fill? parts texts <;> rfl

end Code
end SchemaCompiler
