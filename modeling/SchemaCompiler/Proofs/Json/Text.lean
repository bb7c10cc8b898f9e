import Mathlib.Data.List.DropRight
import SchemaCompiler.Proofs.Json.Numbers
import SchemaCompiler.Proofs.Json.Strings
import SchemaCompiler.Proofs.Reading.Soundness

/-!
# Values as text

A value that is written as text is read back as it was, whatever separator follows. Arrays and
objects that stand too deep are read as well, and marked as such.
-/

namespace SchemaCompiler
namespace Json

namespace Value

mutual

/-- Levels of arrays and objects. -/
def depth : Value → Nat
  | .array items => depthItems items + 1
  | .object members => depthMembers members + 1
  | _ => 0

/-- Most levels of an item. -/
def depthItems : List Value → Nat
  | [] => 0
  | item :: rest => max (depth item) (depthItems rest)

/-- Most levels of the value of a member. -/
def depthMembers : List (String × Value) → Nat
  | [] => 0
  | (_, value) :: rest => max (depth value) (depthMembers rest)

end

mutual

/-- Numbers of a value. -/
def numbers : Value → List Number
  | .number value => [value]
  | .array items => numbersItems items
  | .object members => numbersMembers members
  | _ => []

/-- Numbers of the items of a list. -/
def numbersItems : List Value → List Number
  | [] => []
  | item :: rest => numbers item ++ numbersItems rest

/-- Numbers of the values of members. -/
def numbersMembers : List (String × Value) → List Number
  | [] => []
  | (_, value) :: rest => numbers value ++ numbersMembers rest

end

theorem numbersItems_eq_flatMap (items : List Value) :
    numbersItems items = items.flatMap numbers := by
  induction items with
  | nil => rfl
  | cons item rest hypothesis => rw [numbersItems, hypothesis, List.flatMap_cons]

theorem numbersMembers_eq_flatMap (members : List (String × Value)) :
    numbersMembers members = members.flatMap fun member => member.2.numbers := by
  induction members with
  | nil => rfl
  | cons member rest hypothesis => rw [numbersMembers, hypothesis, List.flatMap_cons]

/-- The characters of texts with commas between them. -/
theorem toList_intercalate_cons
    (first : String)
    (rest : List String) :
    (String.intercalate "," (first :: rest)).toList =
      first.toList ++ rest.flatMap fun text => ',' :: text.toList := by
  induction rest generalizing first with
  | nil => simp
  | cons text rest hypothesis =>
      rw [String.intercalate_cons_cons, String.toList_append, hypothesis text]
      simp

end Value

namespace Draft

mutual

/-- The draft of a value with `level` arrays and objects around it. -/
def ofValueAt (level : Nat) : Value → Draft
  | .null => .null
  | .bool value => .bool value
  | .number value => .number value
  | .string value => .string value
  | .array items => atLevel (level + 1) (.array (ofItemsAt (level + 1) items))
  | .object members => atLevel (level + 1) (.object (ofMembersAt (level + 1) members))

/-- The drafts of a list of values. -/
def ofItemsAt (level : Nat) : List Value → List Draft
  | [] => []
  | item :: rest => ofValueAt level item :: ofItemsAt level rest

/-- The drafts of the members of an object. -/
def ofMembersAt (level : Nat) : List (String × Value) → List (Draft × Draft)
  | [] => []
  | (key, value) :: rest => (.string key, ofValueAt level value) :: ofMembersAt level rest

end

/-- A value that is not too deep has a draft without marks. -/
theorem ofValueAt_of_shallow
    {value : Value}
    {level : Nat}
    (shallow : level + value.depth ≤ deepestLevel) :
    ofValueAt level value = ofValue value := by
  induction value using Value.inductOn generalizing level with
  | null | bool | number | string => rfl
  | array items hypothesis =>
      rw [Value.depth] at shallow
      have each : ofItemsAt (level + 1) items = ofItems items := by
        have bound : level + 1 + Value.depthItems items ≤ deepestLevel := by omega
        clear shallow
        induction items with
        | nil => rfl
        | cons item rest others =>
            rw [List.forall_mem_cons] at hypothesis
            rw [Value.depthItems] at bound
            rw [ofItemsAt, ofItems, hypothesis.1 (by omega), others hypothesis.2 (by omega)]
      rw [ofValueAt, ofValue, each, atLevel, if_neg (by omega)]
  | object members hypothesis =>
      rw [Value.depth] at shallow
      have each : ofMembersAt (level + 1) members = ofMembers members := by
        have bound : level + 1 + Value.depthMembers members ≤ deepestLevel := by omega
        clear shallow
        induction members with
        | nil => rfl
        | cons member rest others =>
            rw [List.forall_mem_cons] at hypothesis
            rw [Value.depthMembers] at bound
            rw [ofMembersAt, ofMembers, hypothesis.1 (by omega), others hypothesis.2 (by omega)]
      rw [ofValueAt, ofValue, each, atLevel, if_neg (by omega)]

/-! ## Numbers -/

theorem skipBlanks_skipBlanks (text : List Char) : skipBlanks (skipBlanks text) = skipBlanks text :=
  List.dropWhile_idempotent _ text

/-- Blanks in front of a value do not count. -/
theorem readValue_skipBlanks
    (fuel level : Nat)
    (text : List Char) :
    readValue fuel level (skipBlanks text) = readValue fuel level text := by
  cases fuel with
  | zero => rfl
  | succ fuel => rw [readValue, readValue, skipBlanks_skipBlanks]

/-- A value with text behind it starts with something other than the end of a list. -/
theorem begins_of_readValue
    {fuel level : Nat}
    {text rest : List Char}
    {draft : Draft}
    (read : readValue (fuel + 1) level text = (draft, some rest)) :
    ∃ first tail, skipBlanks text = first :: tail ∧ first ≠ ']' := by
  rw [readValue] at read
  cases begin : skipBlanks text with
  | nil =>
      rw [begin] at read
      cases read
  | cons first tail =>
      refine ⟨first, tail, rfl, ?_⟩
      rintro rfl
      rw [begin] at read
      cases read

/-- The word ends with the letters it is made of. -/
theorem readWord_eq_number
    {value : Draft}
    {letters text : List Char}
    {number : Number}
    {after : Option (List Char)}
    (read : readWord value letters text = (.number number, after)) :
    value = .number number := by
  induction letters generalizing text with
  | nil =>
      cases read
      rfl
  | cons letter letters hypothesis =>
      cases text with
      | nil => cases read
      | cons character text =>
          rw [readWord] at read
          split at read
          next => exact hypothesis read
          next => cases read

theorem readStringDraft_ne_number
    (text : List Char)
    (number : Number)
    (after : Option (List Char)) :
    readStringDraft text ≠ (.number number, after) := by
  unfold readStringDraft
  split <;> simp [fault]

theorem atLevel_ne_number
    {level : Nat}
    {draft : Draft}
    {number : Number}
    (other : draft ≠ .number number) :
    atLevel level draft ≠ .number number := by
  unfold atLevel
  split
  · simp
  · exact other

/-- A number that is read stands behind a minus or begins with a digit. -/
theorem readValue_eq_number
    {fuel level : Nat}
    {text : List Char}
    {number : Number}
    {after : Option (List Char)}
    (read : readValue (fuel + 1) level text = (.number number, after)) :
    (∃ rest, skipBlanks text = '-' :: rest ∧ readNumberDraft true rest = (.number number, after)) ∨
      ∃ first rest, skipBlanks text = first :: rest ∧ first.isDigit ∧
        readNumberDraft false (first :: rest) = (.number number, after) := by
  rw [readValue] at read
  split at read
  next => cases read
  next => cases readWord_eq_number read
  next => cases readWord_eq_number read
  next => cases readWord_eq_number read
  next rest begin => exact .inl ⟨rest, begin, read⟩
  next => exact absurd read (readStringDraft_ne_number _ _ _)
  next => exact absurd (congrArg Prod.fst read) (atLevel_ne_number (by simp))
  next => exact absurd (congrArg Prod.fst read) (atLevel_ne_number (by simp))
  next first rest _ _ _ _ _ _ _ begin =>
    split at read
    next digit => exact .inr ⟨first, rest, begin, digit, read⟩
    next => cases read

theorem readValue_minus
    {text rest : List Char}
    (begin : skipBlanks text = '-' :: rest)
    (fuel level : Nat) :
    readValue (fuel + 1) level text = readNumberDraft true rest := by
  rw [readValue, begin]
  rfl

theorem readValue_digit
    {text rest : List Char}
    {first : Char}
    (begin : skipBlanks text = first :: rest)
    (digit : first.isDigit)
    (fuel level : Nat) :
    readValue (fuel + 1) level text = readNumberDraft false (first :: rest) := by
  rw [readValue, begin]
  split
  next same => cases same
  case h_9 same =>
    obtain ⟨rfl, rfl⟩ := List.cons.inj same
    exact if_pos digit
  all_goals
    rename_i same
    obtain ⟨rfl, -⟩ := List.cons.inj same
    exact absurd digit (by decide)

theorem skipBlanks_append
    {text tail : List Char}
    {first : Char}
    (begin : skipBlanks text = first :: tail)
    (rest : List Char) :
    skipBlanks (text ++ rest) = first :: (tail ++ rest) := by
  unfold skipBlanks at begin ⊢
  rw [List.dropWhile_append, begin]
  rfl

end Draft

/-- The text of the number is read as the number. -/
def Number.RoundTrips (number : Number) : Prop :=
  Draft.read number.text = (.number number, some [])

/-- A number that reads back at the end of a text does so in front of a separator. -/
theorem Number.RoundTrips.readValue
    {number : Number}
    (trips : number.RoundTrips)
    {rest : List Char}
    (delimited : Delimited rest)
    (fuel level : Nat) :
    Draft.readValue (fuel + 1) level (number.text.toList ++ rest) =
      (.number number, some rest) := by
  have whole : Draft.readValue (2 * number.text.toList.length + 1 + 1) 0 number.text.toList =
      (.number number, some []) := trips
  obtain ⟨tail, begin, read⟩ | ⟨first, tail, begin, digit, read⟩ := Draft.readValue_eq_number whole
  · rw [Draft.readValue_minus (Draft.skipBlanks_append begin rest)]
    exact readNumberDraft_append delimited read
  · rw [Draft.readValue_digit (Draft.skipBlanks_append begin rest) digit]
    exact readNumberDraft_append delimited read

theorem skipBlanks_toDigits (number : Nat) :
    ∃ first rest, Nat.toDigits 10 number = first :: rest ∧ first.isDigit ∧
      skipBlanks (first :: rest) = first :: rest := by
  cases digits : Nat.toDigits 10 number with
  | nil => exact absurd digits Nat.toDigits_ne_nil
  | cons first rest =>
      have member : first ∈ Nat.toDigits 10 number := digits ▸ List.mem_cons_self
      have digit : first.isDigit := Nat.isDigit_of_mem_toDigits (by decide) (by decide) member
      have visible : isBlank first = false := by
        rw [Bool.eq_false_iff]
        intro blank
        simp only [isBlank, Bool.or_eq_true, decide_eq_true_eq] at blank
        rcases blank with ((rfl | rfl) | rfl) | rfl <;> exact absurd digit (by decide)
      refine ⟨first, rest, rfl, digit, ?_⟩
      rw [skipBlanks, List.dropWhile_cons, visible]
      rfl

/-- Integers of 64 bits read back. -/
theorem roundTrips_integer
    {value : Int}
    (low : -(Nat.pow 2 63 : Int) ≤ value)
    (high : value < (Nat.pow 2 64 : Int)) :
    (Number.integer value).RoundTrips := by
  change Draft.readValue _ 0 (toString value).toList = _
  rw [Int.toString_eq_repr, Int.repr_eq_if]
  split
  next nonnegative =>
    obtain ⟨number, rfl⟩ := Int.eq_ofNat_of_zero_le nonnegative
    obtain ⟨first, rest, digits, digit, visible⟩ := skipBlanks_toDigits number
    have small : number ≤ significandLimit := by
      unfold significandLimit
      omega
    rw [Nat.toList_repr, Int.toNat_natCast, digits, Draft.readValue_digit visible digit, ← digits,
      readNumberDraft_toDigits small]
    rfl
  next negative =>
    obtain ⟨number, rfl⟩ : ∃ number : Nat, value = -(number : Int) := ⟨(-value).toNat, by omega⟩
    have least : Nat.pow 2 63 ≤ significandLimit := by decide
    have small : number ≤ significandLimit := by omega
    have integer : integerOf true number = .integer (-(number : Int)) := by
      have proper : ¬(number = 0 ∨ Nat.pow 2 63 < number) := by omega
      rw [integerOf, if_neg (by decide), if_neg proper]
    rw [String.toList_append, Nat.toList_repr, Int.neg_neg, Int.toNat_natCast]
    change Draft.readValue _ 0 ('-' :: Nat.toDigits 10 number) = _
    rw [Draft.readValue_minus rfl, readNumberDraft_toDigits small, integer]

namespace Draft

/-! ## Arrays and objects -/

section Parts

variable {fuel level : Nat} {text rest : List Char} {draft : Draft}

theorem readValue_array
    (fuel level : Nat)
    (text : List Char) :
    readValue (fuel + 1) level ('[' :: text) =
      (atLevel (level + 1) (.array (readItems fuel (level + 1) true text).1),
        (readItems fuel (level + 1) true text).2) := rfl

theorem readValue_object
    (fuel level : Nat)
    (text : List Char) :
    readValue (fuel + 1) level ('{' :: text) =
      (atLevel (level + 1) (.object (readMembers fuel (level + 1) true text).1),
        (readMembers fuel (level + 1) true text).2) := rfl

theorem readItems_end
    (fuel level : Nat)
    (isFirst : Bool)
    (rest : List Char) :
    readItems (fuel + 1) level isFirst (']' :: rest) = ([], some rest) := rfl

/-- An item in front of others. -/
theorem readItems_first
    (read : readValue fuel level text = (draft, some rest)) :
    readItems (fuel + 1) level true text =
      (draft :: (readItems fuel level false rest).1, (readItems fuel level false rest).2) := by
  cases fuel with
  | zero => cases read
  | succ fuel =>
      obtain ⟨first, tail, begin, other⟩ := begins_of_readValue read
      rw [← readValue_skipBlanks, begin] at read
      rw [readItems, begin]
      simp only [read, if_true]

/-- An item behind others. -/
theorem readItems_next
    (read : readValue fuel level text = (draft, some rest)) :
    readItems (fuel + 1) level false (',' :: text) =
      (draft :: (readItems fuel level false rest).1, (readItems fuel level false rest).2) := by
  cases fuel with
  | zero => cases read
  | succ fuel =>
      obtain ⟨first, tail, begin, other⟩ := begins_of_readValue read
      rw [← readValue_skipBlanks, begin] at read
      rw [readItems, show skipBlanks (',' :: text) = ',' :: text from rfl]
      simp only [Char.reduceEq, imp_self, Bool.false_eq_true, ↓reduceIte, begin]
      split
      next same => cases same
      next same => exact absurd (List.cons.inj same).1 other
      next => rw [read]

theorem readMembers_end
    (fuel level : Nat)
    (isFirst : Bool)
    (rest : List Char) :
    readMembers (fuel + 1) level isFirst ('}' :: rest) = ([], some rest) := rfl

/-- A member in front of others. -/
theorem readMembers_first
    (read : readValue fuel level text = (draft, some rest))
    (key : String) :
    readMembers (fuel + 1) level true ((quoted key).toList ++ ':' :: text) =
      ((.string key, draft) :: (readMembers fuel level false rest).1,
        (readMembers fuel level false rest).2) := by
  have named := readStringDraft_quoted key (':' :: text)
  have colon : skipBlanks (':' :: text) = ':' :: text := rfl
  have quote : ∀ text, skipBlanks ('"' :: text) = '"' :: text := fun _ => rfl
  rw [toList_quoted, List.append_assoc, readMembers]
  simp [quote, named, colon, read]

/-- A member behind others. -/
theorem readMembers_next
    (read : readValue fuel level text = (draft, some rest))
    (key : String) :
    readMembers (fuel + 1) level false (',' :: ((quoted key).toList ++ ':' :: text)) =
      ((.string key, draft) :: (readMembers fuel level false rest).1,
        (readMembers fuel level false rest).2) := by
  have named := readStringDraft_quoted key (':' :: text)
  have colon : skipBlanks (':' :: text) = ':' :: text := rfl
  have comma : ∀ text, skipBlanks (',' :: text) = ',' :: text := fun _ => rfl
  have quote : ∀ text, skipBlanks ('"' :: text) = '"' :: text := fun _ => rfl
  rw [toList_quoted, List.append_assoc, readMembers]
  simp [comma, quote, named, colon, read]

end Parts

end Draft

theorem delimited_nil : Delimited [] := by
  rintro _ ⟨⟩

/-- What is left of an array or an object starts with a comma or with its end. -/
theorem delimited_remaining
    {close : Char}
    (ends : close = ']' ∨ close = '}')
    (texts : List String)
    (rest : List Char) :
    Delimited ((texts.flatMap fun text => ',' :: text.toList) ++ close :: rest) := by
  cases texts with
  | nil =>
      rintro _ ⟨⟩
      rcases ends with rfl | rfl <;> decide
  | cons text others =>
      rintro _ ⟨⟩
      decide

namespace Value

/-- The text of the value is read as the value in front of a separator. -/
def ReadsBack (value : Value) : Prop :=
  ∀ (fuel level : Nat) (rest : List Char),
    value.text.toList.length ≤ fuel → Delimited rest →
      Draft.readValue fuel level (value.text.toList ++ rest) =
        (Draft.ofValueAt level value, some rest)

/-- Further items of an array up to its end. -/
theorem readItems_text
    {items : List Value}
    (each : ∀ item ∈ items, item.ReadsBack)
    {fuel : Nat}
    (enough : ((textItems items).flatMap fun text => ',' :: text.toList).length < fuel)
    (level : Nat)
    (rest : List Char) :
    Draft.readItems fuel level false
        (((textItems items).flatMap fun text => ',' :: text.toList) ++ ']' :: rest) =
      (Draft.ofItemsAt level items, some rest) := by
  induction items generalizing fuel with
  | nil =>
      obtain ⟨fuel, rfl⟩ := Nat.exists_eq_add_one.mpr enough
      exact Draft.readItems_end ..
  | cons item items hypothesis =>
      obtain ⟨fuel, rfl⟩ := Nat.exists_eq_add_one.mpr (Nat.zero_lt_of_lt enough)
      rw [List.forall_mem_cons] at each
      rw [textItems, List.flatMap_cons] at enough ⊢
      simp only [List.length_append, List.length_cons] at enough
      rw [List.append_assoc, List.cons_append,
        Draft.readItems_next
          (each.1 fuel level _ (by omega) (delimited_remaining (.inl rfl) _ _)),
        hypothesis each.2 (by omega)]
      rfl

theorem toList_member
    (key : String)
    (value : Value) :
    (quoted key ++ ":" ++ value.text).toList =
      (quoted key).toList ++ ':' :: value.text.toList := by
  rw [String.toList_append, String.toList_append, List.append_assoc]
  rfl

/-- Further members of an object up to its end. -/
theorem readMembers_text
    {members : List (String × Value)}
    (each : ∀ member ∈ members, member.2.ReadsBack)
    {fuel : Nat}
    (enough : ((textMembers members).flatMap fun text => ',' :: text.toList).length < fuel)
    (level : Nat)
    (rest : List Char) :
    Draft.readMembers fuel level false
        (((textMembers members).flatMap fun text => ',' :: text.toList) ++ '}' :: rest) =
      (Draft.ofMembersAt level members, some rest) := by
  induction members generalizing fuel with
  | nil =>
      obtain ⟨fuel, rfl⟩ := Nat.exists_eq_add_one.mpr enough
      exact Draft.readMembers_end ..
  | cons member members hypothesis =>
      obtain ⟨key, value⟩ := member
      obtain ⟨fuel, rfl⟩ := Nat.exists_eq_add_one.mpr (Nat.zero_lt_of_lt enough)
      obtain ⟨first, others⟩ : value.ReadsBack ∧ ∀ member ∈ members, member.2.ReadsBack :=
        List.forall_mem_cons.mp each
      rw [textMembers, List.flatMap_cons] at enough ⊢
      simp only [List.length_append, List.length_cons, String.toList_append] at enough
      rw [toList_member, List.append_assoc, List.cons_append, List.append_assoc, List.cons_append,
        Draft.readMembers_next
          (first fuel level _ (by omega) (delimited_remaining (.inr rfl) _ _)),
        hypothesis others (by omega)]
      rfl

theorem ReadsBack.nonempty
    {value : Value}
    (reads : value.ReadsBack) :
    0 < value.text.toList.length := by
  rw [Nat.pos_iff_ne_zero]
  intro empty
  have broken := reads 0 0 [] (Nat.le_of_eq empty) delimited_nil
  have nothing : (none : Option (List Char)) = some [] := congrArg Prod.snd broken
  cases nothing

/-- All items of an array up to its end. -/
theorem readItems_intercalate
    {items : List Value}
    (each : ∀ item ∈ items, item.ReadsBack)
    {fuel : Nat}
    (enough : (String.intercalate "," (textItems items)).toList.length < fuel)
    (level : Nat)
    (rest : List Char) :
    Draft.readItems fuel level true
        ((String.intercalate "," (textItems items)).toList ++ ']' :: rest) =
      (Draft.ofItemsAt level items, some rest) := by
  obtain ⟨fuel, rfl⟩ := Nat.exists_eq_add_one.mpr (Nat.zero_lt_of_lt enough)
  cases items with
  | nil => exact Draft.readItems_end ..
  | cons item items =>
      rw [List.forall_mem_cons] at each
      rw [textItems, toList_intercalate_cons] at enough ⊢
      rw [List.length_append] at enough
      have nonempty := each.1.nonempty
      rw [List.append_assoc,
        Draft.readItems_first
          (each.1 fuel level _ (by omega) (delimited_remaining (.inl rfl) _ _)),
        readItems_text each.2 (by omega)]
      rfl

/-- All members of an object up to its end. -/
theorem readMembers_intercalate
    {members : List (String × Value)}
    (each : ∀ member ∈ members, member.2.ReadsBack)
    {fuel : Nat}
    (enough : (String.intercalate "," (textMembers members)).toList.length < fuel)
    (level : Nat)
    (rest : List Char) :
    Draft.readMembers fuel level true
        ((String.intercalate "," (textMembers members)).toList ++ '}' :: rest) =
      (Draft.ofMembersAt level members, some rest) := by
  obtain ⟨fuel, rfl⟩ := Nat.exists_eq_add_one.mpr (Nat.zero_lt_of_lt enough)
  cases members with
  | nil => exact Draft.readMembers_end ..
  | cons member members =>
      obtain ⟨key, value⟩ := member
      obtain ⟨first, others⟩ : value.ReadsBack ∧ ∀ member ∈ members, member.2.ReadsBack :=
        List.forall_mem_cons.mp each
      rw [textMembers, toList_intercalate_cons, toList_member] at enough ⊢
      simp only [List.length_append, List.length_cons] at enough
      rw [List.append_assoc, List.append_assoc, List.cons_append,
        Draft.readMembers_first
          (first fuel level _ (by omega) (delimited_remaining (.inr rfl) _ _)),
        readMembers_text others (by omega)]
      rfl

theorem toList_array (items : List Value) :
    (array items).text.toList =
      '[' :: (String.intercalate "," (textItems items)).toList ++ [']'] := by
  rw [text, String.toList_append, String.toList_append]
  rfl

theorem toList_object (members : List (String × Value)) :
    (object members).text.toList =
      '{' :: (String.intercalate "," (textMembers members)).toList ++ ['}'] := by
  rw [text, String.toList_append, String.toList_append]
  rfl

/-- A value reads back if its numbers do. -/
theorem readsBack
    {value : Value}
    (trips : ∀ number ∈ value.numbers, number.RoundTrips) :
    value.ReadsBack := by
  -- reading takes at most one unit of fuel for each character, so that the length is enough
  induction value using inductOn with
  | null =>
      intro fuel level rest enough _
      obtain ⟨fuel, rfl⟩ := Nat.exists_eq_add_one.mpr (Nat.lt_of_lt_of_le (by decide) enough)
      rfl
  | bool truth =>
      intro fuel level rest enough _
      have nonempty : 0 < (bool truth).text.toList.length := by cases truth <;> decide
      obtain ⟨fuel, rfl⟩ := Nat.exists_eq_add_one.mpr (Nat.lt_of_lt_of_le nonempty enough)
      cases truth <;> rfl
  | number number =>
      intro fuel level rest enough delimited
      have given := trips number (.head _)
      have nonempty : 0 < number.text.toList.length := by
        rw [List.length_pos_iff]
        intro empty
        rw [Number.RoundTrips, Draft.read, empty] at given
        cases given
      obtain ⟨fuel, rfl⟩ := Nat.exists_eq_add_one.mpr (Nat.lt_of_lt_of_le nonempty enough)
      exact given.readValue delimited fuel level
  | string text =>
      intro fuel level rest enough _
      change (quoted text).toList.length ≤ fuel at enough
      change Draft.readValue fuel level ((quoted text).toList ++ rest) = _
      rw [toList_quoted] at enough ⊢
      obtain ⟨fuel, rfl⟩ := Nat.exists_eq_add_one.mpr (Nat.lt_of_lt_of_le (Nat.succ_pos _) enough)
      rw [List.append_assoc, List.cons_append]
      exact readStringDraft_quoted text rest
  | array items hypothesis =>
      intro fuel level rest enough _
      rw [numbers, numbersItems_eq_flatMap, List.forall_mem_flatMap] at trips
      have each := fun item member => hypothesis item member (trips item member)
      rw [toList_array] at enough ⊢
      simp only [List.length_append, List.length_cons, List.length_nil] at enough
      obtain ⟨fuel, rfl⟩ := Nat.exists_eq_add_one.mpr (Nat.zero_lt_of_lt enough)
      rw [List.append_assoc, List.cons_append, Draft.readValue_array, List.singleton_append,
        readItems_intercalate each (by omega)]
      rfl
  | object members hypothesis =>
      intro fuel level rest enough _
      rw [numbers, numbersMembers_eq_flatMap, List.forall_mem_flatMap] at trips
      have each := fun member inside => hypothesis member inside (trips member inside)
      rw [toList_object] at enough ⊢
      simp only [List.length_append, List.length_cons, List.length_nil] at enough
      obtain ⟨fuel, rfl⟩ := Nat.exists_eq_add_one.mpr (Nat.zero_lt_of_lt enough)
      rw [List.append_assoc, List.cons_append, Draft.readValue_object, List.singleton_append,
        readMembers_intercalate each (by omega)]
      rfl

end Value

/-- The text of a value whose numbers read back is read as the value, marked where it is too
deep. -/
theorem Draft.read_text
    {value : Value}
    (trips : ∀ number ∈ value.numbers, number.RoundTrips) :
    Draft.read value.text = (Draft.ofValueAt 0 value, some []) := by
  have whole := Value.readsBack trips (2 * value.text.toList.length + 2) 0 [] (by omega)
    delimited_nil
  rwa [List.append_nil] at whole

end Json
end SchemaCompiler
