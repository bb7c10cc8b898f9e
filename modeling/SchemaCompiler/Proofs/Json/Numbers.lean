import Mathlib.Data.List.TakeWhile
import SchemaCompiler.Json.Reader
import SchemaCompiler.Json.Writer
import SchemaCompiler.Proofs.Outcome

/-!
# Numbers in front of other text

A number that is read at the end of a text is read in the same way in front of a separator. Integers
of 64 bits read back as they were written.
-/

namespace SchemaCompiler
namespace Json

open SchemaCompiler.Outcome (bind_eq_ok_iff)

/-- The text ends here or goes on with something that is no part of a number. -/
def Delimited (text : List Char) : Prop :=
  ∀ first ∈ text.head?, first.isDigit = false ∧ first ≠ '.' ∧ isExponentMark first = false

/-- The reader gives the same value in front of a separator, which it leaves. -/
def Stable (reader : List Char → Except Fault (α × List Char)) (text : List Char) : Prop :=
  ∀ {left : List Char} {value : α}, reader text = .ok (value, left) →
    ∀ {rest : List Char}, Delimited rest → reader (text ++ rest) = .ok (value, left ++ rest)

theorem Delimited.dropWhile_isDigit
    {rest : List Char}
    (delimited : Delimited rest)
    (text : List Char) :
    (text ++ rest).dropWhile Char.isDigit = text.dropWhile Char.isDigit ++ rest := by
  rw [List.dropWhile_append]
  split
  next empty =>
    rw [List.isEmpty_iff.mp empty]
    cases rest with
    | nil => rfl
    | cons first rest => rw [List.dropWhile_cons, (delimited first rfl).1]; rfl
  next => rfl

/-- No digit comes first, also when a separator follows. -/
theorem Delimited.head?_append
    {text rest : List Char}
    (delimited : Delimited rest)
    (noDigit : ¬text.head?.any Char.isDigit = true) :
    ¬(text ++ rest).head?.any Char.isDigit = true := by
  cases text with
  | nil =>
      cases rest with
      | nil => exact noDigit
      | cons first rest => simp [(delimited first rfl).1]
  | cons first text => exact noDigit

/-- A value that leaves its text leaves what follows as well. -/
theorem leave_append
    {size : Except Fault α}
    {value : α}
    {text left : List Char}
    (read : (size >>= fun value => pure (value, text)) = .ok (value, left))
    (rest : List Char) :
    (size >>= fun value => pure (value, text ++ rest)) = .ok (value, left ++ rest) := by
  obtain ⟨value, given, same⟩ := bind_eq_ok_iff.mp read
  cases same
  rw [given]
  rfl

theorem stable_readExponentDigits
    (negative : Bool)
    (significand : Nat)
    (start : Int)
    (negativeExponent : Bool)
    (exponent : Nat)
    (text : List Char) :
    Stable (readExponentDigits negative significand start negativeExponent exponent) text := by
  intro left value read rest delimited
  induction text generalizing exponent with
  | nil =>
      cases rest with
      | nil => rwa [List.append_nil, List.append_nil]
      | cons first rest =>
          rw [List.nil_append, readExponentDigits, if_neg (by simp [(delimited first rfl).1])]
          exact leave_append read (first :: rest)
  | cons first text hypothesis =>
      rw [readExponentDigits] at read
      rw [List.cons_append, readExponentDigits]
      split at read
      next digit =>
        rw [if_pos digit]
        split at read
        next large =>
          rw [if_pos large]
          split at read
          next => cases read
          next small =>
            cases read
            rw [if_neg small, delimited.dropWhile_isDigit]
        next small =>
          rw [if_neg small]
          exact hypothesis _ read
      next other =>
        rw [if_neg other]
        exact leave_append read rest

/-- The sign of an exponent, which is true for minus, and the text behind it. -/
def exponentSign : List Char → Bool × List Char
  | '+' :: rest => (false, rest)
  | '-' :: rest => (true, rest)
  | other => (false, other)

theorem exponentSign_append
    (first : Char)
    (text rest : List Char) :
    exponentSign (first :: text ++ rest) =
      ((exponentSign (first :: text)).1, (exponentSign (first :: text)).2 ++ rest) := by
  rw [List.cons_append]
  by_cases plus : first = '+'
  · subst plus
    rfl
  by_cases minus : first = '-'
  · subst minus
    rfl
  · simp [exponentSign, plus, minus]

/-- The part of an exponent behind its sign. -/
def readUnsignedExponent
    (negative : Bool)
    (significand : Nat)
    (start : Int)
    (negativeExponent : Bool) : List Char → Except Fault (Number × List Char)
  | [] => .error .endInValue
  | first :: rest =>
      if first.isDigit then
        readExponentDigits negative significand start negativeExponent (digitValue first) rest
      else .error .invalidNumber

theorem readExponent_eq
    (negative : Bool)
    (significand : Nat)
    (start : Int)
    (text : List Char) :
    readExponent negative significand start text =
      readUnsignedExponent negative significand start (exponentSign text).1
        (exponentSign text).2 := by
  rfl

theorem stable_readExponent
    (negative : Bool)
    (significand : Nat)
    (start : Int)
    (text : List Char) :
    Stable (readExponent negative significand start) text := by
  intro left value read rest delimited
  cases text with
  | nil => cases read
  | cons first text =>
      rw [readExponent_eq] at read ⊢
      rw [exponentSign_append]
      cases digits : (exponentSign (first :: text)).2 with
      | nil =>
          rw [digits] at read
          cases read
      | cons digit digits' =>
          rw [digits, readUnsignedExponent] at read
          rw [List.cons_append, readUnsignedExponent]
          split at read
          next isDigit =>
            rw [if_pos isDigit]
            exact stable_readExponentDigits _ _ _ _ _ _ read delimited
          next => cases read

theorem stable_finishFraction
    (negative : Bool)
    (significand : Nat)
    (exponent : Int)
    (text : List Char) :
    Stable (finishFraction negative significand exponent) text := by
  intro left value read rest delimited
  cases text with
  | nil =>
      cases rest with
      | nil => rwa [List.append_nil, List.append_nil]
      | cons first rest =>
          rw [List.nil_append, finishFraction, if_neg (by simp [(delimited first rfl).2.2])]
          exact leave_append read (first :: rest)
  | cons first text =>
      rw [finishFraction] at read
      rw [List.cons_append, finishFraction]
      split at read
      next mark =>
        rw [if_pos mark]
        exact stable_readExponent _ _ _ _ read delimited
      next other =>
        rw [if_neg other]
        exact leave_append read rest

theorem stable_readFraction
    (negative : Bool)
    (significand : Nat)
    (start : Int)
    (places : Nat)
    (text : List Char) :
    Stable (readFraction negative significand start places) text := by
  intro left value read rest delimited
  induction text generalizing significand places with
  | nil =>
      rw [readFraction] at read
      split at read
      next => cases read
      next some_places =>
        have finished := stable_finishFraction _ _ _ _ read delimited
        cases rest with
        | nil => rwa [List.append_nil, readFraction, if_neg some_places]
        | cons first rest =>
            rwa [List.nil_append, readFraction, if_neg (by simp [(delimited first rfl).1]),
              if_neg some_places]
  | cons first text hypothesis =>
      rw [readFraction] at read
      rw [List.cons_append, readFraction]
      split at read
      next digit =>
        rw [if_pos digit]
        simp only at read ⊢
        split at read
        next large =>
          rw [if_pos large, delimited.dropWhile_isDigit]
          exact stable_finishFraction _ _ _ _ read delimited
        next small =>
          rw [if_neg small]
          exact hypothesis _ _ read
      next other =>
        rw [if_neg other]
        split at read
        next => cases read
        next some_places =>
          rw [if_neg some_places]
          exact stable_finishFraction _ _ _ _ read delimited

theorem stable_readLongInteger
    (negative : Bool)
    (significand dropped : Nat)
    (text : List Char) :
    Stable (readLongInteger negative significand dropped) text := by
  intro left value read rest delimited
  induction text generalizing dropped with
  | nil =>
      cases rest with
      | nil => rwa [List.append_nil, List.append_nil]
      | cons first rest =>
          obtain ⟨noDigit, noPoint, noMark⟩ := delimited first rfl
          rw [List.nil_append, readLongInteger, if_neg (by simp [noDigit]), if_neg noPoint,
            if_neg (by simp [noMark])]
          exact leave_append read (first :: rest)
  | cons first text hypothesis =>
      rw [readLongInteger] at read
      rw [List.cons_append, readLongInteger]
      split at read
      next digit =>
        rw [if_pos digit]
        exact hypothesis _ read
      next noDigit =>
        rw [if_neg noDigit]
        split at read
        next point =>
          rw [if_pos point]
          exact stable_readFraction _ _ _ _ _ read delimited
        next noPoint =>
          rw [if_neg noPoint]
          split at read
          next mark =>
            rw [if_pos mark]
            exact stable_readExponent _ _ _ _ read delimited
          next noMark =>
            rw [if_neg noMark]
            exact leave_append read rest

theorem stable_readInteger
    (negative : Bool)
    (significand : Nat)
    (text : List Char) :
    Stable (readInteger negative significand) text := by
  intro left value read rest delimited
  induction text generalizing significand with
  | nil =>
      cases read
      cases rest with
      | nil => rfl
      | cons first rest =>
          obtain ⟨noDigit, noPoint, noMark⟩ := delimited first rfl
          rw [List.nil_append, readInteger, if_neg (by simp [noDigit]), if_neg noPoint,
            if_neg (by simp [noMark])]
  | cons first text hypothesis =>
      rw [readInteger] at read
      rw [List.cons_append, readInteger]
      split at read
      next digit =>
        rw [if_pos digit]
        simp only at read ⊢
        split at read
        next large =>
          rw [if_pos large]
          exact stable_readLongInteger _ _ _ _ read delimited
        next small =>
          rw [if_neg small]
          exact hypothesis _ read
      next noDigit =>
        rw [if_neg noDigit]
        split at read
        next point =>
          rw [if_pos point]
          exact stable_readFraction _ _ _ _ _ read delimited
        next noPoint =>
          rw [if_neg noPoint]
          split at read
          next mark =>
            rw [if_pos mark]
            exact stable_readExponent _ _ _ _ read delimited
          next noMark =>
            rw [if_neg noMark]
            cases read
            rfl

theorem readNumber_zero
    (negative : Bool)
    (text : List Char) :
    readNumber negative ('0' :: text) =
      if text.head?.any Char.isDigit then .error .invalidNumber
      else readInteger negative 0 text := by
  cases text <;> rfl

theorem readNumber_cons
    {first : Char}
    (nonzero : first ≠ '0')
    (negative : Bool)
    (text : List Char) :
    readNumber negative (first :: text) =
      if first.isDigit then readInteger negative (digitValue first) text
      else .error .invalidNumber := by
  rw [readNumber]
  exact fun zero => absurd zero nonzero

theorem stable_readNumber
    (negative : Bool)
    (text : List Char) :
    Stable (readNumber negative) text := by
  intro left value read rest delimited
  cases text with
  | nil => cases read
  | cons first text =>
      by_cases zero : first = '0'
      · subst zero
        rw [readNumber_zero] at read
        rw [List.cons_append, readNumber_zero]
        split at read
        next => cases read
        next noDigit =>
          rw [if_neg (delimited.head?_append noDigit)]
          exact stable_readInteger _ _ _ read delimited
      · rw [readNumber_cons zero] at read
        rw [List.cons_append, readNumber_cons zero]
        split at read
        next digit =>
          rw [if_pos digit]
          exact stable_readInteger _ _ _ read delimited
        next => cases read

/-- An exponent that is not needed may be read behind a sign of its own. -/
theorem skipExponent_eq (text : List Char) :
    skipExponent text = skipExponent ('+' :: (exponentSign text).2) := by
  conv =>
    lhs
    unfold skipExponent
  split
  next => rfl
  next => rfl
  next noPlus noMinus =>
    rw [exponentSign.eq_3 _ noPlus noMinus]
    rfl

theorem skipExponent_digit
    (first : Char)
    (rest : List Char) :
    skipExponent ('+' :: first :: rest) =
      if first.isDigit then .ok (rest.dropWhile Char.isDigit) else .error .invalidNumber := rfl

/-- An exponent that is not needed ends where it did when a separator follows. -/
theorem skipExponent_append
    {text left rest : List Char}
    (delimited : Delimited rest)
    (skipped : skipExponent text = .ok left) :
    skipExponent (text ++ rest) = .ok (left ++ rest) := by
  cases text with
  | nil => cases skipped
  | cons first text =>
      rw [skipExponent_eq] at skipped ⊢
      rw [exponentSign_append]
      cases digits : (exponentSign (first :: text)).2 with
      | nil =>
          rw [digits] at skipped
          cases skipped
      | cons digit digits' =>
          rw [digits, skipExponent_digit] at skipped
          rw [List.cons_append, skipExponent_digit]
          split at skipped
          next isDigit =>
            cases skipped
            rw [if_pos isDigit, delimited.dropWhile_isDigit]
          next => cases skipped

/-- What may follow the digits of a number that is not needed. -/
def skipMark : List Char → Except Fault (List Char)
  | mark :: after => if isExponentMark mark then skipExponent after else .ok (mark :: after)
  | [] => .ok []

theorem skipMark_append
    {text left rest : List Char}
    (delimited : Delimited rest)
    (skipped : skipMark text = .ok left) :
    skipMark (text ++ rest) = .ok (left ++ rest) := by
  cases text with
  | nil =>
      cases skipped
      cases rest with
      | nil => rfl
      | cons first rest =>
          rw [List.nil_append, skipMark, if_neg (by simp [(delimited first rfl).2.2])]
  | cons mark text =>
      rw [skipMark] at skipped
      rw [List.cons_append, skipMark]
      split at skipped
      next isMark =>
        rw [if_pos isMark]
        exact skipExponent_append delimited skipped
      next noMark =>
        cases skipped
        rw [if_neg noMark]
        rfl

theorem skipFraction_point (text : List Char) :
    skipFraction ('.' :: text) =
      if text.head?.any Char.isDigit then skipMark (text.dropWhile Char.isDigit)
      else .error .invalidNumber := by
  cases text with
  | nil => rfl
  | cons first text =>
      rw [skipFraction]
      rfl

theorem skipFraction_of_ne
    {text : List Char}
    (noPoint : text.head? ≠ some '.') :
    skipFraction text = skipMark text := by
  cases text with
  | nil => rfl
  | cons first text =>
      rw [skipFraction]
      · rfl
      · rintro rfl
        exact absurd rfl noPoint

theorem skipFraction_append
    {text left rest : List Char}
    (delimited : Delimited rest)
    (skipped : skipFraction text = .ok left) :
    skipFraction (text ++ rest) = .ok (left ++ rest) := by
  by_cases point : text.head? = some '.'
  · obtain ⟨text, rfl⟩ := List.head?_eq_some_iff.mp point
    rw [skipFraction_point] at skipped
    rw [List.cons_append, skipFraction_point]
    split at skipped
    next digit =>
      have digit' : (text ++ rest).head?.any Char.isDigit = true := by
        cases text with
        | nil => cases digit
        | cons => exact digit
      rw [if_pos digit', delimited.dropWhile_isDigit]
      exact skipMark_append delimited skipped
    next => cases skipped
  · have point' : (text ++ rest).head? ≠ some '.' := by
      cases text with
      | nil => exact fun there => (delimited '.' there).2.1 rfl
      | cons => exact point
    rw [skipFraction_of_ne point] at skipped
    rw [skipFraction_of_ne point']
    exact skipMark_append delimited skipped

theorem skipNumber_zero (text : List Char) :
    skipNumber ('0' :: text) =
      if text.head?.any Char.isDigit then .error .invalidNumber else skipFraction text := by
  cases text <;> rfl

theorem skipNumber_cons
    {first : Char}
    (nonzero : first ≠ '0')
    (text : List Char) :
    skipNumber (first :: text) =
      if first.isDigit then skipFraction (text.dropWhile Char.isDigit)
      else .error .invalidNumber := by
  rw [skipNumber]
  exact fun zero => absurd zero nonzero

/-- A number that is not needed ends where it did when a separator follows. -/
theorem skipNumber_append
    {text left rest : List Char}
    (delimited : Delimited rest)
    (skipped : skipNumber text = .ok left) :
    skipNumber (text ++ rest) = .ok (left ++ rest) := by
  cases text with
  | nil => cases skipped
  | cons first text =>
      by_cases zero : first = '0'
      · subst zero
        rw [skipNumber_zero] at skipped
        rw [List.cons_append, skipNumber_zero]
        split at skipped
        next => cases skipped
        next noDigit =>
          rw [if_neg (delimited.head?_append noDigit)]
          exact skipFraction_append delimited skipped
      · rw [skipNumber_cons zero] at skipped
        rw [List.cons_append, skipNumber_cons zero]
        split at skipped
        next digit =>
          rw [if_pos digit, delimited.dropWhile_isDigit]
          exact skipFraction_append delimited skipped
        next => cases skipped

/-- A number at the end of a text is read in the same way in front of a separator. -/
theorem readNumberDraft_append
    {negative : Bool}
    {text rest : List Char}
    {number : Number}
    (delimited : Delimited rest)
    (read : Draft.readNumberDraft negative text = (.number number, some [])) :
    Draft.readNumberDraft negative (text ++ rest) = (.number number, some rest) := by
  unfold Draft.readNumberDraft at read
  split at read
  next skipped given =>
    cases read
    rw [Draft.readNumberDraft, skipNumber_append delimited skipped,
      stable_readNumber negative text given delimited]
    rfl
  all_goals cases read

/-- Digits of an integer that fits are read one after another. -/
theorem readInteger_digits
    {digits : List Char}
    (allDigits : ∀ digit ∈ digits, digit.isDigit)
    {significand : Nat}
    (small : Nat.ofDigitChars 10 digits significand ≤ significandLimit)
    (negative : Bool) :
    readInteger negative significand digits =
      .ok (integerOf negative (Nat.ofDigitChars 10 digits significand), []) := by
  induction digits generalizing significand with
  | nil => rfl
  | cons digit digits hypothesis =>
      rw [List.forall_mem_cons] at allDigits
      have next : significand * 10 + digitValue digit =
          10 * significand + (digit.toNat - '0'.toNat) := by
        rw [Nat.mul_comm]
        rfl
      rw [Nat.ofDigitChars_cons, ← next] at small ⊢
      have fits : ¬significandLimit < significand * 10 + digitValue digit := by
        rw [Nat.ofDigitChars_eq_ofDigitChars_zero] at small
        have power : 0 < 10 ^ digits.length := Nat.pow_pos (by decide)
        have := Nat.le_mul_of_pos_left (significand * 10 + digitValue digit) power
        omega
      rw [readInteger, if_pos allDigits.1]
      simp only [if_neg fits]
      exact hypothesis allDigits.2 small

/-- Only the numeral of zero starts with zero. -/
theorem head_toDigits_ne_zero
    {number : Nat}
    (positive : number ≠ 0)
    {first : Char}
    {rest : List Char}
    (digits : Nat.toDigits 10 number = first :: rest) :
    first ≠ '0' := by
  induction number using Nat.strongRecOn generalizing rest with
  | ind number hypothesis =>
      by_cases one : number < 10
      · rw [Nat.toDigits_of_lt_base one] at digits
        obtain ⟨rfl, -⟩ := List.cons.inj digits
        simpa using positive
      · rw [Nat.toDigits_of_base_le (by decide) (Nat.le_of_not_lt one)] at digits
        cases leading : Nat.toDigits 10 (number / 10) with
        | nil => exact absurd leading Nat.toDigits_ne_nil
        | cons digit others =>
            rw [leading] at digits
            obtain ⟨rfl, -⟩ := List.cons.inj digits
            exact hypothesis (number / 10) (by omega) (by omega) leading

/-- The numeral of an integer of 64 bits is read as the integer. -/
theorem readNumberDraft_toDigits
    {number : Nat}
    (small : number ≤ significandLimit)
    (negative : Bool) :
    Draft.readNumberDraft negative (Nat.toDigits 10 number) =
      (.number (integerOf negative number), some []) := by
  by_cases zero : number = 0
  · subst zero
    cases negative <;> rfl
  have allDigits : ∀ digit ∈ Nat.toDigits 10 number, digit.isDigit := fun _ =>
    Nat.isDigit_of_mem_toDigits (by decide) (by decide)
  have value : Nat.ofDigitChars 10 (Nat.toDigits 10 number) 0 = number :=
    Nat.ofDigitChars_ten_toDigits
  cases digits : Nat.toDigits 10 number with
  | nil => exact absurd digits Nat.toDigits_ne_nil
  | cons first rest =>
      have nonzero := head_toDigits_ne_zero zero digits
      rw [digits] at allDigits value
      rw [List.forall_mem_cons] at allDigits
      have start : 10 * 0 + (first.toNat - '0'.toNat) = digitValue first := Nat.zero_add _
      rw [Nat.ofDigitChars_cons, start] at value
      have skipped : skipNumber (first :: rest) = .ok [] := by
        rw [skipNumber_cons nonzero, if_pos allDigits.1, List.dropWhile_eq_nil_iff.mpr allDigits.2]
        rfl
      have given : readNumber negative (first :: rest) = .ok (integerOf negative number, []) := by
        rw [readNumber_cons nonzero, if_pos allDigits.1,
          readInteger_digits allDigits.2 (value ▸ small), value]
      rw [Draft.readNumberDraft, skipped, given]

end Json
end SchemaCompiler
