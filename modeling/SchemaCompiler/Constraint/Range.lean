/-!
# Ranges

A `Range` has at least one end.
-/

namespace SchemaCompiler
namespace Constraint

/-- A range that is closed at one end or at both. -/
inductive Range (α : Type) where
  | between (min max : α)
  | atLeast (min : α)
  | atMost (max : α)
deriving Repr, DecidableEq

namespace Range

/-- The range of the ends that are given, if any. -/
def ofEnds : Option α → Option α → Option (Range α)
  | some min, some max => some (.between min max)
  | some min, none => some (.atLeast min)
  | none, some max => some (.atMost max)
  | none, none => none

/-- The range with other ends. -/
def map (change : α → β) : Range α → Range β
  | .between min max => .between (change min) (change max)
  | .atLeast min => .atLeast (change min)
  | .atMost max => .atMost (change max)

/-- The lower end. -/
def min? : Range α → Option α
  | .between min _ => some min
  | .atLeast min => some min
  | .atMost _ => none

/-- The upper end. -/
def max? : Range α → Option α
  | .between _ max => some max
  | .atLeast _ => none
  | .atMost max => some max

/-- The range as a sentence. -/
def sentence (label : String) (shown : α → String) : Range α → String
  | .between min max => s!"{label}: `{shown min}..={shown max}`."
  | .atLeast min => s!"{label}: at least `{shown min}`."
  | .atMost max => s!"{label}: at most `{shown max}`."

end Range
end Constraint
end SchemaCompiler
