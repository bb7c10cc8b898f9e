/-!
# Names not seen yet

Searches over finitely many names end because every step sees a new name.
`unseen` counts the names that are left.
-/

namespace SchemaCompiler
namespace Order

variable {α : Type} [DecidableEq α]

/-- Number of names that were not seen. -/
def unseen (names seen : List α) : Nat :=
  names.countP fun name => !seen.contains name

/-- Seeing more names leaves no more of them. -/
theorem unseen_cons_le
    (names seen : List α)
    (name : α) :
    unseen names (name :: seen) ≤ unseen names seen := by
  refine List.countP_mono_left ?_
  intro other _
  simp

/-- Seeing a new name leaves fewer of them. -/
theorem unseen_cons_lt
    {names seen : List α}
    {name : α}
    (member : name ∈ names)
    (fresh : name ∉ seen) :
    unseen names (name :: seen) < unseen names seen := by
  induction names with
  | nil => cases member
  | cons first rest hypothesis =>
      have step (names : List α) :
          unseen (first :: rest) names =
            unseen rest names + if first ∈ names then 0 else 1 := by
        simp only [unseen, List.countP_cons, List.contains_eq_mem, Bool.not_eq_true',
          decide_eq_false_iff_not]
        split <;> simp_all
      rw [step, step]
      rcases List.mem_cons.mp member with rfl | later
      · have bound := unseen_cons_le rest seen name
        simp only [List.mem_cons, true_or, fresh, if_true, if_false]
        omega
      · have smaller := hypothesis later
        have flag : (if first ∈ name :: seen then 0 else 1) ≤ if first ∈ seen then 0 else 1 := by
          by_cases seenFirst : first ∈ seen
          · simp [seenFirst]
          · split <;> simp
        omega

end Order
end SchemaCompiler
