import SchemaCompiler.Key.StorageKey
import SchemaCompiler.Proofs.Outcome
import SchemaCompiler.Proofs.Registry.References

/-!
# Keys and their policies

A secret has a storage key exactly if its policy can be followed at its position. Names come
from the nearest place upward that has one, an ancestor is found one parent after the other,
and a sibling is a child of the object right around the secret. `derive_by_policy` says for
every policy when there is a key, which one, and what stands in its way otherwise.
-/

namespace SchemaCompiler
namespace Schema

/-- The error says why a reference has no canonical node. -/
def SchemaError.isUnresolved : SchemaError → Bool
  | .unknownReference _ _
  | .kindMismatch _ _ _ _
  | .chainedReference _ _ _ => true
  | _ => false

theorem Registry.isUnresolved_of_resolveAt
    {registry : Registry}
    {path : FieldPath}
    {node : Node}
    {cause : SchemaError}
    (failed : registry.resolveAt path node = .error cause) :
    cause.isUnresolved = true := by
  unfold resolveAt at failed
  split at failed
  · cases failed
  unfold target at failed
  split at failed
  · cases failed
    rfl
  split at failed
  · cases failed
    rfl
  split at failed
  · cases failed
    rfl
  · cases failed

/-- A child that is found is one of the names. -/
theorem Object.mem_names_of_get?
    {object : Object}
    {name : String}
    {child : Node}
    (found : object.get? name = some child) :
    name ∈ object.names := by
  obtain rfl : child.name = name := Node.name_of_findChild? found
  exact List.mem_map_of_mem (Node.mem_of_findChild? found)

end Schema

namespace Key

open SchemaCompiler.Outcome
open SchemaCompiler.Schema

/-! ## Around a position -/

namespace Position

/-- The other position is `depth` levels up, one parent after the other. -/
inductive HasAncestor : Position → Nat → Position → Prop
  | here (position : Position) : HasAncestor position 0 position
  | up {position parent ancestor : Position} {depth : Nat} :
      position.parent? = some parent →
      HasAncestor parent depth ancestor →
      HasAncestor position (depth + 1) ancestor

/-- The name is that of the nearest place upward that has one, or that of the start of the
walk if no place has one. -/
def IsNamed (position : Position) (name : String) : Prop :=
  ∃ nameless named rest,
    position.place :: position.enclosing = nameless ++ named :: rest ∧
      (∀ place ∈ nameless, place.node.name = "") ∧
      (named.node.name ≠ "" ∨ rest = []) ∧
      name = named.node.name

/-- The position right around a position resolves to an object. -/
def IsInside (position parent : Position) (object : Object) : Prop :=
  position.parent? = some parent ∧ parent.canonical.object? = some object

/-- The node at a position is a string that is stored by key under a policy. -/
def Follows (position : Position) (policy : HashProfile) : Prop :=
  policy ≠ .plaintext ∧
    ∃ facets, position.canonical.string? = some facets ∧ facets.hashing = policy

variable {position : Position}

/-- Levels are counted from the parent. -/
theorem ancestor?_succ
    (position : Position)
    (depth : Nat) :
    position.ancestor? (depth + 1) =
      position.parent?.bind fun parent => parent.ancestor? depth := by
  obtain ⟨place, enclosing⟩ := position
  cases enclosing with
  | nil => simp [ancestor?, parent?]
  | cons parent rest =>
      cases depth with
      | zero => rfl
      | succ depth =>
          simp only [ancestor?, parent?, Nat.add_sub_cancel, List.drop_succ_cons, Option.bind_some]
          cases rest.drop depth <;> rfl

theorem ancestor?_eq_some_iff
    {position ancestor : Position}
    {depth : Nat} :
    position.ancestor? depth = some ancestor ↔ position.HasAncestor depth ancestor := by
  induction depth generalizing position with
  | zero =>
      constructor
      · rintro ⟨⟩
        exact .here _
      · rintro ⟨⟩
        rfl
  | succ depth hypothesis =>
      rw [ancestor?_succ, Option.bind_eq_some_iff]
      constructor
      · rintro ⟨parent, around, found⟩
        exact .up around (hypothesis.mp found)
      · rintro (_ | ⟨around, above⟩)
        exact ⟨_, around, hypothesis.mpr above⟩

/-- There are as many ancestors as places around a position. -/
theorem ancestor?_eq_none_iff
    {position : Position}
    {depth : Nat} :
    position.ancestor? depth = none ↔ position.enclosing.length < depth := by
  induction depth generalizing position with
  | zero => simp [ancestor?]
  | succ depth hypothesis =>
      rw [ancestor?_succ]
      obtain ⟨place, enclosing⟩ := position
      cases enclosing with
      | nil => simp [parent?]
      | cons parent rest => simp [parent?, hypothesis]

/-- The start of a walk has its own name, which may be empty. -/
theorem isNamed_start_iff
    {place : Place}
    {name : String} :
    IsNamed ⟨place, []⟩ name ↔ name = place.node.name := by
  unfold IsNamed
  dsimp only
  constructor
  · rintro ⟨nameless, named, rest, split, -, -, rfl⟩
    cases nameless with
    | nil => rw [(List.cons.inj split).1]
    | cons first more => exact absurd (List.cons.inj split).2.symm (by simp)
  · rintro rfl
    exact ⟨[], place, [], rfl, List.forall_mem_nil _, .inr rfl, rfl⟩

/-- Inside another place, a place without a name has the name of that place. -/
theorem isNamed_cons_iff
    {place parent : Place}
    {rest : List Place}
    {name : String} :
    IsNamed ⟨place, parent :: rest⟩ name ↔
      if place.node.name = "" then IsNamed ⟨parent, rest⟩ name else name = place.node.name := by
  unfold IsNamed
  dsimp only
  constructor
  · rintro ⟨nameless, named, others, split, empty, own, rfl⟩
    cases nameless with
    | nil =>
        obtain ⟨rfl, rfl⟩ := List.cons.inj split
        rw [if_neg (own.resolve_right (List.cons_ne_nil _ _))]
    | cons first more =>
        obtain ⟨rfl, around⟩ := List.cons.inj split
        obtain ⟨emptyFirst, emptyMore⟩ := List.forall_mem_cons.mp empty
        rw [if_pos emptyFirst]
        exact ⟨more, named, others, around, emptyMore, own, rfl⟩
  · split
    next emptyFirst =>
      rintro ⟨nameless, named, others, split, empty, own, rfl⟩
      exact ⟨place :: nameless, named, others, congrArg (place :: ·) split,
        List.forall_mem_cons.mpr ⟨emptyFirst, empty⟩, own, rfl⟩
    next filled =>
      rintro rfl
      exact ⟨[], place, parent :: rest, rfl, List.forall_mem_nil _, .inl filled, rfl⟩

/-- A position has one name, its internal name. -/
theorem isNamed_iff
    {position : Position}
    {name : String} :
    position.IsNamed name ↔ name = position.internalName := by
  obtain ⟨place, enclosing⟩ := position
  rw [internalName]
  induction enclosing generalizing place with
  | nil => rw [isNamed_start_iff, nameFrom]
  | cons parent rest hypothesis =>
      rw [isNamed_cons_iff, nameFrom, hypothesis]
      split <;> rfl

theorem isNamed_internalName (position : Position) : position.IsNamed position.internalName :=
  isNamed_iff.mpr rfl

/-- A position follows at most one policy. -/
theorem follows_iff
    {position : Position}
    {policy : HashProfile} :
    position.Follows policy ↔
      policy ≠ .plaintext ∧
        position.canonical.string?.map StringFacets.hashing = some policy := by
  rw [Follows, Option.map_eq_some_iff]

end Position

/-! ## The key of an ancestor -/

/-- The key of a field that carries the value of the sibling `name`, which resolves to
`canonical`. -/
def valueKey (form : Form) (name field : String) (sibling canonical : Node) : StorageKey :=
  .withSibling {
    leading := join ["with_param_value", form.text, name]
    sibling := name
    isOptional := isHeldOptional sibling canonical
    field := field }

section Rules

variable
  {registry : Registry}
  {position : Position}
  {form : Form}

/-- What comes of a key with the name of the ancestor `depth` levels up, for a field of the
given name. -/
structure AncestorRule
    (position : Position)
    (form : Form)
    (depth : UInt64)
    (field : String)
    (outcome : Except SchemaError StorageKey) : Prop where
  /-- No level is counted. -/
  invalid : outcome = .error (.invalidAncestorDepth position.path) ↔ depth = 0
  /-- There are fewer levels. -/
  exceeded :
    outcome = .error (.ancestorDepthExceeded position.path depth) ↔
      position.enclosing.length < depth.toNat
  /-- Otherwise the ancestor gives its name. -/
  named :
    depth ≠ 0 → depth.toNat ≤ position.enclosing.length →
      ∃ ancestor name, position.HasAncestor depth.toNat ancestor ∧ ancestor.IsNamed name ∧
        outcome = .ok (.fixed (join ["with_parent_name", form.text, name, field]))

/-- What comes of a key with the value of the sibling `name` for a field of the given name that
is inside an object. -/
structure ObjectRule
    (registry : Registry)
    (position parent : Position)
    (object : Object)
    (form : Form)
    (name field : String)
    (outcome : Except SchemaError StorageKey) : Prop where
  /-- The object has no such child. -/
  missing : outcome = .error (.siblingNotFound position.path name) ↔ name ∉ object.names
  /-- The child is no string. -/
  mistaken {sibling : Node} :
    object.get? name = some sibling →
      (outcome = .error (.siblingNotString position.path name sibling.kind) ↔
        sibling.kind ≠ .string)
  /-- The child does not resolve, for the reason that is reported. -/
  unresolved {sibling : Node} {cause : SchemaError} :
    object.get? name = some sibling →
      sibling.kind = .string →
      (outcome = .error cause ↔
        registry.resolveAt (parent.path.child name) sibling = .error cause)
  /-- Otherwise the sibling gives its value at run time. -/
  valued {sibling canonical : Node} :
    object.get? name = some sibling →
      sibling.kind = .string →
      registry.resolveAt (parent.path.child name) sibling = .ok canonical →
      outcome = .ok (valueKey form name field sibling canonical)

/-- What comes of a key with the value of the sibling `name`, for a field of the given name. -/
structure SiblingRule
    (registry : Registry)
    (position : Position)
    (form : Form)
    (name field : String)
    (outcome : Except SchemaError StorageKey) : Prop where
  /-- Nothing is around the field, or no object. -/
  outside :
    outcome = .error (.parentNotObject position.path name) ↔
      ∀ parent object, ¬position.IsInside parent object
  inside {parent : Position} {object : Object} :
    position.IsInside parent object →
      ObjectRule registry position parent object form name field outcome

theorem ancestorRule
    (position : Position)
    (form : Form)
    (depth : UInt64) :
    AncestorRule position form depth position.internalName (ancestorKey position form depth) := by
  unfold ancestorKey
  by_cases zero : depth = 0
  · subst zero
    exact ⟨by simp, by simp, fun absurd => (absurd rfl).elim⟩
  · rw [if_neg zero]
    cases found : position.ancestor? depth.toNat with
    | none =>
        have short := Position.ancestor?_eq_none_iff.mp found
        exact ⟨by simp [zero], by simp [short], fun _ long => by omega⟩
    | some ancestor =>
        have long : ¬position.enclosing.length < depth.toNat := by
          rw [← Position.ancestor?_eq_none_iff, found]
          exact Option.some_ne_none ancestor
        refine ⟨by simp [zero], by simp [long], fun _ _ => ?_⟩
        exact ⟨ancestor, ancestor.internalName, Position.ancestor?_eq_some_iff.mp found,
          ancestor.isNamed_internalName, rfl⟩

theorem siblingKey_of_outside
    (form : Form)
    (name : String)
    (outside : ∀ parent object, ¬position.IsInside parent object) :
    siblingKey registry position form name = .error (.parentNotObject position.path name) := by
  unfold siblingKey
  split
  · rfl
  next parent around =>
    split
    · rfl
    next object isObject => exact (outside parent object ⟨around, isObject⟩).elim

section Inside

variable
  {parent : Position}
  {object : Object}
  {sibling : Node}
  {name : String}

theorem siblingKey_of_missing
    (form : Form)
    (inside : position.IsInside parent object)
    (missing : object.get? name = none) :
    siblingKey registry position form name = .error (.siblingNotFound position.path name) := by
  simp only [siblingKey, inside.1, inside.2, missing]

theorem siblingKey_of_mistaken
    (form : Form)
    (inside : position.IsInside parent object)
    (found : object.get? name = some sibling)
    (mistaken : sibling.kind ≠ .string) :
    siblingKey registry position form name =
      .error (.siblingNotString position.path name sibling.kind) := by
  simp only [siblingKey, inside.1, inside.2, found, ne_eq, mistaken, not_false_eq_true, if_true]

theorem siblingKey_of_string
    (form : Form)
    (inside : position.IsInside parent object)
    (found : object.get? name = some sibling)
    (isString : sibling.kind = .string) :
    siblingKey registry position form name =
      (registry.resolveAt (parent.path.child name) sibling).map
        (valueKey form name position.internalName sibling) := by
  obtain rfl : sibling.name = name := Node.name_of_findChild? found
  simp only [siblingKey, inside.1, inside.2, found, ne_eq, isString, not_true_eq_false, if_false]
  rfl

/-- The key depends on the sibling that is looked up, and a failure is that of the first step
that cannot be taken. -/
theorem objectRule
    (form : Form)
    (inside : position.IsInside parent object) :
    ObjectRule registry position parent object form name position.internalName
      (siblingKey registry position form name) := by
  cases found : object.get? name with
  | none =>
      have absent : name ∉ object.names := (Node.findChild?_eq_none_iff _ _).mp found
      rw [siblingKey_of_missing form inside found]
      exact {
        missing := iff_of_true rfl absent
        mistaken := fun other => nomatch found.symm.trans other
        unresolved := fun other => nomatch found.symm.trans other
        valued := fun other => nomatch found.symm.trans other }
  | some sibling =>
      have present : name ∈ object.names := Object.mem_names_of_get? found
      have same {other : Node} (look : object.get? name = some other) : other = sibling :=
        Option.some.inj (look.symm.trans found)
      by_cases isString : sibling.kind = .string
      · have unresolved {cause : SchemaError} (failed : siblingKey registry position form name =
            .error cause) : cause.isUnresolved = true := by
          rw [siblingKey_of_string form inside found isString, map_eq_error_iff] at failed
          exact Registry.isUnresolved_of_resolveAt failed
        exact {
          missing := iff_of_false (fun failed => nomatch unresolved failed) (not_not_intro present)
          mistaken := fun look => by
            obtain rfl := same look
            exact iff_of_false (fun failed => nomatch unresolved failed) (not_not_intro isString)
          unresolved := fun look _ => by
            obtain rfl := same look
            rw [siblingKey_of_string form inside found isString, map_eq_error_iff]
          valued := fun look _ resolved => by
            obtain rfl := same look
            rw [siblingKey_of_string form inside found isString, resolved]
            rfl }
      · rw [siblingKey_of_mistaken form inside found isString]
        exact {
          missing := iff_of_false nofun (not_not_intro present)
          mistaken := fun look => by
            obtain rfl := same look
            exact iff_of_true rfl isString
          unresolved := fun look string => (isString (same look ▸ string)).elim
          valued := fun look string => (isString (same look ▸ string)).elim }

/-- A failure inside an object is about the sibling or about its reference. -/
theorem ObjectRule.cases_of_error
    {field : String}
    {outcome : Except SchemaError StorageKey}
    {cause : SchemaError}
    (rule : ObjectRule registry position parent object form name field outcome)
    (failed : outcome = .error cause) :
    cause = .siblingNotFound position.path name ∨
      (∃ found, cause = .siblingNotString position.path name found) ∨
      cause.isUnresolved = true := by
  subst failed
  cases found : object.get? name with
  | none =>
      have absent : name ∉ object.names := (Node.findChild?_eq_none_iff _ _).mp found
      exact .inl (Except.error.inj (rule.missing.mpr absent))
  | some sibling =>
      by_cases isString : sibling.kind = .string
      · have unresolved := (rule.unresolved found isString).mp rfl
        exact .inr (.inr (Registry.isUnresolved_of_resolveAt unresolved))
      · exact .inr (.inl ⟨sibling.kind, Except.error.inj ((rule.mistaken found).mpr isString)⟩)

end Inside

/-- So it does wherever there is an object around the field, and nowhere else. -/
theorem siblingRule
    (registry : Registry)
    (position : Position)
    (form : Form)
    (name : String) :
    SiblingRule registry position form name position.internalName
      (siblingKey registry position form name) where
  outside := by
    refine ⟨fun failed parent object inside => ?_, siblingKey_of_outside form name⟩
    rcases (objectRule form inside).cases_of_error failed with same | ⟨found, same⟩ | unresolved
    · cases same
    · cases same
    · cases unresolved
  inside := objectRule form

end Rules

/-! ## All policies -/

section Policies

variable
  {position : Position}
  (registry : Registry)
  (form : Form)

theorem derive_of_unencrypted
    (unencrypted : ∀ policy, ¬position.Follows policy) :
    derive registry position form = .error (.notEncrypted position.path) := by
  unfold derive
  cases known : position.canonical.string?.map StringFacets.hashing with
  | none => rfl
  | some policy =>
      have plaintext : policy = .plaintext := Decidable.of_not_not fun encrypted =>
        unencrypted policy (Position.follows_iff.mpr ⟨encrypted, known⟩)
      rw [plaintext]

theorem derive_of_solo
    (follows : position.Follows .solo) :
    derive registry position form =
      .ok (.fixed (join ["solo", form.text, position.internalName])) := by
  rw [derive, (Position.follows_iff.mp follows).2]

theorem derive_of_withAncestor
    {depth : UInt64}
    (follows : position.Follows (.withAncestor depth)) :
    derive registry position form = ancestorKey position form depth := by
  rw [derive, (Position.follows_iff.mp follows).2]

theorem derive_of_withSibling
    {name : String}
    (follows : position.Follows (.withSibling name)) :
    derive registry position form = siblingKey registry position form name := by
  rw [derive, (Position.follows_iff.mp follows).2]

/-- Whatever keeps the key of a secret from being derived, it is not that there is no secret. -/
theorem derive_ne_notEncrypted
    {policy : HashProfile}
    (follows : position.Follows policy)
    (path : FieldPath) :
    derive registry position form ≠ .error (.notEncrypted path) := by
  cases policy with
  | plaintext => exact (follows.1 rfl).elim
  | solo =>
      rw [derive_of_solo registry form follows]
      nofun
  | withAncestor depth =>
      rw [derive_of_withAncestor registry form follows, ancestorKey]
      split
      · nofun
      · split <;> nofun
  | withSibling name =>
      rw [derive_of_withSibling registry form follows]
      intro failed
      by_cases inside : ∃ parent object, position.IsInside parent object
      · obtain ⟨parent, object, inside⟩ := inside
        rcases (objectRule form inside).cases_of_error failed with same | ⟨found, same⟩ | unresolved
        · cases same
        · cases same
        · cases unresolved
      · rw [siblingKey_of_outside form name (by simpa using inside)] at failed
        cases failed

end Policies

/-- The node at a position has no storage key if it is no string or one without a policy. A
secret without more has the key of its form and field; one that carries the name of an ancestor
or the value of a sibling has a key exactly as `AncestorRule` and `SiblingRule` say. The field is
named as by the nearest place upward that has a name. -/
theorem derive_by_policy
    (registry : Registry)
    (position : Position)
    (form : Form) :
    ∃ field, position.IsNamed field ∧
      (derive registry position form = .error (.notEncrypted position.path) ↔
        ∀ policy, ¬position.Follows policy) ∧
      (position.Follows .solo →
        derive registry position form = .ok (.fixed (join ["solo", form.text, field]))) ∧
      (∀ depth, position.Follows (.withAncestor depth) →
        AncestorRule position form depth field (derive registry position form)) ∧
      ∀ name, position.Follows (.withSibling name) →
        SiblingRule registry position form name field (derive registry position form) := by
  refine ⟨position.internalName, position.isNamed_internalName, ?_, ?_, ?_, ?_⟩
  · refine ⟨fun failed policy follows => ?_, derive_of_unencrypted registry form⟩
    exact derive_ne_notEncrypted registry form follows _ failed
  · exact derive_of_solo registry form
  · intro depth follows
    rw [derive_of_withAncestor registry form follows]
    exact ancestorRule position form depth
  · intro name follows
    rw [derive_of_withSibling registry form follows]
    exact siblingRule registry position form name

/-- An element of a list without a name of its own is the user that the list is named for. -/
example :
    let password : Node := .scalar { name := "password" } (.string { hashing := .withAncestor 1 })
    let user : Node := .object {} {} [password]
    let users : Node := .array { name := "users" } {} user
    let position := ((Position.root users users).child user user).child password password
    derive ⟨.empty⟩ position .encrypted =
      .ok (.fixed "with_parent_name|encrypted|users|password") := rfl

end Key
end SchemaCompiler
