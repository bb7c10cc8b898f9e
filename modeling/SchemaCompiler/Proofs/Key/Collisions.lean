import SchemaCompiler.Key.StorageKey
import SchemaCompiler.Proofs.Outcome
import SchemaCompiler.Proofs.Schema.Tree

/-!
# Keys of different secrets

A rendered key joins parts with bars, and the value of a sibling among them is any text.
As long as no name holds a bar, the parts can be told from the key all the same: names are
cut off from the front, and the field is cut off from the back, so that a value is what
remains between them. Two secrets then have one key only if everything it is made of agrees.
-/

namespace SchemaCompiler
namespace Key

open SchemaCompiler.Outcome
open SchemaCompiler.Schema

/-! ## What a key is made of -/

/-- What a policy adds to a key so that fields of one name differ. -/
inductive Distinction where
  | nothing
  /-- The name of an ancestor. -/
  | ancestor (name : String)
  /-- The name of a sibling and its value at run time. -/
  | sibling (name value : String)
deriving Repr, DecidableEq, Inhabited

/-- What a rendered key is made of: what its policy adds, the form and the field of the
secret. -/
structure Identity where
  distinction : Distinction
  form : Form
  field : String
deriving Repr, DecidableEq, Inhabited

namespace Distinction

/-- Name of the policy. -/
def policy : Distinction → String
  | .nothing => "solo"
  | .ancestor _ => "with_parent_name"
  | .sibling _ _ => "with_param_value"

/-- The name that the policy adds to a key. -/
def name? : Distinction → Option String
  | .nothing => none
  | .ancestor name => some name
  | .sibling name _ => some name

/-- Parts that the policy adds to a key. -/
def parts : Distinction → List String
  | .nothing => []
  | .ancestor name => [name]
  | .sibling name value => [name, value]

end Distinction

namespace Identity

/-- Names in a key. The value of a sibling is none of them. -/
def names (identity : Identity) : List String :=
  identity.distinction.name?.toList ++ [identity.field]

/-- No name in the key holds the sign between its parts. -/
def IsClear (identity : Identity) : Prop := ∀ name ∈ identity.names, '|' ∉ name.toList

instance (identity : Identity) : Decidable identity.IsClear :=
  inferInstanceAs (Decidable (∀ name ∈ identity.names, '|' ∉ name.toList))

/-- The key as text. -/
def text (identity : Identity) : String :=
  join (identity.distinction.policy :: identity.form.text
    :: (identity.distinction.parts ++ [identity.field]))

end Identity

/-- What the key of the secret at a position is made of, for a value of the sibling on which
it may depend; a missing value counts as empty. There is no key without a policy, and none
above the start of a walk. -/
def identity? (position : Position) (form : Form) (value : Option String) : Option Identity :=
  match position.canonical.string?.map StringFacets.hashing with
  | none | some .plaintext => none
  | some .solo => some ⟨.nothing, form, position.internalName⟩
  | some (.withAncestor depth) =>
      (position.ancestor? depth.toNat).map fun ancestor =>
        ⟨.ancestor ancestor.internalName, form, position.internalName⟩
  | some (.withSibling name) =>
      some ⟨.sibling name (value.getD ""), form, position.internalName⟩

/-! ## Parts of joined texts -/

@[simp] theorem join_singleton (part : String) : join [part] = part := by
  simp [join]

theorem toList_join_cons_cons
    (first second : String)
    (rest : List String) :
    (join (first :: second :: rest)).toList =
      first.toList ++ '|' :: (join (second :: rest)).toList := by
  rw [join, String.intercalate_cons_cons, String.toList_append, String.toList_append,
    List.append_assoc]
  rfl

/-- What stands in front of the first sign and what stands behind it are determined. -/
theorem append_cons_inj_of_front
    {sign : α}
    {front other rest others : List α}
    (clear : sign ∉ front)
    (clearOther : sign ∉ other) :
    front ++ sign :: rest = other ++ sign :: others ↔ front = other ∧ rest = others := by
  induction front generalizing other with
  | nil =>
      cases other with
      | nil => simp
      | cons first other => simp_all
  | cons first front hypothesis =>
      rw [List.mem_cons, not_or] at clear
      cases other with
      | nil => simpa using fun same => absurd same.symm clear.1
      | cons next other =>
          rw [List.mem_cons, not_or] at clearOther
          rw [List.cons_append, List.cons_append, List.cons.injEq, List.cons.injEq,
            hypothesis clear.2 clearOther.2, and_assoc]

/-- What stands behind the last sign and what stands in front of it are determined. -/
theorem append_cons_inj_of_back
    {sign : α}
    {front other back otherBack : List α}
    (clear : sign ∉ back)
    (clearOther : sign ∉ otherBack) :
    front ++ sign :: back = other ++ sign :: otherBack ↔ front = other ∧ back = otherBack := by
  rw [← List.reverse_inj, List.reverse_append, List.reverse_append, List.reverse_cons,
    List.reverse_cons, List.append_assoc, List.append_assoc, List.singleton_append,
    List.singleton_append,
    append_cons_inj_of_front (by rwa [List.mem_reverse]) (by rwa [List.mem_reverse]),
    List.reverse_inj, List.reverse_inj, and_comm]

/-- The first of several joined parts is determined if it holds no bar. -/
theorem join_cons_inj
    {first other : String}
    {rest others : List String}
    (nonempty : rest ≠ [])
    (nonemptyOther : others ≠ [])
    (clear : '|' ∉ first.toList)
    (clearOther : '|' ∉ other.toList) :
    join (first :: rest) = join (other :: others) ↔ first = other ∧ join rest = join others := by
  obtain ⟨second, rest, rfl⟩ := List.exists_cons_of_ne_nil nonempty
  obtain ⟨another, others, rfl⟩ := List.exists_cons_of_ne_nil nonemptyOther
  rw [← String.toList_inj, toList_join_cons_cons, toList_join_cons_cons,
    append_cons_inj_of_front clear clearOther, String.toList_inj, String.toList_inj]

/-- The last of two joined parts is determined if it holds no bar. -/
theorem join_pair_inj
    {value other field another : String}
    (clear : '|' ∉ field.toList)
    (clearOther : '|' ∉ another.toList) :
    join [value, field] = join [other, another] ↔ value = other ∧ field = another := by
  rw [← String.toList_inj, toList_join_cons_cons, toList_join_cons_cons, join_singleton,
    join_singleton, append_cons_inj_of_back clear clearOther, String.toList_inj, String.toList_inj]

/-- Exactly the fixed keys do not depend on the value of a sibling. -/
theorem StorageKey.fixed?_eq_some_iff
    {key : StorageKey}
    {text : String} :
    key.fixed? = some text ↔ ∀ value, key.render value = text := by
  cases key with
  | fixed own =>
      rw [fixed?, Option.some.injEq]
      exact ⟨fun same _ => same, fun same => same none⟩
  | withSibling key =>
      refine iff_of_false (by simp [fixed?]) fun same => ?_
      have signs := congrArg String.toList ((same (some "|")).trans (same none).symm)
      simp [SiblingKey.render, toList_join_cons_cons] at signs

/-! ## Keys as texts -/

theorem Form.text_inj
    {form other : Form} :
    form.text = other.text ↔ form = other := by
  cases form <;> cases other <;> decide

theorem Form.bar_not_mem_text (form : Form) : '|' ∉ form.text.toList := by
  cases form <;> decide

theorem Distinction.bar_not_mem_policy (distinction : Distinction) :
    '|' ∉ distinction.policy.toList := by
  cases distinction <;> (simp only [policy]; decide)

/-- Behind policy and form, what the policy adds and the field are determined. -/
theorem Identity.parts_inj
    {distinction other : Distinction}
    {form : Form}
    {field another : String}
    (clear : IsClear ⟨distinction, form, field⟩)
    (clearOther : IsClear ⟨other, form, another⟩)
    (samePolicy : distinction.policy = other.policy)
    (same : join (distinction.parts ++ [field]) = join (other.parts ++ [another])) :
    distinction = other ∧ field = another := by
  cases distinction with
  | nothing =>
      cases other with
      | nothing => exact ⟨rfl, by simpa [Distinction.parts] using same⟩
      | ancestor | sibling => exact absurd samePolicy (by simp only [Distinction.policy]; decide)
  | ancestor name =>
      cases other with
      | ancestor otherName =>
          obtain ⟨rfl, sameField⟩ := (join_cons_inj (List.cons_ne_nil _ _) (List.cons_ne_nil _ _)
            (clear name List.mem_cons_self) (clearOther otherName List.mem_cons_self)).mp same
          exact ⟨rfl, by simpa using sameField⟩
      | nothing | sibling => exact absurd samePolicy (by simp only [Distinction.policy]; decide)
  | sibling name value =>
      cases other with
      | sibling otherName otherValue =>
          obtain ⟨rfl, behind⟩ := (join_cons_inj (List.cons_ne_nil _ _) (List.cons_ne_nil _ _)
            (clear name List.mem_cons_self) (clearOther otherName List.mem_cons_self)).mp same
          obtain ⟨rfl, sameField⟩ := (join_pair_inj
            (clear field (List.mem_cons_of_mem _ List.mem_cons_self))
            (clearOther another (List.mem_cons_of_mem _ List.mem_cons_self))).mp behind
          exact ⟨rfl, sameField⟩
      | nothing | ancestor => exact absurd samePolicy (by simp only [Distinction.policy]; decide)

/-- Keys as texts are equal exactly if they are made of the same, unless some name holds a
bar. -/
theorem Identity.text_inj
    {identity other : Identity}
    (clear : identity.IsClear)
    (clearOther : other.IsClear) :
    identity.text = other.text ↔ identity = other := by
  refine ⟨fun same => ?_, congrArg text⟩
  obtain ⟨distinction, form, field⟩ := identity
  obtain ⟨otherDistinction, otherForm, otherField⟩ := other
  obtain ⟨samePolicy, behind⟩ := (join_cons_inj (List.cons_ne_nil _ _) (List.cons_ne_nil _ _)
    distinction.bar_not_mem_policy otherDistinction.bar_not_mem_policy).mp same
  obtain ⟨sameForm, parts⟩ := (join_cons_inj (by simp) (by simp)
    form.bar_not_mem_text otherForm.bar_not_mem_text).mp behind
  obtain rfl : form = otherForm := Form.text_inj.mp sameForm
  obtain ⟨rfl, rfl⟩ := parts_inj clear clearOther samePolicy parts
  rfl

/-! ## Derived keys -/

/-- A key that carries the value of a sibling is rendered from the names and the value. -/
theorem render_siblingKey
    {registry : Registry}
    {position : Position}
    {form : Form}
    {name : String}
    {key : StorageKey}
    (derived : siblingKey registry position form name = .ok key)
    (value : Option String) :
    key.render value = join
      ["with_param_value", form.text, name, value.getD "", position.internalName] := by
  unfold siblingKey at derived
  split at derived
  · cases derived
  split at derived
  · cases derived
  split at derived
  · cases derived
  next sibling found =>
    have named : sibling.name = name := Node.name_of_findChild? found
    split at derived
    · cases derived
    obtain ⟨canonical, -, made⟩ := bind_eq_ok_iff.mp derived
    cases made
    rw [StorageKey.render_withSibling, SiblingKey.render, named]
    apply String.toList_injective
    simp [toList_join_cons_cons]

/-- A derived key is the text of what it is made of. -/
theorem render_of_derive
    {registry : Registry}
    {position : Position}
    {form : Form}
    {key : StorageKey}
    (derived : derive registry position form = .ok key)
    (value : Option String) :
    ∃ identity, identity? position form value = some identity ∧
      key.render value = identity.text := by
  unfold derive at derived
  unfold identity?
  cases policy : position.canonical.string?.map StringFacets.hashing with
  | none =>
      rw [policy] at derived
      cases derived
  | some profile =>
      rw [policy] at derived
      cases profile with
      | plaintext => cases derived
      | solo =>
          cases derived
          exact ⟨_, rfl, rfl⟩
      | withAncestor depth =>
          dsimp only at derived
          unfold ancestorKey at derived
          split at derived
          · cases derived
          split at derived
          · cases derived
          next ancestor found =>
            cases derived
            dsimp only
            rw [found]
            exact ⟨_, rfl, rfl⟩
      | withSibling name => exact ⟨_, rfl, render_siblingKey derived value⟩

/-- Every derived key is made of a policy, a form and names, and two rendered keys in whose
names there is no bar are equal exactly if they are made of the same: of one policy, one form
and one field, and under the policy of one ancestor, or of one sibling with one value. -/
theorem render_eq_render_iff
    {registry otherRegistry : Registry}
    {position otherPosition : Position}
    {form otherForm : Form}
    {key otherKey : StorageKey}
    (derived : derive registry position form = .ok key)
    (derivedOther : derive otherRegistry otherPosition otherForm = .ok otherKey)
    (value otherValue : Option String) :
    ∃ identity other,
      identity? position form value = some identity ∧
      identity? otherPosition otherForm otherValue = some other ∧
      (identity.IsClear → other.IsClear →
        (key.render value = otherKey.render otherValue ↔ identity = other)) := by
  obtain ⟨identity, known, text⟩ := render_of_derive derived value
  obtain ⟨other, knownOther, otherText⟩ := render_of_derive derivedOther otherValue
  refine ⟨identity, other, known, knownOther, fun clear clearOther => ?_⟩
  rw [text, otherText, Identity.text_inj clear clearOther]

/-- An account with a secret that is kept apart by the name of its user. -/
def account : Node :=
  .object { name := "account" } {}
    [.scalar { name := "user" } (.string {}),
      .scalar { name := "token" } (.string { hashing := .withSibling "user" })]

/-- The position of the secret. -/
def tokenPosition : Position :=
  let token := .scalar { name := "token" } (.string { hashing := .withSibling "user" })
  (Position.root account account).child token token

/-- The key of the secret. -/
def tokenKey (form : Form) : StorageKey :=
  .withSibling ⟨join ["with_param_value", form.text, "user"], "user", true, "token"⟩

theorem derive_tokenPosition (form : Form) :
    derive ⟨.empty⟩ tokenPosition form = .ok (tokenKey form) := rfl

/-- The keys of the secret differ for users whose names differ behind a bar only, and a key
of one form is none of the other form. -/
theorem render_tokenKey :
    (∀ form, derive ⟨.empty⟩ tokenPosition form = .ok (tokenKey form)) ∧
      (tokenKey .plaintext).render (some "ann|token") ≠ (tokenKey .plaintext).render (some "ann") ∧
      (tokenKey .plaintext).render none ≠ (tokenKey .encrypted).render none := by
  refine ⟨derive_tokenPosition, ?_, ?_⟩
  · obtain ⟨identity, other, known, knownOther, equal⟩ := render_eq_render_iff
      (derive_tokenPosition .plaintext) (derive_tokenPosition .plaintext) (some "ann|token")
      (some "ann")
    cases known
    cases knownOther
    exact fun same => absurd ((equal (by decide) (by decide)).mp same) (by decide)
  · obtain ⟨identity, other, known, knownOther, equal⟩ := render_eq_render_iff
      (derive_tokenPosition .plaintext) (derive_tokenPosition .encrypted) none none
    cases known
    cases knownOther
    exact fun same => absurd ((equal (by decide) (by decide)).mp same) (by decide)

end Key
end SchemaCompiler
