import SchemaCompiler.Name.Slug
import SchemaCompiler.Proofs.Name.Words

/-!
# Ledgers of slugs

A ledger issues the first candidate of a stream that it does not hold, and holds it from then on.
So the slugs that it issues one after another are distinct and are all that it holds, and a seed
whose first candidate is free gets the same slug whatever was issued before. Nothing here depends
on how the stream of a seed is made.
-/

namespace SchemaCompiler
namespace Name

/-! ## Shape of candidates -/

/-- Six signs: a small letter, followed by small letters and digits. -/
structure IsSlug (slug : String) : Prop where
  length : slug.length = 6
  leading : slug.toList.head?.any Char.isLower = true
  small : ∀ sign ∈ slug.toList, isSmall sign = true

/-- A byte selects a sign of the alphabet. -/
theorem slugSign_mem
    {alphabet : List Char}
    (nonempty : alphabet ≠ [])
    (byte : UInt8) :
    slugSign alphabet byte ∈ alphabet := by
  have inside : byte.toNat % alphabet.length < alphabet.length :=
    Nat.mod_lt _ (List.length_pos_iff.mpr nonempty)
  rw [slugSign, List.getD_eq_getElem?_getD, List.getElem?_eq_getElem inside]
  exact List.getElem_mem inside

theorem isLower_of_mem_slugLeading : ∀ sign ∈ slugLeading, sign.isLower = true :=
  List.all_eq_true.mp (by decide)

theorem isSmall_of_mem_slugTrailing : ∀ sign ∈ slugTrailing, isSmall sign = true :=
  List.all_eq_true.mp (by decide)

/-- Every candidate has the shape of a slug, whatever its bytes are. -/
theorem isSlug_slugCandidate
    (stream : Nat → UInt8)
    (place : Nat) :
    IsSlug (slugCandidate stream place) := by
  have leading := fun byte =>
    isLower_of_mem_slugLeading _ (slugSign_mem (by decide : slugLeading ≠ []) byte)
  have trailing := fun byte =>
    isSmall_of_mem_slugTrailing _ (slugSign_mem (by decide : slugTrailing ≠ []) byte)
  unfold slugCandidate
  refine ⟨?_, ?_, ?_⟩
  · simp [String.length, slugLength]
  · simp [leading]
  · rw [String.toList_ofList]
    refine List.forall_mem_cons.mpr ⟨?_, List.forall_mem_map.mpr fun _ _ => trailing _⟩
    rw [isSmall, leading, Bool.true_or]

/-! ## The first free candidate -/

/-- The candidate at a place of a stream is the first one that is not taken. -/
structure IsFirstFree
    (stream : Nat → UInt8)
    (taken : List String)
    (place : Nat) : Prop where
  free : slugCandidate stream place ∉ taken
  before : ∀ earlier < place, slugCandidate stream earlier ∈ taken

namespace IsFirstFree

variable
  {stream : Nat → UInt8}
  {taken others : List String}
  {place : Nat}

/-- A candidate at the start of a stream is the first free one if it is free. -/
theorem zero_iff : IsFirstFree stream taken 0 ↔ slugCandidate stream 0 ∉ taken :=
  ⟨free, fun free => ⟨free, fun _ before => absurd before (Nat.not_lt_zero _)⟩⟩

/-- If the first candidate is free, there is no other first free one. -/
theorem eq_zero
    (first : IsFirstFree stream taken place)
    (free : slugCandidate stream 0 ∉ taken) :
    place = 0 :=
  Nat.eq_zero_of_not_pos fun later => free (first.before 0 later)

/-- It matters which slugs are taken, and not in which order. -/
theorem of_same
    (first : IsFirstFree stream taken place)
    (same : ∀ slug, slug ∈ others ↔ slug ∈ taken) :
    IsFirstFree stream others place :=
  ⟨fun member => first.free ((same _).mp member),
    fun earlier before => (same _).mpr (first.before earlier before)⟩

end IsFirstFree

namespace SlugLedger

variable
  {ledger next last : SlugLedger}
  {stream : Nat → UInt8}
  {streams : String → Nat → UInt8}
  {seeds slugs : List String}
  {slug : String}

theorem contains_iff : ledger.contains slug = true ↔ slug ∈ ledger.issued :=
  List.contains_iff_mem

/-- A search from a candidate on finds the first one that the ledger does not hold. -/
theorem firstFree?_eq_some_iff
    {index remaining : Nat} :
    ledger.firstFree? stream index remaining = some slug ↔
      ∃ place, index ≤ place ∧ place < index + remaining ∧ slugCandidate stream place = slug ∧
        slug ∉ ledger.issued ∧
        ∀ earlier, index ≤ earlier → earlier < place →
          slugCandidate stream earlier ∈ ledger.issued := by
  induction remaining generalizing index with
  | zero =>
      simp only [firstFree?, Nat.add_zero, reduceCtorEq, false_iff]
      rintro ⟨place, notBefore, before, -⟩
      exact absurd before (Nat.not_lt.mpr notBefore)
  | succ remaining hypothesis =>
      dsimp only [firstFree?]
      split
      next taken =>
        rw [contains_iff] at taken
        rw [hypothesis]
        constructor
        · rintro ⟨place, notBefore, before, same, free, held⟩
          refine ⟨place, by omega, by omega, same, free, fun earlier lower upper => ?_⟩
          rcases Nat.eq_or_lt_of_le lower with rfl | later
          · exact taken
          · exact held earlier later upper
        · rintro ⟨place, notBefore, before, same, free, held⟩
          have different : index ≠ place := by
            rintro rfl
            exact free (same ▸ taken)
          exact ⟨place, by omega, by omega, same, free,
            fun earlier lower => held earlier (by omega)⟩
      next free =>
        rw [contains_iff] at free
        constructor
        · intro found
          obtain rfl := Option.some.inj found
          exact ⟨index, Nat.le_refl _, by omega, rfl, free, fun earlier lower upper => by omega⟩
        · rintro ⟨place, notBefore, before, rfl, -, held⟩
          rcases Nat.eq_or_lt_of_le notBefore with rfl | later
          · rfl
          · exact absurd (held index (Nat.le_refl _) later) free

/-- A ledger issues the first free candidate of a stream and holds it from then on. -/
theorem issue?_eq_some_iff :
    ledger.issue? stream = some (slug, next) ↔
      ∃ place < slugCandidates, IsFirstFree stream ledger.issued place ∧
        slugCandidate stream place = slug ∧ next = ⟨slug :: ledger.issued⟩ := by
  simp only [issue?, Option.map_eq_some_iff, Prod.mk.injEq, firstFree?_eq_some_iff]
  constructor
  · rintro ⟨_, ⟨place, -, inside, rfl, free, held⟩, rfl, rfl⟩
    exact ⟨place, by omega, ⟨free, fun earlier => held earlier (Nat.zero_le _)⟩, rfl, rfl⟩
  · rintro ⟨place, inside, first, rfl, rfl⟩
    exact ⟨_, ⟨place, Nat.zero_le _, by omega, rfl, first.free,
      fun earlier _ => first.before earlier⟩, rfl, rfl⟩

/-- A ledger issues a slug for a stream exactly if the stream has a free candidate. -/
theorem exists_issue?_iff :
    (∃ slug next, ledger.issue? stream = some (slug, next)) ↔
      ∃ place < slugCandidates, slugCandidate stream place ∉ ledger.issued := by
  simp only [issue?_eq_some_iff]
  constructor
  · rintro ⟨slug, next, place, inside, first, -⟩
    exact ⟨place, inside, first.free⟩
  · rintro ⟨place, inside, free⟩
    induction place using Nat.strongRecOn with
    | ind place hypothesis =>
        -- the search stops at the least free candidate, which need not be this one
        by_cases earlier : ∃ other < place, slugCandidate stream other ∉ ledger.issued
        · obtain ⟨other, before, free⟩ := earlier
          exact hypothesis other before (before.trans inside) free
        · have held : ∀ other < place, slugCandidate stream other ∈ ledger.issued := by
            simpa using earlier
          exact ⟨_, _, place, inside, ⟨free, held⟩, rfl, rfl⟩

/-! ## Slugs one after another -/

/-- Issues slugs for seeds one after another, each from the stream of its seed; there are none if
one of the streams has no free candidate. -/
def issueAll?
    (streams : String → Nat → UInt8)
    (ledger : SlugLedger) : List String → Option (List String × SlugLedger)
  | [] => some ([], ledger)
  | seed :: rest => do
      let (slug, next) ← ledger.issue? (streams seed)
      let (slugs, last) ← issueAll? streams next rest
      return (slug :: slugs, last)

/-- The first of several slugs is issued before the others. -/
theorem issueAll?_cons_eq_some_iff
    {seed : String} :
    ledger.issueAll? streams (seed :: seeds) = some (slugs, last) ↔
      ∃ slug next others, ledger.issue? (streams seed) = some (slug, next) ∧
        next.issueAll? streams seeds = some (others, last) ∧ slugs = slug :: others := by
  simp only [issueAll?, Option.bind_eq_bind, Option.bind_eq_some_iff, Option.pure_def,
    Option.some.injEq, Prod.exists, Prod.mk.injEq]
  constructor
  · rintro ⟨slug, next, issued, others, _, later, rfl, rfl⟩
    exact ⟨slug, next, others, issued, later, rfl⟩
  · rintro ⟨slug, next, others, issued, later, rfl⟩
    exact ⟨slug, next, issued, others, last, later, rfl, rfl⟩

/-- Every seed gets one slug, and the ledger holds the new slugs beside those that it held. -/
theorem issued_of_issueAll?
    (issued : ledger.issueAll? streams seeds = some (slugs, last)) :
    slugs.length = seeds.length ∧ last.issued = slugs.reverse ++ ledger.issued := by
  induction seeds generalizing ledger slugs with
  | nil =>
      cases issued
      exact ⟨rfl, rfl⟩
  | cons seed rest hypothesis =>
      obtain ⟨slug, next, others, first, later, rfl⟩ := issueAll?_cons_eq_some_iff.mp issued
      obtain ⟨place, -, -, -, rfl⟩ := issue?_eq_some_iff.mp first
      obtain ⟨sameLength, held⟩ := hypothesis later
      simp [sameLength, held]

/-- A ledger that holds every slug once does so forever. -/
theorem nodup_of_issueAll?
    (issued : ledger.issueAll? streams seeds = some (slugs, last))
    (distinct : ledger.issued.Nodup) :
    last.issued.Nodup := by
  induction seeds generalizing ledger slugs with
  | nil =>
      cases issued
      exact distinct
  | cons seed rest hypothesis =>
      obtain ⟨slug, next, others, first, later, rfl⟩ := issueAll?_cons_eq_some_iff.mp issued
      obtain ⟨place, -, isFirst, rfl, rfl⟩ := issue?_eq_some_iff.mp first
      exact hypothesis later (List.nodup_cons.mpr ⟨isFirst.free, distinct⟩)

/-- Each slug is the first candidate of its seed that is neither held from the start nor issued
before. -/
theorem exists_place_of_issueAll?
    (issued : ledger.issueAll? streams seeds = some (slugs, last))
    {index : Nat}
    {seed : String}
    (asked : seeds[index]? = some seed) :
    ∃ place, slugs[index]? = some (slugCandidate (streams seed) place) ∧
      IsFirstFree (streams seed) (slugs.take index ++ ledger.issued) place := by
  induction seeds generalizing ledger slugs index with
  | nil => simp at asked
  | cons first rest hypothesis =>
      obtain ⟨slug, next, others, step, later, rfl⟩ := issueAll?_cons_eq_some_iff.mp issued
      obtain ⟨place, -, isFirst, rfl, rfl⟩ := issue?_eq_some_iff.mp step
      cases index with
      | zero =>
          obtain rfl : first = seed := by simpa using asked
          exact ⟨place, rfl, isFirst⟩
      | succ index =>
          obtain ⟨other, found, isFirst⟩ := hypothesis later (by simpa using asked)
          refine ⟨other, by simpa using found, isFirst.of_same fun slug => ?_⟩
          -- the ledger holds the first slug in front of the old ones, the list has it at its start
          simp only [List.take_succ_cons, List.cons_append, List.mem_cons, List.mem_append]
          tauto

/-- What is known of slugs that a new ledger issues to seeds one after another. -/
structure Issued
    (streams : String → Nat → UInt8)
    (seeds slugs : List String)
    (ledger : SlugLedger) : Prop where
  /-- Every slug is a small letter, followed by five small letters or digits. -/
  shape : ∀ slug ∈ slugs, IsSlug slug
  /-- No slug is issued twice. -/
  distinct : slugs.Nodup
  /-- Every seed gets one slug. -/
  length : slugs.length = seeds.length
  /-- The ledger holds what was issued and nothing else. -/
  held : ∀ slug, ledger.contains slug = true ↔ slug ∈ slugs
  /-- The ledger holds each slug once and counts them. -/
  once : ledger.issued.Nodup ∧ ledger.size = seeds.length
  /-- Each slug is the first candidate of its seed that was not issued before. -/
  first : ∀ index seed, seeds[index]? = some seed →
    ∃ place, slugs[index]? = some (slugCandidate (streams seed) place) ∧
      IsFirstFree (streams seed) (slugs.take index) place
  /-- A seed whose first candidate is free gets it, whatever was issued before. -/
  stable : ∀ index seed, seeds[index]? = some seed →
    slugCandidate (streams seed) 0 ∉ slugs.take index →
      slugs[index]? = some (slugCandidate (streams seed) 0)
  /-- One more slug is issued exactly if its stream has a candidate that was not issued. -/
  further : ∀ stream, (∃ slug next, ledger.issue? stream = some (slug, next)) ↔
    ∃ place < slugCandidates, slugCandidate stream place ∉ slugs

/-- All of this holds whenever every seed gets a slug. -/
theorem Issued.of_issueAll?
    (issued : empty.issueAll? streams seeds = some (slugs, ledger)) :
    Issued streams seeds slugs ledger := by
  obtain ⟨sameLength, heldAll⟩ := issued_of_issueAll? issued
  have nodup := nodup_of_issueAll? issued .nil
  have first : ∀ index seed, seeds[index]? = some seed →
      ∃ place, slugs[index]? = some (slugCandidate (streams seed) place) ∧
        IsFirstFree (streams seed) (slugs.take index) place := by
    intro index seed asked
    obtain ⟨place, found, isFirst⟩ := exists_place_of_issueAll? issued asked
    exact ⟨place, found, isFirst.of_same fun slug => by simp [empty]⟩
  refine ⟨?_, ?_, sameLength, ?_, ⟨nodup, ?_⟩, first, ?_, ?_⟩
  · intro slug member
    obtain ⟨index, inside, rfl⟩ := List.mem_iff_getElem.mp member
    obtain ⟨place, found, -⟩ := first index _ (List.getElem?_eq_getElem (sameLength ▸ inside))
    rw [List.getElem?_eq_getElem inside, Option.some.injEq] at found
    exact found ▸ isSlug_slugCandidate _ place
  · rw [heldAll, empty, List.append_nil] at nodup
    exact (List.reverse_perm slugs).nodup_iff.mp nodup
  · intro slug
    rw [contains_iff, heldAll]
    simp [empty]
  · rw [size, heldAll]
    simp [empty, sameLength]
  · intro index seed asked free
    obtain ⟨place, found, isFirst⟩ := first index seed asked
    rw [found, isFirst.eq_zero free]
  · intro stream
    rw [exists_issue?_iff, heldAll]
    simp [empty]

end SlugLedger
end Name
end SchemaCompiler
