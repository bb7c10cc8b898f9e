import SchemaCompiler.Generation.Run
import SchemaCompiler.Name.Standard
import SchemaCompiler.Proofs.Name.Ledger

/-!
# Slugs of namespaces

The namespaces of a document get the slugs that a new ledger issues for their names, one after
another. So no two of them share a slug, not even if they share a name.
-/

namespace SchemaCompiler
namespace Generation

open SchemaCompiler.Name
open SchemaCompiler.Schema

/-- The stream from which a seed gets its slug. -/
def seedStream (seed : String) : Nat → UInt8 := Hash.blake3Stream seed.toUTF8.toList

/-- Namespaces get the slugs that are issued for their names. -/
theorem assignSlugs_eq_zipWith
    {ledger last : SlugLedger}
    {namespaces : List Namespace}
    {slugs : List String}
    (issued : ledger.issueAll? seedStream (namespaces.map Namespace.name) = some (slugs, last)) :
    assignSlugs ledger namespaces = List.zipWith Titled.mk namespaces slugs := by
  induction namespaces generalizing ledger slugs with
  | nil => rfl
  | cons managed rest hypothesis =>
      rw [List.map_cons] at issued
      obtain ⟨slug, next, others, first, later, rfl⟩ :=
        SlugLedger.issueAll?_cons_eq_some_iff.mp issued
      have assigned : ledger.assign? managed.name = some (slug, next) := first
      rw [assignSlugs, assigned, List.zipWith_cons_cons, ← hypothesis later]

/-- Whatever the streams of seeds are, as long as every seed gets a slug: the slugs that a new
ledger issues have the shape of slugs and are distinct, the ledger holds them and nothing else,
and each is the first candidate of its seed that was not issued before, so that it is the same
whatever was issued before if the first candidate is free. The namespaces of a document get the
slugs that are issued for their names, so these are distinct, also for equal names. -/
theorem slugs_are_apart [Name.Lettering] :
    (∀ streams seeds slugs ledger,
      SlugLedger.empty.issueAll? streams seeds = some (slugs, ledger) →
        SlugLedger.Issued streams seeds slugs ledger) ∧
    ∀ (document : Document) slugs ledger,
      SlugLedger.empty.issueAll? seedStream (document.namespaces.map Namespace.name) =
          some (slugs, ledger) →
        (Project.ofDocument document).namespaces =
            List.zipWith Titled.mk document.namespaces slugs ∧
          ((Project.ofDocument document).namespaces.map Titled.slug).Nodup := by
  refine ⟨fun streams seeds slugs ledger => .of_issueAll?, ?_⟩
  intro document slugs ledger issued
  have titles : (Project.ofDocument document).namespaces =
      List.zipWith Titled.mk document.namespaces slugs := assignSlugs_eq_zipWith issued
  have known := SlugLedger.Issued.of_issueAll? issued
  have covered : slugs.length ≤ document.namespaces.length := by
    rw [known.length, List.length_map]
  have same : (Project.ofDocument document).namespaces.map Titled.slug = slugs := by
    rw [titles, List.map_zipWith]
    exact List.map_zip_eq_zipWith.symm.trans (List.map_snd_zip covered)
  rw [same]
  exact ⟨titles, known.distinct⟩

/-- Two namespaces of one name. -/
def twinDocument : Document where
  schemas := .ofList [("site", .object {} {} [])]
  namespaces := [{ name := "Site", schema := "site" }, { name := "Site", schema := "site" }]

/-- The first and the second candidate for the name differ in their first sign. -/
theorem slugCandidate_ne_site :
    slugCandidate (seedStream "Site") 1 ≠ slugCandidate (seedStream "Site") 0 := by
  have leading : slugSign slugLeading (seedStream "Site" 6) ≠
      slugSign slugLeading (seedStream "Site" 0) := by decide +kernel
  intro same
  have signs := congrArg (fun slug => slug.toList.head?) same
  simp only [slugCandidate, String.toList_ofList, List.head?_cons] at signs
  exact leading (Option.some.inj signs)

/-- The first namespace gets the first candidate for the name, and the second one the next. -/
theorem issueAll?_twinDocument :
    SlugLedger.empty.issueAll? seedStream (twinDocument.namespaces.map Namespace.name) =
      some ([slugCandidate (seedStream "Site") 0, slugCandidate (seedStream "Site") 1],
        ⟨[slugCandidate (seedStream "Site") 1, slugCandidate (seedStream "Site") 0]⟩) := by
  have first : SlugLedger.empty.issue? (seedStream "Site") =
      some (slugCandidate (seedStream "Site") 0, ⟨[slugCandidate (seedStream "Site") 0]⟩) :=
    SlugLedger.issue?_eq_some_iff.mpr
      ⟨0, by decide, IsFirstFree.zero_iff.mpr List.not_mem_nil, rfl, rfl⟩
  have second : IsFirstFree (seedStream "Site") [slugCandidate (seedStream "Site") 0] 1 := by
    refine ⟨fun member => slugCandidate_ne_site (List.mem_singleton.mp member), ?_⟩
    intro earlier before
    obtain rfl : earlier = 0 := Nat.lt_one_iff.mp before
    exact List.mem_singleton.mpr rfl
  refine SlugLedger.issueAll?_cons_eq_some_iff.mpr ⟨_, _, _, first, ?_, rfl⟩
  refine SlugLedger.issueAll?_cons_eq_some_iff.mpr ⟨_, _, _, ?_, rfl, rfl⟩
  exact SlugLedger.issue?_eq_some_iff.mpr ⟨1, by decide, second, rfl, rfl⟩

/-- The two namespaces get the first two candidates for their name, which are distinct slugs. -/
theorem slugs_are_apart_twinDocument :
    ∃ slugs ledger,
      SlugLedger.empty.issueAll? seedStream (twinDocument.namespaces.map Namespace.name) =
        some (slugs, ledger) ∧
      slugs = [slugCandidate (seedStream "Site") 0, slugCandidate (seedStream "Site") 1] ∧
      SlugLedger.Issued seedStream (twinDocument.namespaces.map Namespace.name) slugs ledger ∧
      (Project.ofDocument twinDocument).namespaces =
        List.zipWith Titled.mk twinDocument.namespaces slugs ∧
      ((Project.ofDocument twinDocument).namespaces.map Titled.slug).Nodup :=
  ⟨_, _, issueAll?_twinDocument, rfl, slugs_are_apart.1 _ _ _ _ issueAll?_twinDocument,
    slugs_are_apart.2 _ _ _ issueAll?_twinDocument⟩

end Generation
end SchemaCompiler
