import SchemaCompiler.Hash.Blake3

/-!
# Slugs

A slug is a short identifier that is unique within one run. Candidates are read
from the output stream of the seed, six bytes each; a ledger remembers what was
issued and takes the first candidate that is still free, so the first slug of a
seed is the same on every run.
-/

namespace SchemaCompiler
namespace Name

/-- Signs that may begin a slug. -/
def slugLeading : List Char := "abcdefghijklmnopqrstuvwxyz".toList

/-- Signs that may continue a slug. -/
def slugTrailing : List Char := "abcdefghijklmnopqrstuvwxyz0123456789".toList

/-- Number of signs in a slug. -/
def slugLength : Nat := 6

/-- The sign of `alphabet` that a byte selects. -/
def slugSign (alphabet : List Char) (byte : UInt8) : Char :=
  alphabet.getD (byte.toNat % alphabet.length) 'a'

/-- The candidate that starts at byte `start` of an output stream. -/
def slugCandidate (stream : Nat → UInt8) (index : Nat) : String :=
  let start := index * slugLength
  String.ofList
    (slugSign slugLeading (stream start) ::
      (List.range (slugLength - 1)).map fun place =>
        slugSign slugTrailing (stream (start + place + 1)))

/-- Number of whole candidates in an output stream. -/
def slugCandidates : Nat := Nat.pow 2 64 / slugLength

/-- The slugs issued in one run, the latest first. -/
structure SlugLedger where
  issued : List String := []
deriving Repr, DecidableEq, Inhabited

namespace SlugLedger

/-- The ledger of a new run. -/
def empty : SlugLedger := {}

/-- The slug was issued. -/
def contains (ledger : SlugLedger) (slug : String) : Bool :=
  ledger.issued.contains slug

/-- Number of issued slugs. -/
def size (ledger : SlugLedger) : Nat := ledger.issued.length

/-- The first free candidate of a stream, from candidate `index` on. -/
def firstFree?
    (ledger : SlugLedger)
    (stream : Nat → UInt8)
    (index : Nat) : Nat → Option String
  | 0 => none
  | remaining + 1 =>
      let candidate := slugCandidate stream index
      if ledger.contains candidate then firstFree? ledger stream (index + 1) remaining
      else some candidate

/-- Issues the first free candidate of a stream; none is issued when the whole
stream is taken. -/
def issue? (ledger : SlugLedger) (stream : Nat → UInt8) : Option (String × SlugLedger) :=
  (ledger.firstFree? stream 0 slugCandidates).map fun slug => (slug, ⟨slug :: ledger.issued⟩)

/-- Issues a slug for a seed. -/
def assign? (ledger : SlugLedger) (seed : String) : Option (String × SlugLedger) :=
  ledger.issue? (Hash.blake3Stream seed.toUTF8.toList)

end SlugLedger
end Name
end SchemaCompiler
