/-!
# Sets of characters

A set of characters as a table: the ranges of their codes, both ends included, in ascending order.

## Main definitions

* `CodeRanges.has` — whether a character is in a table.

## Main results

* `CodeRanges.has_iff` — it is where its code lies in one of the ranges.
-/

namespace InfraGraph

namespace Text

/-- Ranges of character codes, each with its first and its last one. -/
abbrev CodeRanges :=
  List (Nat × Nat)

/-- Whether the code of a character lies in one of the ranges. -/
def CodeRanges.has (ranges : CodeRanges) (c : Char) : Bool :=
  ranges.any fun (first, last) => first ≤ c.toNat && c.toNat ≤ last

theorem CodeRanges.has_iff {ranges : CodeRanges} {c : Char} :
    ranges.has c = true ↔ ∃ r ∈ ranges, r.1 ≤ c.toNat ∧ c.toNat ≤ r.2 := by
  simp [CodeRanges.has]

end Text

end InfraGraph
