import CodeAtlas.Text.IdentifierTable

/-!
# Identifiers

Which characters start and go on an identifier.
-/

namespace CodeAtlas.Text

/-- Whether a number lies in one of the ranges from the `low`-th up to before the `high`-th, which
are in ascending order. -/
def inRanges (ranges : Array (Nat × Nat)) (n low high : Nat) : Bool :=
  if low < high then
    let middle := (low + high) / 2
    let (a, b) := ranges.getD middle (0, 0)
    if n < a then inRanges ranges n low middle
    else if b < n then inRanges ranges n (middle + 1) high
    else true
  else false
termination_by high - low

/-- Letters, the underscore and all that Unicode lets start an identifier. -/
def isIdentifierStart (c : Char) : Bool :=
  if c.toNat < 128 then c.isAlpha || c = '_'
  else inRanges IdentifierTable.start c.toNat 0 IdentifierTable.start.size

/-- Also digits, marks and all that Unicode lets go on an identifier. -/
def isIdentifierRest (c : Char) : Bool :=
  if c.toNat < 128 then c.isAlphanum || c = '_'
  else isIdentifierStart c ||
    inRanges IdentifierTable.extra c.toNat 0 IdentifierTable.extra.size

end CodeAtlas.Text
