/-!
# White space around a text

The characters that Unicode calls white space, and texts without them at
both ends.
-/

namespace ResilientCalls

namespace Text

/-- The ranges of the white space characters, first and last, in order. -/
def blankRanges : List (Nat × Nat) :=
  [(0x9, 0xD), (0x20, 0x20), (0x85, 0x85), (0xA0, 0xA0), (0x1680, 0x1680), (0x2000, 0x200A),
    (0x2028, 0x2029), (0x202F, 0x202F), (0x205F, 0x205F), (0x3000, 0x3000)]

/-- A white space character. -/
def isBlank (c : Char) : Bool :=
  blankRanges.any fun (first, last) => decide (first ≤ c.toNat) && decide (c.toNat ≤ last)

/-- A text without the white space at its ends. -/
def trim (cs : List Char) : List Char :=
  ((cs.dropWhile isBlank).reverse.dropWhile isBlank).reverse

/-- A text of white space alone, or of nothing. -/
def isBlankText (s : String) : Bool := s.toList.all isBlank

end Text

end ResilientCalls
