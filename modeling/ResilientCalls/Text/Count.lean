import ResilientCalls.Numeric.Decimal

/-!
# Counts in texts

A count is written with decimal digits and perhaps a plus sign in front;
it is read if it does not exceed a limit. Zeros in front do not matter.
-/

namespace ResilientCalls

namespace Text

/-- A text without a plus sign in front. -/
def withoutPlus : List Char → List Char
  | '+' :: rest => rest
  | rest => rest

/-- The count that a text is, if it is one up to `limit`. -/
def readCount? (limit : Nat) (cs : List Char) : Option Nat :=
  let digits := withoutPlus cs
  if digits.isEmpty || !digits.all Char.isDigit then none
  else if digitsValue digits ≤ limit then some (digitsValue digits)
  else none

/-- No count exceeds its limit. -/
theorem readCount?_le {limit n : Nat} {cs : List Char} (h : readCount? limit cs = some n) :
    n ≤ limit := by
  simp only [readCount?] at h
  split at h
  · simp at h
  · split at h
    · simp at h
      omega
    · simp at h

end Text

end ResilientCalls
