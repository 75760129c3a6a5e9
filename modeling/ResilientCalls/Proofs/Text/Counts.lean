import Mathlib.Data.List.TakeWhile
import ResilientCalls.Proofs.Numeric.Digits
import ResilientCalls.Text.Blank
import ResilientCalls.Text.Count
/-!
# Numbers spelled out

What number a text spells out is said without a reader: digits, perhaps a
plus sign in front, white space around (`Spells`). Trimmed and read up to a
limit, a text gives exactly the number that it spells out, if that is
within the limit (`readCount?_trim_iff`).
-/

namespace ResilientCalls

namespace Text

variable {cs before middle after : List Char} {c : Char} {limit n : Nat}

theorem isBlank_of_isDigit (h : c.isDigit = true) : isBlank c = false := by
  have hrange : 48 ≤ c.toNat ∧ c.toNat ≤ 57 := Char.isDigit_iff_toNat.1 h
  simp only [isBlank, blankRanges, List.any_cons, List.any_nil, Bool.or_eq_false_iff,
    Bool.and_eq_false_iff, decide_eq_false_iff_not, and_true]
  omega

/-- Only white space is cut off. -/
theorem exists_trim (cs : List Char) :
    ∃ before after, cs = before ++ trim cs ++ after ∧
      (∀ c ∈ before, isBlank c = true) ∧ ∀ c ∈ after, isBlank c = true := by
  refine ⟨cs.takeWhile isBlank, ((cs.dropWhile isBlank).reverse.takeWhile isBlank).reverse, ?_,
    fun c hc => List.mem_takeWhile_imp hc,
    fun c hc => List.mem_takeWhile_imp (List.mem_reverse.1 hc)⟩
  rw [trim, List.append_assoc, ← List.reverse_append, List.takeWhile_append_dropWhile,
    List.reverse_reverse, List.takeWhile_append_dropWhile]

theorem dropWhile_isBlank_eq (hbefore : ∀ c ∈ before, isBlank c = true)
    (h : isBlank c = false) : (before ++ c :: cs).dropWhile isBlank = c :: cs := by
  rw [List.dropWhile_append_of_pos hbefore, List.dropWhile_cons_of_neg (by simp [h])]

/-- And all white space around a text without any. -/
theorem trim_append (hbefore : ∀ c ∈ before, isBlank c = true)
    (hmiddle : ∀ c ∈ middle, isBlank c = false) (hne : middle ≠ [])
    (hafter : ∀ c ∈ after, isBlank c = true) : trim (before ++ middle ++ after) = middle := by
  obtain ⟨first, rest, rfl⟩ := List.exists_cons_of_ne_nil hne
  have hfront : (before ++ (first :: rest) ++ after).dropWhile isBlank =
      first :: rest ++ after := by
    rw [List.append_assoc, List.cons_append,
      dropWhile_isBlank_eq hbefore (hmiddle first List.mem_cons_self)]
  obtain ⟨last, front, hlast⟩ := List.exists_cons_of_ne_nil (List.reverse_ne_nil_iff.2 hne)
  have hblank : isBlank last = false :=
    hmiddle last (List.mem_reverse.1 (hlast ▸ List.mem_cons_self))
  rw [trim, hfront, List.reverse_append, hlast,
    dropWhile_isBlank_eq (fun c hc => hafter c (List.mem_reverse.1 hc)) hblank, ← hlast,
    List.reverse_reverse]

/-- A number as it is written: decimal digits, perhaps a plus sign in
front. -/
def Writes (cs : List Char) (n : Nat) : Prop :=
  ∃ sign digits, cs = sign ++ digits ∧ (sign = [] ∨ sign = ['+']) ∧ digits ≠ [] ∧
    (∀ c ∈ digits, c.isDigit = true) ∧ Nat.ofDigitChars 10 digits 0 = n

/-- **The number that a text spells out,** with white space around it. -/
def Spells (text : String) (n : Nat) : Prop :=
  ∃ before written after, text.toList = before ++ written ++ after ∧
    (∀ c ∈ before, isBlank c = true) ∧ Writes written n ∧ ∀ c ∈ after, isBlank c = true

theorem Writes.ne_nil (h : Writes cs n) : cs ≠ [] := by
  obtain ⟨sign, digits, rfl, -, hne, -, -⟩ := h
  exact List.append_ne_nil_of_right_ne_nil sign hne

/-- Nothing in a written number is white space. -/
theorem Writes.not_isBlank (h : Writes cs n) : ∀ c ∈ cs, isBlank c = false := by
  obtain ⟨sign, digits, rfl, hsign, -, hdigits, -⟩ := h
  intro c hc
  rcases List.mem_append.1 hc with hc | hc
  · rcases hsign with rfl | rfl
    · cases hc
    · rw [List.mem_singleton.1 hc]
      decide
  · exact isBlank_of_isDigit (hdigits c hc)

/-- **A count is read off the numbers up to the limit** and off nothing
else. -/
theorem readCount?_eq_some_iff : readCount? limit cs = some n ↔ Writes cs n ∧ n ≤ limit := by
  constructor
  · intro h
    refine ⟨?_, readCount?_le h⟩
    unfold readCount? at h
    simp only [digitsValue_eq] at h
    split at h
    · cases h
    next hdigits =>
    have hvalue : Nat.ofDigitChars 10 (withoutPlus cs) 0 = n := by
      split at h
      · exact Option.some.inj h
      · cases h
    simp only [Bool.or_eq_true, List.isEmpty_iff, Bool.not_eq_true', not_or, Bool.not_eq_false,
      List.all_eq_true] at hdigits
    have hsign : ∃ sign, cs = sign ++ withoutPlus cs ∧ (sign = [] ∨ sign = ['+']) := by
      unfold withoutPlus
      split
      · exact ⟨['+'], rfl, .inr rfl⟩
      · exact ⟨[], rfl, .inl rfl⟩
    obtain ⟨sign, hcs, hsign⟩ := hsign
    exact ⟨sign, withoutPlus cs, hcs, hsign, hdigits.1, hdigits.2, hvalue⟩
  · rintro ⟨⟨sign, digits, rfl, hsign, hne, hdigits, rfl⟩, hlimit⟩
    have hplus : withoutPlus (sign ++ digits) = digits := by
      obtain ⟨first, rest, rfl⟩ := List.exists_cons_of_ne_nil hne
      rcases hsign with rfl | rfl
      · have hfirst : first ≠ '+' := by
          rintro rfl
          exact absurd (hdigits '+' List.mem_cons_self) (by decide)
        unfold withoutPlus
        split
        · simp_all
        · rfl
      · rfl
    simp only [readCount?, hplus, digitsValue_eq]
    rw [if_neg (by simpa [hne] using hdigits), if_pos hlimit]

/-- **Trimmed before it is read,** a text gives the number that it spells
out. -/
theorem readCount?_trim_iff {text : String} :
    readCount? limit (trim text.toList) = some n ↔ Spells text n ∧ n ≤ limit := by
  rw [readCount?_eq_some_iff]
  refine and_congr_left fun _ => ⟨fun h => ?_, ?_⟩
  · obtain ⟨before, after, heq, hbefore, hafter⟩ := exists_trim text.toList
    exact ⟨before, trim text.toList, after, heq, hbefore, h, hafter⟩
  · rintro ⟨before, written, after, heq, hbefore, hwritten, hafter⟩
    rw [heq, trim_append hbefore hwritten.not_isBlank hwritten.ne_nil hafter]
    exact hwritten

end Text

end ResilientCalls
