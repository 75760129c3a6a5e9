import ResilientCalls.Numeric.Layout
import ResilientCalls.Proofs.Numeric.ReadBack
/-!
# How numbers are spelled

A number is spelled as a sign, digits before and behind a point, and an
exponent, each of them in its place (`Spelling`). A regular spelling is
read as the numeral that it stands for (`Numeral.read?_parts`), and the
data layout is a regular spelling of a numeral that reads back
(`Binary64.exists_spelling`).
-/

namespace ResilientCalls

/-- The sign of a negative number. -/
def signChars (negative : Bool) : List Char := if negative then ['-'] else []

/-- The point and the digits behind it, if there are any. -/
def pointChars : List Char → List Char
  | [] => []
  | c :: cs => '.' :: c :: cs

/-- The exponent, if there is one, with its sign. -/
def powerChars : Option Int → List Char
  | none => []
  | some e => 'e' :: (if e < 0 then '-' else '+') :: Nat.toDigits 10 e.natAbs

/-- A number as it is spelled: its sign, the digits before and behind the
point, and its exponent. -/
structure Spelling where
  negative : Bool
  whole : List Char
  fraction : List Char
  power : Option Int

namespace Spelling

/-- The characters without the sign. -/
def body (s : Spelling) : List Char := s.whole ++ (pointChars s.fraction ++ powerChars s.power)

/-- The characters of a spelling. -/
def chars (s : Spelling) : List Char := signChars s.negative ++ s.body

/-- The numeral that a spelling stands for. -/
def numeral (s : Spelling) : Numeral :=
  ⟨s.negative, digitsValue (s.whole ++ s.fraction), s.power.getD 0 - s.fraction.length⟩

/-- A spelling with digits before the point, the first of them a zero only
when it stands alone. -/
structure Regular (s : Spelling) : Prop where
  whole_ne : s.whole ≠ []
  whole_digits : ∀ c ∈ s.whole, c.isDigit = true
  leading : ∀ cs, s.whole = '0' :: cs → cs = []
  fraction_digits : ∀ c ∈ s.fraction, c.isDigit = true

/-- An integer is spelled by its digits. -/
def ofInt (n : Int) : Spelling := ⟨decide (n < 0), Nat.toDigits 10 n.natAbs, [], none⟩

/-- The digits of a number do not begin with a zero before others. -/
theorem leading_toDigits {n : Nat} {cs : List Char} (h : Nat.toDigits 10 n = '0' :: cs) :
    cs = [] := by
  rcases Nat.eq_zero_or_pos n with rfl | hpos
  · rw [Nat.toDigits_zero] at h
    exact (List.cons.inj h).2.symm
  · obtain ⟨c, ds, heq, hc⟩ := head_toDigits_ne_zero hpos
    rw [heq] at h
    exact absurd (List.cons.inj h).1 hc

theorem regular_ofInt (n : Int) : (ofInt n).Regular where
  whole_ne := Nat.toDigits_ne_nil
  whole_digits _ := isDigit_of_mem_toDigits
  leading _ := leading_toDigits
  fraction_digits _ h := absurd h List.not_mem_nil

theorem chars_ofInt (n : Int) : (toString n).toList = (ofInt n).chars := by
  rw [Int.toString_eq_repr, Int.repr_eq_if]
  by_cases h : n < 0
  · have habs : (-n).toNat = n.natAbs := by omega
    rw [if_neg (by omega), String.toList_append, Nat.toList_repr, habs]
    simp [ofInt, chars, body, signChars, pointChars, powerChars, h]
  · have habs : n.toNat = n.natAbs := by omega
    rw [if_pos (by omega), Nat.toList_repr, habs]
    simp [ofInt, chars, body, signChars, pointChars, powerChars, h]

/-! ## Characters -/

variable {s : Spelling}

/-- The first character of a spelling without its sign is a digit. -/
theorem exists_body_eq (hs : s.Regular) :
    ∃ c cs, s.body = c :: cs ∧ c.isDigit = true := by
  obtain ⟨c, cs, heq⟩ := List.exists_cons_of_ne_nil hs.whole_ne
  exact ⟨c, cs ++ (pointChars s.fraction ++ powerChars s.power), by rw [body, heq]; rfl,
    hs.whole_digits c (heq ▸ List.mem_cons_self)⟩

theorem chars_ne_nil (hs : s.Regular) : s.chars ≠ [] := by
  obtain ⟨c, cs, hbody, -⟩ := exists_body_eq hs
  rw [chars, hbody]
  simp

/-- Every character of a spelling is a digit, a sign, a point or the
letter of an exponent. -/
theorem mem_chars (hs : s.Regular) {c : Char} (hc : c ∈ s.chars) :
    c.isDigit = true ∨ c = '-' ∨ c = '+' ∨ c = '.' ∨ c = 'e' := by
  simp only [chars, body, List.mem_append] at hc
  rcases hc with hsign | hwhole | hfraction | hpower
  · cases hnegative : s.negative <;> simp_all [signChars]
  · exact Or.inl (hs.whole_digits c hwhole)
  · cases heq : s.fraction with
    | nil => simp [heq, pointChars] at hfraction
    | cons d ds =>
      rw [heq, pointChars, List.mem_cons, ← heq] at hfraction
      rcases hfraction with rfl | hdigit
      · simp
      · exact Or.inl (hs.fraction_digits c hdigit)
  · cases heq : s.power with
    | none => simp [heq, powerChars] at hpower
    | some e =>
      rw [heq, powerChars, List.mem_cons, List.mem_cons] at hpower
      rcases hpower with rfl | rfl | hdigit
      · simp
      · split <;> simp
      · exact Or.inl (isDigit_of_mem_toDigits hdigit)

end Spelling

/-! ## Reading a spelling -/

/-- A digit is no sign. -/
theorem splitSign_of_isDigit {c : Char} {cs : List Char} (h : c.isDigit = true) :
    Numeral.splitSign (c :: cs) = (false, c :: cs) := by
  unfold Numeral.splitSign
  split
  · next heq =>
    obtain ⟨rfl, -⟩ := List.cons.inj heq
    exact absurd h (by decide)
  · next heq =>
    obtain ⟨rfl, -⟩ := List.cons.inj heq
    exact absurd h (by decide)
  · rfl

namespace Numeral

/-- What reads as an exponent is empty or begins with its letter. -/
theorem head_of_readExponent? {tail : List Char} {e : Int} (h : readExponent? tail = some e) :
    tail = [] ∨ ∃ c cs, tail = c :: cs ∧ c.isDigit = false ∧ c ≠ '.' := by
  cases tail with
  | nil => exact Or.inl rfl
  | cons c cs =>
    refine Or.inr ⟨c, cs, rfl, ?_⟩
    simp only [readExponent?] at h
    split_ifs at h with hletter
    simp only [Bool.or_eq_true, decide_eq_true_eq] at hletter
    rcases hletter with rfl | rfl <;> decide

/-- An exponent of digits with a minus sign, if any, in front. -/
theorem readExponent?_digits (e : Int) :
    readExponent? ('e' :: (signChars (decide (e < 0)) ++ Nat.toDigits 10 e.natAbs)) = some e := by
  have hall : (Nat.toDigits 10 e.natAbs).all Char.isDigit = true :=
    List.all_eq_true.2 fun c hc => isDigit_of_mem_toDigits hc
  have hne : (Nat.toDigits 10 e.natAbs).isEmpty = false := by
    rw [List.isEmpty_eq_false_iff]
    exact Nat.toDigits_ne_nil
  rw [readExponent?, if_pos (by decide), readInt?]
  by_cases hneg : e < 0
  · simp only [signChars, hneg, decide_true, if_true, List.singleton_append, splitSign, hall, hne,
      digitsValue_toDigits]
    simp only [Bool.not_true, Bool.or_self, Bool.false_eq_true, if_false, Option.some.injEq]
    omega
  · obtain ⟨c, cs, hdigits⟩ := List.exists_cons_of_ne_nil
      (Nat.toDigits_ne_nil (n := e.natAbs) (b := 10))
    have hc : c.isDigit = true := isDigit_of_mem_toDigits (hdigits ▸ List.mem_cons_self)
    simp only [signChars, hneg, decide_false, Bool.false_eq_true, if_false, List.nil_append]
    rw [hdigits, splitSign_of_isDigit hc, ← hdigits]
    simp only [hall, hne, digitsValue_toDigits, Bool.not_true, Bool.or_self, Bool.false_eq_true,
      if_false, Option.some.injEq]
    omega

/-- **A number is read in its parts:** sign, digits before and behind the
point, and exponent. -/
theorem read?_parts {negative : Bool} {whole fraction tail : List Char} {e : Int}
    (hne : whole ≠ []) (hwhole : ∀ c ∈ whole, c.isDigit = true)
    (hfraction : ∀ c ∈ fraction, c.isDigit = true) (htail : readExponent? tail = some e) :
    read? (signChars negative ++ (whole ++ (pointChars fraction ++ tail))) =
      some ⟨negative, digitsValue (whole ++ fraction), e - fraction.length⟩ := by
  obtain ⟨c, cs, rfl⟩ := List.exists_cons_of_ne_nil hne
  have hsign : splitSign (signChars negative ++ (c :: cs ++ (pointChars fraction ++ tail))) =
      (negative, c :: cs ++ (pointChars fraction ++ tail)) := by
    cases negative with
    | true => rfl
    | false => exact splitSign_of_isDigit (hwhole c List.mem_cons_self)
  have hstop : tail.takeWhile Char.isDigit = [] ∧ tail.dropWhile Char.isDigit = tail := by
    rcases head_of_readExponent? htail with rfl | ⟨d, ds, rfl, hd, -⟩
    · exact ⟨rfl, rfl⟩
    · simp [hd]
  simp only [read?, hsign, List.takeWhile_append_of_pos hwhole, List.dropWhile_append_of_pos hwhole]
  cases fraction with
  | nil =>
    rcases head_of_readExponent? htail with rfl | ⟨d, ds, rfl, hd, hpoint⟩
    · simp [pointChars, htail]
    · simp [pointChars, hd, hpoint, htail]
  | cons d ds =>
    have htake : (d :: ds ++ tail).takeWhile Char.isDigit = d :: ds := by
      rw [List.takeWhile_append_of_pos hfraction, hstop.1, List.append_nil]
    have hdrop : (d :: ds ++ tail).dropWhile Char.isDigit = tail := by
      rw [List.dropWhile_append_of_pos hfraction, hstop.2]
    have hpoint : ('.' :: (d :: ds ++ tail)).takeWhile Char.isDigit = [] ∧
        ('.' :: (d :: ds ++ tail)).dropWhile Char.isDigit = '.' :: (d :: ds ++ tail) :=
      ⟨rfl, rfl⟩
    simp only [pointChars, List.cons_append] at htake hdrop hpoint ⊢
    simp [hpoint, htake, hdrop, htail]

end Numeral

/-! ## The data layout -/

namespace ShortDecimal

variable {d : ShortDecimal}

/-- The digits of a fraction, with zeros in front up to one digit before
the point. -/
def padded (d : ShortDecimal) : List Char :=
  List.replicate ((-d.exponent).toNat + 1 - decimalLength d.digits) '0' ++
    Nat.toDigits 10 d.digits

/-- The spelling in positional notation, with a zero behind the point of a
whole number. -/
def positionalSpelling (negative : Bool) (d : ShortDecimal) : Spelling :=
  if 0 ≤ d.exponent then
    ⟨negative, Nat.toDigits 10 d.digits ++ List.replicate d.exponent.toNat '0', ['0'], none⟩
  else
    ⟨negative, d.padded.take (d.padded.length - (-d.exponent).toNat),
      d.padded.drop (d.padded.length - (-d.exponent).toNat), none⟩

/-- The spelling with one digit before the point. -/
def scientificSpelling (negative : Bool) (d : ShortDecimal) : Spelling :=
  ⟨negative, (Nat.toDigits 10 d.digits).take 1, (Nat.toDigits 10 d.digits).drop 1,
    some d.leading⟩

theorem length_padded (d : ShortDecimal) :
    d.padded.length = max ((-d.exponent).toNat + 1) (decimalLength d.digits) := by
  simp only [padded, List.length_append, List.length_replicate, decimalLength]
  omega

theorem digitsValue_padded (d : ShortDecimal) : digitsValue d.padded = d.digits := by
  rw [padded, digitsValue_append, digitsValue_replicate_zero, Nat.zero_mul, Nat.zero_add,
    digitsValue_toDigits]

theorem isDigit_of_mem_padded {c : Char} (h : c ∈ d.padded) : c.isDigit = true := by
  rcases List.mem_append.1 h with hzero | hdigit
  · rw [(List.mem_replicate.1 hzero).2]
    decide
  · exact isDigit_of_mem_toDigits hdigit

theorem toList_positional (negative : Bool) (d : ShortDecimal) :
    (d.positional ".0").toList = (d.positionalSpelling negative).body := by
  have htext : (toString d.digits).toList = Nat.toDigits 10 d.digits := Nat.toList_repr
  have hlength : (toString d.digits).length = decimalLength d.digits := by
    rw [← String.length_toList, htext]
    rfl
  unfold positional positionalSpelling
  split_ifs with hwhole
  · simp [Spelling.body, pointChars, powerChars, zeros, String.toList_append]
  · have hpadded : (zeros ((-d.exponent).toNat + 1 - (toString d.digits).length) ++
        toString d.digits).toList = d.padded := by
      rw [String.toList_append, htext, hlength, zeros, String.toList_ofList, padded]
    have hpaddedLength : (zeros ((-d.exponent).toNat + 1 - (toString d.digits).length) ++
        toString d.digits).length = d.padded.length := by
      rw [← String.length_toList, hpadded]
    simp only [hpadded, hpaddedLength, Spelling.body, powerChars, String.toList_append,
      String.toList_ofList, List.append_nil]
    have hfraction : d.padded.drop (d.padded.length - (-d.exponent).toNat) ≠ [] := by
      have hpadded := d.length_padded
      intro hnil
      have hnone := List.drop_eq_nil_iff.1 hnil
      omega
    obtain ⟨c, cs, heq⟩ := List.exists_cons_of_ne_nil hfraction
    rw [heq]
    simp [pointChars]

theorem regular_positionalSpelling (negative : Bool) (h : d.digits = 0 → d.exponent = 0) :
    (d.positionalSpelling negative).Regular := by
  unfold positionalSpelling
  split_ifs with hwhole
  · refine ⟨by simp [Nat.toDigits_ne_nil], ?_, ?_, by simp⟩
    · intro c hc
      rcases List.mem_append.1 hc with hdigit | hzero
      · exact isDigit_of_mem_toDigits hdigit
      · rw [(List.mem_replicate.1 hzero).2]
        decide
    · intro cs heq
      rcases Nat.eq_zero_or_pos d.digits with hzero | hpos
      · rw [hzero, h hzero, Nat.toDigits_zero] at heq
        exact (List.cons.inj heq).2.symm
      · obtain ⟨c, ds, hdigits, hc⟩ := head_toDigits_ne_zero hpos
        rw [hdigits] at heq
        exact absurd (List.cons.inj heq).1 hc
  · have hpos : 0 < d.digits := Nat.pos_of_ne_zero fun hzero => by
      have := h hzero
      omega
    have hlength := d.length_padded
    refine ⟨?_, fun c hc => isDigit_of_mem_padded (List.mem_of_mem_take hc), ?_,
      fun c hc => isDigit_of_mem_padded (List.mem_of_mem_drop hc)⟩
    · intro hnil
      have := congrArg List.length hnil
      simp only [List.length_take, List.length_nil] at this
      omega
    · intro cs heq
      -- a zero in front was put there to stand alone before the point
      rcases Nat.lt_or_ge (-d.exponent).toNat (decimalLength d.digits) with hlong | hshort
      · obtain ⟨c, ds, hdigits, hc⟩ := head_toDigits_ne_zero hpos
        have hpadded : d.padded = c :: ds := by
          rw [padded, hdigits, Nat.sub_eq_zero_of_le (by omega)]
          rfl
        have hhead := congrArg List.head? heq
        rw [hpadded, List.head?_take] at hhead
        split_ifs at hhead
        · cases hhead
        · exact absurd (Option.some.inj hhead) hc
      · have := congrArg List.length heq
        simp only [List.length_take, List.length_cons] at this
        exact List.eq_nil_of_length_eq_zero (by omega)

/-- The spelling in positional notation has the value of the decimal. -/
theorem numeral_positionalSpelling (negative : Bool) (d : ShortDecimal) :
    (d.positionalSpelling negative).numeral.toBinary64 =
      Numeral.toBinary64 ⟨negative, d.digits, d.exponent⟩ := by
  unfold positionalSpelling Spelling.numeral
  split_ifs with hwhole
  · have hvalue : digitsValue (Nat.toDigits 10 d.digits ++
        List.replicate d.exponent.toNat '0' ++ ['0']) =
        d.digits * pow10 (d.exponent.toNat + 1) := by
      rw [List.append_assoc, ← List.replicate_succ', digitsValue_append,
        digitsValue_replicate_zero, digitsValue_toDigits, List.length_replicate, Nat.add_zero]
    simp only [hvalue, Option.getD_none, List.length_singleton]
    rw [Numeral.toBinary64_mul_pow10]
    congr 2
    omega
  · have hlength := d.length_padded
    have hplaces : (0 : Int) - ((d.padded.drop
        (d.padded.length - (-d.exponent).toNat)).length : Int) = d.exponent := by
      rw [List.length_drop]
      omega
    simp only [List.take_append_drop, digitsValue_padded, Option.getD_none, hplaces]

theorem fraction_positionalSpelling (negative : Bool) (d : ShortDecimal) :
    (d.positionalSpelling negative).fraction ≠ [] := by
  unfold positionalSpelling
  split_ifs with hwhole
  · exact List.cons_ne_nil _ _
  · have hlength := d.length_padded
    intro hnil
    have hnone := List.drop_eq_nil_iff.1 hnil
    omega

theorem toList_scientific (negative : Bool) (d : ShortDecimal) :
    (d.scientific "+").toList = (d.scientificSpelling negative).body := by
  obtain ⟨c, cs, hdigits⟩ := List.exists_cons_of_ne_nil
    (Nat.toDigits_ne_nil (n := d.digits) (b := 10))
  have hpower : (if d.leading < 0 then "-" else "+" : String).toList =
      [if d.leading < 0 then '-' else '+'] := by
    split <;> rfl
  cases cs <;>
    simp [scientific, scientificSpelling, Spelling.body, pointChars, powerChars, hdigits, hpower]

theorem regular_scientificSpelling (negative : Bool) (d : ShortDecimal) :
    (d.scientificSpelling negative).Regular := by
  obtain ⟨c, cs, hdigits⟩ := List.exists_cons_of_ne_nil
    (Nat.toDigits_ne_nil (n := d.digits) (b := 10))
  refine ⟨?_, fun c hc => isDigit_of_mem_toDigits (List.mem_of_mem_take hc), ?_,
    fun c hc => isDigit_of_mem_toDigits (List.mem_of_mem_drop hc)⟩
  · simp [scientificSpelling, hdigits]
  · intro ds heq
    simp only [scientificSpelling, hdigits, List.take_succ_cons, List.take_zero] at heq
    exact (List.cons.inj heq).2.symm

/-- The spelling with one digit before the point has the value of the
decimal. -/
theorem numeral_scientificSpelling (negative : Bool) (d : ShortDecimal) :
    (d.scientificSpelling negative).numeral = ⟨negative, d.digits, d.exponent⟩ := by
  have hlength := decimalLength_pos d.digits
  have hplaces : d.leading - (((Nat.toDigits 10 d.digits).drop 1).length : Int) = d.exponent := by
    rw [List.length_drop, leading, decimalLength]
    rw [decimalLength] at hlength
    omega
  simp only [scientificSpelling, Spelling.numeral, List.take_append_drop, digitsValue_toDigits,
    Option.getD_some, hplaces]

end ShortDecimal

namespace Binary64

/-- **The data layout spells a number that reads back,** and shows that it
is no integer: with digits behind the point, or with an exponent. -/
theorem exists_spelling (negative : Bool) (m : Magnitude) :
    ∃ s : Spelling, (finite negative m).dataText.toList = s.chars ∧ s.Regular ∧
      (s.fraction ≠ [] ∨ s.power ≠ none) ∧ s.numeral.toBinary64 = .finite negative m := by
  have hsign : (signText negative).toList = signChars negative := by cases negative <;> rfl
  have hread := m.toBinary64_shortest .even negative
  simp only [dataText]
  split
  · refine ⟨(m.shortest .even).positionalSpelling negative, ?_,
      ShortDecimal.regular_positionalSpelling negative Magnitude.exponent_shortest,
      Or.inl (ShortDecimal.fraction_positionalSpelling negative _),
      (ShortDecimal.numeral_positionalSpelling negative _).trans hread⟩
    rw [String.toList_append, hsign, ShortDecimal.toList_positional negative]
    unfold ShortDecimal.positionalSpelling
    split <;> rfl
  · refine ⟨(m.shortest .even).scientificSpelling negative, ?_,
      ShortDecimal.regular_scientificSpelling negative _, Or.inr (Option.some_ne_none _),
      (congrArg _ (ShortDecimal.numeral_scientificSpelling negative _)).trans hread⟩
    rw [String.toList_append, hsign, ShortDecimal.toList_scientific negative]
    rfl

end Binary64

end ResilientCalls
