import Mathlib.Data.List.Basic
import Mathlib.Data.List.TakeWhile
import ResilientCalls.Proofs.Numeric.Spelling
import ResilientCalls.Toml.Printer
import ResilientCalls.Toml.Scalar
/-!
# Numbers that TOML reads back

A regular spelling is one run of characters, is no date and no time, and
is read as an integer when it has neither a point nor an exponent, and
otherwise as the binary64 number of its numeral. So integers within the
range and all numbers in the data layout are read back
(`Toml.scalar?_integer`, `Toml.scalar?_real`).
-/

namespace ResilientCalls

namespace Toml

variable {s : Spelling}

/-! ## Runs of digits -/

/-- Digits without underscores are taken as they are. -/
theorem digits?_eq {isDigit : Char → Bool} (hunderscore : isDigit '_' = false) {cs : List Char}
    (hne : cs ≠ []) (hall : ∀ c ∈ cs, isDigit c = true) : digits? isDigit cs = some cs := by
  fun_induction digits? isDigit cs with
  | case1 => exact absurd rfl hne
  | case2 c hc => rfl
  | case3 c hc => exact absurd (hall c List.mem_cons_self) hc
  | case4 c rest hc ih =>
    have := hall '_' (by simp)
    rw [hunderscore] at this
    cases this
  | case5 c rest hc =>
    exact absurd (hall c List.mem_cons_self) hc
  | case6 c rest hnone hunder hc ih =>
    have hrest : rest ≠ [] := fun h => hnone h
    rw [ih hrest fun d hd => hall d (List.mem_cons_of_mem _ hd)]
    rfl
  | case7 c rest hnone hunder hc => exact absurd (hall c List.mem_cons_self) hc

theorem wholeDigits?_eq (hs : s.Regular) : wholeDigits? s.whole = some s.whole := by
  have hdigits : digits? Char.isDigit s.whole = some s.whole :=
    digits?_eq (by decide) hs.whole_ne hs.whole_digits
  rw [wholeDigits?, hdigits]
  split
  · next heq =>
    have := hs.leading _ (Option.some.inj heq)
    cases this
  · rfl

theorem splitSign_chars (hs : s.Regular) :
    splitSign s.chars = (signChars s.negative, s.body) := by
  unfold Spelling.chars
  cases s.negative with
  | true => rfl
  | false =>
    obtain ⟨c, cs, heq, hc⟩ := Spelling.exists_body_eq hs
    simp only [signChars, Bool.false_eq_true, if_false, List.nil_append, heq]
    unfold splitSign
    split
    · next h =>
      obtain ⟨rfl, -⟩ := List.cons.inj h
      exact absurd hc (by decide)
    · next h =>
      obtain ⟨rfl, -⟩ := List.cons.inj h
      exact absurd hc (by decide)
    · rfl

/-! ## Dates and times -/

theorem fixedDigits?_eq_some {count n : Nat} {cs rest : List Char}
    (h : fixedDigits? count cs = some (n, rest)) :
    ∃ ds, cs = ds ++ rest ∧ ds.length = count ∧ ∀ c ∈ ds, c.isDigit = true := by
  simp only [fixedDigits?] at h
  split_ifs at h with hds
  obtain ⟨-, rfl⟩ := Prod.mk.inj (Option.some.inj h)
  simp only [Bool.and_eq_true, decide_eq_true_eq, List.all_eq_true] at hds
  exact ⟨cs.take count, (List.take_append_drop count cs).symm, hds.1, hds.2⟩

theorem after?_eq_some {c : Char} {cs rest : List Char} (h : after? c cs = some rest) :
    cs = c :: rest := by
  cases cs with
  | nil => cases h
  | cons d ds =>
    simp only [after?] at h
    split_ifs at h with hd
    rw [hd, Option.some.inj h]

/-- A date has a hyphen right behind its first digits. -/
theorem exists_of_dropDate? {cs rest : List Char} (h : dropDate? cs = some rest) :
    ∃ d ds tail, cs = d :: ds ++ '-' :: tail ∧ ∀ c ∈ d :: ds, c.isDigit = true := by
  simp only [dropDate?, Option.bind_eq_bind, Option.bind_eq_some_iff] at h
  obtain ⟨⟨year, afterYear⟩, hyear, tail, htail, -⟩ := h
  obtain ⟨ds, rfl, hlength, hds⟩ := fixedDigits?_eq_some hyear
  obtain rfl := after?_eq_some htail
  obtain ⟨d, ds, rfl⟩ := List.exists_cons_of_length_pos (by omega : 0 < ds.length)
  exact ⟨d, ds, tail, rfl, hds⟩

/-- A time of day has a colon. -/
theorem colon_mem_of_dropTime? {cs rest : List Char} (h : dropTime? cs = some rest) :
    ':' ∈ cs := by
  simp only [dropTime?, Option.bind_eq_bind, Option.bind_eq_some_iff] at h
  obtain ⟨⟨hour, afterHour⟩, hhour, tail, htail, -⟩ := h
  obtain ⟨ds, rfl, -, -⟩ := fixedDigits?_eq_some hhour
  obtain rfl := after?_eq_some htail
  exact List.mem_append_right _ List.mem_cons_self

/-- A text is no date and no time when it has no colon and no hyphen right
behind its first digits. -/
theorem isMoment_eq_false {cs : List Char} (hcolon : ':' ∉ cs)
    (hhyphen : ∀ d ds tail, cs = d :: ds ++ '-' :: tail → ¬ ∀ c ∈ d :: ds, c.isDigit = true) :
    isMoment cs = false := by
  have hdate : dropDate? cs = none := by
    cases h : dropDate? cs with
    | none => rfl
    | some rest =>
      obtain ⟨d, ds, tail, heq, hds⟩ := exists_of_dropDate? h
      exact absurd hds (hhyphen d ds tail heq)
  have htime : dropTime? cs = none := by
    cases h : dropTime? cs with
    | none => rfl
    | some rest => exact absurd (colon_mem_of_dropTime? h) hcolon
  rw [isMoment, hdate, htime]
  rfl

/-! ## The characters of a spelling -/

/-- What follows the digits before the point is empty or begins with the
point or the letter of the exponent. -/
theorem tail_eq (fraction : List Char) (power : Option Int) :
    pointChars fraction ++ powerChars power = [] ∨
      ∃ c cs, pointChars fraction ++ powerChars power = c :: cs ∧ (c = '.' ∨ c = 'e') := by
  cases fraction with
  | cons d ds => exact Or.inr ⟨_, _, rfl, Or.inl rfl⟩
  | nil =>
    cases power with
    | none => exact Or.inl rfl
    | some e => exact Or.inr ⟨_, _, rfl, Or.inr rfl⟩

/-- The digits before the point end where they are spelled to end. -/
theorem dropWhile_body (hs : s.Regular) :
    s.body.dropWhile Char.isDigit = pointChars s.fraction ++ powerChars s.power := by
  rw [Spelling.body, List.dropWhile_append_of_pos hs.whole_digits]
  rcases tail_eq s.fraction s.power with hnil | ⟨c, cs, heq, hc⟩
  · rw [hnil]
    rfl
  · rw [heq]
    rcases hc with rfl | rfl <;> rfl

/-- No spelling is a date or a time. -/
theorem isMoment_chars (hs : s.Regular) : isMoment s.chars = false := by
  refine isMoment_eq_false (fun h => ?_) (fun d ds tail heq hdigits => ?_)
  · rcases Spelling.mem_chars hs h with hdigit | hother
    · exact absurd hdigit (by decide)
    · simp at hother
  · rw [Spelling.chars] at heq
    cases hnegative : s.negative with
    | true =>
      rw [hnegative] at heq
      obtain rfl : '-' = d := (List.cons.inj heq).1
      exact absurd (hdigits _ List.mem_cons_self) (by decide)
    | false =>
      rw [hnegative] at heq
      have hdrop := congrArg (List.dropWhile Char.isDigit) heq
      rw [List.dropWhile_append_of_pos hdigits] at hdrop
      have hhyphen : pointChars s.fraction ++ powerChars s.power = '-' :: tail :=
        (dropWhile_body hs).symm.trans hdrop
      rcases tail_eq s.fraction s.power with hnil | ⟨c, cs, hcons, hc⟩
      · rw [hnil] at hhyphen
        cases hhyphen
      · rw [hcons] at hhyphen
        rw [(List.cons.inj hhyphen).1] at hc
        simp at hc

theorem specialReal?_chars (hs : s.Regular) : specialReal? s.chars = none := by
  obtain ⟨c, cs, hbody, hc⟩ := Spelling.exists_body_eq hs
  simp only [specialReal?, splitSign_chars hs, hbody]
  rw [if_neg, if_neg]
  · intro h
    rw [(List.cons.inj h).1] at hc
    exact absurd hc (by decide)
  · intro h
    rw [(List.cons.inj h).1] at hc
    exact absurd hc (by decide)

/-! ## Integers -/

/-- The value of decimal digits in the base ten is their value. -/
theorem valueIn_ten {cs : List Char} (hall : ∀ c ∈ cs, c.isDigit = true) :
    valueIn 10 cs = digitsValue cs := by
  unfold valueIn digitsValue
  congr 1
  exact List.foldl_ext _ _ 0 fun n c hc => by rw [digitValue, if_pos (hall c hc)]

theorem body_ofInt (n : Int) : (Spelling.ofInt n).body = Nat.toDigits 10 n.natAbs := by
  simp [Spelling.body, Spelling.ofInt, pointChars, powerChars]

theorem integer?_ofInt {n : Int} (h : holdsInteger n = true) :
    integer? (Spelling.ofInt n).chars = some n := by
  have hs := Spelling.regular_ofInt n
  have hletter : ∀ c rest, (Spelling.ofInt n).chars = '0' :: c :: rest →
      c ≠ 'x' ∧ c ≠ 'o' ∧ c ≠ 'b' := by
    intro c rest heq
    have hmem : c ∈ (Spelling.ofInt n).chars := heq ▸ by simp
    rcases Spelling.mem_chars hs hmem with hdigit | rfl | rfl | rfl | rfl
    · refine ⟨?_, ?_, ?_⟩ <;> rintro rfl <;> exact absurd hdigit (by decide)
    all_goals decide
  have hwhole : wholeDigits? (Nat.toDigits 10 n.natAbs) = some (Nat.toDigits 10 n.natAbs) :=
    wholeDigits?_eq hs
  have hvalue : valueIn 10 (Nat.toDigits 10 n.natAbs) = (n.natAbs : Int) := by
    rw [valueIn_ten fun c => isDigit_of_mem_toDigits, digitsValue_toDigits]
  unfold integer?
  split
  · next rest heq => exact absurd rfl (hletter _ _ heq).1
  · next rest heq => exact absurd rfl (hletter _ _ heq).2.1
  · next rest heq => exact absurd rfl (hletter _ _ heq).2.2
  · simp only [splitSign_chars hs, body_ofInt, hwhole, hvalue, Option.map_some, Option.bind_some]
    have hrange : -9223372036854775808 ≤ n ∧ n ≤ 9223372036854775807 := by
      simpa [holdsInteger] using h
    have hsigned : (if (signChars (Spelling.ofInt n).negative).isEmpty = true then (n.natAbs : Int)
        else -(n.natAbs : Int)) = n := by
      by_cases hneg : n < 0
      · simp only [Spelling.ofInt, signChars, hneg, decide_true, if_true, List.isEmpty_cons,
          Bool.false_eq_true, if_false]
        omega
      · simp only [Spelling.ofInt, signChars, hneg, decide_false, Bool.false_eq_true, if_false,
          List.isEmpty_nil, if_true]
        omega
    rw [hsigned, inRange?, if_pos hrange]

theorem decimalReal?_ofInt (n : Int) : decimalReal? (Spelling.ofInt n).chars = none := by
  have hs := Spelling.regular_ofInt n
  have hall : ∀ c ∈ Nat.toDigits 10 n.natAbs, (c.isDigit || decide (c = '_')) = true :=
    fun c hc => by rw [isDigit_of_mem_toDigits hc]; rfl
  have hdrop : (Nat.toDigits 10 n.natAbs).dropWhile (fun c => c.isDigit || decide (c = '_')) = [] :=
    List.dropWhile_eq_nil_iff.2 hall
  simp only [decimalReal?, splitSign_chars hs, body_ofInt, hdrop, exponent?]
  cases wholeDigits? ((Nat.toDigits 10 n.natAbs).takeWhile fun c => c.isDigit || decide (c = '_'))
  · rfl
  · rfl

/-- **Integers within the range are read back.** -/
theorem scalar?_integer {n : Int} (h : holdsInteger n = true) :
    scalar? (toString n).toList = some (.integer n) := by
  have hs := Spelling.regular_ofInt n
  rw [Spelling.chars_ofInt, scalar?, isMoment_chars hs, specialReal?_chars hs, decimalReal?_ofInt,
    integer?_ofInt h]
  rfl

/-! ## Reals -/

/-- The exponent as it is passed on, without a plus sign. -/
def plainPower : Option Int → List Char
  | none => []
  | some e => 'e' :: (signChars (decide (e < 0)) ++ Nat.toDigits 10 e.natAbs)

theorem exponent?_powerChars (e : Int) :
    exponent? (powerChars (some e)) = some (plainPower (some e)) := by
  have hdigits : digits? Char.isDigit (Nat.toDigits 10 e.natAbs) =
      some (Nat.toDigits 10 e.natAbs) :=
    digits?_eq (by decide) Nat.toDigits_ne_nil fun c => isDigit_of_mem_toDigits
  rw [powerChars, exponent?, if_pos (by decide)]
  by_cases hneg : e < 0
  · simp [splitSign, hdigits, plainPower, signChars, hneg]
  · simp [splitSign, hdigits, plainPower, signChars, hneg]

theorem readExponent?_plainPower (power : Option Int) :
    Numeral.readExponent? (plainPower power) = some (power.getD 0) := by
  cases power with
  | none => rfl
  | some e => exact Numeral.readExponent?_digits e

/-- A character of the digits before or behind a point. -/
def isMantissa (c : Char) : Bool := c.isDigit || c = '_'

theorem isMantissa_of_isDigit {c : Char} (h : c.isDigit = true) : isMantissa c = true := by
  rw [isMantissa, h]
  rfl

theorem span_powerChars (power : Option Int) :
    (powerChars power).takeWhile isMantissa = [] ∧
      (powerChars power).dropWhile isMantissa = powerChars power := by
  cases power <;> exact ⟨rfl, rfl⟩

/-- Digits end at the power. -/
theorem span_digits {ds : List Char} (hdigits : ∀ c ∈ ds, c.isDigit = true)
    (power : Option Int) :
    (ds ++ powerChars power).takeWhile isMantissa = ds ∧
      (ds ++ powerChars power).dropWhile isMantissa = powerChars power := by
  have hds : ∀ c ∈ ds, isMantissa c = true := fun c hc => isMantissa_of_isDigit (hdigits c hc)
  obtain ⟨htake, hdrop⟩ := span_powerChars power
  rw [List.takeWhile_append_of_pos hds, List.dropWhile_append_of_pos hds, htake, hdrop]
  exact ⟨List.append_nil ds, rfl⟩

/-- The whole digits end at the point or the power. -/
theorem span_body (hs : s.Regular) :
    s.body.takeWhile isMantissa = s.whole ∧
      s.body.dropWhile isMantissa = pointChars s.fraction ++ powerChars s.power := by
  have hwhole : ∀ c ∈ s.whole, isMantissa c = true :=
    fun c hc => isMantissa_of_isDigit (hs.whole_digits c hc)
  rw [Spelling.body, List.takeWhile_append_of_pos hwhole, List.dropWhile_append_of_pos hwhole]
  rcases tail_eq s.fraction s.power with hnil | ⟨c, cs, heq, hc⟩
  · rw [hnil]
    exact ⟨List.append_nil _, rfl⟩
  · rw [heq]
    rcases hc with rfl | rfl <;> exact ⟨List.append_nil _, rfl⟩

/-- A spelling without a plus sign in its exponent is that of the same
numeral. -/
theorem read?_plain (hs : s.Regular) :
    Numeral.read? (signChars s.negative ++ s.whole ++
      (pointChars s.fraction ++ plainPower s.power)) = some s.numeral := by
  rw [List.append_assoc]
  exact Numeral.read?_parts hs.whole_ne hs.whole_digits hs.fraction_digits
    (readExponent?_plainPower s.power)

/-- **A spelling with a point or an exponent is read as the number of its
numeral,** unless that is too large. -/
theorem decimalReal?_chars (hs : s.Regular) (hreal : s.fraction ≠ [] ∨ s.power ≠ none)
    (hfinite : s.numeral.toBinary64 ≠ .infinite false) :
    decimalReal? s.chars = some s.numeral.toBinary64 := by
  have hfinish : ∀ tail, tail = pointChars s.fraction ++ plainPower s.power →
      (do
        let n ← Numeral.read? (signChars s.negative ++ s.whole ++ tail)
        let x := n.toBinary64
        if x = .infinite false then none else some x) = some s.numeral.toBinary64 := by
    rintro tail rfl
    rw [read?_plain hs]
    exact if_neg hfinite
  have hmantissa : (fun c : Char => c.isDigit || decide (c = '_')) = isMantissa := rfl
  simp only [decimalReal?, splitSign_chars hs, hmantissa, (span_body hs).1, (span_body hs).2,
    wholeDigits?_eq hs, Option.bind_eq_bind, Option.bind_some]
  cases hcase : s.fraction with
  | nil =>
    obtain ⟨e, he⟩ := Option.ne_none_iff_exists'.1 (hreal.resolve_left fun h => h hcase)
    rw [hcase, he] at hfinish
    have hexponent := exponent?_powerChars e
    simp only [he, pointChars, powerChars, List.nil_append] at hexponent ⊢
    split
    · next heq => exact absurd (List.cons.inj heq).1 (by decide)
    · rw [hexponent]
      exact hfinish _ rfl
  | cons d ds =>
    have hdigits : ∀ c ∈ d :: ds, c.isDigit = true := hcase ▸ hs.fraction_digits
    have hread : digits? Char.isDigit (d :: ds) = some (d :: ds) :=
      digits?_eq (by decide) (List.cons_ne_nil _ _) hdigits
    obtain ⟨htake, hdrop⟩ := span_digits hdigits s.power
    rw [List.cons_append] at htake hdrop
    rw [hcase] at hfinish
    simp only [pointChars, List.cons_append, htake, hdrop, hread, Option.bind_some]
    cases hpower : s.power with
    | none =>
      rw [hpower] at hfinish
      exact hfinish _ (List.append_nil _).symm
    | some e =>
      rw [hpower] at hfinish
      split
      · next heq => cases heq
      · rw [exponent?_powerChars]
        exact hfinish _ rfl

/-- **Numbers in the data layout are read back.** -/
theorem scalar?_real (x : Binary64) : scalar? x.dataText.toList = some (.real x) := by
  cases x with
  | nan => rfl
  | infinite negative => cases negative <;> rfl
  | finite negative m =>
    obtain ⟨s, hchars, hs, hreal, hvalue⟩ := Binary64.exists_spelling negative m
    have hfinite : s.numeral.toBinary64 ≠ .infinite false := by
      rw [hvalue]
      exact nofun
    rw [hchars, scalar?, isMoment_chars hs, specialReal?_chars hs,
      decimalReal?_chars hs hreal hfinite, hvalue]
    rfl

end Toml

end ResilientCalls
