import ResilientCalls.Proofs.Json.Texts
import ResilientCalls.Toml.Printer
import ResilientCalls.Toml.Quoted
/-!
# Texts that TOML reads back

A character stands in a text for itself, or is escaped by a letter or by
number (`Toml.escape_cases`), and is read back in each of the three forms.
So texts and keys are read back with what follows them
(`Toml.readString?_writeText`, `Toml.readPath?_writeText`).
-/

namespace ResilientCalls

namespace Toml

/-! ## Texts -/

theorem charOf?_toNat (c : Char) : charOf? c.toNat = some c := by
  have hvalid : c.toNat < 0xD800 ∨ 0xDFFF < c.toNat ∧ c.toNat < 0x110000 := c.valid
  rw [charOf?, if_pos, Char.ofNat_toNat]
  simp only [Bool.or_eq_true, Bool.and_eq_true, decide_eq_true_eq]
  omega

/-- The character of an escape by letter is read back. -/
theorem readBasic?_letter {letter c : Char} (hdigits : escapeDigits? letter = none)
    (hescaped : escaped? letter = some c) (rest : List Char) :
    readBasic? .text ('\\' :: letter :: rest) =
      (readBasic? .text rest).map fun (s, rest) => (c :: s, rest) := by
  rw [readBasic?, if_neg (by decide), if_pos rfl, readBasic?]
  simp only [hdigits, hescaped]

/-- A hexadecimal digit before the last one. -/
theorem readBasic?_digit {left value d : Nat} {c : Char} (hleft : left ≠ 1)
    (hd : Json.hexDigit? c = some d) (rest : List Char) :
    readBasic? (.digits left value) (c :: rest) =
      readBasic? (.digits (left - 1) (value * 16 + d)) rest := by
  rw [readBasic?]
  simp only [hd, if_neg hleft]

/-- The character of an escape by number is read back. -/
theorem readBasic?_digits {c : Char} (hc : c.toNat < 256) (rest : List Char) :
    readBasic? .text ('\\' :: 'u' :: '0' :: '0' :: Json.hexChar (c.toNat / 16) ::
        Json.hexChar (c.toNat % 16) :: rest) =
      (readBasic? .text rest).map fun (s, rest) => (c :: s, rest) := by
  have hhigh := Json.hexDigit?_hexChar (n := c.toNat / 16) (by omega)
  have hlow := Json.hexDigit?_hexChar (n := c.toNat % 16) (by omega)
  have hzero : Json.hexDigit? '0' = some 0 := by decide
  have hvalue : ((0 * 16 + 0) * 16 + 0) * 16 + c.toNat / 16 = c.toNat / 16 := by omega
  have hchar : charOf? (c.toNat / 16 * 16 + c.toNat % 16) = some c := by
    rw [Nat.div_add_mod' c.toNat 16, charOf?_toNat]
  rw [readBasic?, if_neg (by decide), if_pos rfl, readBasic?]
  simp only [escapeDigits?]
  rw [readBasic?_digit (by decide) hzero, readBasic?_digit (by decide) hzero,
    readBasic?_digit (by decide) hhigh, hvalue, readBasic?]
  simp only [hlow, hchar, if_true]

/-- A character stands for itself, or is escaped by a letter, or by
number. -/
theorem escape_cases (c : Char) :
    (escape c = [c] ∧ c ≠ '"' ∧ c ≠ '\\' ∧ isPlain c = true) ∨
      (∃ letter, escape c = ['\\', letter] ∧ escapeDigits? letter = none ∧
        escaped? letter = some c) ∨
      (escape c = ['\\', 'u', '0', '0', Json.hexChar (c.toNat / 16),
        Json.hexChar (c.toNat % 16)] ∧ c.toNat < 256) := by
  have hnamed : ∀ {n : Nat}, c.toNat = n → c = Char.ofNat n := fun h => by
    rw [← h, Char.ofNat_toNat]
  by_cases hdelete : c.toNat = 127
  · obtain rfl := hnamed hdelete
    exact Or.inr (Or.inr ⟨rfl, by decide⟩)
  by_cases hquote : c = '"'
  · subst hquote
    exact Or.inr (Or.inl ⟨'"', rfl, rfl, rfl⟩)
  by_cases hback : c = '\\'
  · subst hback
    exact Or.inr (Or.inl ⟨'\\', rfl, rfl, rfl⟩)
  by_cases h8 : c.toNat = 8
  · obtain rfl := hnamed h8
    exact Or.inr (Or.inl ⟨'b', rfl, rfl, rfl⟩)
  by_cases h9 : c.toNat = 9
  · obtain rfl := hnamed h9
    exact Or.inr (Or.inl ⟨'t', rfl, rfl, rfl⟩)
  by_cases h10 : c.toNat = 10
  · obtain rfl := hnamed h10
    exact Or.inr (Or.inl ⟨'n', rfl, rfl, rfl⟩)
  by_cases h12 : c.toNat = 12
  · obtain rfl := hnamed h12
    exact Or.inr (Or.inl ⟨'f', rfl, rfl, rfl⟩)
  by_cases h13 : c.toNat = 13
  · obtain rfl := hnamed h13
    exact Or.inr (Or.inl ⟨'r', rfl, rfl, rfl⟩)
  rw [escape, if_neg hdelete, Json.escape, if_neg hquote, if_neg hback, if_neg h8, if_neg h9,
    if_neg h10, if_neg h12, if_neg h13]
  by_cases hcontrol : c.toNat < 32
  · rw [if_pos hcontrol]
    exact Or.inr (Or.inr ⟨rfl, by omega⟩)
  · rw [if_neg hcontrol]
    refine Or.inl ⟨rfl, hquote, hback, ?_⟩
    simp only [isPlain, Bool.or_eq_true, Bool.and_eq_true, decide_eq_true_eq, bne_iff_ne]
    exact Or.inr ⟨by omega, hdelete⟩

/-- A character is read back from the way it stands in a text. -/
theorem readBasic?_escape (c : Char) (rest : List Char) :
    readBasic? .text (escape c ++ rest) =
      (readBasic? .text rest).map fun (s, rest) => (c :: s, rest) := by
  rcases escape_cases c with ⟨heq, hquote, hback, hplain⟩ | ⟨letter, heq, hdigits, hletter⟩ |
    ⟨heq, hsmall⟩
  · rw [heq, List.singleton_append, readBasic?, if_neg hquote, if_neg hback, if_pos hplain]
  · rw [heq]
    exact readBasic?_letter hdigits hletter rest
  · rw [heq]
    exact readBasic?_digits hsmall rest

/-- **Texts are read back.** -/
theorem readBasic?_escaped (cs rest : List Char) :
    readBasic? .text (cs.flatMap escape ++ '"' :: rest) = some (cs, rest) := by
  induction cs with
  | nil => rfl
  | cons c cs ih =>
    rw [List.flatMap_cons, List.append_assoc, readBasic?_escape, ih]
    rfl

/-- No character stands in a text as a quote alone. -/
theorem escape_ne_quote (c : Char) (cs ds : List Char) : escape c ++ cs ≠ '"' :: ds := by
  intro heq
  rcases escape_cases c with ⟨hself, hquote, -, -⟩ | ⟨letter, hescaped, -, -⟩ | ⟨hescaped, -⟩
  · rw [hself] at heq
    exact hquote (List.cons.inj heq).1
  · rw [hescaped] at heq
    exact absurd (List.cons.inj heq).1 (by decide)
  · rw [hescaped] at heq
    exact absurd (List.cons.inj heq).1 (by decide)

/-- No line break stands in a text as it is. -/
theorem return_not_mem_escape (c : Char) : '\r' ∉ escape c := by
  have hhex : ∀ n < 16, '\r' ≠ Json.hexChar n := by decide
  rcases escape_cases c with ⟨hself, -, -, hplain⟩ | ⟨letter, hescaped, -, hletter⟩ |
    ⟨hescaped, hsmall⟩
  · rw [hself, List.mem_singleton]
    rintro rfl
    exact absurd hplain (by decide)
  · rw [hescaped, List.mem_cons, List.mem_singleton]
    rintro (h | rfl)
    · exact absurd h (by decide)
    · exact absurd hletter (by simp [escaped?])
  · have hhigh := hhex (c.toNat / 16) (by omega)
    have hlow := hhex (c.toNat % 16) (by omega)
    simp [hescaped, hhigh, hlow]

/-- A text is read back in front of anything but a quote. -/
theorem readString?_writeText (s : String) {rest : List Char} (hrest : rest.head? ≠ some '"') :
    readString? (writeText s ++ rest) = some (s.toList, rest) := by
  have hread := readBasic?_escaped s.toList rest
  -- an escaped text does not begin with a quote, and after an empty one none follows
  have hthird : ∀ cs, s.toList.flatMap escape ++ '"' :: rest ≠ '"' :: '"' :: cs := by
    intro cs heq
    cases hchars : s.toList with
    | nil =>
      rw [hchars] at heq
      exact hrest (congrArg List.head? (List.cons.inj heq).2)
    | cons d ds =>
      rw [hchars, List.flatMap_cons, List.append_assoc] at heq
      exact escape_ne_quote d _ _ heq
  have hchars : writeText s ++ rest = '"' :: (s.toList.flatMap escape ++ '"' :: rest) := by
    rw [writeText, List.append_assoc]
    rfl
  rw [hchars]
  unfold readString?
  split
  · next heq => exact absurd (List.cons.inj heq).2 (hthird _)
  · next heq => exact absurd (List.cons.inj heq).1 (by decide)
  · next heq =>
    obtain rfl := (List.cons.inj heq).2
    exact hread
  · next heq => exact absurd (List.cons.inj heq).1 (by decide)
  · next hnone _ => exact absurd rfl (hnone _)

/-! ## Keys -/

theorem readPath?_writeText (key : String) {fuel : Nat} (hfuel : 0 < fuel) (rest : List Char) :
    readPath? fuel (writeText key ++ '=' :: rest) = some ([key], '=' :: rest) := by
  obtain ⟨fuel, rfl⟩ := Nat.exists_eq_add_one.2 hfuel
  have hread := readBasic?_escaped key.toList ('=' :: rest)
  have hblanks : skipBlanks (writeText key ++ '=' :: rest) = writeText key ++ '=' :: rest := rfl
  have hkey : readKey? (writeText key ++ '=' :: rest) = some (key.toList, '=' :: rest) := by
    rw [writeText, List.append_assoc, List.singleton_append, List.cons_append, readKey?, hread]
  rw [readPath?]
  simp only [hblanks, hkey, String.ofList_toList]
  rfl

end Toml

end ResilientCalls
