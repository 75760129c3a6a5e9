import ResilientCalls.Json.Printer
import ResilientCalls.Json.Reader
/-!
# Texts that JSON reads back

A character stands in a string for itself, or is escaped by a letter, or by
the number of a 16-bit unit (`Json.escape_cases`), and is read back in each
of the three forms. A unit that comes from a character is no half of a
surrogate pair, so it is joined with no other, and texts are read back with
what follows them (`Json.readString?_escaped`).
-/

namespace ResilientCalls

namespace Json

/-- The hexadecimal digits of a number read back. -/
theorem hexDigit?_hexChar {n : Nat} (h : n < 16) : hexDigit? (hexChar n) = some n := by
  revert n
  decide

/-- The four digits of a control character read back. -/
theorem hexValue?_control {n : Nat} (h : n < 32) :
    hexValue? ['0', '0', hexChar (n / 16), hexChar (n % 16)] = some n := by
  revert n
  decide

/-- A character stands for itself, or is escaped by a letter, or by
number. -/
theorem escape_cases (c : Char) :
    (escape c = [c] ∧ c ≠ '"' ∧ c ≠ '\\' ∧ 32 ≤ c.toNat) ∨
      (∃ letter, escape c = ['\\', letter] ∧ letter ≠ 'u' ∧ escaped? letter = some c) ∨
      (escape c = ['\\', 'u', '0', '0', hexChar (c.toNat / 16), hexChar (c.toNat % 16)] ∧
        c.toNat < 32) := by
  have hnamed : ∀ {n : Nat}, c.toNat = n → c = Char.ofNat n := fun h => by
    rw [← h, Char.ofNat_toNat]
  by_cases hquote : c = '"'
  · subst hquote
    exact .inr (.inl ⟨'"', rfl, by decide, rfl⟩)
  by_cases hback : c = '\\'
  · subst hback
    exact .inr (.inl ⟨'\\', rfl, by decide, rfl⟩)
  by_cases h8 : c.toNat = 8
  · obtain rfl := hnamed h8
    exact .inr (.inl ⟨'b', rfl, by decide, rfl⟩)
  by_cases h9 : c.toNat = 9
  · obtain rfl := hnamed h9
    exact .inr (.inl ⟨'t', rfl, by decide, rfl⟩)
  by_cases h10 : c.toNat = 10
  · obtain rfl := hnamed h10
    exact .inr (.inl ⟨'n', rfl, by decide, rfl⟩)
  by_cases h12 : c.toNat = 12
  · obtain rfl := hnamed h12
    exact .inr (.inl ⟨'f', rfl, by decide, rfl⟩)
  by_cases h13 : c.toNat = 13
  · obtain rfl := hnamed h13
    exact .inr (.inl ⟨'r', rfl, by decide, rfl⟩)
  rw [escape, if_neg hquote, if_neg hback, if_neg h8, if_neg h9, if_neg h10, if_neg h12,
    if_neg h13]
  by_cases hcontrol : c.toNat < 32
  · rw [if_pos hcontrol]
    exact .inr (.inr ⟨rfl, hcontrol⟩)
  · rw [if_neg hcontrol]
    exact .inl ⟨rfl, hquote, hback, by omega⟩

/-! ## Parts -/

/-- A unit that is no half of a surrogate pair is joined with no other. -/
theorem joinParts?_unit {u : Nat} (h : u < 0xD800) (parts : List StringPart) :
    joinParts? (.unit u :: parts) = (joinParts? parts).map (Char.ofNat u :: ·) := by
  have hhigh : isHigh u = false := by
    simp only [isHigh, Bool.and_eq_false_iff, decide_eq_false_iff_not]
    omega
  have hlow : isLow u = false := by
    simp only [isLow, Bool.and_eq_false_iff, decide_eq_false_iff_not]
    omega
  rcases parts with _ | ⟨c | v, parts⟩ <;> simp [joinParts?, hhigh, hlow]

/-- **A character is read back** from the way it stands in a string, as one
part, and the part stands for it. -/
theorem exists_part (c : Char) : ∃ part,
    (∀ tail, readParts? (escape c ++ tail) =
      (readParts? tail).map fun (parts, rest) => (part :: parts, rest)) ∧
    ∀ parts, joinParts? (part :: parts) = (joinParts? parts).map (c :: ·) := by
  rcases escape_cases c with ⟨heq, hquote, hback, hprintable⟩ | ⟨letter, heq, hletter, hescaped⟩ |
    ⟨heq, hcontrol⟩
  · refine ⟨.char c, fun tail => ?_, fun parts => rfl⟩
    have hkept : (decide (c.toNat < 32) || decide (c = '\\')) = false := by
      simp [hback, hprintable]
    rw [heq, List.singleton_append, readParts?]
    · simp [hkept]
    all_goals simp_all
  · refine ⟨.char c, fun tail => ?_, fun parts => rfl⟩
    rw [heq, List.cons_append, List.singleton_append, readParts?]
    · rw [hescaped]
      cases readParts? tail <;> rfl
    · exact fun _ _ _ _ _ h => absurd h hletter
  · refine ⟨.unit c.toNat, fun tail => ?_, fun parts => ?_⟩
    · rw [heq]
      simp only [List.cons_append, List.nil_append, readParts?, hexValue?_control hcontrol]
      cases readParts? tail <;> rfl
    · rw [joinParts?_unit (by omega), Char.ofNat_toNat]

theorem readParts?_escaped (cs rest : List Char) : ∃ parts,
    readParts? (cs.flatMap escape ++ '"' :: rest) = some (parts, rest) ∧
      joinParts? parts = some cs := by
  induction cs with
  | nil => exact ⟨[], rfl, rfl⟩
  | cons c cs ih =>
    obtain ⟨parts, hread, hjoin⟩ := ih
    obtain ⟨part, hpart, hstands⟩ := exists_part c
    refine ⟨part :: parts, ?_, ?_⟩
    · rw [List.flatMap_cons, List.append_assoc, hpart, hread, Option.map_some]
    · rw [hstands, hjoin, Option.map_some]

/-- **Texts are read back** with what follows them. -/
theorem readString?_escaped (s : String) (rest : List Char) :
    readString? (s.toList.flatMap escape ++ '"' :: rest) = some (some s, rest) := by
  obtain ⟨parts, hread, hjoin⟩ := readParts?_escaped s.toList rest
  simp only [readString?, hread, hjoin, Option.map_some, String.ofList_toList]

theorem writeText_append (s : String) (rest : List Char) :
    writeText s ++ rest = '"' :: (s.toList.flatMap escape ++ '"' :: rest) := by
  simp [writeText]

end Json

end ResilientCalls
