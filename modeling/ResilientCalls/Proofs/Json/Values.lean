import Mathlib.Data.List.TakeWhile
import ResilientCalls.Proofs.Document.Fields
import ResilientCalls.Proofs.Document.FreeForm
import ResilientCalls.Proofs.Json.Texts
import ResilientCalls.Proofs.Numeric.Spelling
/-!
# Values that JSON reads back

A node that is read from a JSON text has integers of 64 bits
(`Json.holdsInteger_of_read?`). A node of such integers, without an
unusable part, is read back from its text if each of its reals is
(`Json.read?_print`): in front of anything that ends it, and with as much
fuel as twice its length. The induction is on the node, together with the
items of a sequence and the entries of a mapping.
-/

namespace ResilientCalls

namespace Json

/-! ## Scalars -/

/-- An integer fits a 64-bit word, signed or unsigned. -/
def HoldsInteger : Node → Prop
  | .integer n => -9223372036854775808 ≤ n ∧ n ≤ maxCount64
  | _ => True

/-- A real is read back from its text. -/
def ReadsReal : Node → Prop
  | .real x => read? (print (.real x)) = some (.real x)
  | _ => True

/-- A node is this real. -/
def isReal (x : Binary64) : Node → Bool
  | .real y => y = x
  | _ => false

theorem isReal_iff {x : Binary64} {n : Node} : isReal x n = true ↔ n = .real x := by
  cases n <;> simp [isReal]

instance : DecidablePred ReadsReal
  | .real x => decidable_of_iff ((read? (print (.real x))).any (isReal x) = true) (by
      simp [Option.any_eq_true, isReal_iff, ReadsReal])
  | .null | .boolean _ | .integer _ | .text _ | .sequence _ | .mapping _ | .unusable =>
    .isTrue trivial

/-- A scalar that can be read back. -/
structure Scalar (n : Node) : Prop where
  kept : Node.KeptScalar HoldsInteger n
  real : ReadsReal n

/-- A character that ends a value. -/
def endsValue (c : Char) : Bool := c = ',' || c = ']' || c = '\x7d'

/-- What follows a value: nothing, or a character that ends it. -/
def Follows (rest : List Char) : Prop := ∀ c ∈ rest.head?, endsValue c = true

theorem follows_nil : Follows [] := nofun

theorem follows_cons {c : Char} (h : endsValue c = true) (rest : List Char) :
    Follows (c :: rest) := by
  intro d hd
  obtain rfl := Option.some.inj hd
  exact h

/-! ## Numbers -/

/-- What ends a value is no part of a number. -/
theorem not_isNumberChar_of_endsValue {c : Char} (h : endsValue c = true) :
    isNumberChar c = false := by
  simp only [endsValue, Bool.or_eq_true, decide_eq_true_eq] at h
  rcases h with (rfl | rfl) | rfl <;> decide

/-- A run of number characters goes on to what ends the value. -/
theorem readNumber?_run {run rest : List Char} (hall : ∀ c ∈ run, isNumberChar c = true)
    (hrest : Follows rest) :
    readNumber? (run ++ rest) = (NumberText.ofChars? run).map fun t => (t.toNode, rest) := by
  have hstop : rest.takeWhile isNumberChar = [] ∧ rest.dropWhile isNumberChar = rest := by
    cases rest with
    | nil => exact ⟨rfl, rfl⟩
    | cons c rest =>
      have hc := not_isNumberChar_of_endsValue (hrest c rfl)
      simp [hc]
  rw [readNumber?, List.takeWhile_append_of_pos hall, List.dropWhile_append_of_pos hall, hstop.1,
    hstop.2, List.append_nil]

/-- A value that begins like a number is read as one. -/
theorem readValue?_run {run rest : List Char} (hne : run ≠ [])
    (hall : ∀ c ∈ run, isNumberChar c = true) (hrest : Follows rest) (fuel : Nat) :
    readValue? (fuel + 1) (run ++ rest) =
      (NumberText.ofChars? run).map fun t => (t.toNode, rest) := by
  rw [← readNumber?_run hall hrest]
  obtain ⟨c, cs, rfl⟩ := List.exists_cons_of_ne_nil hne
  have hother : ∀ {d : Char}, isNumberChar d = false → ∀ tail, c :: (cs ++ rest) ≠ d :: tail := by
    intro d hd tail heq
    rw [← (List.cons.inj heq).1, hall c List.mem_cons_self] at hd
    cases hd
  rw [List.cons_append, readValue?]
  · exact List.cons_ne_nil _ _
  all_goals exact hother (by decide)

theorem isNumberChar_of_spelled {s : Spelling} (hs : s.Regular) :
    ∀ c ∈ s.chars, isNumberChar c = true := by
  intro c hc
  rcases Spelling.mem_chars hs hc with hdigit | rfl | rfl | rfl | rfl
  · simp [isNumberChar, hdigit]
  all_goals decide

/-- The text of an integer is a run of number characters. -/
theorem integer_run (n : Int) : (write (.integer n)) ≠ [] ∧
    ∀ c ∈ write (.integer n), isNumberChar c = true := by
  rw [write, Spelling.chars_ofInt]
  exact ⟨Spelling.chars_ne_nil (Spelling.regular_ofInt n),
    isNumberChar_of_spelled (Spelling.regular_ofInt n)⟩

/-- The text of a finite number is a run of number characters. -/
theorem real_run {x : Binary64} (h : x.isFinite = true) : (write (.real x)) ≠ [] ∧
    ∀ c ∈ write (.real x), isNumberChar c = true := by
  cases x with
  | nan => cases h
  | infinite negative => cases h
  | finite negative m =>
    obtain ⟨s, hchars, hs, -⟩ := Binary64.exists_spelling negative m
    rw [write, if_pos h, hchars]
    exact ⟨Spelling.chars_ne_nil hs, isNumberChar_of_spelled hs⟩

theorem wholeOk_toDigits (n : Nat) : NumberText.wholeOk (Nat.toDigits 10 n) = true := by
  have hall : ∀ c ∈ Nat.toDigits 10 n, c.isDigit = true := fun c => isDigit_of_mem_toDigits
  unfold NumberText.wholeOk
  split
  · next heq => exact absurd heq Nat.toDigits_ne_nil
  · rfl
  · next c rest hlone heq =>
    have hfirst : c ≠ '0' := by
      rintro rfl
      exact hlone rfl (Spelling.leading_toDigits heq)
    rw [heq] at hall
    simpa [hfirst] using hall

/-- The parts of an integer's text. -/
theorem ofChars?_integer (n : Int) : NumberText.ofChars? (write (.integer n)) =
    some ⟨decide (n < 0), Nat.toDigits 10 n.natAbs, [], none⟩ := by
  have hall : ∀ c ∈ Nat.toDigits 10 n.natAbs, c.isDigit = true :=
    fun c => isDigit_of_mem_toDigits
  have htake : (Nat.toDigits 10 n.natAbs).takeWhile Char.isDigit = Nat.toDigits 10 n.natAbs :=
    List.takeWhile_eq_self_iff.2 hall
  have hdrop : (Nat.toDigits 10 n.natAbs).dropWhile Char.isDigit = [] :=
    List.dropWhile_eq_nil_iff.2 hall
  have hchars : write (.integer n) = signChars (decide (n < 0)) ++ Nat.toDigits 10 n.natAbs := by
    rw [write, Spelling.chars_ofInt]
    simp [Spelling.chars, Spelling.body, Spelling.ofInt, pointChars, powerChars]
  by_cases hneg : n < 0
  · rw [hchars, signChars, decide_eq_true hneg, if_pos rfl, List.singleton_append,
      NumberText.ofChars?]
    simp only [htake, hdrop, wholeOk_toDigits]
    rfl
  · have hfirst : ∀ rest, Nat.toDigits 10 n.natAbs ≠ '-' :: rest := fun rest heq =>
      absurd (hall '-' (heq ▸ List.mem_cons_self)) (by decide)
    rw [hchars, signChars, decide_eq_false hneg, if_neg Bool.false_ne_true, List.nil_append,
      NumberText.ofChars?]
    · simp only [htake, hdrop, wholeOk_toDigits]
      rfl
    · exact hfirst

/-- An integer of 64 bits is the node of its text. -/
theorem toNode_integer {n : Int} (h : HoldsInteger (.integer n)) :
    NumberText.toNode ⟨decide (n < 0), Nat.toDigits 10 n.natAbs, [], none⟩ = .integer n := by
  obtain ⟨hlow, hhigh⟩ := h
  unfold maxCount64 at hhigh
  simp only [NumberText.toNode, digitsValue_toDigits, List.isEmpty_nil, Option.isNone_none]
  by_cases hneg : n < 0
  · have hnonzero : (n.natAbs != 0) = true := bne_iff_ne.2 (by omega)
    have hrange : n.natAbs ≤ 9223372036854775808 := by omega
    simp only [hneg, hnonzero, hrange, decide_true, Bool.not_true, Bool.false_and, Bool.and_self,
      Bool.false_eq_true, if_false, if_true, Node.integer.injEq]
    omega
  · have hrange : n.natAbs ≤ maxCount64 := by
      unfold maxCount64
      omega
    simp only [hneg, hrange, decide_true, decide_false, Bool.not_false, Bool.and_self, if_true,
      Node.integer.injEq]
    omega

/-! ## Where values begin and end -/

/-- A character that can begin a value: no white space and no bracket that
closes. -/
def StartsValue (c : Char) : Prop := isBlank c = false ∧ c ≠ ']'

theorem startsValue_of_isNumberChar {c : Char} (h : isNumberChar c = true) : StartsValue c := by
  constructor
  · simp only [isBlank, Bool.or_eq_false_iff, decide_eq_false_iff_not]
    refine ⟨⟨⟨?_, ?_⟩, ?_⟩, ?_⟩ <;> rintro rfl <;> exact absurd h (by decide)
  · rintro rfl
    exact absurd h (by decide)

/-- Every value has a first character. -/
theorem exists_of_write (n : Node) : ∃ c tail, write n = c :: tail ∧ StartsValue c := by
  have hnull : ∃ c tail, "null".toList = c :: tail ∧ StartsValue c :=
    ⟨'n', _, rfl, by decide, by decide⟩
  have hrun : ∀ {run : List Char}, run ≠ [] ∧ (∀ c ∈ run, isNumberChar c = true) →
      ∃ c tail, run = c :: tail ∧ StartsValue c := by
    rintro run ⟨hne, hall⟩
    obtain ⟨c, tail, rfl⟩ := List.exists_cons_of_ne_nil hne
    exact ⟨c, tail, rfl, startsValue_of_isNumberChar (hall c List.mem_cons_self)⟩
  cases n with
  | null => exact hnull
  | unusable => exact hnull
  | boolean b => cases b <;> exact ⟨_, _, rfl, by decide, by decide⟩
  | integer n => exact hrun (integer_run n)
  | real x =>
    by_cases hfinite : x.isFinite = true
    · exact hrun (real_run hfinite)
    · rw [write, if_neg hfinite]
      exact hnull
  | text s => exact ⟨'"', _, rfl, by decide, by decide⟩
  | sequence items => exact ⟨'[', _, rfl, by decide, by decide⟩
  | mapping entries => exact ⟨'\x7b', _, rfl, by decide, by decide⟩

/-- The text of some items begins with the first of them. -/
theorem exists_of_writeItems (n : Node) (more : List Node) :
    ∃ c tail, writeItems (n :: more) = c :: tail ∧ StartsValue c := by
  obtain ⟨c, tail, heq, hc⟩ := exists_of_write n
  cases more with
  | nil => exact ⟨c, tail, by rw [writeItems, heq], hc⟩
  | cons m more => exact ⟨c, _, by rw [writeItems, heq, List.cons_append], hc⟩

/-- The text of some entries begins with the quote of a key. -/
theorem exists_of_writeEntries (e : String × Node) (more : List (String × Node)) :
    ∃ tail, writeEntries (e :: more) = '"' :: tail := by
  cases more <;> exact ⟨_, rfl⟩

theorem skipBlanks_eq {c : Char} (h : isBlank c = false) (rest : List Char) :
    skipBlanks (c :: rest) = c :: rest :=
  List.dropWhile_cons_of_neg (by simp [h])

/-- A whole text is read as its value is. -/
theorem read?_print_eq {n m : Node} : read? (print n) = some m ↔
    ∃ rest, readValue? (2 * (write n).length + 2) (write n) = some (m, rest) ∧
      (skipBlanks rest).isEmpty = true := by
  obtain ⟨c, tail, heq, hc⟩ := exists_of_write n
  have hskip : skipBlanks (write n) = write n := by rw [heq, skipBlanks_eq hc.1]
  simp only [read?, print, String.toList_ofList, hskip]
  rcases readValue? (2 * (write n).length + 2) (write n) with _ | ⟨node, rest⟩
  · simp
  · by_cases hend : skipBlanks rest = [] <;> simp [hend]

/-- A real that is read back is the node of its text. -/
theorem exists_of_readsReal {x : Binary64} (h : ReadsReal (.real x)) :
    x.isFinite = true ∧ ∃ t, NumberText.ofChars? (write (.real x)) = some t ∧
      t.toNode = .real x := by
  have hfinite : x.isFinite = true := by
    by_contra hnot
    have hnull : print (.real x) = print .null := by rw [print, write, if_neg hnot]; rfl
    rw [ReadsReal, hnull, show read? (print .null) = some .null from rfl] at h
    cases h
  obtain ⟨hne, hall⟩ := real_run hfinite
  obtain ⟨rest, hread, -⟩ := read?_print_eq.1 h
  have hrun := readValue?_run hne hall follows_nil (2 * (write (.real x)).length + 1)
  rw [List.append_nil, hread] at hrun
  obtain ⟨t, ht, heq⟩ := Option.map_eq_some_iff.1 hrun.symm
  exact ⟨hfinite, t, ht, (Prod.mk.inj heq).1⟩

/-! ## Values -/

theorem readValue?_text (s : String) (fuel : Nat) (rest : List Char) :
    readValue? (fuel + 1) (writeText s ++ rest) = some (.text s, rest) := by
  rw [writeText_append, readValue?, readString?_escaped]
  rfl

/-- A sequence of some items is read as its items are. -/
theorem readValue?_items {fuel : Nat} {c : Char} {cs rest : List Char} {items : List Node}
    (hc : StartsValue c) (hitems : readItems? fuel (c :: cs) = some (items, rest)) :
    readValue? (fuel + 1) ('[' :: c :: cs) = some (.sequence items, rest) := by
  rw [readValue?, skipBlanks_eq hc.1]
  split
  · next heq => exact absurd (List.cons.inj heq).1 hc.2
  · rw [hitems, Option.map_some]

/-- A mapping of some entries is read as its entries are. -/
theorem readValue?_entries {fuel : Nat} {cs rest : List Char}
    {entries : List (Option String × Node)}
    (hentries : readEntries? fuel ('"' :: cs) = some (entries, rest)) :
    readValue? (fuel + 1) ('\x7b' :: '"' :: cs) = some (mappingOf entries, rest) := by
  rw [readValue?, skipBlanks_eq (by decide)]
  split
  · next heq => exact absurd (List.cons.inj heq).1 (by decide)
  · rw [hentries, Option.map_some]

/-- The first item of a sequence, when it is the last. -/
theorem readItems?_last {fuel : Nat} {cs rest : List Char} {n : Node}
    (hn : readValue? fuel cs = some (n, ']' :: rest)) :
    readItems? (fuel + 1) cs = some ([n], rest) := by
  rw [readItems?, hn]
  simp only [skipBlanks_eq (c := ']') (by decide)]

/-- The first item of a sequence, when more follow. -/
theorem readItems?_more {fuel : Nat} {cs more rest : List Char} {c : Char} {n : Node}
    {items : List Node} (hc : StartsValue c)
    (hn : readValue? fuel cs = some (n, ',' :: c :: more))
    (hitems : readItems? fuel (c :: more) = some (items, rest)) :
    readItems? (fuel + 1) cs = some (n :: items, rest) := by
  rw [readItems?, hn]
  simp only [skipBlanks_eq (c := ',') (by decide), skipBlanks_eq hc.1, hitems, Option.map_some]

section

variable {fuel : Nat} {key : String} {cs rest : List Char} {c : Char} {n : Node}

/-- The first entry of a mapping, when it is the last. -/
theorem readEntries?_last (hc : StartsValue c)
    (hn : readValue? fuel (c :: cs) = some (n, '\x7d' :: rest)) :
    readEntries? (fuel + 1) (writeText key ++ ':' :: c :: cs) = some ([(some key, n)], rest) := by
  rw [writeText_append, readEntries?, readString?_escaped]
  simp only [skipBlanks_eq (c := ':') (by decide), skipBlanks_eq hc.1, hn,
    skipBlanks_eq (c := '\x7d') (by decide)]

/-- The first entry of a mapping, when more follow. -/
theorem readEntries?_more {more : List Char} {entries : List (Option String × Node)}
    (hc : StartsValue c) (hn : readValue? fuel (c :: cs) = some (n, ',' :: '"' :: more))
    (hentries : readEntries? fuel ('"' :: more) = some (entries, rest)) :
    readEntries? (fuel + 1) (writeText key ++ ':' :: c :: cs) =
      some ((some key, n) :: entries, rest) := by
  rw [writeText_append, readEntries?, readString?_escaped]
  simp only [skipBlanks_eq (c := ':') (by decide), skipBlanks_eq hc.1, hn,
    skipBlanks_eq (c := ',') (by decide), skipBlanks_eq (c := '"') (by decide), hentries,
    Option.map_some]

end

/-- A scalar is read back in front of what follows it. -/
theorem readValue?_scalar {n : Node} (hn : Scalar n) (hleaf : n.depth = 0) {rest : List Char}
    (hrest : Follows rest) (fuel : Nat) :
    readValue? (fuel + 1) (write n ++ rest) = some (n, rest) := by
  cases n with
  | null => rfl
  | boolean b => cases b <;> rfl
  | integer n =>
    rw [readValue?_run (integer_run n).1 (integer_run n).2 hrest, ofChars?_integer,
      Option.map_some, toNode_integer hn.kept.1]
  | real x =>
    obtain ⟨hfinite, t, ht, hnode⟩ := exists_of_readsReal hn.real
    rw [readValue?_run (real_run hfinite).1 (real_run hfinite).2 hrest, ht, Option.map_some, hnode]
  | text s => exact readValue?_text s fuel rest
  | sequence items => cases hleaf
  | mapping entries => cases hleaf
  | unusable => exact absurd rfl hn.kept.2

/-- Entries as they are read, all of them with a key. -/
def keyed (entries : List (String × Node)) : List (Option String × Node) :=
  entries.map fun e => (some e.1, e.2)

theorem mappingOf_keyed (entries : List (String × Node)) :
    mappingOf (keyed entries) = .mapping entries := by
  have hall : (keyed entries).mapM (fun e => e.1.map (·, e.2)) = some entries := by
    induction entries with
    | nil => rfl
    | cons e rest ih =>
      rw [keyed] at ih ⊢
      rw [List.map_cons, List.mapM_cons, ih]
      rfl
  rw [mappingOf]
  split
  · next found hfound =>
    obtain rfl := Option.some.inj (hfound.symm.trans hall)
    rfl
  · next hnone => exact absurd (hnone.symm.trans hall) (Option.some_ne_none entries).symm

mutual

/-- **A value is read back** in front of what follows it. -/
theorem readValue?_write : ∀ {n : Node} {fuel : Nat} {rest : List Char}, n.Every Scalar →
    2 * (write n).length ≤ fuel → Follows rest →
    readValue? fuel (write n ++ rest) = some (n, rest)
  | n, 0, _, _, hfuel, _ => by
    obtain ⟨c, tail, heq, -⟩ := exists_of_write n
    rw [heq, List.length_cons] at hfuel
    omega
  | .null, fuel + 1, _, hn, _, hrest => readValue?_scalar hn rfl hrest fuel
  | .boolean _, fuel + 1, _, hn, _, hrest => readValue?_scalar hn rfl hrest fuel
  | .integer _, fuel + 1, _, hn, _, hrest => readValue?_scalar hn rfl hrest fuel
  | .real _, fuel + 1, _, hn, _, hrest => readValue?_scalar hn rfl hrest fuel
  | .text _, fuel + 1, _, hn, _, hrest => readValue?_scalar hn rfl hrest fuel
  | .unusable, fuel + 1, _, hn, _, hrest => readValue?_scalar hn rfl hrest fuel
  | .sequence [], fuel + 1, rest, _, _, _ => rfl
  | .sequence (n :: more), fuel + 1, rest, hn, hfuel, _ => by
    have hlength : (write (.sequence (n :: more))).length =
        (writeItems (n :: more)).length + 2 := by
      simp [write]
    have hitems : readItems? fuel (writeItems (n :: more) ++ ']' :: rest) =
        some (n :: more, rest) :=
      readItems?_write hn (by omega)
    obtain ⟨c, tail, heq, hc⟩ := exists_of_writeItems n more
    have htext : write (.sequence (n :: more)) ++ rest = '[' :: c :: (tail ++ ']' :: rest) := by
      simp [write, heq]
    rw [heq] at hitems
    rw [htext]
    exact readValue?_items hc hitems
  | .mapping [], fuel + 1, rest, _, _, _ => rfl
  | .mapping (e :: more), fuel + 1, rest, hn, hfuel, _ => by
    have hlength : (write (.mapping (e :: more))).length =
        (writeEntries (e :: more)).length + 2 := by
      simp [write]
    have hentries : readEntries? fuel (writeEntries (e :: more) ++ '\x7d' :: rest) =
        some (keyed (e :: more), rest) :=
      readEntries?_write hn (by omega)
    obtain ⟨tail, heq⟩ := exists_of_writeEntries e more
    have htext : write (.mapping (e :: more)) ++ rest =
        '\x7b' :: '"' :: (tail ++ '\x7d' :: rest) := by
      simp [write, heq]
    rw [heq, List.cons_append] at hentries
    rw [htext, readValue?_entries hentries, mappingOf_keyed]

/-- The items of a sequence are read back with its end. -/
theorem readItems?_write : ∀ {n : Node} {more : List Node} {fuel : Nat} {rest : List Char},
    Node.EveryItem Scalar (n :: more) → 2 * (writeItems (n :: more)).length + 1 ≤ fuel →
    readItems? fuel (writeItems (n :: more) ++ ']' :: rest) = some (n :: more, rest)
  | _, _, 0, _, _, hfuel => absurd hfuel (by omega)
  | n, [], fuel + 1, rest, hn, hfuel =>
    readItems?_last (readValue?_write hn.1 (by simpa [writeItems] using hfuel)
      (follows_cons (by decide) rest))
  | n, m :: more, fuel + 1, rest, hn, hfuel => by
    have hlength : (writeItems (n :: m :: more)).length =
        (write n).length + (writeItems (m :: more)).length + 1 := by
      simp [writeItems]
      omega
    have hfirst : readValue? fuel (write n ++ ',' :: (writeItems (m :: more) ++ ']' :: rest)) =
        some (n, ',' :: (writeItems (m :: more) ++ ']' :: rest)) :=
      readValue?_write hn.1 (by omega) (follows_cons (by decide) _)
    have hmore : readItems? fuel (writeItems (m :: more) ++ ']' :: rest) =
        some (m :: more, rest) :=
      readItems?_write hn.2 (by omega)
    obtain ⟨c, tail, heq, hc⟩ := exists_of_writeItems m more
    rw [heq] at hfirst hmore
    rw [writeItems, heq, List.append_assoc]
    exact readItems?_more hc hfirst hmore

/-- The entries of a mapping are read back with its end. -/
theorem readEntries?_write : ∀ {e : String × Node} {more : List (String × Node)} {fuel : Nat}
    {rest : List Char}, Node.EveryEntry Scalar (e :: more) →
    2 * (writeEntries (e :: more)).length + 1 ≤ fuel →
    readEntries? fuel (writeEntries (e :: more) ++ '\x7d' :: rest) =
      some (keyed (e :: more), rest)
  | _, _, 0, _, _, hfuel => absurd hfuel (by omega)
  | (key, n), [], fuel + 1, rest, hn, hfuel => by
    have hlength : (writeEntries [(key, n)]).length =
        (writeText key).length + (write n).length + 1 := by
      simp [writeEntries]
      omega
    have hvalue : readValue? fuel (write n ++ '\x7d' :: rest) = some (n, '\x7d' :: rest) :=
      readValue?_write hn.1 (by omega) (follows_cons (by decide) rest)
    obtain ⟨c, tail, heq, hc⟩ := exists_of_write n
    rw [heq] at hvalue
    rw [writeEntries, heq, List.append_assoc]
    exact readEntries?_last hc hvalue
  | (key, n), e :: more, fuel + 1, rest, hn, hfuel => by
    have hlength : (writeEntries ((key, n) :: e :: more)).length =
        (writeText key).length + (write n).length + (writeEntries (e :: more)).length + 2 := by
      simp [writeEntries]
      omega
    have hvalue : readValue? fuel
        (write n ++ ',' :: (writeEntries (e :: more) ++ '\x7d' :: rest)) =
        some (n, ',' :: (writeEntries (e :: more) ++ '\x7d' :: rest)) :=
      readValue?_write hn.1 (by omega) (follows_cons (by decide) _)
    have hmore : readEntries? fuel (writeEntries (e :: more) ++ '\x7d' :: rest) =
        some (keyed (e :: more), rest) :=
      readEntries?_write hn.2 (by omega)
    obtain ⟨c, tail, heq, hc⟩ := exists_of_write n
    obtain ⟨others, hothers⟩ := exists_of_writeEntries e more
    rw [heq, hothers] at hvalue
    rw [hothers] at hmore
    have htext : writeEntries ((key, n) :: e :: more) ++ '\x7d' :: rest =
        writeText key ++ ':' :: c :: (tail ++ ',' :: '"' :: (others ++ '\x7d' :: rest)) := by
      simp [writeEntries, heq, hothers]
    rw [htext]
    exact readEntries?_more hc hvalue hmore

end

/-- **A node of scalars that read back is read back from its text.** -/
theorem read?_print {n : Node} (h : n.Every Scalar) : read? (print n) = some n := by
  have hread : readValue? (2 * (write n).length + 2) (write n ++ []) = some (n, []) :=
    readValue?_write h (by omega) follows_nil
  rw [List.append_nil] at hread
  exact read?_print_eq.2 ⟨[], hread, rfl⟩

/-! ## What a text can hold -/

theorem holdsInteger_toNode (t : NumberText) : t.toNode.Every HoldsInteger := by
  simp only [NumberText.toNode]
  split
  · split
    · next h =>
      simp only [Bool.and_eq_true, decide_eq_true_eq] at h
      exact ⟨by omega, Int.ofNat_le.2 h.2⟩
    · split
      · next h =>
        simp only [Bool.and_eq_true, decide_eq_true_eq] at h
        exact ⟨by omega, by omega⟩
      · split <;> trivial
  · split <;> trivial

theorem holdsInteger_mappingOf {entries : List (Option String × Node)}
    (h : ∀ e ∈ entries, e.2.Every HoldsInteger) : (mappingOf entries).Every HoldsInteger := by
  rw [mappingOf]
  split
  · next found hfound =>
    refine Node.everyEntry_iff.2 fun e he => ?_
    obtain ⟨⟨key, n⟩, hmem, hkey⟩ := exists_of_mapM hfound e he
    obtain ⟨name, -, rfl⟩ := Option.map_eq_some_iff.1 hkey
    exact h _ hmem
  · trivial

/-- What is read with some fuel has integers of 64 bits. -/
theorem holdsInteger_of_readValue? (fuel : Nat) :
    (∀ {cs rest : List Char} {n : Node}, readValue? fuel cs = some (n, rest) →
      n.Every HoldsInteger) ∧
    (∀ {cs rest : List Char} {items : List Node}, readItems? fuel cs = some (items, rest) →
      ∀ n ∈ items, n.Every HoldsInteger) ∧
    ∀ {cs rest : List Char} {entries : List (Option String × Node)},
      readEntries? fuel cs = some (entries, rest) → ∀ e ∈ entries, e.2.Every HoldsInteger := by
  induction fuel with
  | zero => exact ⟨nofun, nofun, nofun⟩
  | succ fuel ih =>
    obtain ⟨hvalue, hitems, hentries⟩ := ih
    refine ⟨fun {cs rest n} h => ?_, fun {cs rest items} h => ?_, fun {cs rest entries} h => ?_⟩
    · unfold readValue? at h
      split at h
      · cases h
      · obtain ⟨⟨s, _⟩, -, heq⟩ := Option.map_eq_some_iff.1 h
        cases s <;> cases heq <;> trivial
      · split at h
        · cases h
          trivial
        · obtain ⟨⟨items, _⟩, hread, heq⟩ := Option.map_eq_some_iff.1 h
          cases heq
          exact Node.everyItem_iff.2 (hitems hread)
      · split at h
        · cases h
          trivial
        · obtain ⟨⟨entries, _⟩, hread, heq⟩ := Option.map_eq_some_iff.1 h
          cases heq
          exact holdsInteger_mappingOf (hentries hread)
      · obtain ⟨_, -, heq⟩ := Option.map_eq_some_iff.1 h
        cases heq
        trivial
      · obtain ⟨_, -, heq⟩ := Option.map_eq_some_iff.1 h
        cases heq
        trivial
      · obtain ⟨_, -, heq⟩ := Option.map_eq_some_iff.1 h
        cases heq
        trivial
      · obtain ⟨t, -, heq⟩ := Option.map_eq_some_iff.1 h
        cases heq
        exact holdsInteger_toNode t
    · unfold readItems? at h
      split at h
      · cases h
      · next item _ hitem =>
        split at h
        · cases h
          simpa using hvalue hitem
        · obtain ⟨⟨items, _⟩, hread, heq⟩ := Option.map_eq_some_iff.1 h
          cases heq
          exact List.forall_mem_cons.2 ⟨hvalue hitem, hitems hread⟩
        · cases h
    · unfold readEntries? at h
      -- an entry is a key, a colon and a value, in front of the next entry or the end
      split at h
      · split at h
        · split at h
          · split at h
            · cases h
            · next value _ hread =>
              split at h
              · cases h
                simpa using hvalue hread
              · obtain ⟨⟨entries, _⟩, hmore, heq⟩ := Option.map_eq_some_iff.1 h
                cases heq
                exact List.forall_mem_cons.2 ⟨hvalue hread, hentries hmore⟩
              · cases h
          · cases h
        · cases h
      · cases h

/-- **A node that is read from a text has integers of 64 bits.** -/
theorem holdsInteger_of_read? {text : String} {n : Node} (h : read? text = some n) :
    n.Every HoldsInteger := by
  simp only [read?] at h
  split at h
  · next node rest hread =>
    split at h
    · cases h
      exact (holdsInteger_of_readValue? _).1 hread
    · cases h
  · cases h

end Json

end ResilientCalls
