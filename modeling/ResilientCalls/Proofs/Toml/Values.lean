import ResilientCalls.Proofs.Toml.Scalars
import ResilientCalls.Proofs.Toml.Texts
import ResilientCalls.Toml.Reader
/-!
# Values that TOML reads back

A value is read back in front of anything that ends it, with as much fuel
as twice its length (`Toml.readValue?_write`). The induction is on the
node, together with the items of an array and the pairs of an inline
table; a table is known by its entries, to whose end a new key goes. No
mapping may repeat a key, and containers are nested within the limit.
-/

namespace ResilientCalls

namespace Node

mutual

/-- No mapping in a node repeats a key. -/
def KeysDistinct : Node → Prop
  | .sequence items => ItemsDistinct items
  | .mapping entries => (entries.map Prod.fst).Nodup ∧ EntriesDistinct entries
  | _ => True

/-- No mapping in some nodes repeats a key. -/
def ItemsDistinct : List Node → Prop
  | [] => True
  | n :: rest => n.KeysDistinct ∧ ItemsDistinct rest

/-- No mapping in the values of some entries repeats a key. -/
def EntriesDistinct : List (String × Node) → Prop
  | [] => True
  | (_, n) :: rest => n.KeysDistinct ∧ EntriesDistinct rest

end

end Node

namespace Toml

/-! ## Tables -/

/-- The table of some entries, none of them a table. -/
def Table.ofEntries (entries : List (String × Node)) : Table :=
  .mk false false (entries.map fun e => (e.1, .value e.2))

theorem Table.node_ofEntries (entries : List (String × Node)) :
    (Table.ofEntries entries).node = .mapping entries := by
  have hnodes : entryNodes (entries.map fun e => (e.1, Item.value e.2)) = entries := by
    induction entries with
    | nil => rfl
    | cons e rest ih => rw [List.map_cons, entryNodes, ih, Item.node]
  rw [Table.ofEntries, Table.node, hnodes]

/-- A new key goes to the end of a table. -/
theorem Table.insert_ofEntries {entries : List (String × Node)} {key : String}
    (hnew : key ∉ entries.map Prod.fst) (value : Node) :
    (Table.ofEntries entries).insert [] key value =
      some (Table.ofEntries (entries ++ [(key, value)])) := by
  have hkept : ∀ e ∈ (Table.ofEntries entries).entries, (e.1 != key) = true := by
    intro e hmem
    obtain ⟨pair, hpair, rfl⟩ := List.mem_map.1 hmem
    rw [bne_iff_ne]
    rintro rfl
    exact hnew (List.mem_map.2 ⟨pair, hpair, rfl⟩)
  have hitem : (Table.ofEntries entries).item? key = none := by
    rw [item?, List.lookup_eq_none_iff]
    intro e hmem
    rw [bne_comm]
    exact hkept e hmem
  rw [insert, changeAt]
  simp only [hitem, set, List.filter_eq_self.2 hkept]
  simp only [ofEntries, List.map_append]
  rfl

/-! ## Scalars -/

/-- A character that ends a value. -/
def endsValue (c : Char) : Bool := c = ',' || c = ']' || c = '\x7d' || c = '\n'

/-- A run of characters goes on to the character that ends it. -/
theorem splitScalar_append {run : List Char} (hall : ∀ x ∈ run, isScalarChar x = true)
    {c : Char} (hc : endsValue c = true) (rest : List Char) :
    splitScalar (run ++ c :: rest) = (run, c :: rest) := by
  have hends : isScalarChar c = false ∧ c ≠ ' ' := by
    simp only [endsValue, Bool.or_eq_true, decide_eq_true_eq] at hc
    rcases hc with ((rfl | rfl) | rfl) | rfl <;> decide
  have htake : (run ++ c :: rest).takeWhile isScalarChar = run := by
    rw [List.takeWhile_append_of_pos hall, List.takeWhile_cons_of_neg (by simp [hends.1]),
      List.append_nil]
  have hdrop : (run ++ c :: rest).dropWhile isScalarChar = c :: rest := by
    rw [List.dropWhile_append_of_pos hall, List.dropWhile_cons_of_neg (by simp [hends.1])]
  simp only [splitScalar, htake, hdrop]
  split
  · next heq => exact absurd (List.cons.inj heq).1 hends.2
  · rfl

theorem wordOrScalar?_eq {run : List Char} {n : Node} (h : scalar? run = some n) :
    wordOrScalar? run = some n := by
  rw [wordOrScalar?, if_neg, if_neg]
  · exact h
  · rintro rfl
    cases h
  · rintro rfl
    cases h

/-- A run of characters is read as what it stands for. -/
theorem readValue?_run {run : List Char} {n : Node} (hne : run ≠ [])
    (hall : ∀ x ∈ run, isScalarChar x = true) (hread : wordOrScalar? run = some n) {c : Char}
    (hc : endsValue c = true) (fuel depth : Nat) (rest : List Char) :
    readValue? (fuel + 1) depth (run ++ c :: rest) = some (n, c :: rest) := by
  obtain ⟨d, ds, rfl⟩ := List.exists_cons_of_ne_nil hne
  have hfirst := hall d List.mem_cons_self
  have hsplit := splitScalar_append hall hc rest
  rw [List.cons_append] at hsplit ⊢
  unfold readValue?
  split
  · next heq =>
    rw [(List.cons.inj heq).1] at hfirst
    exact absurd hfirst (by decide)
  · next heq =>
    rw [(List.cons.inj heq).1] at hfirst
    exact absurd hfirst (by decide)
  · next heq =>
    obtain ⟨rfl, rfl⟩ := List.cons.inj heq
    rw [if_neg, hsplit]
    · simp only [hread, Option.map_some]
    · rw [Bool.or_eq_true, decide_eq_true_eq, decide_eq_true_eq]
      rintro (rfl | rfl) <;> exact absurd hfirst (by decide)
  · next heq => cases heq

theorem isScalarChar_of_spelled {s : Spelling} (hs : s.Regular) :
    ∀ c ∈ s.chars, isScalarChar c = true := by
  intro c hc
  rcases Spelling.mem_chars hs hc with hdigit | rfl | rfl | rfl | rfl
  · simp [isScalarChar, Char.isAlphanum, hdigit]
  all_goals decide

/-- The text of an integer is a run of characters. -/
theorem integer_run (n : Int) :
    (toString n).toList ≠ [] ∧ ∀ c ∈ (toString n).toList, isScalarChar c = true := by
  rw [Spelling.chars_ofInt]
  exact ⟨Spelling.chars_ne_nil (Spelling.regular_ofInt n),
    isScalarChar_of_spelled (Spelling.regular_ofInt n)⟩

/-- The text of a number is a run of characters. -/
theorem real_run (x : Binary64) :
    x.dataText.toList ≠ [] ∧ ∀ c ∈ x.dataText.toList, isScalarChar c = true := by
  cases x with
  | nan => exact ⟨List.cons_ne_nil _ _, List.all_eq_true.1 rfl⟩
  | infinite negative =>
    cases negative <;> exact ⟨List.cons_ne_nil _ _, List.all_eq_true.1 rfl⟩
  | finite negative m =>
    obtain ⟨s, hchars, hs, -⟩ := Binary64.exists_spelling negative m
    rw [hchars]
    exact ⟨Spelling.chars_ne_nil hs, isScalarChar_of_spelled hs⟩

/-! ## Values -/

/-- A character that begins a value. -/
def startsValue (c : Char) : Bool := isScalarChar c || c = '"' || c = '[' || c = '\x7b'

/-- What begins a value is no white space, no comment and no end. -/
theorem ne_of_startsValue {c : Char} (h : startsValue c = true) :
    isBlank c = false ∧ c ≠ '\n' ∧ c ≠ '#' ∧ c ≠ ']' := by
  refine ⟨?_, ?_, ?_, ?_⟩
  · rw [isBlank, Bool.or_eq_false_iff, decide_eq_false_iff_not, decide_eq_false_iff_not]
    constructor <;> rintro rfl <;> exact absurd h (by decide)
  all_goals
    rintro rfl
    exact absurd h (by decide)

/-- Every value has a first character. -/
theorem exists_of_write? {n : Node} {cs : List Char} (h : write? n = some cs) :
    ∃ c tail, cs = c :: tail ∧ startsValue c = true := by
  have hrun : ∀ {run : List Char}, run ≠ [] ∧ (∀ c ∈ run, isScalarChar c = true) →
      ∃ c tail, run = c :: tail ∧ startsValue c = true := by
    rintro run ⟨hne, hall⟩
    obtain ⟨c, tail, rfl⟩ := List.exists_cons_of_ne_nil hne
    exact ⟨c, tail, rfl, by simp [startsValue, hall c List.mem_cons_self]⟩
  cases n with
  | null => cases h
  | unusable => cases h
  | boolean b =>
    obtain rfl := Option.some.inj h
    cases b <;> exact ⟨_, _, rfl, by decide⟩
  | integer n =>
    simp only [write?] at h
    split_ifs at h
    obtain rfl := Option.some.inj h
    exact hrun (integer_run n)
  | real x =>
    obtain rfl := Option.some.inj h
    exact hrun (real_run x)
  | text s =>
    obtain rfl := Option.some.inj h
    exact ⟨_, _, rfl, by decide⟩
  | sequence items =>
    simp only [write?, Option.map_eq_some_iff] at h
    obtain ⟨inner, -, rfl⟩ := h
    exact ⟨_, _, rfl, by decide⟩
  | mapping entries =>
    simp only [write?, Option.map_eq_some_iff] at h
    obtain ⟨inner, -, rfl⟩ := h
    exact ⟨_, _, rfl, by decide⟩

theorem skipFiller_eq {c : Char} (hc : isBlank c = false ∧ c ≠ '\n' ∧ c ≠ '#')
    (rest : List Char) : skipFiller false (c :: rest) = c :: rest := by
  simp [skipFiller, hc]

theorem skipBlanks_eq {c : Char} (hc : isBlank c = false) (rest : List Char) :
    skipBlanks (c :: rest) = c :: rest :=
  List.dropWhile_cons_of_neg (by simp [hc])

/-- The text of some items begins with the first of them. -/
theorem exists_of_writeItems? {n : Node} {more : List Node} {cs : List Char}
    (h : writeItems? (n :: more) = some cs) :
    ∃ x tail, cs = x :: tail ∧ startsValue x = true := by
  cases more with
  | nil => exact exists_of_write? h
  | cons m more =>
    simp only [writeItems?, Option.bind_eq_bind, Option.bind_eq_some_iff] at h
    obtain ⟨first, hfirst, others, -, heq⟩ := h
    obtain ⟨x, tail, rfl, hx⟩ := exists_of_write? hfirst
    obtain rfl := Option.some.inj heq
    exact ⟨x, _, rfl, hx⟩

/-- The text of some entries begins with the quote of a key. -/
theorem exists_of_writeEntries? {e : String × Node} {more : List (String × Node)}
    {cs : List Char} (h : writeEntries? (e :: more) = some cs) : ∃ tail, cs = '"' :: tail := by
  cases more <;> simp only [writeEntries?, Option.bind_eq_bind, Option.bind_eq_some_iff] at h
  · obtain ⟨value, -, heq⟩ := h
    exact ⟨_, (Option.some.inj heq).symm⟩
  · obtain ⟨value, -, others, -, heq⟩ := h
    exact ⟨_, (Option.some.inj heq).symm⟩

/-- A text between quotes is read as a value. -/
theorem readValue?_text (s : String) {c : Char} (hc : endsValue c = true) (fuel depth : Nat)
    (rest : List Char) :
    readValue? (fuel + 1) depth (writeText s ++ c :: rest) = some (.text s, c :: rest) := by
  have hquote : (c :: rest).head? ≠ some '"' := by
    rintro heq
    obtain rfl := Option.some.inj heq
    exact absurd hc (by decide)
  have hread := readString?_writeText s hquote
  rw [writeText, List.cons_append, List.cons_append] at hread ⊢
  rw [readValue?, if_pos (by decide), hread, Option.map_some]
  · simp only [String.ofList_toList]
  · exact fun heq => absurd heq (by decide)
  · exact fun heq => absurd heq (by decide)

theorem readValue?_noItems {depth : Nat} (hdepth : depth < nestingLimit) (fuel : Nat)
    (rest : List Char) :
    readValue? (fuel + 1) depth ('[' :: ']' :: rest) = some (.sequence [], rest) := by
  rw [readValue?, if_neg (Nat.not_le.2 hdepth), skipFiller_eq (by decide)]
  rfl

theorem readValue?_noPairs {depth : Nat} (hdepth : depth < nestingLimit) (fuel : Nat)
    (rest : List Char) :
    readValue? (fuel + 1) depth ('\x7b' :: '\x7d' :: rest) = some (.mapping [], rest) := by
  rw [readValue?, if_neg (Nat.not_le.2 hdepth), skipBlanks_eq (by decide)]
  rfl

/-- An array of some items is read as its items are. -/
theorem readValue?_items {fuel depth : Nat} {x : Char} {cs rest : List Char} {items : List Node}
    (hdepth : depth < nestingLimit) (hx : startsValue x = true)
    (hitems : readItems? fuel (depth + 1) (x :: cs) = some (items, rest)) :
    readValue? (fuel + 1) depth ('[' :: x :: cs) = some (.sequence items, rest) := by
  obtain ⟨hblank, hbreak, hcomment, hclose⟩ := ne_of_startsValue hx
  rw [readValue?]
  simp only [if_neg (Nat.not_le.2 hdepth), skipFiller_eq ⟨hblank, hbreak, hcomment⟩]
  split
  · next heq => exact absurd (List.cons.inj heq).1 hclose
  · rw [hitems]
    rfl

/-- An inline table of some pairs is read as its pairs are. -/
theorem readValue?_pairs {fuel depth : Nat} {cs rest : List Char} {t : Table}
    (hdepth : depth < nestingLimit)
    (hpairs : readPairs? fuel (depth + 1) .opened ('"' :: cs) = some (t, rest)) :
    readValue? (fuel + 1) depth ('\x7b' :: '"' :: cs) = some (t.node, rest) := by
  rw [readValue?]
  simp only [if_neg (Nat.not_le.2 hdepth), skipBlanks_eq (c := '"') rfl]
  split
  · next heq => exact absurd (List.cons.inj heq).1 (by decide)
  · rw [hpairs]
    rfl

/-- The first item of an array, when it is the last. -/
theorem readItems?_last {fuel depth : Nat} {cs rest : List Char} {n : Node}
    (hn : readValue? fuel depth cs = some (n, ']' :: rest)) :
    readItems? (fuel + 1) depth cs = some ([n], rest) := by
  rw [readItems?]
  simp only [hn, skipFiller_eq (c := ']') (by decide)]

/-- The first item of an array, when more follow. -/
theorem readItems?_more {fuel depth : Nat} {cs more rest : List Char} {x : Char} {n : Node}
    {items : List Node} (hx : startsValue x = true)
    (hn : readValue? fuel depth cs = some (n, ',' :: x :: more))
    (hitems : readItems? fuel depth (x :: more) = some (items, rest)) :
    readItems? (fuel + 1) depth cs = some (n :: items, rest) := by
  obtain ⟨hblank, hbreak, hcomment, hclose⟩ := ne_of_startsValue hx
  rw [readItems?]
  simp only [hn, skipFiller_eq (c := ',') (by decide),
    skipFiller_eq ⟨hblank, hbreak, hcomment⟩]
  split
  · next heq => exact absurd (List.cons.inj heq).1 hclose
  · rw [hitems]
    rfl

/-- A key that is not repeated is new when it comes. -/
theorem not_mem_of_nodup {earlier more : List (String × Node)} {key : String} {n : Node}
    (h : ((earlier ++ (key, n) :: more).map Prod.fst).Nodup) : key ∉ earlier.map Prod.fst := by
  rw [List.map_append, List.map_cons, List.nodup_append] at h
  exact fun hmem => h.2.2 key hmem key List.mem_cons_self rfl

theorem nestingLimit_pos : 0 < nestingLimit := by decide

theorem insertPath?_ofEntries {earlier : List (String × Node)} {key : String}
    (hnew : key ∉ earlier.map Prod.fst) (n : Node) :
    insertPath? [key] n (.ofEntries earlier) = some (.ofEntries (earlier ++ [(key, n)])) := by
  rw [insertPath?, List.dropLast_singleton, List.getLast?_singleton, Option.getD_some,
    Table.insert_ofEntries hnew]

section

variable {fuel depth : Nat} {earlier : List (String × Node)} {key : String}
  {cs rest : List Char} {x : Char} {n : Node}

/-- The first pair of an inline table, when it is the last. -/
theorem readPairs?_last (hx : startsValue x = true) (hnew : key ∉ earlier.map Prod.fst)
    (hn : readValue? fuel depth (x :: cs) = some (n, '\x7d' :: rest)) :
    readPairs? (fuel + 1) depth (.ofEntries earlier) (writeText key ++ '=' :: x :: cs) =
      some (.ofEntries (earlier ++ [(key, n)]), rest) := by
  rw [readPairs?, readPath?_writeText key nestingLimit_pos]
  simp only [skipBlanks_eq (ne_of_startsValue hx).1, hn, insertPath?_ofEntries hnew]
  rfl

/-- The first pair of an inline table, when more follow. -/
theorem readPairs?_more {more : List Char} {t : Table} (hx : startsValue x = true)
    (hnew : key ∉ earlier.map Prod.fst)
    (hn : readValue? fuel depth (x :: cs) = some (n, ',' :: more))
    (hpairs : readPairs? fuel depth (.ofEntries (earlier ++ [(key, n)])) more = some (t, rest)) :
    readPairs? (fuel + 1) depth (.ofEntries earlier) (writeText key ++ '=' :: x :: cs) =
      some (t, rest) := by
  rw [readPairs?, readPath?_writeText key nestingLimit_pos]
  simp only [skipBlanks_eq (ne_of_startsValue hx).1, hn, insertPath?_ofEntries hnew]
  exact hpairs

end

mutual

/-- **A value is read back** in front of what ends it. -/
theorem readValue?_write : ∀ {n : Node} {cs : List Char} {fuel depth : Nat} {c : Char},
    write? n = some cs → n.KeysDistinct → depth + n.depth ≤ nestingLimit →
    2 * cs.length ≤ fuel → endsValue c = true → ∀ rest,
    readValue? fuel depth (cs ++ c :: rest) = some (n, c :: rest)
  | n, cs, 0, _, _, h, _, _, hfuel, _, _ => by
    obtain ⟨x, tail, rfl, -⟩ := exists_of_write? h
    simp at hfuel
  | .boolean b, _, fuel + 1, depth, _, h, _, _, _, hc, rest => by
    obtain rfl := Option.some.inj h
    cases b <;>
      exact readValue?_run (List.cons_ne_nil _ _) (List.all_eq_true.1 rfl) rfl hc fuel depth rest
  | .integer i, _, fuel + 1, depth, _, h, _, _, _, hc, rest => by
    simp only [write?] at h
    split_ifs at h with hholds
    obtain rfl := Option.some.inj h
    exact readValue?_run (integer_run i).1 (integer_run i).2
      (wordOrScalar?_eq (scalar?_integer hholds)) hc fuel depth rest
  | .real x, _, fuel + 1, depth, _, h, _, _, _, hc, rest => by
    obtain rfl := Option.some.inj h
    exact readValue?_run (real_run x).1 (real_run x).2 (wordOrScalar?_eq (scalar?_real x)) hc
      fuel depth rest
  | .text s, _, fuel + 1, depth, _, h, _, _, _, hc, rest => by
    obtain rfl := Option.some.inj h
    exact readValue?_text s hc fuel depth rest
  | .sequence [], _, fuel + 1, depth, c, h, _, hdepth, _, _, rest => by
    obtain rfl := Option.some.inj h
    simp only [Node.depth] at hdepth
    exact readValue?_noItems (by omega) fuel (c :: rest)
  | .sequence (n :: more), _, fuel + 1, depth, c, h, hkeys, hdepth, hfuel, _, rest => by
    simp only [write?, Option.map_eq_some_iff] at h
    obtain ⟨inner, hinner, rfl⟩ := h
    simp only [Node.depth] at hdepth
    simp only [List.length_append, List.length_cons, List.length_nil] at hfuel
    have hitems : readItems? fuel (depth + 1) (inner ++ ']' :: c :: rest) =
        some (n :: more, c :: rest) :=
      readItems?_write (List.cons_ne_nil n more) hinner hkeys (by omega) (by omega) _
    obtain ⟨x, tail, rfl, hx⟩ := exists_of_writeItems? hinner
    have htext : '[' :: (x :: tail) ++ [']'] ++ c :: rest =
        '[' :: x :: (tail ++ ']' :: c :: rest) := by simp
    rw [htext]
    exact readValue?_items (by omega) hx hitems
  | .mapping [], _, fuel + 1, depth, c, h, _, hdepth, _, _, rest => by
    obtain rfl := Option.some.inj h
    simp only [Node.depth] at hdepth
    exact readValue?_noPairs (by omega) fuel (c :: rest)
  | .mapping (e :: more), cs, fuel + 1, depth, c, h, hkeys, hdepth, hfuel, _, rest => by
    simp only [write?, Option.map_eq_some_iff] at h
    obtain ⟨inner, hinner, rfl⟩ := h
    simp only [Node.depth] at hdepth
    simp only [List.length_append, List.length_cons, List.length_nil] at hfuel
    have hpairs : readPairs? fuel (depth + 1) (.ofEntries []) (inner ++ '\x7d' :: c :: rest) =
        some (.ofEntries ([] ++ e :: more), c :: rest) :=
      readPairs?_write (List.cons_ne_nil e more) hinner hkeys.1 hkeys.2 (by omega) (by omega) _
    obtain ⟨tail, rfl⟩ := exists_of_writeEntries? hinner
    have htext : '\x7b' :: ('"' :: tail) ++ ['\x7d'] ++ c :: rest =
        '\x7b' :: '"' :: (tail ++ '\x7d' :: c :: rest) := by simp
    rw [List.cons_append] at hpairs
    rw [htext, readValue?_pairs (by omega) hpairs, Table.node_ofEntries, List.nil_append]

/-- The items of an array are read back with its end. -/
theorem readItems?_write : ∀ {items : List Node} {cs : List Char} {fuel depth : Nat},
    items ≠ [] → writeItems? items = some cs → Node.ItemsDistinct items →
    depth + Node.itemsDepth items ≤ nestingLimit → 2 * cs.length + 1 ≤ fuel → ∀ rest,
    readItems? fuel depth (cs ++ ']' :: rest) = some (items, rest)
  | [], _, _, _, hne, _, _, _, _, _ => absurd rfl hne
  | _ :: _, _, 0, _, _, _, _, _, hfuel, _ => absurd hfuel (by omega)
  | [n], cs, fuel + 1, depth, _, h, hkeys, hdepth, hfuel, rest => by
    simp only [Node.itemsDepth] at hdepth
    exact readItems?_last
      (readValue?_write h hkeys.1 (by omega) (by omega) (by decide) rest)
  | n :: m :: more, _, fuel + 1, depth, _, h, hkeys, hdepth, hfuel, rest => by
    simp only [writeItems?, Option.bind_eq_bind, Option.bind_eq_some_iff] at h
    obtain ⟨first, hfirst, others, hothers, heq⟩ := h
    obtain rfl := Option.some.inj heq
    simp only [Node.itemsDepth] at hdepth
    simp only [List.length_append, List.length_cons] at hfuel
    have hn : readValue? fuel depth (first ++ ',' :: (others ++ ']' :: rest)) =
        some (n, ',' :: (others ++ ']' :: rest)) :=
      readValue?_write hfirst hkeys.1 (by omega) (by omega) (by decide) _
    have hmore : readItems? fuel depth (others ++ ']' :: rest) = some (m :: more, rest) :=
      readItems?_write (List.cons_ne_nil m more) hothers hkeys.2
        (by simp only [Node.itemsDepth]; omega) (by omega) rest
    obtain ⟨x, tail, rfl, hx⟩ := exists_of_writeItems? hothers
    rw [List.append_assoc]
    exact readItems?_more hx hn hmore

/-- The pairs of an inline table are read back with its end. -/
theorem readPairs?_write : ∀ {entries : List (String × Node)} {cs : List Char}
    {fuel depth : Nat} {earlier : List (String × Node)},
    entries ≠ [] → writeEntries? entries = some cs →
    ((earlier ++ entries).map Prod.fst).Nodup → Node.EntriesDistinct entries →
    depth + Node.entriesDepth entries ≤ nestingLimit → 2 * cs.length + 1 ≤ fuel → ∀ rest,
    readPairs? fuel depth (Table.ofEntries earlier) (cs ++ '\x7d' :: rest) =
      some (Table.ofEntries (earlier ++ entries), rest)
  | [], _, _, _, _, hne, _, _, _, _, _, _ => absurd rfl hne
  | _ :: _, _, 0, _, _, _, _, _, _, _, hfuel, _ => absurd hfuel (by omega)
  | [(key, n)], _, fuel + 1, depth, earlier, _, h, hnodup, hkeys, hdepth, hfuel, rest => by
    simp only [writeEntries?, Option.bind_eq_bind, Option.bind_eq_some_iff] at h
    obtain ⟨value, hvalue, heq⟩ := h
    obtain rfl := Option.some.inj heq
    simp only [Node.entriesDepth] at hdepth
    simp only [List.length_append, List.length_cons] at hfuel
    have hn : readValue? fuel depth (value ++ '\x7d' :: rest) = some (n, '\x7d' :: rest) :=
      readValue?_write hvalue hkeys.1 (by omega) (by omega) (by decide) rest
    obtain ⟨x, tail, rfl, hx⟩ := exists_of_write? hvalue
    rw [List.append_assoc]
    exact readPairs?_last hx (not_mem_of_nodup hnodup) hn
  | (key, n) :: e :: more, _, fuel + 1, depth, earlier, _, h, hnodup, hkeys, hdepth, hfuel,
    rest => by
    simp only [writeEntries?, Option.bind_eq_bind, Option.bind_eq_some_iff] at h
    obtain ⟨value, hvalue, others, hothers, heq⟩ := h
    obtain rfl := Option.some.inj heq
    simp only [Node.entriesDepth] at hdepth
    simp only [List.length_append, List.length_cons] at hfuel
    have hn : readValue? fuel depth (value ++ ',' :: (others ++ '\x7d' :: rest)) =
        some (n, ',' :: (others ++ '\x7d' :: rest)) :=
      readValue?_write hvalue hkeys.1 (by omega) (by omega) (by decide) _
    have hmore : readPairs? fuel depth (.ofEntries (earlier ++ [(key, n)]))
        (others ++ '\x7d' :: rest) =
        some (.ofEntries (earlier ++ [(key, n)] ++ e :: more), rest) :=
      readPairs?_write (List.cons_ne_nil e more) hothers (by rwa [List.append_assoc]) hkeys.2
        (by simp only [Node.entriesDepth]; omega) (by omega) rest
    obtain ⟨x, tail, rfl, hx⟩ := exists_of_write? hvalue
    rw [List.append_assoc] at hmore ⊢
    simp only [List.cons_append, List.append_assoc] at hn ⊢
    exact readPairs?_more hx (not_mem_of_nodup hnodup) hn hmore

end

end Toml

end ResilientCalls
