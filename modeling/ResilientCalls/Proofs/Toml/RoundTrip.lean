import ResilientCalls.Proofs.Toml.Values
/-!
# Reading TOML back

**What is written as TOML is read back as it was** (`Toml.read?_print?`),
as long as no mapping repeats a key and values are nested within the
limit. A document is read line by line, one line for each entry; it holds
no line break of two characters and no byte order mark, so nothing is
changed before it is read. The documents that can be written are the
mappings that hold no null and only integers of 64 signed bits
(`Toml.print?_isSome_iff`).
-/

namespace ResilientCalls

namespace Node

mutual

/-- A node holds nothing that TOML has no text for. -/
def FitsToml : Node → Prop
  | .null | .unusable => False
  | .integer n => Toml.holdsInteger n = true
  | .sequence items => ItemsFitToml items
  | .mapping entries => EntriesFitToml entries
  | _ => True

/-- Some nodes hold nothing that TOML has no text for. -/
def ItemsFitToml : List Node → Prop
  | [] => True
  | n :: rest => n.FitsToml ∧ ItemsFitToml rest

/-- The values of some entries hold nothing that TOML has no text for. -/
def EntriesFitToml : List (String × Node) → Prop
  | [] => True
  | (_, n) :: rest => n.FitsToml ∧ EntriesFitToml rest

end

end Node

namespace Toml

/-! ## What can be written -/

mutual

theorem write?_isSome_iff : ∀ {n : Node}, (write? n).isSome = true ↔ n.FitsToml
  | .null | .unusable => by simp [write?, Node.FitsToml]
  | .boolean _ | .real _ | .text _ => by simp [write?, Node.FitsToml]
  | .integer i => by
    rw [write?, Node.FitsToml]
    split <;> simp_all
  | .sequence items => by
    rw [write?, Node.FitsToml, Option.isSome_map]
    exact writeItems?_isSome_iff
  | .mapping entries => by
    rw [write?, Node.FitsToml, Option.isSome_map]
    exact writeEntries?_isSome_iff

theorem writeItems?_isSome_iff : ∀ {items : List Node},
    (writeItems? items).isSome = true ↔ Node.ItemsFitToml items
  | [] => by simp [writeItems?, Node.ItemsFitToml]
  | [n] => by simp [writeItems?, Node.ItemsFitToml, write?_isSome_iff (n := n)]
  | n :: m :: more => by
    rw [Node.ItemsFitToml, ← write?_isSome_iff, ← writeItems?_isSome_iff, writeItems?]
    cases write? n <;> cases writeItems? (m :: more) <;> simp

theorem writeEntries?_isSome_iff : ∀ {entries : List (String × Node)},
    (writeEntries? entries).isSome = true ↔ Node.EntriesFitToml entries
  | [] => by simp [writeEntries?, Node.EntriesFitToml]
  | [(key, n)] => by
    rw [Node.EntriesFitToml, ← write?_isSome_iff, writeEntries?]
    cases write? n <;> simp [Node.EntriesFitToml]
  | (key, n) :: e :: more => by
    rw [Node.EntriesFitToml, ← write?_isSome_iff, ← writeEntries?_isSome_iff, writeEntries?]
    cases write? n <;> cases writeEntries? (e :: more) <;> simp

end

theorem writeLines?_isSome_iff {entries : List (String × Node)} :
    (writeLines? entries).isSome = true ↔ Node.EntriesFitToml entries := by
  induction entries with
  | nil => simp [writeLines?, Node.EntriesFitToml]
  | cons e more ih =>
    rw [Node.EntriesFitToml, ← write?_isSome_iff, ← ih, writeLines?]
    cases write? e.2 <;> cases writeLines? more <;> simp

/-- **A mapping has a document exactly when all it holds has a text.** -/
theorem print?_isSome_iff {entries : List (String × Node)} :
    (print? (.mapping entries)).isSome = true ↔ (Node.mapping entries).FitsToml := by
  rw [print?, Node.FitsToml, Option.isSome_map]
  exact writeLines?_isSome_iff

/-! ## Line breaks -/

theorem return_not_mem_writeText (s : String) : '\r' ∉ writeText s := by
  simp only [writeText, List.mem_append, List.mem_cons, List.mem_flatMap, not_or]
  refine ⟨⟨by decide, ?_⟩, by decide, List.not_mem_nil⟩
  rintro ⟨c, -, hc⟩
  exact return_not_mem_escape c hc

theorem return_not_mem_run {run : List Char} (hall : ∀ c ∈ run, isScalarChar c = true) :
    '\r' ∉ run :=
  fun hmem => absurd (hall _ hmem) (by decide)

mutual

/-- No value holds a line break that is two characters. -/
theorem return_not_mem_write : ∀ {n : Node} {cs : List Char}, write? n = some cs → '\r' ∉ cs
  | .null, _, h => by cases h
  | .unusable, _, h => by cases h
  | .boolean b, _, h => by
    obtain rfl := Option.some.inj h
    cases b <;> decide
  | .integer i, _, h => by
    simp only [write?] at h
    split_ifs at h
    obtain rfl := Option.some.inj h
    exact return_not_mem_run (integer_run i).2
  | .real x, _, h => by
    obtain rfl := Option.some.inj h
    exact return_not_mem_run (real_run x).2
  | .text s, _, h => by
    obtain rfl := Option.some.inj h
    exact return_not_mem_writeText s
  | .sequence items, _, h => by
    simp only [write?, Option.map_eq_some_iff] at h
    obtain ⟨inner, hinner, rfl⟩ := h
    simp [return_not_mem_writeItems hinner]
  | .mapping entries, _, h => by
    simp only [write?, Option.map_eq_some_iff] at h
    obtain ⟨inner, hinner, rfl⟩ := h
    simp [return_not_mem_writeEntries hinner]

theorem return_not_mem_writeItems : ∀ {items : List Node} {cs : List Char},
    writeItems? items = some cs → '\r' ∉ cs
  | [], _, h => by
    obtain rfl := Option.some.inj h
    exact List.not_mem_nil
  | [n], _, h => return_not_mem_write h
  | n :: m :: more, _, h => by
    simp only [writeItems?, Option.bind_eq_bind, Option.bind_eq_some_iff] at h
    obtain ⟨first, hfirst, others, hothers, heq⟩ := h
    obtain rfl := Option.some.inj heq
    simp [return_not_mem_write hfirst, return_not_mem_writeItems hothers]

theorem return_not_mem_writeEntries : ∀ {entries : List (String × Node)} {cs : List Char},
    writeEntries? entries = some cs → '\r' ∉ cs
  | [], _, h => by
    obtain rfl := Option.some.inj h
    exact List.not_mem_nil
  | [(key, n)], _, h => by
    simp only [writeEntries?, Option.bind_eq_bind, Option.bind_eq_some_iff] at h
    obtain ⟨value, hvalue, heq⟩ := h
    obtain rfl := Option.some.inj heq
    simp [return_not_mem_write hvalue, return_not_mem_writeText]
  | (key, n) :: e :: more, _, h => by
    simp only [writeEntries?, Option.bind_eq_bind, Option.bind_eq_some_iff] at h
    obtain ⟨value, hvalue, others, hothers, heq⟩ := h
    obtain rfl := Option.some.inj heq
    simp [return_not_mem_write hvalue, return_not_mem_writeText,
      return_not_mem_writeEntries hothers]

end

theorem return_not_mem_writeLines {entries : List (String × Node)} {cs : List Char}
    (h : writeLines? entries = some cs) : '\r' ∉ cs := by
  induction entries generalizing cs with
  | nil =>
    obtain rfl := Option.some.inj h
    exact List.not_mem_nil
  | cons e more ih =>
    simp only [writeLines?, Option.bind_eq_bind, Option.bind_eq_some_iff] at h
    obtain ⟨value, hvalue, others, hothers, heq⟩ := h
    obtain rfl := Option.some.inj heq
    simp [return_not_mem_write hvalue, return_not_mem_writeText, ih hothers]

/-- A text without such line breaks is left as it is. -/
theorem singleBreaks_eq {cs : List Char} (h : '\r' ∉ cs) : singleBreaks cs = cs := by
  fun_induction singleBreaks cs with
  | case1 rest ih => exact absurd List.mem_cons_self h
  | case2 c rest hbreak ih => rw [ih fun hmem => h (List.mem_cons_of_mem _ hmem)]
  | case3 => rfl

/-! ## Documents -/

/-- A document under construction whose root table is open. -/
def Draft.ofEntries (entries : List (String × Node)) : Draft :=
  ⟨.opened, .ofEntries entries, [], false⟩

theorem Draft.finish_ofEntries (entries : List (String × Node)) :
    (Draft.ofEntries entries).finish = some (.mapping entries) :=
  congrArg some (Table.node_ofEntries entries)

/-- **A line is read back** with the entry that it gives. -/
theorem readLine?_entry {earlier : List (String × Node)} {key : String} {n : Node}
    {value : List Char} (hn : write? n = some value) (hnew : key ∉ earlier.map Prod.fst)
    (hkeys : n.KeysDistinct) (hdepth : n.depth ≤ nestingLimit) (rest : List Char) :
    readLine? (.ofEntries earlier) (writeText key ++ '=' :: (value ++ '\n' :: rest)) =
      some (.ofEntries (earlier ++ [(key, n)]), rest) := by
  have hvalue : readValue? (2 * (value ++ '\n' :: rest).length + 2) 0 (value ++ '\n' :: rest) =
      some (n, '\n' :: rest) :=
    readValue?_write hn hkeys (by omega) (by rw [List.length_append]; omega) (by decide) rest
  have hblanks : skipBlanks (value ++ '\n' :: rest) = value ++ '\n' :: rest := by
    obtain ⟨x, tail, rfl, hx⟩ := exists_of_write? hn
    exact skipBlanks_eq (ne_of_startsValue hx).1 _
  have hpath := readPath?_writeText key nestingLimit_pos (value ++ '\n' :: rest)
  have hinsert : (Draft.ofEntries earlier).insert [] key n =
      some (.ofEntries (earlier ++ [(key, n)])) := by
    rw [Draft.insert, Draft.ofEntries, Table.insert_ofEntries hnew]
    rfl
  -- the line begins with the quote of a key, so it is neither empty nor a header
  obtain ⟨line, hline⟩ : ∃ line, writeText key ++ '=' :: (value ++ '\n' :: rest) = '"' :: line :=
    ⟨_, rfl⟩
  have hentry : lineEnd? ('"' :: line) = none := rfl
  have hend : lineEnd? ('\n' :: rest) = some rest := rfl
  rw [hline] at hpath ⊢
  rw [readLine?, hentry]
  simp only [skipBlanks_eq (c := '"') rfl]
  split
  · next heq => exact absurd (List.cons.inj heq).1 (by decide)
  · next heq => exact absurd (List.cons.inj heq).1 (by decide)
  · rw [hpath]
    simp only [Option.bind_eq_bind, Option.bind_some, hblanks, hvalue, List.dropLast_singleton,
      List.getLast?_singleton, Option.getD_some, hinsert, hend]
    rfl

/-- The lines of a document are read back. -/
theorem readLines?_write {entries : List (String × Node)} {cs : List Char} {fuel : Nat}
    {earlier : List (String × Node)} (h : writeLines? entries = some cs)
    (hnodup : ((earlier ++ entries).map Prod.fst).Nodup) (hkeys : Node.EntriesDistinct entries)
    (hdepth : Node.entriesDepth entries ≤ nestingLimit) (hfuel : cs.length ≤ fuel) :
    readLines? fuel (.ofEntries earlier) cs = some (.ofEntries (earlier ++ entries)) := by
  induction entries generalizing cs fuel earlier with
  | nil =>
    obtain rfl := Option.some.inj h
    rw [readLines?, List.append_nil]
  | cons e more ih =>
    obtain ⟨key, n⟩ := e
    simp only [writeLines?, Option.bind_eq_bind, Option.bind_eq_some_iff] at h
    obtain ⟨value, hvalue, others, hothers, heq⟩ := h
    obtain rfl := Option.some.inj heq
    simp only [Node.entriesDepth] at hdepth
    simp only [List.length_append, List.length_cons] at hfuel
    obtain ⟨fuel, rfl⟩ : ∃ k, fuel = k + 1 := ⟨fuel - 1, by omega⟩
    have hline := readLine?_entry hvalue (not_mem_of_nodup hnodup) hkeys.1 (by omega) others
    have hrest : readLines? fuel (.ofEntries (earlier ++ [(key, n)])) others =
        some (.ofEntries (earlier ++ [(key, n)] ++ more)) :=
      ih hothers (by rwa [List.append_assoc]) hkeys.2 (by omega) (by omega)
    rw [List.append_assoc] at hrest
    have htext : writeText key ++ '=' :: value ++ '\n' :: others =
        writeText key ++ '=' :: (value ++ '\n' :: others) := by simp
    obtain ⟨line, hquote⟩ : ∃ line,
        writeText key ++ '=' :: (value ++ '\n' :: others) = '"' :: line := ⟨_, rfl⟩
    rw [htext]
    rw [hquote] at hline ⊢
    rw [readLines?, hline, Option.bind_some]
    exact hrest

/-- A document begins with the quote of a key, if it has a line. -/
theorem head_writeLines {entries : List (String × Node)} {cs : List Char}
    (h : writeLines? entries = some cs) : cs = [] ∨ ∃ line, cs = '"' :: line := by
  cases entries with
  | nil => exact Or.inl (Option.some.inj h).symm
  | cons e more =>
    simp only [writeLines?, Option.bind_eq_bind, Option.bind_eq_some_iff] at h
    obtain ⟨value, -, others, -, heq⟩ := h
    exact Or.inr ⟨_, (Option.some.inj heq).symm⟩

/-- **What is written as TOML is read back as it was,** as long as no
mapping repeats a key and values are nested within the limit. -/
theorem read?_print? {n : Node} {text : String} (h : print? n = some text)
    (hkeys : n.KeysDistinct) (hdepth : n.depth ≤ nestingLimit + 1) : read? text = some n := by
  cases n with
  | mapping entries =>
    simp only [print?, Option.map_eq_some_iff] at h
    obtain ⟨cs, hcs, rfl⟩ := h
    simp only [Node.depth] at hdepth
    have hlines : readLines? cs.length (.ofEntries []) cs = some (.ofEntries ([] ++ entries)) :=
      readLines?_write hcs hkeys.1 hkeys.2 (by omega) le_rfl
    have hmark : skipMark cs = cs := by
      rcases head_writeLines hcs with rfl | ⟨line, rfl⟩ <;> rfl
    have hbreaks : singleBreaks cs = cs := singleBreaks_eq (return_not_mem_writeLines hcs)
    have hempty : Draft.empty = .ofEntries [] := rfl
    rw [read?, String.toList_ofList, hmark, hbreaks, hempty, hlines, Option.bind_some,
      List.nil_append, Draft.finish_ofEntries]
  | null | boolean | integer | real | text | sequence | unusable => cases h

end Toml

end ResilientCalls
