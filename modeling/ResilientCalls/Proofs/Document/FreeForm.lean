import Mathlib.Data.String.Basic
import ResilientCalls.Document.Node
/-!
# Free forms

The free form of a node has the keys of its mappings in order, each once.
So it is its own free form, no deeper than the node that it comes from, and
made of the same scalars, all of them values: `Node.freeForm?_keeps`.
-/

namespace ResilientCalls

/-! ## Scalars -/

namespace Node

mutual

/-- A property holds of every node inside a node that is no container. -/
def Every (p : Node → Prop) : Node → Prop
  | .null => p .null
  | .boolean b => p (.boolean b)
  | .integer n => p (.integer n)
  | .real x => p (.real x)
  | .text s => p (.text s)
  | .sequence items => EveryItem p items
  | .mapping entries => EveryEntry p entries
  | .unusable => p .unusable

/-- It holds so of some nodes. -/
def EveryItem (p : Node → Prop) : List Node → Prop
  | [] => True
  | n :: rest => n.Every p ∧ EveryItem p rest

/-- It holds so of the values of some entries. -/
def EveryEntry (p : Node → Prop) : List (String × Node) → Prop
  | [] => True
  | (_, n) :: rest => n.Every p ∧ EveryEntry p rest

end

section Decidable

variable {p : Node → Prop} [DecidablePred p]

mutual

def decideEvery : (n : Node) → Decidable (n.Every p)
  | .null => inferInstanceAs (Decidable (p .null))
  | .boolean b => inferInstanceAs (Decidable (p (.boolean b)))
  | .integer n => inferInstanceAs (Decidable (p (.integer n)))
  | .real x => inferInstanceAs (Decidable (p (.real x)))
  | .text s => inferInstanceAs (Decidable (p (.text s)))
  | .sequence items => decideEveryItem items
  | .mapping entries => decideEveryEntry entries
  | .unusable => inferInstanceAs (Decidable (p .unusable))

def decideEveryItem : (items : List Node) → Decidable (EveryItem p items)
  | [] => .isTrue trivial
  | n :: rest => @instDecidableAnd _ _ (decideEvery n) (decideEveryItem rest)

def decideEveryEntry : (entries : List (String × Node)) → Decidable (EveryEntry p entries)
  | [] => .isTrue trivial
  | (_, n) :: rest => @instDecidableAnd _ _ (decideEvery n) (decideEveryEntry rest)

end

instance (n : Node) : Decidable (n.Every p) := decideEvery n

end Decidable

variable {p q r : Node → Prop}

theorem everyItem_iff {items : List Node} : EveryItem p items ↔ ∀ n ∈ items, n.Every p := by
  induction items with
  | nil => simp [EveryItem]
  | cons n rest ih => simp [EveryItem, ih]

theorem everyEntry_iff {entries : List (String × Node)} :
    EveryEntry p entries ↔ ∀ e ∈ entries, e.2.Every p := by
  induction entries with
  | nil => simp [EveryEntry]
  | cons e rest ih => simp [EveryEntry, ih]

mutual

/-- What follows from two properties holds where both do. -/
theorem Every.imp₂ (h : ∀ n, p n → q n → r n) : ∀ {n : Node}, n.Every p → n.Every q → n.Every r
  | .null, hp, hq => h _ hp hq
  | .boolean _, hp, hq => h _ hp hq
  | .integer _, hp, hq => h _ hp hq
  | .real _, hp, hq => h _ hp hq
  | .text _, hp, hq => h _ hp hq
  | .sequence _, hp, hq => EveryItem.imp₂ h hp hq
  | .mapping _, hp, hq => EveryEntry.imp₂ h hp hq
  | .unusable, hp, hq => h _ hp hq

theorem EveryItem.imp₂ (h : ∀ n, p n → q n → r n) :
    ∀ {items : List Node}, EveryItem p items → EveryItem q items → EveryItem r items
  | [], _, _ => trivial
  | _ :: _, hp, hq => ⟨Every.imp₂ h hp.1 hq.1, EveryItem.imp₂ h hp.2 hq.2⟩

theorem EveryEntry.imp₂ (h : ∀ n, p n → q n → r n) :
    ∀ {entries : List (String × Node)}, EveryEntry p entries → EveryEntry q entries →
      EveryEntry r entries
  | [], _, _ => trivial
  | _ :: _, hp, hq => ⟨Every.imp₂ h hp.1 hq.1, EveryEntry.imp₂ h hp.2 hq.2⟩

end

end Node

/-! ## Keys in order -/

theorem textBefore_iff {cs ds : List Char} : textBefore cs ds = true ↔ cs < ds := by
  fun_induction textBefore cs ds with
  | case1 => simp
  | case2 => simp
  | case3 c cs d ds h =>
    have hlt : c < d := by rwa [Char.lt_def, UInt32.lt_iff_toNat_lt]
    simp [List.cons_lt_cons_iff, hlt]
  | case4 c cs d ds h h' =>
    have hge : ¬ c < d := by rwa [Char.lt_def, UInt32.lt_iff_toNat_lt]
    have hne : c ≠ d := by
      rintro rfl
      omega
    simp [List.cons_lt_cons_iff, hge, hne]
  | case5 c cs d ds h h' ih =>
    have heq : c = d := Char.toNat_inj.1 (by omega)
    simp [ih, heq]

/-- Entries in the order of their keys, none of which is repeated. -/
def KeysAscend {α : Type} (entries : List (String × α)) : Prop :=
  entries.Pairwise fun e f => e.1 < f.1

section Insertion

variable {α : Type} {key : String} {value : α} {entries : List (String × α)}

/-- What is inserted comes to the entries that were there, or takes the
place of one. -/
theorem mem_of_mem_insertEntry {e : String × α} (h : e ∈ insertEntry key value entries) :
    e = (key, value) ∨ e ∈ entries := by
  induction entries with
  | nil => exact .inl (List.mem_singleton.1 h)
  | cons other rest ih =>
    obtain ⟨k, v⟩ := other
    rw [insertEntry] at h
    split at h
    · exact (List.mem_cons.1 h).imp_right (List.mem_cons_of_mem _)
    · split at h
      · exact List.mem_cons.1 h
      · rcases List.mem_cons.1 h with rfl | h
        · exact .inr List.mem_cons_self
        · exact (ih h).imp_right (List.mem_cons_of_mem _)

/-- **An entry is inserted in its place.** -/
theorem KeysAscend.insertEntry (h : KeysAscend entries) (key : String) (value : α) :
    KeysAscend (insertEntry key value entries) := by
  induction entries with
  | nil => exact List.pairwise_singleton _ _
  | cons other rest ih =>
    obtain ⟨k, v⟩ := other
    obtain ⟨hfirst, hrest⟩ := List.pairwise_cons.1 h
    rw [ResilientCalls.insertEntry]
    split
    · next hsame => exact List.pairwise_cons.2 ⟨hsame ▸ hfirst, hrest⟩
    · next hne =>
      simp only [textBefore_iff, ← String.lt_iff_toList_lt]
      split
      · next hbefore =>
        refine List.pairwise_cons.2 ⟨fun e he => ?_, h⟩
        rcases List.mem_cons.1 he with rfl | he
        · exact hbefore
        · exact hbefore.trans (hfirst e he)
      · next hafter =>
        refine List.pairwise_cons.2 ⟨fun e he => ?_, ih hrest⟩
        rcases mem_of_mem_insertEntry he with rfl | he
        · exact lt_of_le_of_ne (not_lt.1 hafter) hne
        · exact hfirst e he

/-- An entry with the last key comes last. -/
theorem insertEntry_eq_concat (h : ∀ e ∈ entries, e.1 < key) :
    insertEntry key value entries = entries ++ [(key, value)] := by
  induction entries with
  | nil => rfl
  | cons other rest ih =>
    obtain ⟨k, v⟩ := other
    have hlt : k < key := h (k, v) List.mem_cons_self
    rw [insertEntry, if_neg hlt.ne, if_neg, ih fun e he => h e (List.mem_cons_of_mem _ he),
      List.cons_append]
    rw [textBefore_iff, ← String.lt_iff_toList_lt]
    exact hlt.asymm

end Insertion

/-! ## Free forms -/

namespace Node

/-- Entries in free form: their keys ascend, and their values are in free
form. -/
structure FreeEntries (entries : List (String × Node)) : Prop where
  ascend : KeysAscend entries
  values : ∀ e ∈ entries, e.2.freeForm? = some e.2

theorem FreeEntries.insertEntry {entries : List (String × Node)} (h : FreeEntries entries)
    (key : String) {n : Node} (hn : n.freeForm? = some n) :
    FreeEntries (insertEntry key n entries) := by
  refine ⟨h.ascend.insertEntry key n, fun e he => ?_⟩
  rcases mem_of_mem_insertEntry he with rfl | he
  · exact hn
  · exact h.values e he

/-- Entries in free form are put in order as they are. -/
theorem freeEntries?_of_free : ∀ {entries sorted : List (String × Node)},
    FreeEntries (sorted ++ entries) → freeEntries? entries sorted = some (sorted ++ entries)
  | [], sorted, _ => by rw [freeEntries?, List.append_nil]
  | (key, n) :: rest, sorted, h => by
    have hn : n.freeForm? = some n := h.values (key, n) (by simp)
    have hbefore : ∀ e ∈ sorted, e.1 < key := fun e he =>
      (List.pairwise_append.1 h.ascend).2.2 e he (key, n) List.mem_cons_self
    have hsplit : sorted ++ (key, n) :: rest = sorted ++ [(key, n)] ++ rest := by simp
    rw [freeEntries?, hn]
    simp only [insertEntry_eq_concat hbefore]
    rw [hsplit] at h ⊢
    exact freeEntries?_of_free h

theorem depth_le_entriesDepth {entries : List (String × Node)} {e : String × Node}
    (h : e ∈ entries) : e.2.depth ≤ entriesDepth entries := by
  induction entries with
  | nil => cases h
  | cons other rest ih =>
    obtain ⟨k, v⟩ := other
    rw [entriesDepth]
    rcases List.mem_cons.1 h with rfl | h
    · exact Nat.le_max_left _ _
    · exact Nat.le_trans (ih h) (Nat.le_max_right _ _)

theorem entriesDepth_le {entries : List (String × Node)} {d : Nat}
    (h : ∀ e ∈ entries, e.2.depth ≤ d) : entriesDepth entries ≤ d := by
  induction entries with
  | nil => exact Nat.zero_le d
  | cons e rest ih =>
    exact Nat.max_le.2 ⟨h e List.mem_cons_self, ih fun f hf => h f (List.mem_cons_of_mem _ hf)⟩

/-- A scalar of a free form: one with a property of the scalars that it
comes from, and a value. -/
def KeptScalar (p : Node → Prop) (n : Node) : Prop := p n ∧ n ≠ .unusable

mutual

/-- **A free form is its own,** no deeper than what it comes from, and made
of its scalars. -/
theorem freeForm?_keeps {p : Node → Prop} : ∀ {n m : Node}, n.freeForm? = some m →
    m.freeForm? = some m ∧ m.depth ≤ n.depth ∧ (n.Every p → m.Every (KeptScalar p))
  | .null, _, h => by cases h; exact ⟨rfl, le_rfl, fun hp => ⟨hp, nofun⟩⟩
  | .boolean _, _, h => by cases h; exact ⟨rfl, le_rfl, fun hp => ⟨hp, nofun⟩⟩
  | .integer _, _, h => by cases h; exact ⟨rfl, le_rfl, fun hp => ⟨hp, nofun⟩⟩
  | .real _, _, h => by cases h; exact ⟨rfl, le_rfl, fun hp => ⟨hp, nofun⟩⟩
  | .text _, _, h => by cases h; exact ⟨rfl, le_rfl, fun hp => ⟨hp, nofun⟩⟩
  | .unusable, _, h => nomatch h
  | .sequence items, _, h => by
    rw [freeForm?, Option.map_eq_some_iff] at h
    obtain ⟨free, hfree, rfl⟩ := h
    obtain ⟨hagain, hdepth, hevery⟩ := freeItems?_keeps hfree
    exact ⟨by rw [freeForm?, hagain, Option.map_some], Nat.succ_le_succ hdepth, hevery⟩
  | .mapping entries, _, h => by
    rw [freeForm?, Option.map_eq_some_iff] at h
    obtain ⟨free, hfree, rfl⟩ := h
    obtain ⟨hagain, hdepth, hevery⟩ := freeEntries?_keeps hfree ⟨.nil, nofun⟩
    have hfromNone : FreeEntries ([] ++ free) := hagain
    refine ⟨?_, Nat.succ_le_succ (by simpa [entriesDepth] using hdepth),
      fun hp => hevery hp trivial⟩
    rw [freeForm?, freeEntries?_of_free hfromNone, List.nil_append, Option.map_some]

theorem freeItems?_keeps {p : Node → Prop} : ∀ {items free : List Node},
    freeItems? items = some free → freeItems? free = some free ∧
      itemsDepth free ≤ itemsDepth items ∧ (EveryItem p items → EveryItem (KeptScalar p) free)
  | [], _, h => by cases h; exact ⟨rfl, le_rfl, id⟩
  | n :: rest, _, h => by
    simp only [freeItems?] at h
    split at h
    · next m free hm hfree =>
      cases h
      obtain ⟨hagain, hdepth, hevery⟩ := freeForm?_keeps hm
      obtain ⟨hagains, hdepths, heverys⟩ := freeItems?_keeps hfree
      refine ⟨by simp only [freeItems?, hagain, hagains], ?_, fun hp => ⟨hevery hp.1, heverys hp.2⟩⟩
      simp only [itemsDepth]
      omega
    · cases h

theorem freeEntries?_keeps {p : Node → Prop} : ∀ {entries sorted free : List (String × Node)},
    freeEntries? entries sorted = some free → FreeEntries sorted → FreeEntries free ∧
      entriesDepth free ≤ max (entriesDepth entries) (entriesDepth sorted) ∧
      (EveryEntry p entries → EveryEntry (KeptScalar p) sorted → EveryEntry (KeptScalar p) free)
  | [], _, _, h, hsorted => by cases h; exact ⟨hsorted, Nat.le_max_right _ _, fun _ => id⟩
  | (key, n) :: rest, sorted, _, h, hsorted => by
    simp only [freeEntries?] at h
    split at h
    · next m hm =>
      obtain ⟨hagain, hdepth, hevery⟩ := freeForm?_keeps hm
      obtain ⟨hfree, hdepths, heverys⟩ := freeEntries?_keeps h (hsorted.insertEntry key hagain)
      have hinserted : entriesDepth (insertEntry key m sorted) ≤
          max m.depth (entriesDepth sorted) := entriesDepth_le fun e he => by
        rcases mem_of_mem_insertEntry he with rfl | he
        · exact Nat.le_max_left _ _
        · exact Nat.le_trans (depth_le_entriesDepth he) (Nat.le_max_right _ _)
      refine ⟨hfree, ?_, fun hp hkept => heverys hp.2 (everyEntry_iff.2 fun e he => ?_)⟩
      · simp only [entriesDepth]
        omega
      · rcases mem_of_mem_insertEntry he with rfl | he
        · exact hevery hp.1
        · exact everyEntry_iff.1 hkept e he
    · cases h

end

end Node

end ResilientCalls
