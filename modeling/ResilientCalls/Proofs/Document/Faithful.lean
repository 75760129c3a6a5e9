import ResilientCalls.Proofs.Document.Fields
import ResilientCalls.Proofs.Json.Values
/-!
# Readers that read back what they have read

A reader may take many forms of a value and write only one: fields in any
order, fields that are unknown or missing, sequences for records. It is
faithful if what it has read is read back from what is written
(`Reader.Faithful`). Readers of lists and of records are faithful if those
of their members and fields are. Free forms count the containers around
them, and what is left out is written with its default, so a reader needs
room: as many containers as it opens itself.
-/

namespace ResilientCalls

/-- What a JSON text holds in a node that is written. -/
abbrev Node.IsKept (n : Node) : Prop := n.Every (Node.KeptScalar Json.HoldsInteger)

namespace Reader

variable {α : Type} {read : Reader α} {write : α → Node}

/-- A value is read back from where it is written. -/
structure Kept (read : Reader α) (write : α → Node) (reading : Reading) (a : α) : Prop where
  again : read reading (write a) = some a
  isKept : (write a).IsKept

/-- **What is read is read back,** if there is room. -/
def Faithful (room : Nat) (read : Reader α) (write : α → Node) : Prop :=
  ∀ ⦃reading : Reading⦄ ⦃node : Node⦄ ⦃a : α⦄, reading.depth + room ≤ depthLimit →
    node.Every Json.HoldsInteger → read reading node = some a → Kept read write reading a

theorem Faithful.mono {room more : Nat} (h : Faithful room read write) (hmore : room ≤ more) :
    Faithful more read write :=
  fun _ _ _ hroom hnode hread => h (by omega) hnode hread

/-! ## Scalars and free forms -/

theorem kept_text (reading : Reading) (s : String) : Kept text .text reading s :=
  ⟨rfl, trivial, by simp⟩

theorem faithful_text : Faithful 0 text .text := fun _ _ _ _ _ _ => kept_text _ _

theorem kept_boolean (reading : Reading) (b : Bool) : Kept boolean .boolean reading b :=
  ⟨rfl, trivial, by simp⟩

theorem faithful_boolean : Faithful 0 boolean .boolean := fun _ _ _ _ _ _ => kept_boolean _ _

theorem kept_count {limit n : Nat} (hlimit : limit ≤ maxCount64) (hn : n ≤ limit)
    (reading : Reading) : Kept (count limit) (fun n : Nat => .integer n) reading n :=
  ⟨count_integer hn reading, ⟨by omega, Int.ofNat_le.2 (Nat.le_trans hn hlimit)⟩, by simp⟩

theorem kept_zero {limit : Nat} (hlimit : limit ≤ maxCount64) (reading : Reading) :
    Kept (count limit) (fun n : Nat => .integer n) reading 0 :=
  kept_count hlimit (Nat.zero_le _) reading

theorem faithful_count {limit : Nat} (hlimit : limit ≤ maxCount64) :
    Faithful 0 (count limit) fun n : Nat => .integer n := by
  intro reading node n _ _ hread
  cases node with
  | integer i =>
    simp only [count] at hread
    split at hread
    · next hrange =>
      cases hread
      exact kept_count hlimit (by omega) reading
    · cases hread
  | _ => cases hread

theorem faithful_int64 : Faithful 0 int64 .integer := by
  intro reading node n _ _ hread
  cases node with
  | integer i =>
    simp only [int64] at hread
    split at hread
    · next hrange =>
      cases hread
      refine ⟨by rw [int64, if_pos hrange], ⟨hrange.1, ?_⟩, by simp⟩
      unfold maxCount64
      omega
    · cases hread
  | _ => cases hread

/-- A free form is passed on as it is. -/
theorem faithful_freeForm : Faithful 0 freeForm fun n => n := by
  intro reading node free _ hnode hread
  simp only [freeForm] at hread
  split at hread
  · next hdepth =>
    obtain ⟨hagain, hless, hkept⟩ := Node.freeForm?_keeps hread
    exact ⟨by rw [freeForm, if_pos (by simpa using by omega)]; exact hagain, hkept hnode⟩
  · cases hread

theorem kept_null {reading : Reading} (h : reading.depth ≤ depthLimit) :
    Kept freeForm (fun n => n) reading .null :=
  ⟨by rw [freeForm, if_pos (by simpa [Node.depth] using h)]; rfl, trivial, by simp⟩

/-! ## Lists -/

/-- The node of a list. -/
abbrev writeList (write : α → Node) (as : List α) : Node := .sequence (as.map write)

theorem kept_list {reading : Reading} {as : List α}
    (h : ∀ a ∈ as, Kept read write reading.inside a) :
    Kept (list read) (writeList write) reading as := by
  constructor
  · induction as with
    | nil => rfl
    | cons a as ih =>
      have hrest := ih fun b hb => h b (List.mem_cons_of_mem _ hb)
      simp only [list, List.map_cons, List.mapM_cons,
        (h a List.mem_cons_self).again] at hrest ⊢
      rw [hrest]
      rfl
  · refine Node.everyItem_iff.2 fun n hn => ?_
    obtain ⟨a, ha, rfl⟩ := List.mem_map.1 hn
    exact (h a ha).isKept

/-- **A list of what is read back is read back.** -/
theorem Faithful.list {room : Nat} (h : Faithful room read write) :
    Faithful (room + 1) (list read) (writeList write) := by
  intro reading node as hroom hnode hread
  cases node with
  | sequence items =>
    refine kept_list fun a ha => ?_
    obtain ⟨n, hn, ha⟩ := exists_of_mapM hread a ha
    exact h (by simp only [Reading.inside]; omega) (Node.everyItem_iff.1 hnode n hn) ha
  | _ => cases hread

theorem kept_nil (reading : Reading) : Kept (list read) (writeList write) reading [] :=
  kept_list (List.forall_mem_nil _)

/-- A list of free forms is written as it is. -/
theorem writeList_freeForm : writeList (fun n => n) = Node.sequence :=
  funext fun ns => congrArg Node.sequence (List.map_id ns)

theorem faithful_freeForms : Faithful 1 (list freeForm) .sequence :=
  writeList_freeForm ▸ Faithful.list faithful_freeForm

theorem kept_freeForms_nil (reading : Reading) : Kept (list freeForm) .sequence reading [] :=
  writeList_freeForm ▸ kept_nil reading

/-! ## Values that may be missing -/

theorem optional_of_ne_null {n : Node} (h : n ≠ .null) (reading : Reading) :
    optional read reading n = (read reading n).map some := by
  cases n with
  | null => exact absurd rfl h
  | _ => rfl

/-- A value that may be missing is read back if it is there. -/
theorem Faithful.optional {room : Nat} (h : Faithful room read write) {reading : Reading}
    {node : Node} {value : Option α} (hroom : reading.depth + room ≤ depthLimit)
    (hnode : node.Every Json.HoldsInteger) (hread : optional read reading node = some value) :
    ∀ a ∈ value, Kept read write reading a := by
  intro a ha
  obtain rfl := ha
  have hsome : read reading node = some a := by
    cases node with
    | null => cases hread
    | _ => simpa [Reader.optional] using hread
  exact h hroom hnode hsome

end Reader

/-! ## Records -/

namespace Record

open Reader

variable {α β : Type} {read : Reader α} {write : α → Node} {room k : Nat} {r : Record}
  {name : String}

/-- The fields of a record, with room around them, come from a JSON text. -/
structure Given (room : Nat) (r : Record) : Prop where
  depth : r.reading.depth + room ≤ depthLimit
  fields : ∀ e ∈ r.fields, e.2.Every Json.HoldsInteger

/-- A field that is found is one of the fields. -/
theorem Given.of_lookup (h : r.Given room) {n : Node} (hn : r.fields.lookup name = some n) :
    n.Every Json.HoldsInteger := by
  obtain ⟨before, after, hfields, -⟩ := List.lookup_eq_some_iff.1 hn
  exact h.fields (name, n) (by simp [hfields])

section Fields

variable {f : α → Option β} {b : β}

/-- A field that must be given is read back. -/
theorem Given.need (h : r.Given room) (hread : Faithful k read write) (hk : k ≤ room)
    (hb : (r.need name read >>= f) = some b) :
    ∃ a, Kept read write r.reading a ∧ f a = some b := by
  obtain ⟨a, ha, hb⟩ := Option.bind_eq_some_iff.1 hb
  obtain ⟨n, hn, ha⟩ := Option.bind_eq_some_iff.1 ha
  have hdepth := h.depth
  exact ⟨a, hread (by omega) (h.of_lookup hn) ha, hb⟩

/-- A field with a default is read back. -/
theorem Given.get (h : r.Given room) (hread : Faithful k read write) (hk : k ≤ room)
    {default : α} (hdefault : Kept read write r.reading default)
    (hb : (r.get name default read >>= f) = some b) :
    ∃ a, Kept read write r.reading a ∧ f a = some b := by
  obtain ⟨a, ha, hb⟩ := Option.bind_eq_some_iff.1 hb
  refine ⟨a, ?_, hb⟩
  unfold Record.get at ha
  split at ha
  · cases ha
    exact hdefault
  · next n hn =>
    have hdepth := h.depth
    exact hread (by omega) (h.of_lookup hn) ha

/-- A field that is left out when it has no value is read back. -/
theorem Given.optional {f : Option α → Option β} (h : r.Given room)
    (hread : Faithful k read write) (hk : k ≤ room)
    (hb : (r.get name none (.optional read) >>= f) = some b) :
    ∃ value, (∀ a ∈ value, Kept read write r.reading a) ∧ f value = some b := by
  obtain ⟨value, hvalue, hb⟩ := Option.bind_eq_some_iff.1 hb
  refine ⟨value, ?_, hb⟩
  unfold Record.get at hvalue
  split at hvalue
  · cases hvalue
    exact nofun
  · next n hn =>
    have hdepth := h.depth
    exact hread.optional (by omega) (h.of_lookup hn) hvalue

end Fields

theorem collect_subset {names : List String} : ∀ {entries fields : List (String × Node)},
    collect names entries = some fields → fields ⊆ entries
  | [], _, h => by
    cases h
    exact List.Subset.refl _
  | (key, n) :: rest, _, h => by
    simp only [collect] at h
    split at h
    · cases h
    · next fields hfields =>
      have hrest := collect_subset hfields
      split at h
      · split at h
        · cases h
        · cases h
          exact List.cons_subset_cons _ hrest
      · cases h
        exact List.subset_cons_of_subset _ hrest

/-- The fields of a node are parts of it. -/
theorem given_of_ofNode? {names : List String} {reading : Reading} {node : Node}
    (h : ofNode? names reading node = some r) (hroom : reading.depth + (room + 1) ≤ depthLimit)
    (hnode : node.Every Json.HoldsInteger) : r.reading = reading.inside ∧ r.Given room := by
  have hinside : reading.inside.depth + room ≤ depthLimit := by
    simp only [Reading.inside]
    omega
  cases node with
  | mapping entries =>
    obtain ⟨fields, hfields, rfl⟩ := Option.map_eq_some_iff.1 h
    exact ⟨rfl, hinside, fun e he => Node.everyEntry_iff.1 hnode e (collect_subset hfields he)⟩
  | sequence items =>
    simp only [ofNode?] at h
    split at h
    · cases h
      exact ⟨rfl, hinside, fun e he => Node.everyItem_iff.1 hnode e.2 (List.of_mem_zip he).2⟩
    · cases h
  | _ => cases h

/-- The entries of a value from which the fields of its record are read
back. -/
structure Keeps (names : List String) (fields : Record → Option β)
    (entries : List (String × Node)) (reading : Reading) (b : β) : Prop where
  known : (entries.map Prod.fst).Sublist names
  again : fields ⟨entries, reading⟩ = some b
  isKept : ∀ e ∈ entries, e.2.IsKept

/-- **A record of what is read back is read back.** -/
theorem faithful {names : List String} {fields : Record → Option β}
    {entries : β → List (String × Node)} (hnames : names.Nodup)
    (h : ∀ {r : Record} {b : β}, r.Given room → fields r = some b →
      Keeps names fields (entries b) r.reading b) :
    Faithful (room + 1) (fun reading node => (ofNode? names reading node).bind fields)
      fun b => .mapping (entries b) := by
  intro reading node b hroom hnode hread
  obtain ⟨r, hr, hb⟩ := Option.bind_eq_some_iff.1 hread
  obtain ⟨hreading, hgiven⟩ := given_of_ofNode? hr hroom hnode
  have hkeeps := h hgiven hb
  rw [hreading] at hkeeps
  refine ⟨?_, Node.everyEntry_iff.2 hkeeps.isKept⟩
  simp only [ofNode?_mapping hkeeps.known hnames, Option.bind_some, hkeeps.again]

/-! ## Fields of what is written -/

variable {entries : List (String × Node)} {reading : Reading}

theorem need_of_kept {a : α} (h : Kept read write reading a)
    (hlookup : entries.lookup name = some (write a)) :
    need ⟨entries, reading⟩ name read = some a := by
  simp only [need, hlookup, Option.bind_some, h.again]

theorem get_of_kept {a default : α} (h : Kept read write reading a)
    (hlookup : entries.lookup name = some (write a)) :
    Record.get ⟨entries, reading⟩ name default read = some a := by
  simp only [Record.get, hlookup, h.again]

theorem get_of_optional {value : Option α} (h : ∀ a ∈ value, Kept read write reading a)
    (hnull : ∀ a, write a ≠ .null) (hlookup : entries.lookup name = value.map write) :
    Record.get ⟨entries, reading⟩ name none (.optional read) = some value := by
  rw [get_optional hlookup fun a ha => ?_]
  · rw [Option.or_none]
  · rw [optional_of_ne_null (hnull a), (h a ha).again, Option.map_some]

theorem isKept_entryIfSome {value : Option α} (h : ∀ a ∈ value, Kept read write reading a) :
    ∀ e ∈ entryIfSome name (value.map write), e.2.IsKept := by
  cases value with
  | none => exact nofun
  | some a => exact List.forall_mem_singleton.2 (h a rfl).isKept

end Record

end ResilientCalls
