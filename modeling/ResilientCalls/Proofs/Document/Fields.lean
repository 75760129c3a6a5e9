import Mathlib.Data.List.Nodup
import ResilientCalls.Document.Record
/-!
# Fields read back from a mapping

A record that is written as a mapping of some of its names, in their
order, gives these fields when it is read (`Record.ofNode?_mapping`), and
each field has the value that was written under its name.
-/

namespace ResilientCalls

/-- What a list is made into comes from its members. -/
theorem exists_of_mapM {α β : Type} {f : α → Option β} {as : List α} {bs : List β}
    (h : as.mapM f = some bs) : ∀ b ∈ bs, ∃ a ∈ as, f a = some b := by
  induction as generalizing bs with
  | nil =>
    cases h
    exact nofun
  | cons a as ih =>
    simp only [List.mapM_cons, Option.bind_eq_bind, Option.bind_eq_some_iff] at h
    obtain ⟨first, hfirst, others, hothers, heq⟩ := h
    cases heq
    intro b hb
    rcases List.mem_cons.1 hb with rfl | hb
    · exact ⟨a, List.mem_cons_self, hfirst⟩
    · obtain ⟨x, hx, hread⟩ := ih hothers b hb
      exact ⟨x, List.mem_cons_of_mem _ hx, hread⟩

namespace Reader

theorem count_integer {limit n : Nat} (h : n ≤ limit) (reading : Reading) :
    count limit reading (.integer n) = some n := by
  rw [count, if_pos ⟨Int.natCast_nonneg n, Int.ofNat_le.2 h⟩, Int.toNat_natCast]

/-- A list is read back if its members are. -/
theorem list_map {α : Type} {r : Reader α} {w : α → Node} {reading : Reading}
    (h : ∀ a, r reading.inside (w a) = some a) (as : List α) :
    list r reading (.sequence (as.map w)) = some as := by
  induction as with
  | nil => rfl
  | cons a rest ih =>
    simp only [list, List.map_cons, List.mapM_cons, h] at ih ⊢
    rw [ih]
    rfl

end Reader

theorem map_fst_entryIfSome_sublist (key : String) (value : Option Node) :
    ((entryIfSome key value).map Prod.fst).Sublist [key] := by
  cases value with
  | none => exact List.nil_sublist _
  | some n => exact List.Sublist.refl _

theorem lookup_entryIfSome (name key : String) (value : Option Node) :
    (entryIfSome key value).lookup name = if name == key then value else none := by
  cases value with
  | none => exact (ite_self none).symm
  | some n =>
    rw [entryIfSome, List.lookup_cons, List.lookup_nil]
    cases name == key <;> rfl

namespace Record

/-- Entries of distinct known keys are all collected. -/
theorem collect_eq_some {names : List String} : ∀ {entries : List (String × Node)},
    (∀ e ∈ entries, e.1 ∈ names) → (entries.map Prod.fst).Nodup →
    collect names entries = some entries
  | [], _, _ => rfl
  | (key, n) :: rest, hknown, hnodup => by
    obtain ⟨hkey, hrest⟩ := List.nodup_cons.1 hnodup
    have hfirst : names.contains key = true :=
      List.contains_iff_mem.2 (hknown _ List.mem_cons_self)
    have hnew : ¬ rest.any (·.1 == key) = true := fun hany => by
      obtain ⟨e, he, hsame⟩ := List.any_eq_true.1 hany
      exact hkey (eq_of_beq hsame ▸ List.mem_map.2 ⟨e, he, rfl⟩)
    rw [collect, collect_eq_some (fun e he => hknown e (List.mem_cons_of_mem _ he)) hrest]
    simp only [hfirst, if_true, if_neg hnew]

/-- Entries whose keys are some of the names, in their order, are the
fields of the record. -/
theorem ofNode?_mapping {names : List String} {entries : List (String × Node)}
    (hkeys : (entries.map Prod.fst).Sublist names) (hnames : names.Nodup) (reading : Reading) :
    ofNode? names reading (.mapping entries) = some ⟨entries, reading.inside⟩ := by
  have hknown : ∀ e ∈ entries, e.1 ∈ names :=
    fun e he => hkeys.subset (List.mem_map_of_mem he)
  rw [ofNode?, collect_eq_some hknown (hnames.sublist hkeys), Option.map_some]

variable {α : Type} {r : Record} {name : String} {default : α} {reader : Reader α}

theorem get_of_lookup {entries : List (String × Node)} {reading : Reading} {n : Node}
    (h : entries.lookup name = some n) :
    get ⟨entries, reading⟩ name default reader = reader reading n := by
  rw [get, h]

/-- A field written only when it has a value is read back, with the default
for none. -/
theorem get_optional {value default : Option α} {w : α → Node}
    (hlookup : r.fields.lookup name = value.map w)
    (hread : ∀ a ∈ value, (Reader.optional reader) r.reading (w a) = some (some a)) :
    r.get name default (.optional reader) = some (value.or default) := by
  rw [get, hlookup]
  cases value with
  | none => rfl
  | some a => exact hread a rfl

end Record

end ResilientCalls
