import Mathlib.Data.List.AList

namespace Lantun

/-!
# The values of a map

A hash map without duplicate keys is an association list here, and what it
iterates over is the list of its values.  Their order means nothing, so what the
operations do to them is said up to permutation.
-/

variable {Index Value : Type}

/-- `HashMap::values`. -/
def values (map : AList fun _ : Index => Value) : List Value :=
  map.entries.map fun entry => entry.2

@[simp] theorem values_empty : values (∅ : AList fun _ : Index => Value) = [] := rfl

variable [DecidableEq Index] {map : AList fun _ : Index => Value} {index : Index} {value : Value}

theorem mem_values : value ∈ values map ↔ ∃ index, map.lookup index = some value := by
  simp only [values, List.mem_map]
  constructor
  · rintro ⟨⟨index, found⟩, member, rfl⟩
    exact ⟨index, AList.mem_lookup_iff.mpr member⟩
  · rintro ⟨index, found⟩
    exact ⟨⟨index, value⟩, AList.mem_lookup_iff.mp found, rfl⟩

theorem mem_of_lookup (found : map.lookup index = some value) : index ∈ map :=
  AList.lookup_isSome.mp (by rw [found]; rfl)

theorem values_insert (absent : index ∉ map) (value : Value) :
    values (map.insert index value) = value :: values map := by
  simp only [values, AList.entries_insert_of_notMem absent, List.map_cons]

theorem values_erase (found : map.lookup index = some value) :
    (values map).Perm (value :: values (map.erase index)) := by
  rcases List.exists_of_kerase (AList.mem_keys.mp (mem_of_lookup found)) with
    ⟨other, front, back, _, whole, left⟩
  have same : other = value := by
    have here : map.lookup index = some other :=
      AList.mem_lookup_iff.mpr (whole ▸ List.mem_append_right front List.mem_cons_self)
    exact Option.some.inj (here.symm.trans found)
  have erased : (map.erase index).entries = front ++ back := left
  rw [values, values, whole, erased, same, List.map_append, List.map_append, List.map_cons]
  exact List.perm_middle

/-- Replacing a value does not change how many there are. -/
theorem length_values_insert (present : index ∈ map) (value : Value) :
    (values (map.insert index value)).length = (values map).length := by
  rcases Option.isSome_iff_exists.mp (AList.lookup_isSome.mpr present) with ⟨old, found⟩
  have erased : (map.insert index value).entries = ⟨index, value⟩ :: (map.erase index).entries :=
    AList.entries_insert
  rw [(values_erase found).length_eq, values, erased, List.map_cons, ← values, List.length_cons,
    List.length_cons]

/-- What the values of a map come to. -/
def total (size : Value → Nat) (map : AList fun _ : Index => Value) : Nat :=
  (values map).foldl (fun sum value => sum + size value) 0

variable {size : Value → Nat} {old : Value}

omit [DecidableEq Index] in
@[simp] theorem total_empty : total size (∅ : AList fun _ : Index => Value) = 0 := rfl

theorem foldl_size (size : Value → Nat) (list : List Value) (sum : Nat) :
    list.foldl (fun sum value => sum + size value) sum =
      sum + list.foldl (fun sum value => sum + size value) 0 := by
  induction list generalizing sum with
  | nil => rfl
  | cons value list ih => rw [List.foldl_cons, List.foldl_cons, ih, ih (0 + size value), Nat.zero_add,
      Nat.add_assoc]

theorem total_insert_new (absent : index ∉ map) (value : Value) :
    total size (map.insert index value) = size value + total size map := by
  rw [total, values_insert absent, List.foldl_cons, foldl_size, Nat.zero_add, ← total]

theorem total_erase (found : map.lookup index = some old) :
    total size map = size old + total size (map.erase index) := by
  rw [total, (values_erase found).foldl_eq' (fun _ _ _ _ _ => Nat.add_right_comm _ _ _),
    List.foldl_cons, foldl_size, Nat.zero_add, ← total]

/-- A replaced value is taken out of the sum, and the new one goes into it. -/
theorem total_insert (found : map.lookup index = some old) (value : Value) :
    total size (map.insert index value) + size old = total size map + size value := by
  have erased : (map.insert index value).entries = ⟨index, value⟩ :: (map.erase index).entries :=
    AList.entries_insert
  rw [total_erase found, total, values, erased, List.map_cons, ← values, List.foldl_cons,
    foldl_size, Nat.zero_add, ← total]
  dsimp only
  omega

end Lantun
