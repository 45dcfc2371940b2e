import Mathlib.Data.List.Basic

namespace Lantun

/-!
# The places of a growing list

What a run sets up is kept in lists that only grow, and is referred to by its
place.  A place once taken keeps its entry; an update reaches the entry it names
and nothing else.
-/

variable {α β : Type}

/-- A list that grows keeps what stands in it. -/
theorem getElem?_append_of_found {list : List α} {position : Nat} {element : α}
    (found : list[position]? = some element) (more : List α) :
    (list ++ more)[position]? = some element :=
  (List.getElem?_append_left (List.getElem?_eq_some_iff.mp found).1).trans found

/-- An entry of a list that has grown by one. -/
theorem getElem?_concat_cases {list : List α} {last element : α} {position : Nat}
    (here : (list ++ [last])[position]? = some element) :
    list[position]? = some element ∨ (position = list.length ∧ element = last) := by
  rw [List.getElem?_append] at here
  split at here
  · exact Or.inl here
  · rw [List.getElem?_singleton] at here
    split at here <;> cases here
    exact Or.inr ⟨by omega, rfl⟩

/-- Replacing the last entry. -/
theorem getLast?_set_last {list : List α} (some_ : list ≠ []) (element : α) :
    (list.set (list.length - 1) element).getLast? = some element := by
  have bound : list.length - 1 < list.length :=
    Nat.sub_one_lt (fun empty => some_ (List.eq_nil_of_length_eq_zero empty))
  rw [List.getLast?_eq_getElem?, List.length_set, List.getElem?_set_self bound]

/-- Replacing an entry by one that a function does not tell apart from it. -/
theorem map_set_same {f : α → β} {entries : List α} {index : Nat} {before after : α}
    (found : entries[index]? = some before) (same : f after = f before) :
    (entries.set index after).map f = entries.map f := by
  rcases List.getElem?_eq_some_iff.mp found with ⟨bound, here⟩
  rw [List.map_set, same, ← here, ← List.getElem_map f (h := by simpa using bound),
    List.set_getElem_self]

/-- A replaced entry is taken out of the count, and the new one goes into it. -/
theorem countP_set (counted : α → Bool) {entries : List α} {index : Nat} {before : α}
    (found : entries[index]? = some before) (after : α) :
    (entries.set index after).countP counted + (if counted before then 1 else 0) =
      entries.countP counted + (if counted after then 1 else 0) := by
  induction entries generalizing index with
  | nil => cases found
  | cons first rest ih =>
      cases index with
      | zero =>
          cases found
          simp only [List.set_cons_zero, List.countP_cons]
          omega
      | succ index =>
          have later := @ih index found
          simp only [List.set_cons_succ, List.countP_cons]
          omega

end Lantun
