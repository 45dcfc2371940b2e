import Mathlib.Data.List.Sort
import Mathlib.Data.Multiset.ZeroCons

namespace Lantun
namespace SortedList

universe u v w

/-!
# Lists kept sorted under one key and distinct under another

A list that is changed only by pushing an element and sorting stably, or by
removing the element at a position, stays sorted; it stays free of two elements
with one slot if only elements with a new slot are pushed.  Stability is what
makes the push an insertion: on a sorted list the other elements keep their
order.
-/

variable {α : Type u} {κ : Type v} {σ : Type w} [LinearOrder κ]

/-- Push an element, then sort stably by `key`. -/
def pushSorted (key : α → κ) (list : List α) (element : α) : List α :=
  (list ++ [element]).insertionSort fun first second => key first ≤ key second

/-- Remove the first element that satisfies `found`. -/
def removeFirst (found : α → Bool) (list : List α) : Option (List α) :=
  (list.findIdx? found).map list.eraseIdx

def Sorted (key : α → κ) (list : List α) : Prop :=
  list.Pairwise fun first second => key first ≤ key second

def Distinct (slot : α → σ) (list : List α) : Prop :=
  list.Pairwise fun first second => slot first ≠ slot second

/-- `after` has one element more, and the others in their order. -/
def Gains (element : α) (before after : List α) : Prop :=
  after.Perm (element :: before) ∧ before.Sublist after

/-- `after` has one element less, and the others in their order. -/
def Loses (element : α) (before after : List α) : Prop :=
  ∃ front back, before = front ++ element :: back ∧ after = front ++ back

theorem Loses.sublist {element : α} {before after : List α} (loses : Loses element before after) :
    after.Sublist before := by
  rcases loses with ⟨front, back, rfl, rfl⟩
  exact (List.Sublist.refl front).append (List.sublist_cons_self element back)

theorem perm_pushSorted (key : α → κ) (list : List α) (element : α) :
    (pushSorted key list element).Perm (element :: list) :=
  (List.perm_insertionSort _ _).trans (List.perm_append_singleton element list)

theorem mem_pushSorted {key : α → κ} {list : List α} {element other : α} :
    other ∈ pushSorted key list element ↔ other = element ∨ other ∈ list := by
  rw [(perm_pushSorted key list element).mem_iff, List.mem_cons]

/-- The sort sorts, whatever the list was. -/
theorem sorted_pushSorted (key : α → κ) (list : List α) (element : α) :
    Sorted key (pushSorted key list element) := by
  have total : Std.Total fun first second : α => key first ≤ key second :=
    ⟨fun first second => le_total (key first) (key second)⟩
  have trans : IsTrans α fun first second => key first ≤ key second :=
    ⟨fun _ _ _ => le_trans⟩
  exact List.pairwise_insertionSort _ _

/-- Into a sorted list the element is inserted. -/
theorem gains_pushSorted {key : α → κ} {list : List α} (sorted : Sorted key list) (element : α) :
    Gains element list (pushSorted key list element) := by
  refine ⟨perm_pushSorted key list element, ?_⟩
  exact List.sublist_insertionSort sorted (List.sublist_append_left list [element])

theorem Distinct.pushSorted {slot : α → σ} {list : List α} (distinct : Distinct slot list)
    (key : α → κ) {element : α} (fresh : ∀ other ∈ list, slot other ≠ slot element) :
    Distinct slot (SortedList.pushSorted key list element) := by
  have whole : Distinct slot (element :: list) :=
    List.pairwise_cons.mpr ⟨fun other member => (fresh other member).symm, distinct⟩
  exact whole.perm (perm_pushSorted key list element).symm Ne.symm

/-- Where an element is removed, none before it satisfies `found`. -/
theorem split_of_removeFirst {found : α → Bool} {before after : List α}
    (removed : removeFirst found before = some after) :
    ∃ front element back, before = front ++ element :: back ∧ after = front ++ back ∧
      found element = true ∧ ∀ other ∈ front, found other = false := by
  rcases Option.map_eq_some_iff.mp removed with ⟨position, at_, rfl⟩
  rcases List.findIdx?_eq_some_iff_getElem.mp at_ with ⟨within, holds, first⟩
  refine ⟨before.take position, before[position], before.drop (position + 1), ?_, ?_, holds, ?_⟩
  · rw [← List.drop_eq_getElem_cons within, List.take_append_drop]
  · exact List.eraseIdx_eq_take_drop_succ before position
  · intro other member
    rcases List.mem_take_iff_getElem.mp member with ⟨index, bound, rfl⟩
    simpa using first index (by omega)

theorem loses_of_removeFirst {found : α → Bool} {before after : List α}
    (removed : removeFirst found before = some after) :
    ∃ element, found element = true ∧ Loses element before after := by
  rcases split_of_removeFirst removed with ⟨front, element, back, whole, rest, holds, _⟩
  exact ⟨element, holds, front, back, whole, rest⟩

theorem removeFirst_eq_none {found : α → Bool} {list : List α} :
    removeFirst found list = none ↔ ∀ element ∈ list, found element = false := by
  rw [removeFirst, Option.map_eq_none_iff, List.findIdx?_eq_none_iff]

/-! ## Removing what has just been pushed -/

section Undo

variable {key : α → κ} {list : List α} {element : α}

/-- The search for the key of the element that has just been pushed. -/
theorem exists_removeFirst_pushSorted (key : α → κ) (list : List α) (element : α) :
    ∃ after, removeFirst (fun other => decide (key other = key element))
      (pushSorted key list element) = some after := by
  refine Option.ne_none_iff_exists'.mp fun none_ => ?_
  have unfound := removeFirst_eq_none.mp none_ element (mem_pushSorted.mpr (Or.inl rfl))
  exact of_decide_eq_false unfound rfl

/-- An element with a new key is found, and nothing else is disturbed. -/
theorem removeFirst_pushSorted (sorted : Sorted key list)
    (fresh : ∀ other ∈ list, key other ≠ key element) :
    removeFirst (fun other => decide (key other = key element)) (pushSorted key list element) =
      some list := by
  rcases exists_removeFirst_pushSorted key list element with ⟨after, removed⟩
  rcases split_of_removeFirst removed with ⟨front, other, back, whole, rfl, holds, _⟩
  have same : other = element := by
    have member : other ∈ pushSorted key list element := by
      rw [whole]
      exact List.mem_append_right front List.mem_cons_self
    rcases mem_pushSorted.mp member with is | older
    · exact is
    · exact absurd (of_decide_eq_true holds) (fresh other older)
  subst same
  have gains := gains_pushSorted sorted other
  rw [whole] at gains
  have perm : (front ++ back).Perm list :=
    List.Perm.cons_inv (List.perm_middle.symm.trans gains.1)
  have unfound : ∀ entries : List α, entries.Perm list →
      entries.filter (fun entry => decide (key entry ≠ key other)) = entries := by
    intro entries same
    refine List.filter_eq_self.mpr fun entry member => ?_
    exact decide_eq_true (fresh entry (same.mem_iff.mp member))
  have kept : list.Sublist (front ++ back) := by
    have filtered := gains.2.filter fun entry => decide (key entry ≠ key other)
    rw [unfound list (List.Perm.refl list), List.filter_append, List.filter_cons_of_neg (by simp),
      ← List.filter_append, unfound _ perm] at filtered
    exact filtered
  rw [removed, kept.eq_of_length perm.length_eq.symm]

/-- An older element of the same key stands in front of it, as the sort is
stable. -/
theorem pair_sublist_pushSorted {old : α} (member : old ∈ list) (same : key old = key element) :
    [old, element].Sublist (pushSorted key list element) := by
  refine List.sublist_insertionSort ?_ ?_
  · exact List.pairwise_pair.mpr (le_of_eq same)
  · exact (List.singleton_sublist.mpr member).append (List.Sublist.refl [element])

/-- Pushing and removing by key gives the list back exactly if the key was new. -/
theorem removeFirst_pushSorted_iff (sorted : Sorted key list) (absent : element ∉ list) :
    removeFirst (fun other => decide (key other = key element)) (pushSorted key list element) =
        some list ↔
      ∀ other ∈ list, key other ≠ key element := by
  refine ⟨fun removed old member same => ?_, removeFirst_pushSorted sorted⟩
  rcases split_of_removeFirst removed with ⟨front, other, back, whole, rest, _, first⟩
  have perm : (other :: list).Perm (element :: list) := by
    have pushed := perm_pushSorted key list element
    rw [whole] at pushed
    nth_rewrite 1 [rest]
    exact List.perm_middle.symm.trans pushed
  have is : other = element :=
    (Multiset.cons_inj_left (list : Multiset α)).mp (Multiset.coe_eq_coe.mpr perm)
  subst is
  have none_ : front.filter (fun entry => decide (key entry = key other)) = [] :=
    List.filter_eq_nil_iff.mpr fun entry listed => by
      rw [first entry listed]
      exact Bool.false_ne_true
  have stands := (pair_sublist_pushSorted member same).filter fun entry =>
    decide (key entry = key other)
  rw [whole, List.filter_append, none_, List.nil_append] at stands
  simp only [List.filter_cons, same, decide_true, if_true, List.filter_nil] at stands
  have again : other ∈ back := by
    rcases List.sublist_cons_iff.mp stands with skipped | ⟨tail, pair, kept⟩
    · exact List.mem_of_mem_filter (skipped.subset (by simp))
    · cases pair
      exact List.mem_of_mem_filter (kept.subset (by simp))
  apply absent
  rw [rest]
  exact List.mem_append_right front again

end Undo

/-! ## Pushing one by one -/

section Batch

variable {key : α → κ}

/-- The elements of one key, in their order. -/
def under (key : α → κ) (shared : κ) (list : List α) : List α :=
  list.filter fun element => key element = shared

theorem under_append (shared : κ) (first second : List α) :
    under key shared (first ++ second) = under key shared first ++ under key shared second :=
  List.filter_append _ _

/-- The sort is stable. -/
theorem under_pushSorted (key : α → κ) (shared : κ) (list : List α) (element : α) :
    under key shared (pushSorted key list element) = under key shared (list ++ [element]) := by
  have level : (under key shared (list ++ [element])).Pairwise
      fun first second => key first ≤ key second := by
    refine List.Pairwise.imp_of_mem ?_ (List.pairwise_of_forall fun _ _ => trivial)
    intro first second here there _
    have left := of_decide_eq_true (List.mem_filter.mp here).2
    have right := of_decide_eq_true (List.mem_filter.mp there).2
    exact le_of_eq (left.trans right.symm)
  have stands : (under key shared (list ++ [element])).Sublist (pushSorted key list element) :=
    List.sublist_insertionSort level List.filter_sublist
  have kept := stands.filter fun other => decide (key other = shared)
  rw [under, List.filter_filter] at kept
  simp only [Bool.and_self] at kept
  have same : (pushSorted key list element).Perm (list ++ [element]) :=
    List.perm_insertionSort _ _
  exact (kept.eq_of_length (same.filter _).length_eq.symm).symm

/-- A sorted list is determined by what stands under each key. -/
theorem eq_of_under {first second : List α} (sorted : Sorted key first)
    (sorted' : Sorted key second) (same : ∀ shared, under key shared first = under key shared second) :
    first = second := by
  induction first generalizing second with
  | nil =>
      cases second with
      | nil => rfl
      | cons head tail =>
          have none_ := same (key head)
          simp [under] at none_
  | cons head tail ih =>
      cases second with
      | nil =>
          have none_ := same (key head)
          simp [under] at none_
      | cons head' tail' =>
          have lists : ∀ {element list list'}, (∀ shared, under key shared list =
              under key shared list') → element ∈ list → element ∈ list' := by
            intro element list list' agree member
            have here : element ∈ under key (key element) list :=
              List.mem_filter.mpr ⟨member, decide_eq_true rfl⟩
            rw [agree] at here
            exact List.mem_of_mem_filter here
          have below : key head ≤ key head' := by
            rcases List.mem_cons.mp (lists (fun shared => (same shared).symm) List.mem_cons_self)
              with is | later
            · exact le_of_eq (congrArg key is).symm
            · exact List.rel_of_pairwise_cons sorted later
          have above : key head' ≤ key head := by
            rcases List.mem_cons.mp (lists same List.mem_cons_self) with is | later
            · exact le_of_eq (congrArg key is).symm
            · exact List.rel_of_pairwise_cons sorted' later
          have level : key head = key head' := le_antisymm below above
          have heads : head = head' ∧ under key (key head) tail = under key (key head) tail' := by
            have both := same (key head)
            simpa [under, level] using both
          rcases heads with ⟨rfl, tails⟩
          refine congrArg (head :: ·) (ih sorted.of_cons sorted'.of_cons fun shared => ?_)
          by_cases here : key head = shared
          · exact here ▸ tails
          · have both := same shared
            simpa [under, here] using both

theorem sorted_foldl {list : List α} (sorted : Sorted key list) (more : List α) :
    Sorted key (more.foldl (pushSorted key) list) := by
  induction more generalizing list with
  | nil => exact sorted
  | cons element more ih => exact ih (sorted_pushSorted key list element)

theorem under_foldl (shared : κ) (more list : List α) :
    under key shared (more.foldl (pushSorted key) list) =
      under key shared list ++ under key shared more := by
  induction more generalizing list with
  | nil => simp [under]
  | cons element more ih =>
      rw [List.foldl_cons, ih, under_pushSorted, ← under_append, ← under_append, List.append_assoc,
        List.singleton_append]

/-- In which order elements are pushed matters for those of one key only. -/
theorem foldl_pushSorted_eq_iff {list : List α} (sorted : Sorted key list) (first second : List α) :
    first.foldl (pushSorted key) list = second.foldl (pushSorted key) list ↔
      ∀ shared, under key shared first = under key shared second := by
  constructor
  · intro same shared
    have both := congrArg (under key shared) same
    rw [under_foldl, under_foldl] at both
    exact List.append_cancel_left both
  · intro same
    apply eq_of_under (sorted_foldl sorted first) (sorted_foldl sorted second)
    intro shared
    rw [under_foldl, under_foldl, same]

end Batch

end SortedList
end Lantun
