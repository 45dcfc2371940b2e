import Lantun.Machine.Run

namespace Lantun

universe u v w

/-!
# Components that run side by side

A program that keeps a list of running things has few ways to change the list: a
new component is put behind the others, as it is when it starts, or one of them
takes a step of its own.  `Machine.Family` says of one step of such a program that
it does no more than that.  What is then known of a component is what is known of
its own machine, in whatever order the components move.

The machine of a component may depend on what identifies it, which no step
changes.
-/

namespace Machine

variable {Id : Type u} {State : Type v} {Label : Type w}

/-- All a step of a program may do to the list of its components. -/
inductive Family (M : Id → Machine State Label) (before after : List (Id × State)) : Prop where
  | stays : after = before → Family M before after
  | grows {id : Id} {s : State} :
      (M id).initial s → after = before ++ [(id, s)] → Family M before after
  | moves {index : Nat} {id : Id} {s t : State} {l : Label} :
      before[index]? = some (id, s) → (M id).step s l = some t →
        after = before.set index (id, t) → Family M before after

/-- Every component is in a state its own machine can reach. -/
def Apart (M : Id → Machine State Label) (components : List (Id × State)) : Prop :=
  ∀ component ∈ components, (M component.1).Reachable component.2

variable {M : Id → Machine State Label} {before after : List (Id × State)}

theorem apart_nil : Apart M [] := fun _ member => nomatch member

theorem Reachable.step {N : Machine State Label} {s t : State} {l : Label} (reached : N.Reachable s)
    (taken : N.step s l = some t) : N.Reachable t :=
  reached.run ((N.run_singleton l s).trans taken)

theorem Family.apart (moves : Family M before after) (apart : Apart M before) : Apart M after := by
  cases moves with
  | stays same =>
      rw [same]
      exact apart
  | grows first same =>
      rw [same]
      intro component member
      rcases List.mem_append.mp member with old | new
      · exact apart component old
      · rcases List.mem_singleton.mp new
        exact ⟨_, [], first, rfl⟩
  | moves found taken same =>
      rw [same]
      intro component member
      rcases List.mem_or_eq_of_mem_set member with old | new
      · exact apart component old
      · rw [new]
        exact (apart _ (List.mem_of_getElem? found)).step taken

end Machine

end Lantun
