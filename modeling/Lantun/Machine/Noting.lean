import Lantun.Machine.Run

namespace Lantun

universe u v w

/-!
# A machine that keeps a note of its run

What happened earlier in a run is not always to be read off its present state.
`Machine.noting` carries a note along that each step may update, and that no
step looks at: the runs are those of the machine itself.
-/

namespace Machine

variable {State : Type u} {Label : Type v} {Note : Type w}

/-- The machine with a note, which is `first` at the start. -/
def noting (M : Machine State Label) (first : Note) (note : Note → State → Label → State → Note) :
    Machine (State × Note) Label where
  initial noted := M.initial noted.1 ∧ noted.2 = first
  step noted l := (M.step noted.1 l).map fun t => (t, note noted.2 noted.1 l t)

variable {M : Machine State Label} {first : Note} {note : Note → State → Label → State → Note}

theorem step_of_noting {noted next : State × Note} {l : Label}
    (taken : (M.noting first note).step noted l = some next) :
    M.step noted.1 l = some next.1 := by
  rcases Option.map_eq_some_iff.mp taken with ⟨t, moved, same⟩
  cases same
  exact moved

end Machine

end Lantun
