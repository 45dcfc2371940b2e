import Lantun.Machine.Run

namespace Lantun

universe u v w x

/-!
# When one machine explains what another one shows

Two levels of one design are two machines.  The lower one takes many steps of
which only some can be seen from outside; the upper one has nothing but steps
that are seen, so its labels are the observations.  A refinement gives every
lower state the upper state it stands for: a step that shows nothing leaves that
state alone, and a step that shows something is the upper step of that name.

The obligations are about single steps, under an invariant of the lower machine.
`Refines.run` is what they amount to: whatever a run shows is a run of the upper
machine.
-/

namespace Machine

variable {State : Type u} {Label : Type v} {Abstract : Type w} {Obs : Type x}

/-- What a run shows of itself, given what each step shows. -/
def shown (M : Machine State Label) (observe : State → Label → State → Option Obs) :
    List Label → State → List Obs
  | [], _ => []
  | l :: ls, s =>
      match M.step s l with
      | none => []
      | some t => (observe s l t).toList ++ M.shown observe ls t

/-- `A` explains what `M` shows through `observe`, state by state. -/
structure Refines (M : Machine State Label) (A : Machine Abstract Obs)
    (observe : State → Label → State → Option Obs) (abstraction : State → Abstract)
    (I : State → Prop) : Prop where
  start : ∀ s, M.initial s → A.initial (abstraction s)
  silent : ∀ s l t, I s → M.step s l = some t → observe s l t = none →
    abstraction t = abstraction s
  visible : ∀ s l t o, I s → M.step s l = some t → observe s l t = some o →
    A.step (abstraction s) o = some (abstraction t)

section Refines

variable {M : Machine State Label} {A : Machine Abstract Obs}
  {observe : State → Label → State → Option Obs} {abstraction : State → Abstract}
  {I : State → Prop}

/-- Whatever a run shows is a run of the upper machine between the states that
the ends of the run stand for.  The invariant need only survive the labels that
are taken. -/
theorem Refines.run (refines : M.Refines A observe abstraction I) {ls : List Label} {s t : State}
    (survives : ∀ l ∈ ls, ∀ s t, I s → M.step s l = some t → I t) (holds : I s)
    (ran : M.run ls s = some t) :
    A.run (M.shown observe ls s) (abstraction s) = some (abstraction t) := by
  induction ls generalizing s with
  | nil =>
      cases ran
      rfl
  | cons l ls ih =>
      rcases M.run_cons_eq_some.mp ran with ⟨m, first, rest⟩
      have later := ih (fun other member => survives other (List.mem_cons_of_mem l member))
        (survives l List.mem_cons_self s m holds first) rest
      simp only [shown, first]
      cases sees : observe s l m with
      | none =>
          rw [← refines.silent s l m holds first sees]
          exact later
      | some o =>
          exact A.run_cons_eq_some.mpr ⟨_, refines.visible s l m o holds first sees, later⟩

end Refines

end Machine

end Lantun
