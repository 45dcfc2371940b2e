import Lantun.Machine.Progress
import Lantun.Async.Watch

namespace Lantun
namespace Async

/-!
# Loops that listen on a stop channel

A loop of this kind selects, with priority, on `changed` of a watch channel, and
leaves where the value it then borrows is `true`.  It runs inside a machine that
also has everything else that can happen, so a run of the machine is a schedule.
A round is one completed selection of the loop.

A loop stops when, whatever else happens, it has only so many steps left and,
until it has been left, always has one to take.  Then no schedule that lets it
take its steps keeps it from its end.

Two things can end the channel's life: `true` is sent, or the sender goes away
without that.  The first is found at the next round, by whatever clone of the
receiver has not seen it.  After the second, `changed` completes at every round
and the value is still `false`, so the loop goes around forever; the priority of
the branch keeps all the others from being taken.  What remains are the states
from which the loop does not come back to its selection at all.  `Lawful` names
the facts about a concrete loop on which this rests.
-/

/-- A loop inside a machine. -/
structure StopLoop where
  State : Type
  Label : Type
  machine : Machine State Label
  /-- The channel, and the version this loop's receiver has seen. -/
  stop : State → Watch
  seen : State → Nat
  /-- The label is a step of this loop. -/
  own : Label → Bool
  /-- The label completes a selection of this loop. -/
  round : Label → Bool
  /-- The loop is suspended in its selection. -/
  waiting : State → Prop
  /-- The loop has been left. -/
  broken : State → Prop
  /-- On an abandoned channel the loop is on its way out: it does not come back to
  its selection. -/
  departs : State → Prop
  /-- How many steps the loop has left at most, once it is to be left. -/
  rank : State → Nat

namespace StopLoop

variable (loop : StopLoop)

/-- The receiver has not seen the value `true`. -/
def Attentive (s : loop.State) : Prop :=
  loop.seen s ≤ (loop.stop s).version ∧
    ((loop.stop s).value = true → loop.seen s ≠ (loop.stop s).version)

/-- The sender is gone and has not sent `true`. -/
def Abandoned (s : loop.State) : Prop := (loop.stop s).closed = true ∧ (loop.stop s).value = false

/-- The steps of the loop in a schedule, and the rounds among them. -/
def steps (labels : List loop.Label) : Nat := labels.countP loop.own

def rounds (labels : List loop.Label) : Nat := labels.countP loop.round

variable {loop} in
/-- A receiver that looks away misses nothing, whatever happens to the channel. -/
theorem Attentive.of_moves {s t : loop.State} (attentive : loop.Attentive s)
    (seen : loop.seen t = loop.seen s) (moves : (loop.stop s).Moves (loop.stop t)) :
    loop.Attentive t := by
  rcases attentive with ⟨behind, fresh⟩
  unfold Attentive
  rw [seen]
  generalize loop.stop t = after at moves ⊢
  cases moves with
  | stays | dropped => exact ⟨behind, fresh⟩
  | sent _ =>
      simp only [Watch.send]
      exact ⟨by omega, fun _ => by omega⟩

variable {loop} in
/-- Nobody takes up what has been abandoned. -/
theorem Abandoned.of_moves {s t : loop.State} (abandoned : loop.Abandoned s)
    (moves : (loop.stop s).Moves (loop.stop t)) : loop.Abandoned t := by
  rcases moves.of_closed abandoned.1 with ⟨closed, value⟩
  exact ⟨closed, value.trans abandoned.2⟩

/-- The loop is to be left: it has been told to, or the channel has been abandoned
while it was on its way out. -/
def Ending (s : loop.State) : Prop :=
  loop.broken s ∨ (loop.Attentive s ∧ (loop.stop s).value = true) ∨
    (loop.Abandoned s ∧ loop.departs s)

/-- What makes a loop one of this kind, given what holds of its states anyway. -/
structure Lawful (Valid : loop.State → Prop) : Prop where
  valid : loop.machine.Inductive Valid
  round_own : ∀ label, loop.round label = true → loop.own label = true
  attentive_step : ∀ s label t, loop.Attentive s → loop.machine.step s label = some t →
    loop.Attentive t ∨ loop.broken t
  value_step : ∀ s label t, (loop.stop s).value = true → loop.machine.step s label = some t →
    (loop.stop t).value = true
  abandoned_step : ∀ s label t, loop.Abandoned s → loop.machine.step s label = some t →
    loop.Abandoned t
  broken_step : ∀ s label t, loop.broken s → loop.machine.step s label = some t →
    loop.own label = false ∧ loop.broken t
  broken_departs : ∀ s, loop.broken s → loop.departs s
  /-- Nobody else keeps the loop. -/
  aside_step : ∀ s label t, loop.own label = false → loop.machine.step s label = some t →
    loop.rank t ≤ loop.rank s
  told_step : ∀ s label t, loop.Attentive s → (loop.stop s).value = true →
    loop.machine.step s label = some t → loop.own label = true → loop.rank t < loop.rank s
  told_moves : ∀ s, Valid s → loop.Attentive s → (loop.stop s).value = true → ¬ loop.broken s →
    ∃ label t, loop.own label = true ∧ loop.machine.step s label = some t
  departs_step : ∀ s label t, loop.Abandoned s → loop.departs s →
    loop.machine.step s label = some t →
      loop.departs t ∧ (loop.own label = true → loop.rank t < loop.rank s)
  departs_moves : ∀ s, Valid s → loop.departs s → ¬ loop.broken s →
    ∃ label t, loop.own label = true ∧ loop.machine.step s label = some t
  /-- An abandoned loop that is not on its way out can come to its selection. -/
  returns : ∀ s, Valid s → loop.Abandoned s → ¬ loop.departs s →
    loop.machine.CanReach (fun _ => True) loop.waiting s
  round_abandoned : ∀ s, loop.waiting s → loop.Abandoned s →
    ∃ labels t, loop.machine.run labels s = some t ∧ loop.waiting t ∧ 0 < loop.rounds labels

namespace Lawful

variable {loop} {Valid : loop.State → Prop} (lawful : loop.Lawful Valid)

include lawful

/-- What has been abandoned stays so. -/
theorem abandoned_run {labels : List loop.Label} {s t : loop.State} (abandoned : loop.Abandoned s)
    (ran : loop.machine.run labels s = some t) : loop.Abandoned t := by
  induction labels generalizing s with
  | nil =>
      cases ran
      exact abandoned
  | cons label labels ih =>
      rcases loop.machine.run_cons_eq_some.mp ran with ⟨middle, taken, rest⟩
      exact ih (lawful.abandoned_step s label middle abandoned taken) rest

/-- A loop that waits on an abandoned channel goes around without bound. -/
theorem goes_around {s : loop.State} (waiting : loop.waiting s) (abandoned : loop.Abandoned s)
    (bound : Nat) : ∃ labels t, loop.machine.run labels s = some t ∧ bound ≤ loop.rounds labels := by
  rcases Machine.exists_run_counting (M := loop.machine) (T := fun s => loop.waiting s ∧ loop.Abandoned s)
    (fun s inside => by
      rcases lawful.round_abandoned s inside.1 inside.2 with ⟨labels, t, ran, still, some_⟩
      exact ⟨labels, t, fun _ _ => trivial, ran, ⟨still, lawful.abandoned_run inside.2 ran⟩,
        some_⟩) bound
    ⟨waiting, abandoned⟩ with ⟨labels, t, _, ran, _, many⟩
  exact ⟨labels, t, ran, many⟩

end Lawful

end StopLoop

end Async
end Lantun
