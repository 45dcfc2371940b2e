import Lantun.Net.Pipe

namespace Lantun
namespace Net

open Async

/-!
# What a step does to the forwarder that takes it

The step functions of the two tasks of a direction, and that of a reader of the
shared socket, differ in what they do to the data.  To the task itself they all
do the same few things, which `Task.Moves` lists once, together with what each
leaves in `last_active`.  What a statement about the stop channel, about
panics or about the idle timer needs to know of a step is read off this list.
-/

namespace Task

/-- Everything a step can do to the task that takes it, with the `last_active`
it leaves.  `ready` is whether the source would return at once. -/
inductive Moves (env : Env) (ready : Bool) (task : Task) : Act → Task → Nat → Prop where
  | control {step : Control} {after : Task} :
      task.control env ready step = some after →
        Moves env ready task (.control step) after env.lastActive
  /-- A chunk is in hand and noted as activity. -/
  | read {count : Nat} {chunk : List UInt8} :
      task.selects env ready = some .source →
        Moves env ready task (.read count) { task with pc := .write chunk } (nowSecs env.clock)
  | ends {count : Nat} {exit : Exit} :
      task.selects env ready = some .source → exit = .empty ∨ exit = .closed →
        Moves env ready task (.read count) { task with pc := .done exit } env.lastActive
  | peek {count n : Nat} :
      task.selects env ready = some .source →
        Moves env ready task (.read count) { task with pc := .recv n } env.lastActive
  /-- The datagram in front is for another session. -/
  | foreign {count : Nat} :
      task.selects env ready = some .source →
        Moves env ready task (.read count) { task with pc := .top } env.lastActive
  | readErr {deadline : Nat} {live : Bool} :
      task.pc = .select deadline live → task.selects env ready = some .source →
        Moves env ready task .readErr { task with pc := .select deadline false } env.lastActive
  | recv {n : Nat} {chunk : List UInt8} :
      task.pc = .recv n →
        Moves env ready task .recv { task with pc := .write chunk } (nowSecs env.clock)
  | recvEmpty {n : Nat} :
      task.pc = .recv n →
        Moves env ready task .recv { task with pc := .done .empty } env.lastActive
  | recvErr {n : Nat} :
      task.pc = .recv n → Moves env ready task .recvErr { task with pc := .top } env.lastActive
  | write {count : Nat} {rest left : List UInt8} :
      task.pc = .write rest → left = [] ∨ left.length < rest.length →
        Moves env ready task (.write count) { task with pc := Pc.afterWrite left } env.lastActive
  | writeErr {rest : List UInt8} :
      task.pc = .write rest →
        Moves env ready task .writeErr { task with pc := .done .panicked } env.lastActive

end Task

namespace Pipe

variable {α : Type} {sock : Sock α} {env : Env} {pipe next : Pipe α} {act : Act} {last : Nat}

theorem upStep_moves {source : SourceRead}
    (taken : pipe.upStep sock source env act = some (next, last)) :
    Task.Moves env pipe.upReady pipe.up act next.up last := by
  cases act with
  | control step =>
      rcases Option.map_eq_some_iff.mp taken with ⟨task, moved, same⟩
      cases same
      exact .control moved
  | read count =>
      simp only [upStep] at taken
      split at taken
      · rename_i chosen
        split at taken
        · rcases Option.map_eq_some_iff.mp taken with ⟨entry, _, same⟩
          cases same
          exact .peek chosen.1
        · split at taken
          · simp only [afterRead] at taken
            split at taken <;> cases taken
            · exact .ends chosen.1 (Or.inl rfl)
            · exact .read chosen.1
          · cases taken
      · cases taken
  | readErr =>
      simp only [upStep] at taken
      split at taken
      · rename_i at_
        split at taken <;> cases taken
        rename_i chosen
        exact .readErr at_ chosen.1
      · cases taken
  | recv =>
      simp only [upStep] at taken
      split at taken
      · rename_i at_ _
        split at taken
        · simp only [afterRead] at taken
          split at taken <;> cases taken
          · exact .recvEmpty at_
          · exact .recv at_
        · cases taken
      · cases taken
  | recvErr =>
      simp only [upStep] at taken
      split at taken
      · rename_i at_
        split at taken <;> cases taken
        exact .recvErr at_
      · cases taken
  | write count =>
      simp only [upStep] at taken
      split at taken
      · rename_i at_
        split at taken <;> cases taken
        rename_i accepts
        refine .write at_ (Or.inr ?_)
        rw [List.length_drop]
        omega
      · cases taken
  | writeErr =>
      simp only [upStep] at taken
      split at taken
      · rename_i at_
        split at taken <;> cases taken
        exact .writeErr at_
      · cases taken

theorem downStep_moves (taken : pipe.downStep sock env act = some (next, last)) :
    Task.Moves env (pipe.downReady env.lost) pipe.down act next.down last := by
  cases act with
  | control step =>
      rcases Option.map_eq_some_iff.mp taken with ⟨task, moved, same⟩
      cases same
      exact .control moved
  | read count =>
      simp only [downStep] at taken
      split at taken
      · rename_i chosen
        split at taken
        · split at taken <;> cases taken
          exact .read chosen
        · split at taken <;> cases taken
          exact .ends chosen (Or.inr rfl)
        · cases taken
      · cases taken
  | readErr =>
      simp only [downStep] at taken
      split at taken
      · rename_i at_
        split at taken <;> cases taken
        rename_i chosen
        exact .readErr at_ chosen.1
      · cases taken
  | write count =>
      simp only [downStep] at taken
      split at taken
      · rename_i at_
        rcases Option.map_eq_some_iff.mp taken with ⟨⟨entries, left⟩, emitted, same⟩
        cases same
        exact .write at_ (sock.emit_shorter _ _ _ _ emitted)
      · cases taken
  | writeErr =>
      simp only [downStep] at taken
      split at taken
      · rename_i at_
        cases taken
        exact .writeErr at_
      · cases taken
  | recv | recvErr => cases taken

/-- Where a step leaves the upper task with bytes to write, there are some, and a
receive has taken no more than had been peeked at. -/
theorem upStep_owes {source : SourceRead}
    (taken : pipe.upStep sock source env act = some (next, last)) {rest : List UInt8}
    (owes : next.up.pc = .write rest) :
    rest ≠ [] ∧ ∀ n, pipe.up.pc = .recv n → rest.length ≤ n := by
  cases act with
  | control step =>
      rcases Option.map_eq_some_iff.mp taken with ⟨task, moved, same⟩
      cases same
      exact absurd owes ((Task.control_cases moved).2.2.1 rest)
  | read count =>
      simp only [upStep] at taken
      split at taken
      · rename_i chosen
        rcases Task.selects_pc chosen.1 with ⟨deadline, live, at_⟩
        refine ⟨?_, fun n here => by rw [at_] at here; cases here⟩
        split at taken
        · rcases Option.map_eq_some_iff.mp taken with ⟨entry, _, same⟩
          cases same
          cases owes
        · split at taken
          · simp only [afterRead] at taken
            split at taken <;> cases taken <;> cases owes
            assumption
          · cases taken
      · cases taken
  | readErr =>
      simp only [upStep] at taken
      split at taken
      · split at taken <;> cases taken
        cases owes
      · cases taken
  | recv =>
      simp only [upStep] at taken
      split at taken
      · rename_i n entry at_ _
        split at taken
        · simp only [afterRead] at taken
          split at taken <;> cases taken <;> cases owes
          rename_i some_
          refine ⟨some_, fun m here => ?_⟩
          rw [at_] at here
          cases here
          exact List.length_take_le _ _
        · cases taken
      · cases taken
  | recvErr =>
      simp only [upStep] at taken
      split at taken
      · split at taken <;> cases taken
        cases owes
      · cases taken
  | write count =>
      simp only [upStep] at taken
      split at taken
      · rename_i at_
        split at taken <;> cases taken
        refine ⟨Pc.ne_nil_of_afterWrite owes, fun n here => ?_⟩
        rw [at_] at here
        cases here
      · cases taken
  | writeErr =>
      simp only [upStep] at taken
      split at taken
      · split at taken <;> cases taken
        cases owes
      · cases taken

theorem downStep_owes (taken : pipe.downStep sock env act = some (next, last)) {rest : List UInt8}
    (owes : next.down.pc = .write rest) : rest ≠ [] := by
  cases act with
  | control step =>
      rcases Option.map_eq_some_iff.mp taken with ⟨task, moved, same⟩
      cases same
      exact absurd owes ((Task.control_cases moved).2.2.1 rest)
  | read count =>
      simp only [downStep] at taken
      split at taken
      · split at taken
        · split at taken <;> cases taken
          rename_i fits
          cases owes
          exact pipe.stream.chunk_ne_nil fits.1 fits.2.2
        · split at taken <;> cases taken
          cases owes
        · cases taken
      · cases taken
  | readErr =>
      simp only [downStep] at taken
      split at taken
      · split at taken <;> cases taken
        cases owes
      · cases taken
  | write count =>
      simp only [downStep] at taken
      split at taken
      · rcases Option.map_eq_some_iff.mp taken with ⟨⟨entries, left⟩, emitted, same⟩
        cases same
        exact Pc.ne_nil_of_afterWrite owes
      · cases taken
  | writeErr =>
      simp only [downStep] at taken
      split at taken
      · cases taken
        cases owes
      · cases taken
  | recv | recvErr => cases taken

/-- Only an upper task receives. -/
theorem downStep_not_recv (taken : pipe.downStep sock env act = some (next, last)) (n : Nat) :
    pipe.down.pc ≠ .recv n := by
  intro at_
  cases act with
  | control step => cases step <;> simp [downStep, Task.control, Task.selects, at_] at taken
  | read count => simp [downStep, Task.selects, at_] at taken
  | readErr | write count | writeErr => simp [downStep, at_] at taken
  | recv | recvErr => cases taken

/-- Nor does it come to it. -/
theorem downStep_recv (taken : pipe.downStep sock env act = some (next, last)) (n : Nat) :
    next.down.pc ≠ .recv n := by
  intro here
  cases act with
  | control step =>
      rcases Option.map_eq_some_iff.mp taken with ⟨task, moved, same⟩
      cases same
      exact (Task.control_cases moved).2.2.2.1 n here
  | read count =>
      simp only [downStep] at taken
      split at taken
      · split at taken
        · split at taken <;> cases taken
          cases here
        · split at taken <;> cases taken
          cases here
        · cases taken
      · cases taken
  | readErr =>
      simp only [downStep] at taken
      split at taken
      · split at taken <;> cases taken
        cases here
      · cases taken
  | write count =>
      simp only [downStep] at taken
      split at taken
      · rcases Option.map_eq_some_iff.mp taken with ⟨⟨entries, left⟩, _, same⟩
        cases same
        simp only [setDown, Pc.afterWrite] at here
        split at here <;> cases here
      · cases taken
  | writeErr =>
      simp only [downStep] at taken
      split at taken
      · cases taken
        cases here
      · cases taken
  | recv | recvErr => cases taken

end Pipe

namespace Task

variable {env : Env} {ready : Bool} {task next : Task} {act : Act} {last : Nat}

theorem running_of_selects {branch : Branch} (chosen : task.selects env ready = some branch) :
    task.pc.isDone = false := by
  rcases selects_pc chosen with ⟨deadline, live, at_⟩
  rw [at_]
  rfl

/-- A task that has ended has no step left. -/
theorem Moves.running (moves : Moves env ready task act next last) : task.pc.isDone = false := by
  cases moves with
  | control taken =>
      cases at_ : task.pc with
      | done exit => exact absurd at_ ((control_cases taken).1 exit)
      | _ => rfl
  | read chosen | ends chosen | peek chosen | foreign chosen | readErr _ chosen =>
      exact running_of_selects chosen
  | recv at_ | recvEmpty at_ | recvErr at_ | write at_ | writeErr at_ =>
      rw [at_]
      rfl

end Task

end Net
end Lantun
