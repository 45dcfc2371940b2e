import Lantun.Net.Join

namespace Lantun
namespace Net

open Async

/-!
# The forwarders and the stop channel

Each of the eight forwarders is a loop that listens on the stop channel of its
end.  What this needs of a forwarder is little: its steps look at the channel in
the selection only, they give the channel's branch the priority, and they leave
the loop where the value is `true`.  `Task.Heeds` is that, and it holds of upper
and lower tasks over any socket.
-/

/-- The act completes a selection. -/
def Act.selects : Act → Bool
  | .control .stop | .control .sleep | .read _ => true
  | _ => false

namespace Task

/-- What a step does to the part of a task that concerns the stop channel. -/
structure Heeds (env : Env) (act : Act) (before after : Task) : Prop where
  running : before.pc.isDone = false
  waits : act.selects = true → ∃ deadline live, before.pc = .select deadline live
  seen : act ≠ .control .stop → after.seen = before.seen
  prior : act.selects = true → env.stop.ready before.seen = true → act = .control .stop
  stop : act = .control .stop → env.stop.ready before.seen = true ∧
    after = ⟨if env.stop.value then .done .stopped else .top, env.stop.seenAfter before.seen⟩

/-- A branch behind the stop channel is taken only while the channel is quiet. -/
theorem quiet_of_selects {env : Env} {ready : Bool} {task : Task} {branch : Branch}
    (chosen : task.selects env ready = some branch) (other : branch ≠ .stop) :
    env.stop.ready task.seen = false ∧ ∃ deadline live, task.pc = .select deadline live := by
  refine ⟨?_, selects_pc chosen⟩
  rcases selects_pc chosen with ⟨deadline, live, at_⟩
  simp only [selects, at_, biased] at chosen
  split at chosen
  · cases chosen
    exact absurd rfl other
  · rename_i quiet
    simpa using quiet

theorem ready_of_selects {env : Env} {ready : Bool} {task : Task}
    (chosen : task.selects env ready = some .stop) : env.stop.ready task.seen = true := by
  rcases selects_pc chosen with ⟨deadline, live, at_⟩
  simp only [selects, at_, biased] at chosen
  split at chosen
  · assumption
  · split at chosen
    · cases chosen
    · split at chosen <;> cases chosen

/-- A step that only moves the program counter of a running task, from outside
the selection or past a quiet channel. -/
theorem Heeds.of_pc {env : Env} {act : Act} {before after : Task}
    (running : before.pc.isDone = false) (seen : after.seen = before.seen)
    (other : act ≠ .control .stop)
    (quiet : act.selects = true → env.stop.ready before.seen = false ∧
      ∃ deadline live, before.pc = .select deadline live) :
    Heeds env act before after where
  running := running
  waits selects := (quiet selects).2
  seen _ := seen
  prior selects ready := by
    rw [(quiet selects).1] at ready
    cases ready
  stop is := absurd is other

/-- In the selection the channel's branch is there to be taken when it is ready. -/
theorem control_stop {env : Env} {task : Task} {deadline : Nat} {live : Bool}
    (at_ : task.pc = .select deadline live) (ready : env.stop.ready task.seen = true)
    (source : Bool) :
    task.control env source .stop =
      some ⟨if env.stop.value then .done .stopped else .top, env.stop.seenAfter task.seen⟩ := by
  have chosen : task.selects env source = some .stop := by
    simp only [selects, at_, biased, ready, if_true]
  simp only [control, chosen, if_true]

theorem heeds_control {env : Env} {ready : Bool} {task next : Task} {step : Control}
    (taken : task.control env ready step = some next) : Heeds env (.control step) task next := by
  cases step with
  | now | load | wake | recheck =>
      simp only [control] at taken
      split at taken
      · rename_i at_
        cases taken
        exact .of_pc (by rw [at_]; rfl) rfl (by simp) (fun is => by cases is)
      · cases taken
  | stop =>
      simp only [control] at taken
      split at taken
      · rename_i chosen
        cases taken
        exact ⟨running_of_selects chosen, fun _ => selects_pc chosen,
          fun other => absurd rfl other, fun _ _ => rfl,
          fun _ => ⟨ready_of_selects chosen, rfl⟩⟩
      · cases taken
  | sleep =>
      simp only [control] at taken
      split at taken
      · rename_i chosen
        cases taken
        exact .of_pc (running_of_selects chosen) rfl (by simp)
          (fun _ => quiet_of_selects chosen (by simp))
      · cases taken

/-- A step that carries out a branch behind the channel's looks at nothing of it. -/
theorem Moves.heeds {env : Env} {ready : Bool} {task next : Task} {act : Act} {last : Nat}
    (moves : Moves env ready task act next last) : Heeds env act task next := by
  have running := moves.running
  cases moves with
  | control taken => exact heeds_control taken
  | read chosen | ends chosen | peek chosen | foreign chosen =>
      exact .of_pc running rfl (by simp) (fun _ => quiet_of_selects chosen (by simp))
  | readErr | recv | recvEmpty | recvErr | write | writeErr =>
      exact .of_pc running rfl (by simp) (fun is => by cases is)

end Task

/-! ## A forwarder in its session -/

namespace Session

variable {α : Type}

theorem heeds_of_step {bi : Bi α} {session next : Session α} {event : Event α}
    (taken : (machine bi).step session event = some next) (side : Side) (role : Role) :
    match isOwn side role event with
    | some act =>
        Task.Heeds (session.env (role.endOf side)) act (session.task side role)
          (next.task side role)
    | none => next.task side role = session.task side role := by
  have moves := task_of_step taken side role
  cases own : isOwn side role event with
  | none =>
      rw [own] at moves
      exact moves
  | some act =>
      rw [own] at moves
      exact moves.heeds

/-- The channels of the two ends are apart. -/
theorem moves_update {stop : Side → Watch} {at_ : Side} {after : Watch}
    (moves : (stop at_).Moves after) (side : Side) :
    (stop side).Moves (Function.update stop at_ after side) := by
  by_cases same : side = at_
  · subst same
    rw [Function.update_self]
    exact moves
  · rw [Function.update_of_ne same]
    exact .stays

theorem stop_moves {bi : Bi α} {session next : Session α} {event : Event α}
    (taken : (machine bi).step session event = some next) (side : Side) :
    (session.stop side).Moves (next.stop side) := by
  cases event with
  | send at_ _ | close at_ | deliver at_ _ | deliverEnd at_ =>
      simp only [machine, step] at taken
      split at taken <;> cases taken
      exact .stays
  | sockError at_ | tick _ | lose _ =>
      cases taken
      exact .stays
  | dropStop at_ =>
      cases taken
      exact moves_update .dropped side
  | stop at_ =>
      simp only [machine, step] at taken
      split at taken <;> cases taken
      rename_i open_
      exact moves_update (.sent (by simpa using open_)) side
  | task at_ role act =>
      cases role <;>
        rcases Option.map_eq_some_iff.mp taken with ⟨⟨pipe, last⟩, _, same⟩ <;> cases same <;>
        exact .stays

/-- A step of the task itself leaves the stop channels alone. -/
theorem stop_of_own {bi : Bi α} {session next : Session α} {event : Event α}
    (taken : (machine bi).step session event = some next) {side : Side} {role : Role} {act : Act}
    (own : isOwn side role event = some act) : next.stop = session.stop := by
  cases event with
  | task at_ role' act' =>
      cases role' <;>
        rcases Option.map_eq_some_iff.mp taken with ⟨⟨pipe, last⟩, _, same⟩ <;> cases same <;> rfl
  | _ => cases own

/-- A control step of a task as a step of its session. -/
theorem exists_step_control {bi : Bi α} {session : Session α} {side : Side} {role : Role}
    {control : Control} {after : Task}
    (moved : (session.task side role).control (session.env (role.endOf side))
      (session.sourceReady side role) control = some after) :
    ∃ next, (machine bi).step session (.task side role (.control control)) = some next ∧
      next.task side role = after ∧ next.stop = session.stop := by
  cases role with
  | up =>
      rcases bi.up_eq side with ⟨source, is⟩
      have step : bi.up side (session.env side) (session.pipe side) (.control control) =
          some ((session.pipe side).setUp (session.lost side) after, session.lastActive side) := by
        rw [is]
        exact congrArg (Option.map _) moved
      refine ⟨_, congrArg (Option.map _) step, ?_, rfl⟩
      simp [task, setActive, setPipe, Pipe.setUp]
  | down =>
      have step : bi.down side (session.env side.other) (session.pipe side) (.control control) =
          some ((session.pipe side).setDown after, session.lastActive side.other) := by
        rw [bi.down_eq side]
        exact congrArg (Option.map _) moved
      refine ⟨_, congrArg (Option.map _) step, ?_, rfl⟩
      simp [task, setActive, setPipe, Pipe.setDown]

end Session

end Net
end Lantun
