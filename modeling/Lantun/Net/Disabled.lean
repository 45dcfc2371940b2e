import Lantun.Net.Idle

namespace Lantun
namespace Net

open Async

/-!
# A read branch that an error has disabled

The read branch of each forwarder has the pattern `Ok(n)`.  A read that fails does
not match it, and the `select!` goes on without the branch: for the rest of this
selection the forwarder listens to its stop channel and to its sleep, whatever its
source holds by then.

What a forwarder can do from there, and what others can do to its source
meanwhile, is the subject of this module.  The two kinds of source differ: a socket
may have data behind an error, or get some later, while a stream that has failed
one read fails all others.
-/

namespace Task.Moves

variable {env : Env} {ready : Bool} {task next : Task} {act : Act} {last deadline : Nat}

/-- Without the read branch, and no stop pending, only the sleep is left. -/
theorem sleeps (moves : Moves env ready task act next last)
    (at_ : task.pc = .select deadline false) (quiet : env.stop.ready task.seen = false) :
    act = .control .sleep := by
  have unread : task.selects env ready ≠ some .source := by
    intro chosen
    simp only [Task.selects, at_, Bool.false_and, biased, quiet, Bool.false_eq_true, if_false]
      at chosen
    split at chosen <;> cases chosen
  cases moves with
  | @control step after moved =>
      cases step with
      | now | load | wake | recheck => simp [Task.control, at_] at moved
      | sleep => rfl
      | stop =>
          simp only [Task.control] at moved
          split at moved
          · rename_i chosen
            rw [Task.ready_of_selects chosen] at quiet
            cases quiet
          · cases moved
  | read chosen | ends chosen | peek chosen | foreign chosen | readErr _ chosen =>
      exact absurd chosen unread
  | recv here | recvEmpty here | recvErr here | write here | writeErr here =>
      rw [at_] at here
      cases here

/-- The branch is disabled by a read that fails, with no stop pending. -/
theorem of_disabled (moves : Moves env ready task act next last)
    (at_ : next.pc = .select deadline false) :
    act = .readErr ∧ next.seen = task.seen ∧ env.stop.ready task.seen = false := by
  cases moves with
  | readErr _ chosen => exact ⟨rfl, rfl, (Task.quiet_of_selects chosen (by simp)).1⟩
  | @control step after moved =>
      cases step with
      | now | load | wake | sleep =>
          simp only [Task.control] at moved
          split at moved <;> cases moved
          cases at_
      | stop | recheck =>
          simp only [Task.control] at moved
          split at moved <;> cases moved
          simp only at at_
          split at at_ <;> cases at_
  | write _ =>
      simp only [Pc.afterWrite] at at_
      split at at_ <;> cases at_
  | _ => cases at_

/-- Outside its selection and the branch with data a task has control steps only. -/
theorem control_of_timed (moves : Moves env ready task act next last)
    (timed : ¬ task.pc.Selecting) :
    ∃ step, act = .control step ∧ task.control env ready step = some next := by
  have elsewhere : ∀ {branch}, task.selects env ready ≠ some branch := by
    intro branch chosen
    rcases Task.selects_pc chosen with ⟨deadline, live, at_⟩
    apply timed
    rw [at_]
    trivial
  cases moves with
  | control moved => exact ⟨_, rfl, moved⟩
  | read chosen | ends chosen | peek chosen | foreign chosen | readErr _ chosen =>
      exact absurd chosen elsewhere
  | recv at_ | recvEmpty at_ | recvErr at_ | write at_ | writeErr at_ =>
      refine absurd ?_ timed
      rw [at_]
      trivial

theorem of_loaded (moves : Moves env ready task act next last) {now : Nat}
    (at_ : task.pc = .loaded now) : act = .control .load := by
  rcases moves.control_of_timed (by rw [at_]; exact id) with ⟨step, rfl, moved⟩
  cases step <;> first | rfl | simp [Task.control, Task.selects, at_] at moved

theorem of_recheck (moves : Moves env ready task act next last) {now : Nat}
    (at_ : task.pc = .recheck now) : act = .control .recheck := by
  rcases moves.control_of_timed (by rw [at_]; exact id) with ⟨step, rfl, moved⟩
  cases step <;> first | rfl | simp [Task.control, Task.selects, at_] at moved

end Task.Moves

/-! ## What the other task of a direction does -/

namespace Pipe

variable {α : Type} {sock : Sock α} {env : Env} {pipe next : Pipe α} {act : Act} {last : Nat}

theorem setUp_failed {lost ended : Bool} (failed : pipe.stream.poll lost = .failed) (task : Task) :
    (pipe.setUp ended task).stream.poll lost = .failed := by
  unfold setUp
  split
  · exact Stream.poll_failed_dropSend failed ended
  · exact failed

/-- Nothing the upper task does lets a stream that fails reads give data again. -/
theorem upStep_failed {source : SourceRead} {lost : Bool}
    (taken : pipe.upStep sock source env act = some (next, last))
    (failed : pipe.stream.poll lost = .failed) : next.stream.poll lost = .failed := by
  have after : ∀ (count : Nat) (enough : pipe.got + count ≤ pipe.log.length) (chunk : List UInt8),
      ((pipe.take count enough).afterRead env chunk).1.stream.poll lost = .failed := by
    intro count enough chunk
    unfold afterRead
    split <;> exact setUp_failed failed _
  cases act with
  | control step =>
      rcases Option.map_eq_some_iff.mp taken with ⟨task, _, same⟩
      cases same
      exact setUp_failed failed task
  | read count =>
      simp only [upStep] at taken
      split at taken
      · split at taken
        · rcases Option.map_eq_some_iff.mp taken with ⟨entry, _, same⟩
          cases same
          exact setUp_failed failed _
        · split at taken
          · rcases congrArg Prod.fst (Option.some.inj taken) with rfl
            exact after _ _ _
          · cases taken
      · cases taken
  | recv =>
      simp only [upStep] at taken
      split at taken
      · split at taken
        · rcases congrArg Prod.fst (Option.some.inj taken) with rfl
          exact after _ _ _
        · cases taken
      · cases taken
  | readErr | recvErr | writeErr =>
      simp only [upStep] at taken
      split at taken
      · split at taken <;> cases taken
        exact setUp_failed failed _
      · cases taken
  | write count =>
      simp only [upStep] at taken
      split at taken
      · split at taken <;> cases taken
        have written : ∀ bytes, (pipe.accept bytes).stream.poll lost = .failed :=
          fun bytes => Stream.poll_failed_write failed bytes
        exact setUp_failed (written _) _
      · cases taken

/-- The lower task touches nothing of the socket at the source. -/
theorem downStep_source (taken : pipe.downStep sock env act = some (next, last)) :
    next.log = pipe.log ∧ next.got = pipe.got ∧ next.sockError = pipe.sockError := by
  cases act with
  | control step =>
      rcases Option.map_eq_some_iff.mp taken with ⟨task, _, same⟩
      cases same
      exact ⟨rfl, rfl, rfl⟩
  | read count =>
      simp only [downStep] at taken
      split at taken
      · split at taken
        · split at taken <;> cases taken
          exact ⟨rfl, rfl, rfl⟩
        · split at taken <;> cases taken
          exact ⟨rfl, rfl, rfl⟩
        · cases taken
      · cases taken
  | readErr =>
      simp only [downStep] at taken
      split at taken
      · split at taken <;> cases taken
        exact ⟨rfl, rfl, rfl⟩
      · cases taken
  | write count =>
      simp only [downStep] at taken
      split at taken
      · rcases Option.map_eq_some_iff.mp taken with ⟨⟨entries, left⟩, _, same⟩
        cases same
        exact ⟨rfl, rfl, rfl⟩
      · cases taken
  | writeErr =>
      simp only [downStep] at taken
      split at taken <;> cases taken
      exact ⟨rfl, rfl, rfl⟩
  | recv | recvErr => cases taken

end Pipe

namespace Session

variable {α : Type}

/-- Data lies at the source of the task, in front of it or behind an error. -/
def dataAt (session : Session α) (side : Side) : Role → Bool
  | .up => decide ((session.pipe side).got < (session.pipe side).log.length)
  | .down => decide ((session.pipe side).stream.poll (session.lost side.other) = .data)

/-- A stop is pending for the task. -/
def stopPending (session : Session α) (side : Side) (role : Role) : Bool :=
  (session.stop (role.endOf side)).ready (session.task side role).seen

/-- The task is suspended without its read branch. -/
def Disabled (session : Session α) (side : Side) (role : Role) : Prop :=
  ∃ deadline, (session.task side role).pc = .select deadline false

section Step

variable {bi : Bi α} {session next : Session α} {event : Event α} {side : Side} {role : Role}

/-- What is known where the branch is disabled: the task has looked at all there
was of the stop channel, and a stream that has failed a read has none to give. -/
structure Disarmed (side : Side) (role : Role) (session : Session α) : Prop where
  seen : session.Disabled side role →
    (session.task side role).seen ≤ (session.stop (role.endOf side)).version
  failed : role = .down → session.Disabled side role →
    (session.pipe side).stream.poll (session.lost side.other) = .failed

/-- A connection that was lost stays lost. -/
theorem lost_of_step (taken : (machine bi).step session event = some next) (at_ : Side) :
    next.lost at_ = session.lost at_ ∨ next.lost at_ = true := by
  cases event with
  | lose lost_ =>
      cases taken
      by_cases same : at_ = lost_
      · subst same
        exact Or.inr (Function.update_self _ _ _)
      · exact Or.inl (Function.update_of_ne same _ _)
  | tick _ | dropStop _ | sockError _ =>
      cases taken
      exact Or.inl rfl
  | send _ _ | close _ | stop _ | deliver _ _ | deliverEnd _ =>
      simp only [machine, step] at taken
      split at taken <;> cases taken
      exact Or.inl rfl
  | task _ role _ =>
      cases role <;>
      · rcases Option.map_eq_some_iff.mp taken with ⟨⟨pipe, last⟩, _, same⟩
        cases same
        exact Or.inl rfl

/-- A failed read of the stream is followed by failed reads only. -/
theorem failed_of_step (taken : (machine bi).step session event = some next)
    (other : isOwn side .down event = none)
    (failed : (session.pipe side).stream.poll (session.lost side.other) = .failed) :
    (next.pipe side).stream.poll (next.lost side.other) = .failed := by
  have stays : (next.pipe side).stream.poll (session.lost side.other) = .failed := by
    cases pipe_of_step taken side with
    | aside _ _ is | send is | close _ is | sockError is =>
        rw [is]
        exact failed
    | deliver open_ is =>
        rw [is]
        exact Stream.poll_failed_deliver failed open_ _
    | deliverEnd open_ is =>
        rw [is]
        exact Stream.poll_failed_deliverEnd failed open_
    | up moved => exact Pipe.upStep_failed moved failed
    | down _ => simp [isOwn] at other
  rcases lost_of_step taken side.other with same | lost
  · rw [same]
    exact stays
  · rw [lost]
    exact Stream.poll_failed_lose stays

/-- Data comes into a socket by being sent, and leaves it by the reads of its task. -/
theorem dataAt_of_step (taken : (machine bi).step session event = some next)
    (other : isOwn side .up event = none) (unsent : ∀ entry, event ≠ .send side entry) :
    next.dataAt side .up = session.dataAt side .up := by
  have same : (next.pipe side).log = (session.pipe side).log ∧
      (next.pipe side).got = (session.pipe side).got := by
    cases pipe_of_step taken side with
    | send _ => exact absurd rfl (unsent _)
    | aside _ _ is | close _ is | sockError is | deliver _ is | deliverEnd _ is =>
        rw [is]
        exact ⟨rfl, rfl⟩
    | up _ => simp [isOwn] at other
    | down moved =>
        rcases Pipe.downStep_source moved with ⟨log, got, _⟩
        exact ⟨log, got⟩
  simp only [dataAt, same.1, same.2]

/-- A failed read leaves what is at the source there, and has found a failed stream. -/
theorem of_readErr (taken : (machine bi).step session event = some next)
    (own : isOwn side role event = some .readErr) :
    next.dataAt side role = session.dataAt side role ∧
      (role = .down → (next.pipe side).stream.poll (next.lost side.other) = .failed) := by
  cases event with
  | task at_ role' act =>
      simp only [isOwn] at own
      split at own <;> cases own
      rename_i here
      rcases here with ⟨rfl, rfl⟩
      cases role' with
      | up =>
          rcases Option.map_eq_some_iff.mp taken with ⟨⟨pipe, last⟩, moved, same⟩
          cases same
          rcases bi.up_eq at_ with ⟨source, is⟩
          rw [is] at moved
          simp only [Pipe.upStep] at moved
          split at moved
          · split at moved <;> cases moved
            refine ⟨?_, fun down => by cases down⟩
            simp only [dataAt, setActive, setPipe, Function.update_self]
            rfl
          · cases moved
      | down =>
          rcases Option.map_eq_some_iff.mp taken with ⟨⟨pipe, last⟩, moved, same⟩
          cases same
          rw [bi.down_eq at_] at moved
          simp only [Pipe.downStep] at moved
          split at moved
          · split at moved <;> cases moved
            rename_i found
            simp only [dataAt, setActive, setPipe, Function.update_self]
            exact ⟨rfl, fun _ => found.2⟩
          · cases moved
  | _ => cases own

theorem inductive_disarmed (bi : Bi α) (side : Side) (role : Role) :
    (machine bi).Inductive (Disarmed side role) where
  start session starts := by
    rcases starts.1 side with ⟨seenUp, seenDown, start⟩
    have top : ¬ session.Disabled side role := by
      rintro ⟨deadline, at_⟩
      simp only [task, start] at at_
      cases role <;> cases at_
    exact ⟨fun disabled => absurd disabled top, fun _ disabled => absurd disabled top⟩
  step session event next disarmed taken := by
    have moves := task_of_step taken side role
    cases own : isOwn side role event with
    | some act =>
        rw [own] at moves
        have enters : next.Disabled side role → isOwn side role event = some .readErr ∧
            (next.task side role).seen = (session.task side role).seen ∧
              (session.stop (role.endOf side)).ready (session.task side role).seen = false := by
          rintro ⟨deadline, at_⟩
          rcases moves.of_disabled at_ with ⟨rfl, seen, quiet⟩
          exact ⟨own, seen, quiet⟩
        refine ⟨fun disabled => ?_, fun down disabled => ?_⟩
        · rcases enters disabled with ⟨_, seen, quiet⟩
          exact Nat.le_of_eq (by rw [seen, stop_of_own taken own, Watch.seen_of_quiet quiet])
        · exact (of_readErr taken (enters disabled).1).2 down
    | none =>
        rw [own] at moves
        have before : next.Disabled side role → session.Disabled side role := by
          rintro ⟨deadline, at_⟩
          exact ⟨deadline, moves ▸ at_⟩
        refine ⟨fun disabled => ?_, fun down disabled => ?_⟩
        · rw [moves]
          exact Nat.le_trans (disarmed.seen (before disabled))
            (stop_moves taken (role.endOf side)).version_le
        · subst down
          exact failed_of_step taken own (disarmed.failed rfl (before disabled))

end Step

end Session

end Net
end Lantun
