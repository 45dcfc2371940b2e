import Lantun.Async.StopLoop
import Lantun.Net.Disabled
import Lantun.Net.SharedTimer

namespace Lantun
namespace Net

open Async

/-!
# How a forwarder leaves its loop

Between two selections a forwarder takes a bounded number of steps: what it has in
hand is written piece by piece, or a write fails, and a datagram it has peeked at is
still there for its `recv`.  `Pc.remaining` counts these steps.  Once `true` is on
the channel the next selection is the last, so the count only drops.

Where the sender has gone without a word, the channel's branch leads around for
ever.  A forwarder leaves its loop then only if it was past its selection already
and does not come back to one.  `Session.Departs` lists these states: it has ended,
it is at a write on a lost connection, or its sleep has run out on a session that
nothing refreshes any more.
-/

/-- How many steps a task takes at most that does not select anything but the stop
channel any more. -/
def Pc.remaining : Pc → Nat
  | .done _ => 0
  | .select _ _ => 1
  | .loaded _ => 2
  | .top => 3
  | .recheck _ => 4
  | .woken => 5
  | .write rest => rest.length + 4
  | .recv n => n + 5

/-- Behind its sleep, and the clock says that the session has been idle. -/
def Pc.TimesOut (clock last : Nat) : Pc → Prop
  | .woken => connectionTimeoutSeconds ≤ nowSecs clock - last
  | .recheck now => connectionTimeoutSeconds ≤ now - last
  | _ => False

theorem Pc.remaining_afterWrite_lt {left rest : List UInt8}
    (shorter : left = [] ∨ left.length < rest.length) :
    (Pc.afterWrite left).remaining < (Pc.write rest).remaining := by
  unfold afterWrite
  split
  · simp only [remaining]
    omega
  · rename_i some_
    have less := shorter.resolve_left some_
    simp only [remaining]
    omega

namespace Task

variable {env : Env} {ready : Bool} {task next : Task} {act : Act} {last : Nat}

/-- A step of a task that leaves its selection for good, or is not at it, is one of
those that remain. -/
theorem Moves.remaining_lt (moves : Moves env ready task act next last)
    (leaves : ∀ deadline live, task.pc = .select deadline live →
      act = .control .stop ∧ env.stop.value = true)
    (takes : ∀ n rest, task.pc = .recv n → next.pc = .write rest → rest.length ≤ n) :
    next.pc.remaining < task.pc.remaining := by
  have elsewhere : ∀ {branch : Branch}, task.selects env ready = some branch →
      act = .control .stop := by
    intro branch chosen
    rcases selects_pc chosen with ⟨deadline, live, at_⟩
    exact (leaves deadline live at_).1
  cases moves with
  | @control step after moved =>
      cases step with
      | now | load | wake =>
          simp only [Task.control] at moved
          split at moved <;> cases moved
          rename_i at_
          simp [at_, Pc.remaining]
      | recheck =>
          simp only [Task.control] at moved
          split at moved <;> cases moved
          rename_i at_
          rw [at_]
          dsimp only
          split <;> simp [Pc.remaining]
      | stop =>
          simp only [Task.control] at moved
          split at moved <;> cases moved
          rename_i chosen
          rcases selects_pc chosen with ⟨deadline, live, at_⟩
          simp only [(leaves deadline live at_).2, if_true, at_, Pc.remaining]
          omega
      | sleep =>
          simp only [Task.control] at moved
          split at moved <;> cases moved
          rename_i chosen
          cases elsewhere chosen
  | read chosen | ends chosen | peek chosen | foreign chosen | readErr _ chosen =>
      cases elsewhere chosen
  | recv at_ =>
      have short := takes _ _ at_ rfl
      simp only [at_, Pc.remaining]
      omega
  | recvEmpty at_ | writeErr at_ =>
      simp only [at_, Pc.remaining]
      omega
  | recvErr at_ =>
      simp only [at_, Pc.remaining]
      omega
  | write at_ shorter =>
      rw [at_]
      exact Pc.remaining_afterWrite_lt shorter

/-- A task that has the stop channel to look at does nothing else. -/
theorem Moves.of_ready (moves : Moves env ready task act next last) {deadline : Nat} {live : Bool}
    (at_ : task.pc = .select deadline live) (told : env.stop.ready task.seen = true) :
    act = .control .stop := by
  have behind : ∀ {branch : Branch}, branch ≠ .stop → task.selects env ready ≠ some branch := by
    intro branch other chosen
    rw [(quiet_of_selects chosen other).1] at told
    cases told
  cases moves with
  | @control step after moved =>
      cases step with
      | stop => rfl
      | sleep =>
          simp only [Task.control] at moved
          split at moved
          · rename_i chosen
            exact absurd chosen (behind (by simp))
          · cases moved
      | now | load | wake | recheck => simp [Task.control, at_] at moved
  | read chosen | ends chosen | peek chosen | foreign chosen | readErr _ chosen =>
      exact absurd chosen (behind (by simp))
  | recv here | recvEmpty here | recvErr here | write here | writeErr here =>
      rw [at_] at here
      cases here

/-- Behind its sleep a task that times out goes on to its end. -/
theorem Moves.timesOut (moves : Moves env ready task act next last)
    (idle : task.pc.TimesOut env.clock env.lastActive) :
    next.pc.isDone = true ∨ next.pc.TimesOut env.clock env.lastActive := by
  have timed : ¬ task.pc.Selecting := by
    cases at_ : task.pc <;> rw [at_] at idle <;> first | exact idle.elim | exact id
  rcases moves.control_of_timed timed with ⟨step, _, moved⟩
  cases at_ : task.pc with
  | woken =>
      rw [at_] at idle
      cases step <;> simp only [Task.control, Task.selects, at_, reduceCtorEq, if_false] at moved
      cases moved
      exact Or.inr idle
  | recheck now =>
      rw [at_] at idle
      cases step <;> simp only [Task.control, Task.selects, at_, reduceCtorEq, if_false] at moved
      cases moved
      left
      simp only [if_pos (show now - env.lastActive ≥ connectionTimeoutSeconds from idle), Pc.isDone]
  | _ =>
      rw [at_] at idle
      exact idle.elim

end Task

/-! ## While the channel is abandoned -/

namespace Task

variable {env : Env} {ready : Bool} {task next : Task} {act : Act} {last : Nat}

/-- Nothing is read any more. -/
theorem not_source_of_closed (closed : env.stop.closed = true) :
    task.selects env ready ≠ some .source := by
  intro chosen
  have quiet := (quiet_of_selects chosen (by simp)).1
  rw [Watch.ready_of_closed closed] at quiet
  cases quiet

theorem Moves.not_recv_of_closed (moves : Moves env ready task act next last)
    (closed : env.stop.closed = true) (n : Nat) : next.pc ≠ .recv n := by
  intro peeked
  cases moves with
  | control moved => exact (control_cases moved).2.2.2.1 n peeked
  | peek chosen => exact not_source_of_closed closed chosen
  | write =>
      simp only [Pc.afterWrite] at peeked
      split at peeked <;> cases peeked
  | _ => cases peeked

/-- A control step notes nothing as activity. -/
theorem Moves.last_of_control {step : Control}
    (moves : Moves env ready task (.control step) next last) : last = env.lastActive := by
  cases moves
  rfl

/-- Only a receive is noted as activity. -/
theorem Moves.last_of_closed (moves : Moves env ready task act next last)
    (closed : env.stop.closed = true) : last = env.lastActive ∨ act = .recv := by
  cases moves with
  | read chosen => exact absurd chosen (not_source_of_closed closed)
  | recv => exact Or.inr rfl
  | _ => exact Or.inl rfl

end Task

theorem Pc.TimesOut.mono {clock later last : Nat} {pc : Pc} (idle : pc.TimesOut clock last)
    (passes : clock ≤ later) : pc.TimesOut later last := by
  cases pc with
  | woken =>
      have seconds := nowSecs_mono passes
      simp only [TimesOut] at idle ⊢
      omega
  | _ => exact idle

/-- What is received is noted if there is any of it. -/
theorem Pipe.upStep_recv_last {α : Type} {sock : Sock α} {source : SourceRead} {env : Env}
    {pipe next : Pipe α} {last : Nat}
    (taken : pipe.upStep sock source env .recv = some (next, last)) :
    last = env.lastActive ∨
      (pipe.sockError = false ∧ ∃ n, pipe.up.pc = .recv n ∧ 0 < n) := by
  simp only [upStep] at taken
  split at taken
  · rename_i n entry at_ _
    split at taken
    · rename_i fits
      simp only [afterRead] at taken
      split at taken
      · cases taken
        exact Or.inl rfl
      · rename_i some_
        refine Or.inr ⟨fits.2, n, at_, Nat.pos_of_ne_zero ?_⟩
        rintro rfl
        exact some_ (List.take_zero)
    · cases taken
  · cases taken

namespace Session

variable {α : Type} {bi : Bi α} {session next : Session α} {event : Event α} {side : Side}
  {role : Role}

/-- The reader of this end has a datagram to receive. -/
def Refreshes (session : Session α) (at_ : Side) : Prop :=
  (session.pipe at_).sockError = false ∧ ∃ n, (session.pipe at_).up.pc = .recv n ∧ 0 < n

/-- On an abandoned channel the forwarder does not come back to its selection: it has
ended, it writes to a connection that is lost, or it times out and nothing stores a
younger second before it looks. -/
def Departs (session : Session α) (side : Side) (role : Role) : Prop :=
  (session.task side role).pc.isDone = true ∨
    (role = .up ∧ session.lost side = true ∧ ∃ rest, (session.task side role).pc = .write rest) ∨
      ((session.task side role).pc.TimesOut session.clock (session.lastActive (role.endOf side)) ∧
        ¬ session.Refreshes (role.endOf side))

/-- A step of this task, as the session sees it. -/
theorem moves_of_own (taken : (machine bi).step session event = some next) {act : Act}
    (own : isOwn side role event = some act) :
    Task.Moves (session.env (role.endOf side)) (session.sourceReady side role)
      (session.task side role) act (next.task side role) (next.lastActive (role.endOf side)) := by
  have moves := task_of_step taken side role
  rw [own] at moves
  exact moves

theorem task_of_other (taken : (machine bi).step session event = some next)
    (other : isOwn side role event = none) : next.task side role = session.task side role := by
  have moves := task_of_step taken side role
  rw [other] at moves
  exact moves

/-- A step of a task is one of the upper or of the lower task of its direction. -/
theorem pipe_of_own (taken : (machine bi).step session event = some next) {act : Act}
    (own : isOwn side role event = some act) :
    (role = .up ∧ ∃ source, (session.pipe side).upStep bi.sock source (session.env side) act =
        some (next.pipe side, next.lastActive side)) ∨
      (role = .down ∧ (session.pipe side).downStep bi.sock (session.env side.other) act =
        some (next.pipe side, next.lastActive side.other)) := by
  cases pipe_of_step taken side with
  | aside _ idle _ =>
      cases event with
      | task at_ role' act' =>
          simp only [isOwn] at own
          split at own
          · rename_i here
            exact absurd (by rw [here.1]) (idle role' act')
          · cases own
      | _ => cases own
  | send | close | sockError | deliver | deliverEnd => cases own
  | up moved =>
      cases role with
      | down => simp [isOwn] at own
      | up =>
          simp only [isOwn, and_self, if_true, Option.some.injEq] at own
          subst own
          exact Or.inl ⟨rfl, _, moved⟩
  | down moved =>
      cases role with
      | up => simp [isOwn] at own
      | down =>
          simp only [isOwn, and_self, if_true, Option.some.injEq] at own
          subst own
          exact Or.inr ⟨rfl, moved⟩

/-- What is in hand where a task says so: bytes to write, or a datagram to receive. -/
structure Sound (bi : Bi α) (session : Session α) : Prop where
  inv : Inv bi session
  owes : ∀ side role rest, (session.task side role).pc = .write rest → rest ≠ []
  peeks : ∀ side n, (session.task side .down).pc ≠ .recv n

theorem inductive_sound (bi : Bi α) : (machine bi).Inductive (Sound bi) where
  start session starts := by
    have top : ∀ side role, (session.task side role).pc = .top := by
      intro side role
      rcases starts.1 side with ⟨seenUp, seenDown, start⟩
      cases role <;> simp only [task, start, Pipe.start]
    refine ⟨(inductive_inv bi).start session starts, fun side role rest owes => ?_,
      fun side n peeked => ?_⟩
    · rw [top] at owes
      cases owes
    · rw [top] at peeked
      cases peeked
  step session event next sound taken := by
    refine ⟨(inductive_inv bi).step session event next sound.inv taken,
      fun side role rest owes => ?_, fun side n peeked => ?_⟩
    · cases own : isOwn side role event with
      | none =>
          rw [task_of_other taken own] at owes
          exact sound.owes side role rest owes
      | some act =>
          rcases pipe_of_own taken own with ⟨rfl, source, moved⟩ | ⟨rfl, moved⟩
          · exact (Pipe.upStep_owes moved owes).1
          · exact Pipe.downStep_owes moved owes
    · cases own : isOwn side .down event with
      | none =>
          rw [task_of_other taken own] at peeked
          exact sound.peeks side n peeked
      | some act =>
          rcases pipe_of_own taken own with ⟨upper, _⟩ | ⟨_, moved⟩
          · cases upper
          · exact Pipe.downStep_recv moved n peeked

/-! ### What departs stays on its way -/

/-- Only a receive stores a second once the channel is abandoned. -/
theorem lastActive_of_closed (taken : (machine bi).step session event = some next) {at_ : Side}
    (closed : (session.stop at_).closed = true) (quiet : ¬ session.Refreshes at_) :
    next.lastActive at_ = session.lastActive at_ := by
  by_cases other : ∀ role, isOwn (role.endOf at_) role event = none
  · exact lastActive_of_step taken other
  · rcases not_forall.mp other with ⟨role, some_⟩
    rcases Option.ne_none_iff_exists'.mp some_ with ⟨act, own⟩
    have moves := moves_of_own taken own
    rw [Role.endOf_endOf] at moves
    rcases moves.last_of_closed closed with same | received
    · exact same
    · subst received
      rcases pipe_of_own taken own with ⟨rfl, source, moved⟩ | ⟨_, moved⟩
      · exact (Pipe.upStep_recv_last moved).resolve_right quiet
      · cases moved

/-- Nor does another datagram come into the hands of the reader. -/
theorem not_refreshes_of_step (taken : (machine bi).step session event = some next) {at_ : Side}
    (closed : (session.stop at_).closed = true) (quiet : ¬ session.Refreshes at_) :
    ¬ next.Refreshes at_ := by
  rintro ⟨clean, n, peeked, some_⟩
  cases own : isOwn at_ .up event with
  | some act => exact (moves_of_own taken own).not_recv_of_closed closed n peeked
  | none =>
      have before : (session.pipe at_).up.pc = .recv n := by
        have same : next.task at_ .up = session.task at_ .up := task_of_other taken own
        rw [← peeked]
        exact (congrArg Task.pc same).symm
      have error : (session.pipe at_).sockError = true := by
        by_contra none_
        exact quiet ⟨by simpa using none_, n, before, some_⟩
      have still : (next.pipe at_).sockError = true := by
        cases pipe_of_step taken at_ with
        | aside _ _ is | send is | close _ is | deliver _ is | deliverEnd _ is =>
            rw [is]
            exact error
        | sockError is => rw [is]
        | up _ => simp [isOwn] at own
        | down moved =>
            rw [(Pipe.downStep_source moved).2.2]
            exact error
      rw [still] at clean
      cases clean

/-- A write on a lost connection fails. -/
theorem done_of_lost (taken : (machine bi).step session event = some next) {act : Act}
    (own : isOwn side .up event = some act) (lost : session.lost side = true) {rest : List UInt8}
    (owes : (session.task side .up).pc = .write rest) :
    (next.task side .up).pc.isDone = true := by
  rcases pipe_of_own taken own with ⟨_, source, moved⟩ | ⟨lower, _⟩
  · have at_ : (session.pipe side).up.pc = .write rest := owes
    have gone : (session.env side).lost = true := lost
    cases act with
    | writeErr =>
        simp only [Pipe.upStep, at_] at moved
        split at moved
        · have same : next.pipe side = _ := (congrArg Prod.fst (Option.some.inj moved)).symm
          simp only [task, same]
          rfl
        · cases moved
    | write count => simp [Pipe.upStep, at_, gone] at moved
    | control step => cases step <;> simp [Pipe.upStep, Task.control, Task.selects, at_] at moved
    | read count | readErr | recv | recvErr => simp [Pipe.upStep, Task.selects, at_] at moved
  · cases lower

theorem departs_of_step (taken : (machine bi).step session event = some next)
    (closed : (session.stop (role.endOf side)).closed = true) (departs : session.Departs side role) :
    next.Departs side role := by
  cases own : isOwn side role event with
  | none =>
      have same := task_of_other taken own
      rcases departs with ended | ⟨upper, lost, owes⟩ | ⟨idle, quiet⟩
      · exact Or.inl (by rw [same]; exact ended)
      · refine Or.inr (Or.inl ⟨upper, ?_, by rw [same]; exact owes⟩)
        rcases lost_of_step taken side with as_before | gone
        · exact as_before.trans lost
        · exact gone
      · refine Or.inr (Or.inr ⟨?_, not_refreshes_of_step taken closed quiet⟩)
        rw [same, lastActive_of_closed taken closed quiet]
        exact idle.mono (clock_le_of_step taken)
  | some act =>
      have moves := moves_of_own taken own
      rcases departs with ended | ⟨rfl, lost, rest, owes⟩ | ⟨idle, quiet⟩
      · rw [moves.running] at ended
        cases ended
      · exact Or.inl (done_of_lost taken own lost owes)
      · rcases moves.timesOut idle with ended | still
        · exact Or.inl ended
        · refine Or.inr (Or.inr ⟨?_, not_refreshes_of_step taken closed quiet⟩)
          rw [lastActive_of_closed taken closed quiet]
          exact still.mono (clock_le_of_step taken)

/-- A task that departs is past its selection. -/
theorem Departs.not_selects (departs : session.Departs side role) (deadline : Nat) (live : Bool) :
    (session.task side role).pc ≠ .select deadline live := by
  intro at_
  rcases departs with ended | ⟨_, _, rest, owes⟩ | ⟨idle, _⟩
  · rw [at_] at ended
    cases ended
  · rw [at_] at owes
    cases owes
  · rw [at_] at idle
    exact idle

/-- What a task takes in hand is bounded, so each of its steps is one of those that
remain. -/
theorem remaining_lt_of_own (taken : (machine bi).step session event = some next) {act : Act}
    (own : isOwn side role event = some act)
    (leaves : ∀ deadline live, (session.task side role).pc = .select deadline live →
      act = .control .stop ∧ (session.stop (role.endOf side)).value = true) :
    (next.task side role).pc.remaining < (session.task side role).pc.remaining := by
  refine (moves_of_own taken own).remaining_lt leaves (fun n rest peeked owes => ?_)
  rcases pipe_of_own taken own with ⟨rfl, source, moved⟩ | ⟨rfl, moved⟩
  · exact (Pipe.upStep_owes moved owes).2 n peeked
  · exact absurd peeked (Pipe.downStep_not_recv moved n)

/-! ### What it can do -/

/-- A step of an upper task that does not depend on how it reads its socket. -/
theorem exists_step_up (bi : Bi α) {act : Act} {after : Pipe α × Nat}
    (moved : ∀ source, (session.pipe side).upStep bi.sock source (session.env side) act =
      some after) :
    ∃ next, (machine bi).step session (.task side .up act) = some next ∧
      next.pipe side = after.1 ∧ next.lastActive side = after.2 := by
  rcases bi.up_eq side with ⟨source, is⟩
  have step : bi.up side (session.env side) (session.pipe side) act = some after := by
    rw [is]
    exact moved source
  refine ⟨_, congrArg (Option.map _) step, ?_, ?_⟩ <;> simp [setActive, setPipe]

theorem exists_recv (sound : session.Sound bi) {n : Nat} (peeked : (session.pipe side).up.pc = .recv n)
    (clean : (session.pipe side).sockError = false) :
    ∃ next, (machine bi).step session (.task side .up .recv) = some next ∧
      (0 < n → next.lastActive side = nowSecs session.clock) := by
  rcases (sound.inv side).up.peeked n peeked with ⟨entry, head, size⟩
  have inside := (List.getElem?_eq_some_iff.mp head).1
  have fits : (session.pipe side).got + 1 ≤ (session.pipe side).log.length ∧
      (session.pipe side).sockError = false := ⟨inside, clean⟩
  have moved : ∀ source, (session.pipe side).upStep bi.sock source (session.env side) .recv =
      some (((session.pipe side).take 1 fits.1).afterRead (session.env side)
        ((bi.sock.raw entry).take n)) := by
    intro source
    simp only [Pipe.upStep, peeked, head, dif_pos fits]
  rcases exists_step_up bi moved with ⟨next, taken, _, last⟩
  refine ⟨next, taken, fun some_ => ?_⟩
  rw [last]
  have chunk : (bi.sock.raw entry).take n ≠ [] := by
    apply List.ne_nil_of_length_pos
    rw [size, Sock.clipped, List.length_take] at some_ ⊢
    simp only [List.length_take]
    omega
  simp only [Pipe.afterRead, if_neg chunk]
  rfl

theorem exists_recvErr (bi : Bi α) {n : Nat} (peeked : (session.pipe side).up.pc = .recv n)
    (error : (session.pipe side).sockError = true) :
    ∃ next, (machine bi).step session (.task side .up .recvErr) = some next ∧
      (next.task side .up).pc = .top := by
  have moved : ∀ source, (session.pipe side).upStep bi.sock source (session.env side) .recvErr =
      some ((session.pipe side).clearError.setUp (session.lost side)
        { (session.pipe side).up with pc := .top }, session.lastActive side) := by
    intro source
    simp only [Pipe.upStep, peeked, error, if_true]
    rfl
  rcases exists_step_up bi moved with ⟨next, taken, pipe, _⟩
  exact ⟨next, taken, by simp only [task, pipe]; rfl⟩

/-- The stream takes all of what is left. -/
theorem exists_write_up (bi : Bi α) {rest : List UInt8} (owes : (session.pipe side).up.pc = .write rest)
    (some_ : rest ≠ []) (there : session.lost side = false) :
    ∃ next, (machine bi).step session (.task side .up (.write rest.length)) = some next ∧
      (next.task side .up).pc = .top := by
  have accepts : 0 < rest.length ∧ rest.length ≤ rest.length ∧ (session.env side).lost = false :=
    ⟨List.length_pos_iff.mpr some_, Nat.le_refl _, there⟩
  have moved : ∀ source,
      (session.pipe side).upStep bi.sock source (session.env side) (.write rest.length) =
        some (((session.pipe side).accept (rest.take rest.length)).setUp (session.lost side)
          { (session.pipe side).up with pc := Pc.afterWrite (rest.drop rest.length) },
          session.lastActive side) := by
    intro source
    simp only [Pipe.upStep, owes, if_pos accepts]
    rfl
  rcases exists_step_up bi moved with ⟨next, taken, pipe, _⟩
  refine ⟨next, taken, ?_⟩
  simp only [task, pipe, Pipe.setUp_up, List.drop_length]
  rfl

theorem exists_writeErr_up (bi : Bi α) {rest : List UInt8} (owes : (session.pipe side).up.pc = .write rest)
    (lost : session.lost side = true) :
    ∃ next, (machine bi).step session (.task side .up .writeErr) = some next := by
  have gone : (session.env side).lost = true := lost
  have moved : ∀ source, (session.pipe side).upStep bi.sock source (session.env side) .writeErr =
      some ((session.pipe side).setUp (session.env side).lost
        { (session.pipe side).up with pc := .done .panicked }, session.lastActive side) := by
    intro source
    simp only [Pipe.upStep, owes, gone, Bool.or_true, if_true]
    rfl
  rcases exists_step_up bi moved with ⟨next, taken, _⟩
  exact ⟨next, taken⟩

/-- The far socket takes all of what is left. -/
theorem exists_write_down (bi : Bi α) {rest : List UInt8} (owes : (session.pipe side).down.pc = .write rest)
    (some_ : rest ≠ []) :
    ∃ next, (machine bi).step session (.task side .down (.write rest.length)) = some next ∧
      (next.task side .down).pc = .top := by
  rcases bi.sock.emit_whole rest some_ with ⟨entries, emitted⟩
  have moved : (session.pipe side).downStep bi.sock (session.env side.other) (.write rest.length) =
      some ({ session.pipe side with out := (session.pipe side).out ++ entries }.setDown
        { (session.pipe side).down with pc := .top }, session.lastActive side.other) := by
    simp only [Pipe.downStep, owes, emitted]
    rfl
  rw [← bi.down_eq side] at moved
  refine ⟨_, congrArg (Option.map _) moved, ?_⟩
  simp [task, setActive, setPipe]

/-- A task that has not ended can take a step, provided that it does not wait for
the stop channel. -/
theorem exists_step_own (sound : session.Sound bi)
    (running : (session.task side role).pc.isDone = false)
    (ready : ∀ deadline live, (session.task side role).pc = .select deadline live →
      (session.stop (role.endOf side)).ready (session.task side role).seen = true) :
    ∃ act next, (machine bi).step session (.task side role act) = some next := by
  have control : ∀ (step : Control) {after : Task},
      (session.task side role).control (session.env (role.endOf side))
        (session.sourceReady side role) step = some after →
          ∃ act next, (machine bi).step session (.task side role act) = some next := by
    intro step after moved
    rcases exists_step_control moved with ⟨next, taken, _⟩
    exact ⟨.control step, next, taken⟩
  cases at_ : (session.task side role).pc with
  | done exit =>
      rw [at_] at running
      cases running
  | top => exact control .now (by simp only [Task.control, at_]; rfl)
  | loaded now => exact control .load (by simp only [Task.control, at_]; rfl)
  | woken => exact control .wake (by simp only [Task.control, at_]; rfl)
  | recheck now => exact control .recheck (by simp only [Task.control, at_]; rfl)
  | select deadline live => exact control .stop (Task.control_stop at_ (ready deadline live at_) _)
  | write rest =>
      have some_ := sound.owes side role rest at_
      cases role with
      | down =>
          rcases exists_write_down bi at_ some_ with ⟨next, taken, _⟩
          exact ⟨_, next, taken⟩
      | up =>
          cases lost : session.lost side with
          | true =>
              rcases exists_writeErr_up bi at_ lost with ⟨next, taken⟩
              exact ⟨_, next, taken⟩
          | false =>
              rcases exists_write_up bi at_ some_ lost with ⟨next, taken, _⟩
              exact ⟨_, next, taken⟩
  | recv n =>
      cases role with
      | down => exact absurd at_ (sound.peeks side n)
      | up =>
          cases error : (session.pipe side).sockError with
          | true =>
              rcases exists_recvErr bi at_ error with ⟨next, taken, _⟩
              exact ⟨_, next, taken⟩
          | false =>
              rcases exists_recv sound at_ error with ⟨next, taken, _⟩
              exact ⟨_, next, taken⟩

/-! ### Back to the selection -/

/-- The task is suspended in its selection. -/
def Waits (session : Session α) (side : Side) (role : Role) : Prop :=
  ∃ deadline live, (session.task side role).pc = .select deadline live

/-- A control step of this task, on the way to somewhere. -/
theorem reaches_of_control (side : Side) (role : Role) (step : Control) {goal : Session α → Prop}
    {pc : Pc}
    (moved : (session.task side role).control (session.env (role.endOf side))
      (session.sourceReady side role) step = some { session.task side role with pc })
    (rest : ∀ next, (machine bi).step session (.task side role (.control step)) = some next →
      (next.task side role).pc = pc →
        (machine bi).CanReach (fun _ => True) goal next) :
    (machine bi).CanReach (fun _ => True) goal session := by
  rcases exists_step_control moved with ⟨next, taken, after, _⟩
  exact .step taken trivial (rest next taken (congrArg Task.pc after))

theorem reaches_of_top (bi : Bi α) (at_ : (session.task side role).pc = .top) :
    (machine bi).CanReach (fun _ => True) (fun s => s.Waits side role) session := by
  refine reaches_of_control side role .now (by simp only [Task.control, at_]; rfl)
    fun loaded _ at_ => ?_
  refine reaches_of_control side role .load (by simp only [Task.control, at_]; rfl)
    fun next _ at_ => ?_
  exact .here ⟨_, _, at_⟩

/-- A task that finds the session young goes around. -/
theorem reaches_of_recheck {now : Nat} (at_ : (session.task side role).pc = .recheck now)
    (young : ¬ now - session.lastActive (role.endOf side) ≥ connectionTimeoutSeconds) :
    (machine bi).CanReach (fun _ => True) (fun s => s.Waits side role) session := by
  have young' : ¬ now - (session.env (role.endOf side)).lastActive ≥ connectionTimeoutSeconds := young
  have moved : (session.task side role).control (session.env (role.endOf side))
      (session.sourceReady side role) .recheck = some { session.task side role with pc := .top } := by
    simp only [Task.control, at_, if_neg young']
  exact reaches_of_control side role .recheck moved fun next _ at_ => reaches_of_top bi at_

/-- It does as well if the other task of its end has a datagram to receive, and does
so late enough. -/
theorem reaches_of_refreshes (sound : session.Sound bi) {now : Nat}
    (at_ : (session.task side role).pc = .recheck now)
    (refreshes : session.Refreshes (role.endOf side)) :
    (machine bi).CanReach (fun _ => True) (fun s => s.Waits side role) session := by
  rcases refreshes with ⟨clean, n, peeked, some_⟩
  have lower : role = .down := by
    cases role with
    | down => rfl
    | up =>
        simp only [task, Role.endOf] at at_ peeked
        rw [at_] at peeked
        cases peeked
  rcases exists_late session.clock now with ⟨nanos, late⟩
  have waited : (machine bi).step session (.tick nanos) =
      some { session with clock := session.clock + nanos } := rfl
  have sound' := (inductive_sound bi).step _ _ _ sound waited
  refine .step waited trivial ?_
  rcases exists_recv sound' peeked clean with ⟨next, taken, stored⟩
  have other : isOwn side role (.task (role.endOf side) .up .recv : Event α) = none := by
    subst lower
    simp [isOwn]
  have same := task_of_other taken other
  refine .step taken trivial (reaches_of_recheck ((congrArg Task.pc same).trans at_) ?_)
  rw [stored some_, Nat.sub_eq_zero_of_le late]
  decide

/-- What the reader of an end has to receive stays there while the other task moves. -/
theorem Refreshes.of_other (taken : (machine bi).step session event = some next) {at_ : Side}
    (lower : ∀ act, event ≠ .task at_ .up act) (unharmed : event ≠ .sockError at_)
    (refreshes : session.Refreshes at_) : next.Refreshes at_ := by
  have kept : (next.pipe at_).sockError = (session.pipe at_).sockError ∧
      (next.pipe at_).up = (session.pipe at_).up := by
    cases pipe_of_step taken at_ with
    | aside _ _ is | send is | close _ is | deliver _ is | deliverEnd _ is =>
        rw [is]
        exact ⟨rfl, rfl⟩
    | sockError => exact absurd rfl unharmed
    | up => exact absurd rfl (lower _)
    | down moved => exact ⟨(Pipe.downStep_source moved).2.2, Pipe.downStep_up moved⟩
  unfold Refreshes
  rw [kept.1, kept.2]
  exact refreshes

theorem reaches_selection (sound : session.Sound bi) (stays : ¬ session.Departs side role) :
    (machine bi).CanReach (fun _ => True) (fun s => s.Waits side role) session := by
  have rechecks : ∀ {s : Session α} {now : Nat}, s.Sound bi →
      (s.task side role).pc = .recheck now → ¬ s.Departs side role →
        (machine bi).CanReach (fun _ => True) (fun s => s.Waits side role) s := by
    intro s now sound at_ stays
    by_cases refreshes : s.Refreshes (role.endOf side)
    · exact reaches_of_refreshes sound at_ refreshes
    · refine reaches_of_recheck at_ fun old => stays (Or.inr (Or.inr ⟨?_, refreshes⟩))
      rw [at_]
      exact old
  cases at_ : (session.task side role).pc with
  | done exit => exact absurd (Or.inl (by rw [at_]; rfl)) stays
  | top => exact reaches_of_top bi at_
  | loaded now =>
      exact reaches_of_control side role .load (by simp only [Task.control, at_]; rfl)
        fun next _ at_ => .here ⟨_, _, at_⟩
  | select deadline live => exact .here ⟨deadline, live, at_⟩
  | recheck now => exact rechecks sound at_ stays
  | woken =>
      refine reaches_of_control side role .wake (by simp only [Task.control, at_]; rfl)
        fun next taken looks => rechecks ((inductive_sound bi).step _ _ _ sound taken) looks ?_
      have own : isOwn side role (.task side role (.control .wake) : Event α) =
          some (.control .wake) := by
        simp [isOwn]
      have last := (moves_of_own taken own).last_of_control
      intro departs
      rcases departs with ended | ⟨_, _, rest, owes⟩ | ⟨old, quiet⟩
      · rw [looks] at ended
        cases ended
      · rw [looks] at owes
        cases owes
      · refine stays (Or.inr (Or.inr ⟨?_, fun refreshes => quiet ?_⟩))
        · rw [looks, last] at old
          rw [at_]
          exact old
        · refine refreshes.of_other taken (fun act same => ?_) (by simp)
          have upper : role = .up := (Event.task.inj same).2.1
          subst upper
          rcases refreshes with ⟨_, n, peeked, _⟩
          simp only [task, Role.endOf] at at_ peeked
          rw [at_] at peeked
          cases peeked
  | write rest =>
      have some_ := sound.owes side role rest at_
      cases role with
      | down =>
          rcases exists_write_down bi at_ some_ with ⟨next, taken, top⟩
          exact .step taken trivial (reaches_of_top bi top)
      | up =>
          have there : session.lost side = false := by
            simpa using fun lost => stays (Or.inr (Or.inl ⟨rfl, lost, rest, at_⟩))
          rcases exists_write_up bi at_ some_ there with ⟨next, taken, top⟩
          exact .step taken trivial (reaches_of_top bi top)
  | recv n =>
      cases role with
      | down => exact absurd at_ (sound.peeks side n)
      | up =>
          -- an error of the socket takes the task back to the head of its loop
          let broken := session.setPipe side { session.pipe side with sockError := true }
          have failed : (machine bi).step session (.sockError side) = some broken := rfl
          have pipe : broken.pipe side = { session.pipe side with sockError := true } := by
            simp [broken, setPipe]
          have peeked : (broken.pipe side).up.pc = .recv n := by
            rw [pipe]
            exact at_
          rcases exists_recvErr bi peeked (by rw [pipe]) with ⟨next, taken, top⟩
          exact .step failed trivial (.step taken trivial (reaches_of_top bi top))

/-! ## The loop of one forwarder -/

def stopLoop (bi : Bi α) (side : Side) (role : Role) : StopLoop where
  State := Session α
  Label := Event α
  machine := machine bi
  stop session := session.stop (role.endOf side)
  seen session := (session.task side role).seen
  own event := (isOwn side role event).isSome
  round event := (isOwn side role event).any Act.selects
  waiting session := session.Waits side role
  broken session := (session.task side role).pc.isDone = true
  departs session := session.Departs side role
  rank session := (session.task side role).pc.remaining

section Lawful

/-- A receiver that has not seen the value `true` has it in sight. -/
theorem ready_of_told (attentive : (stopLoop bi side role).Attentive session)
    (value : (session.stop (role.endOf side)).value = true) :
    (session.stop (role.endOf side)).ready (session.task side role).seen = true :=
  Watch.ready_of_ne (attentive.2 value)

/-- Back at its selection, where it finds the channel abandoned, the task goes around. -/
theorem goes_around (waits : session.Waits side role)
    (abandoned : (stopLoop bi side role).Abandoned session) :
    ∃ labels next, (machine bi).run labels session = some next ∧ next.Waits side role ∧
      0 < (stopLoop bi side role).rounds labels := by
  rcases waits with ⟨deadline, live, at_⟩
  rcases abandoned with ⟨closed, value⟩
  simp only [stopLoop] at closed value
  have ready := Watch.ready_of_closed closed (session.task side role).seen
  rcases exists_step_control (Task.control_stop at_ ready _) with ⟨around, first, task, _⟩
  have top : (around.task side role).pc = .top := by
    rw [task]
    simp only [env, value, Bool.false_eq_true, if_false]
  rcases reaches_of_top bi top with ⟨labels, next, _, ran, waits⟩
  refine ⟨.task side role (.control .stop) :: labels, next,
    Machine.run_cons_eq_some _ |>.mpr ⟨around, first, ran⟩, waits, ?_⟩
  simp [StopLoop.rounds, stopLoop, isOwn, Act.selects]

theorem lawful_stopLoop (bi : Bi α) (side : Side) (role : Role) :
    (stopLoop bi side role).Lawful (Sound bi) where
  valid := inductive_sound bi
  round_own event round := by
    rcases Option.any_eq_true .. |>.mp round with ⟨act, own, _⟩
    simp only [stopLoop, own, Option.isSome_some]
  attentive_step session event next attentive taken := by
    have moves := heeds_of_step taken side role
    cases own : isOwn side role event with
    | none =>
        rw [own] at moves
        exact Or.inl (attentive.of_moves (congrArg Task.seen moves)
          (stop_moves taken (role.endOf side)))
    | some act =>
        rw [own] at moves
        by_cases looks : act = .control .stop
        · rcases moves.stop looks with ⟨_, after⟩
          cases value : (session.stop (role.endOf side)).value with
          | true =>
              refine Or.inr ?_
              simp only [stopLoop, after, env, value, if_true, Pc.isDone]
          | false =>
              have stop := congrFun (stop_of_own taken own) (role.endOf side)
              refine Or.inl ⟨?_, fun told => ?_⟩
              · simp only [stopLoop, after, env, stop]
                exact Watch.seenAfter_le attentive.1
              · simp only [stopLoop, stop, value] at told
                cases told
        · exact Or.inl (attentive.of_moves (moves.seen looks) (stop_moves taken (role.endOf side)))
  value_step session event next value taken := (stop_moves taken (role.endOf side)).value value
  abandoned_step session event next abandoned taken :=
    abandoned.of_moves (stop_moves taken (role.endOf side))
  broken_step session event next broken taken := by
    simp only [stopLoop] at broken ⊢
    cases own : isOwn side role event with
    | none =>
        rw [task_of_other taken own]
        exact ⟨rfl, broken⟩
    | some act =>
        rw [(moves_of_own taken own).running] at broken
        cases broken
  broken_departs session broken := Or.inl broken
  aside_step session event next other taken := by
    simp only [stopLoop] at other ⊢
    exact Nat.le_of_eq (by rw [task_of_other taken (by simpa using other)])
  told_step session event next attentive value taken own := by
    rcases Option.isSome_iff_exists.mp own with ⟨act, own⟩
    refine remaining_lt_of_own taken own fun deadline live at_ => ⟨?_, value⟩
    exact (moves_of_own taken own).of_ready at_ (ready_of_told attentive value)
  told_moves session sound attentive value running := by
    rcases exists_step_own sound (by simpa [stopLoop] using running)
      (fun _ _ _ => ready_of_told attentive value) with ⟨act, next, taken⟩
    exact ⟨_, next, by simp [stopLoop, isOwn], taken⟩
  departs_step session event next abandoned departs taken := by
    refine ⟨departs_of_step taken abandoned.1 departs, fun own => ?_⟩
    rcases Option.isSome_iff_exists.mp own with ⟨act, own⟩
    exact remaining_lt_of_own taken own fun deadline live at_ =>
      absurd at_ (departs.not_selects deadline live)
  departs_moves session sound departs running := by
    rcases exists_step_own sound (by simpa [stopLoop] using running)
      (fun deadline live at_ => absurd at_ (departs.not_selects deadline live)) with
      ⟨act, next, taken⟩
    exact ⟨_, next, by simp [stopLoop, isOwn], taken⟩
  returns session sound _ stays := reaches_selection sound stays
  round_abandoned session waits abandoned := goes_around waits abandoned

end Lawful

end Session

end Net
end Lantun
