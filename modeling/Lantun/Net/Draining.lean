import Lantun.Machine.Progress
import Lantun.Net.Disabled
import Lantun.Net.TcpFidelity

namespace Lantun
namespace Net

open Async

/-!
# A direction can always be emptied

What an application has sent into its socket lies, byte by byte, in one of five
places before it is out: in the socket, in the hands of the upper task, in the
stream but not at the other end, at the other end but not read, in the hands of
the lower task.  While both tasks still come round to their reads, some step of
the direction itself moves a byte one place on or a task one point closer to its
selection.  The weights of the places make every such step count down one number.

So nothing gets stuck between the two sockets: neither the opposite direction nor
the clock is needed, and what is behind an application's end of its side is the
clean end of both tasks.
-/

/-- The task comes round to its read again, as time stands. -/
def Pc.Fit (clock last : Nat) : Pc → Prop
  | .top | .loaded _ => True
  | .select _ live => live = true
  | .write rest => rest ≠ []
  | .woken => nowSecs clock - last < connectionTimeoutSeconds
  | .recheck now => now - last < connectionTimeoutSeconds
  | .recv _ | .done _ => False

/-- How many steps the task is away from its selection. -/
def Pc.rank : Pc → Nat
  | .woken => 4
  | .recheck _ => 3
  | .top => 2
  | .loaded _ => 1
  | _ => 0

/-- The task waits at its read. -/
def Pc.Waits (pc : Pc) : Prop := ∃ deadline, pc = .select deadline true

section Fit

variable (env : Env) {task : Task}

theorem Pc.Fit.running {clock last : Nat} {pc : Pc} (fit : pc.Fit clock last) : pc.isDone = false := by
  cases pc with
  | done exit => exact fit.elim
  | _ => rfl

theorem passing {clock last : Nat} {pc : Pc} (fit : pc.Fit clock last) (owes : pc.pending ≠ []) :
    ∃ rest, pc = .write rest ∧ rest ≠ [] := by
  cases pc with
  | write rest => exact ⟨rest, rfl, fit⟩
  | _ => exact absurd rfl owes

/-- A task that is not at its read, and has nothing to write, takes a step
towards it. -/
theorem Task.comes_round (fit : task.pc.Fit env.clock env.lastActive) (idle : task.pc.pending = [])
    (away : ¬ task.pc.Waits) (ready : Bool) :
    ∃ step pc, task.control env ready step = some { task with pc } ∧
      pc.Fit env.clock env.lastActive ∧ pc.pending = [] ∧ pc.rank < task.pc.rank := by
  rcases task with ⟨pc, seen⟩
  cases pc with
  | top => exact ⟨.now, .loaded (nowSecs env.clock), rfl, trivial, rfl, by simp [Pc.rank]⟩
  | loaded now =>
      exact ⟨.load, .select (env.clock + timeout now env.lastActive * nanosPerSec) true, rfl, rfl, rfl,
        by simp [Pc.rank]⟩
  | select deadline live =>
      cases (fit : live = true)
      exact absurd ⟨deadline, rfl⟩ away
  | woken => exact ⟨.wake, .recheck (nowSecs env.clock), rfl, fit, rfl, by simp [Pc.rank]⟩
  | recheck now =>
      refine ⟨.recheck, .top, ?_, trivial, rfl, by simp [Pc.rank]⟩
      have young : ¬ now - env.lastActive ≥ connectionTimeoutSeconds := Nat.not_le_of_lt fit
      simp [Task.control, young]
  | write rest => exact absurd idle fit
  | recv _ | done _ => exact fit.elim

/-- A task at its read takes it once its source is ready. -/
theorem Task.selects_source {ready : Bool} (waits : task.pc.Waits)
    (quiet : env.stop.ready task.seen = false) (is : ready = true) :
    task.selects env ready = some .source := by
  rcases waits with ⟨deadline, at_⟩
  simp [Task.selects, at_, biased, quiet, is]

end Fit

namespace Pipe

variable {pipe : Pipe UInt8} (env : Env)

/-- What is still to be done before everything is out. -/
def load (pipe : Pipe UInt8) : Nat :=
  25 * (pipe.log.length - pipe.got) + 20 * pipe.up.pc.pending.length +
    15 * (pipe.stream.accepted.length - pipe.stream.arrived) +
    10 * (pipe.stream.arrived - pipe.stream.pos) + 5 * pipe.down.pc.pending.length +
    pipe.up.pc.rank + pipe.down.pc.rank

/-- Everything is out. -/
structure Drained (pipe : Pipe UInt8) : Prop where
  got : pipe.got = pipe.log.length
  up : pipe.up.pc.pending = []
  arrived : pipe.stream.arrived = pipe.stream.accepted.length
  pos : pipe.stream.pos = pipe.stream.arrived
  down : pipe.down.pc.pending = []

theorem Drained.out_eq_log (inv : pipe.Inv Sock.tcp) (drained : pipe.Drained)
    (up : pipe.up.pc ≠ .done .panicked) (down : pipe.down.pc ≠ .done .panicked) :
    pipe.out = pipe.log := by
  have sent := inv.up.whole up
  have heard := inv.down.whole down
  rw [drained.up, List.append_nil, show pipe.carried Sock.tcp = _ from Session.tcp_carried pipe,
    drained.got, List.take_length] at sent
  rw [drained.down, List.append_nil, show pipe.written Sock.tcp = _ from Session.tcp_written pipe,
    Stream.consumed, drained.pos, drained.arrived, List.take_length] at heard
  exact heard.trans sent

/-- One of the two tasks stands elsewhere. -/
def withPc (pipe : Pipe UInt8) (role : Role) (pc : Pc) : Pipe UInt8 :=
  match role with
  | .up => { pipe with up := { pipe.up with pc } }
  | .down => { pipe with down := { pipe.down with pc } }

theorem setUp_running (pipe : Pipe UInt8) (lost : Bool) {pc : Pc} (running : pc.isDone = false) :
    pipe.setUp lost { pipe.up with pc } = pipe.withPc .up pc := by
  simp [setUp, withPc, running]

theorem setDown_running (pipe : Pipe UInt8) {pc : Pc} (running : pc.isDone = false) :
    pipe.setDown { pipe.down with pc } = pipe.withPc .down pc := by
  have reads : pc.stopsReading = false := by
    cases pc with
    | done exit => cases running
    | _ => rfl
  simp [setDown, withPc, reads]

/-! ## The steps that empty it -/

/-- One byte is received from the socket. -/
theorem upStep_takes (waits : pipe.up.pc.Waits) (quiet : env.stop.ready pipe.up.seen = false)
    (sound : pipe.sockError = false) (more : pipe.got < pipe.log.length) :
    ∃ byte, pipe.upStep Sock.tcp .tcpRead env (.read 1) =
      some ({ pipe with
        got := pipe.got + 1
        got_le := more
        up := { pipe.up with pc := .write [byte] } }, nowSecs env.clock) := by
  have ready : pipe.upReady = true := by simp [upReady, more]
  have chosen := Task.selects_source env waits quiet ready
  have admitted : pipe.admits Sock.tcp 1 = true := by
    simp only [admits, Bool.and_eq_true, decide_eq_true_eq]
    exact ⟨more, Bool.or_eq_true_iff.mpr (Or.inl (by decide))⟩
  refine ⟨pipe.log[pipe.got], ?_⟩
  have chunk : (((pipe.log.drop pipe.got).take 1).flatMap Sock.tcp.raw).take tunnelForwarderBufferSize =
      [pipe.log[pipe.got]] := by
    rw [List.drop_eq_getElem_cons more]
    rfl
  simp only [upStep]
  rw [if_pos ⟨chosen, sound⟩, dif_pos admitted, chunk]
  rfl

/-- All that the upper task has in hand goes into the stream. -/
theorem upStep_passes {rest : List UInt8} (at_ : pipe.up.pc = .write rest) (some_ : rest ≠ [])
    (open_ : env.lost = false) :
    pipe.upStep Sock.tcp .tcpRead env (.write rest.length) =
      some ({ pipe with
        stream := pipe.stream.write rest
        up := { pipe.up with pc := .top } }, env.lastActive) := by
  have long : 0 < rest.length := List.length_pos_of_ne_nil some_
  simp only [upStep, at_]
  rw [if_pos ⟨long, Nat.le_refl _, open_⟩, List.take_length, List.drop_length]
  rfl

/-- One byte is read from the stream. -/
theorem downStep_takes (waits : pipe.down.pc.Waits) (quiet : env.stop.ready pipe.down.seen = false)
    (open_ : pipe.stream.ending ≠ some .reset) (more : pipe.stream.pos < pipe.stream.arrived) :
    ∃ byte, pipe.downStep Sock.tcp env (.read 1) =
      some ({ pipe with
        stream := pipe.stream.read 1 (by omega)
        down := { pipe.down with pc := .write [byte] } }, nowSecs env.clock) := by
  have data : pipe.stream.poll env.lost = .data := by
    have whole : (pipe.stream.ending == some .reset) = false := by simpa using open_
    simp [Stream.poll, whole, more]
  have ready : pipe.downReady env.lost = true := by simp [downReady, data]
  have chosen := Task.selects_source env waits quiet ready
  have fits : 0 < 1 ∧ 1 ≤ tunnelForwarderBufferSize ∧ 1 ≤ pipe.stream.arrived - pipe.stream.pos :=
    ⟨Nat.one_pos, by decide, by omega⟩
  have inside : pipe.stream.pos < pipe.stream.accepted.length :=
    Nat.lt_of_lt_of_le more pipe.stream.arrived_le
  refine ⟨pipe.stream.accepted[pipe.stream.pos], ?_⟩
  have chunk : pipe.stream.chunk 1 = [pipe.stream.accepted[pipe.stream.pos]] := by
    rw [Stream.chunk, List.drop_eq_getElem_cons inside]
    rfl
  simp only [downStep, chosen, if_true, data, fits, and_self, dite_true, chunk]
  rfl

/-- All that the lower task has in hand goes into the far socket. -/
theorem downStep_passes {rest : List UInt8} (at_ : pipe.down.pc = .write rest) (some_ : rest ≠ []) :
    pipe.downStep Sock.tcp env (.write rest.length) =
      some ({ pipe with
        out := pipe.out ++ rest
        down := { pipe.down with pc := .top } }, env.lastActive) := by
  have long : 0 < rest.length := List.length_pos_of_ne_nil some_
  have emits : Sock.tcp.emit rest rest.length = some (rest, []) := by
    simp only [Sock.tcp]
    rw [if_pos ⟨long, Nat.le_refl _⟩, List.take_length, List.drop_length]
  simp only [downStep, at_, emits, Option.map_some]
  rfl

/-- The application's end is read, and the stream finished. -/
theorem upStep_ends (waits : pipe.up.pc.Waits) (quiet : env.stop.ready pipe.up.seen = false)
    (sound : pipe.sockError = false) (ended : pipe.eof = true) (all : pipe.got = pipe.log.length) :
    pipe.upStep Sock.tcp .tcpRead env (.read 0) =
      some (pipe.setUp env.lost { pipe.up with pc := .done .empty }, env.lastActive) := by
  have ready : pipe.upReady = true := by simp [upReady, ended]
  have chosen := Task.selects_source env waits quiet ready
  have admitted : pipe.admits Sock.tcp 0 = true := by simp [admits, ended, all]
  simp only [upStep]
  rw [if_pos ⟨chosen, sound⟩, dif_pos admitted]
  rfl

/-- The end of the stream is read. -/
theorem downStep_ends (waits : pipe.down.pc.Waits) (quiet : env.stop.ready pipe.down.seen = false)
    (ended : pipe.stream.ending = some .fin) (told : pipe.stream.endArrived = true)
    (all : pipe.stream.pos = pipe.stream.accepted.length) :
    pipe.downStep Sock.tcp env (.read 0) =
      some (pipe.setDown { pipe.down with pc := .done .closed }, env.lastActive) := by
  have finished : pipe.stream.poll env.lost = .finished := by
    have within := pipe.stream.arrived_le
    simp [Stream.poll, ended, told, all, within]
  have ready : pipe.downReady env.lost = true := by simp [downReady, finished]
  have chosen := Task.selects_source env waits quiet ready
  simp only [downStep, chosen, if_true, finished]

end Pipe

namespace Session

/-- A step of the direction itself: of one of its tasks, or of the network for its
stream. -/
def Own {α : Type} (side : Side) : Event α → Prop
  | .task at_ _ _ | .deliver at_ _ | .deliverEnd at_ => at_ = side
  | _ => False

/-- A step of one of its tasks. -/
def TaskOf {α : Type} (side : Side) (role : Role) (event : Event α) : Prop :=
  ∃ act, event = .task side role act

theorem own_of_taskOf {α : Type} {side : Side} {role : Role} (event : Event α)
    (task : TaskOf side role event) : Own side event := by
  rcases task with ⟨act, rfl⟩
  rfl

/-- Both tasks of the direction come round to their reads, and nothing is in the way. -/
structure Flows (side : Side) (session : Session UInt8) : Prop where
  fit : ∀ role, (session.task side role).pc.Fit session.clock (session.lastActive (role.endOf side))
  quiet : ∀ role, session.stopPending side role = false
  open_ : ∀ at_, session.lost at_ = false
  sound : (session.pipe side).sockError = false

/-! ## Own steps of a session -/

section Steps

variable {session : Session UInt8} {side : Side}

theorem step_up {act : Act} {pipe : Pipe UInt8} {last : Nat}
    (moved : (session.pipe side).upStep Sock.tcp .tcpRead (session.env side) act = some (pipe, last)) :
    (machine Bi.tcp).step session (.task side .up act) =
      some ((session.setPipe side pipe).setActive side last) := by
  have is : Bi.tcp.up side = Pipe.upStep Sock.tcp .tcpRead := by cases side <;> rfl
  simp only [machine, step, is, moved, Option.map_some]

theorem step_down {act : Act} {pipe : Pipe UInt8} {last : Nat}
    (moved : (session.pipe side).downStep Sock.tcp (session.env side.other) act = some (pipe, last)) :
    (machine Bi.tcp).step session (.task side .down act) =
      some ((session.setPipe side pipe).setActive side.other last) := by
  have is : Bi.tcp.down side = Pipe.downStep Sock.tcp := Bi.tcp.down_eq side
  simp only [machine, step, is, moved, Option.map_some]

theorem ne_other (side : Side) : side ≠ side.other := by cases side <;> decide

theorem setActive_self (session : Session UInt8) (at_ : Side) :
    session.setActive at_ (session.lastActive at_) = session := by
  rw [setActive, Function.update_eq_self]

/-- The upper task has moved, and is still fit. -/
theorem Flows.moveUp (flows : session.Flows side) {pipe : Pipe UInt8} {last : Nat}
    (fit : pipe.up.pc.Fit session.clock last) (seen : pipe.up.seen = (session.pipe side).up.seen)
    (down : pipe.down = (session.pipe side).down) (sound : pipe.sockError = false) :
    ((session.setPipe side pipe).setActive side last).Flows side where
  fit role := by
    cases role with
    | up => simpa [task, setActive, setPipe, Role.endOf] using fit
    | down =>
        have same := flows.fit .down
        simpa [task, setActive, setPipe, Role.endOf, down,
          Function.update_of_ne (ne_other side).symm] using same
  quiet role := by
    have same := flows.quiet role
    cases role <;> simpa [stopPending, task, setActive, setPipe, Role.endOf, seen, down] using same
  open_ := flows.open_
  sound := by simpa [setActive, setPipe] using sound

/-- The lower task has. -/
theorem Flows.moveDown (flows : session.Flows side) {pipe : Pipe UInt8} {last : Nat}
    (fit : pipe.down.pc.Fit session.clock last)
    (seen : pipe.down.seen = (session.pipe side).down.seen)
    (up : pipe.up = (session.pipe side).up) (sound : pipe.sockError = false) :
    ((session.setPipe side pipe).setActive side.other last).Flows side where
  fit role := by
    cases role with
    | up =>
        have same := flows.fit .up
        simpa [task, setActive, setPipe, Role.endOf, up, Function.update_of_ne (ne_other side)] using same
    | down => simpa [task, setActive, setPipe, Role.endOf] using fit
  quiet role := by
    have same := flows.quiet role
    cases role <;> simpa [stopPending, task, setActive, setPipe, Role.endOf, seen, up] using same
  open_ := flows.open_
  sound := by simpa [setActive, setPipe] using sound

/-- Bytes have arrived. -/
theorem Flows.deliver (flows : session.Flows side) (count : Nat) :
    (session.setPipe side ((session.pipe side).deliver count)).Flows side where
  fit role := by
    have same := flows.fit role
    cases role <;> simpa [task, setPipe, Pipe.deliver] using same
  quiet role := by
    have same := flows.quiet role
    cases role <;> simpa [stopPending, task, setPipe, Pipe.deliver] using same
  open_ := flows.open_
  sound := by simpa [setPipe, Pipe.deliver] using flows.sound

theorem Flows.withPc (flows : session.Flows side) {role : Role} {pc : Pc}
    (fit : pc.Fit session.clock (session.lastActive (role.endOf side))) :
    (session.setPipe side ((session.pipe side).withPc role pc)).Flows side := by
  cases role with
  | up =>
      rw [← setActive_self (session.setPipe side _) side]
      exact flows.moveUp fit rfl rfl flows.sound
  | down =>
      rw [← setActive_self (session.setPipe side _) side.other]
      exact flows.moveDown fit rfl rfl flows.sound

/-- What one own step towards the end is. -/
structure Advances (side : Side) (session next : Session UInt8) (event : Event UInt8) : Prop where
  own : Own side event
  taken : (machine Bi.tcp).step session event = some next
  flows : next.Flows side
  log : (next.pipe side).log = (session.pipe side).log
  eof : (next.pipe side).eof = (session.pipe side).eof
  load : (next.pipe side).load < (session.pipe side).load

theorem Flows.advanceUp (flows : session.Flows side) {act : Act} {pipe : Pipe UInt8} {last : Nat}
    (moved : (session.pipe side).upStep Sock.tcp .tcpRead (session.env side) act = some (pipe, last))
    (fit : pipe.up.pc.Fit session.clock last) (seen : pipe.up.seen = (session.pipe side).up.seen)
    (down : pipe.down = (session.pipe side).down) (sound : pipe.sockError = false)
    (log : pipe.log = (session.pipe side).log) (eof : pipe.eof = (session.pipe side).eof)
    (load : pipe.load < (session.pipe side).load) : ∃ event next, Advances side session next event := by
  have here : ((session.setPipe side pipe).setActive side last).pipe side = pipe :=
    Function.update_self _ _ _
  refine ⟨.task side .up act, _, rfl, step_up moved, flows.moveUp fit seen down sound, ?_, ?_, ?_⟩
  · rw [here, log]
  · rw [here, eof]
  · rw [here]
    exact load

theorem Flows.advanceDown (flows : session.Flows side) {act : Act} {pipe : Pipe UInt8} {last : Nat}
    (moved : (session.pipe side).downStep Sock.tcp (session.env side.other) act = some (pipe, last))
    (fit : pipe.down.pc.Fit session.clock last)
    (seen : pipe.down.seen = (session.pipe side).down.seen)
    (up : pipe.up = (session.pipe side).up) (sound : pipe.sockError = false)
    (log : pipe.log = (session.pipe side).log) (eof : pipe.eof = (session.pipe side).eof)
    (load : pipe.load < (session.pipe side).load) : ∃ event next, Advances side session next event := by
  have here : ((session.setPipe side pipe).setActive side.other last).pipe side = pipe :=
    Function.update_self _ _ _
  refine ⟨.task side .down act, _, rfl, step_down moved, flows.moveDown fit seen up sound, ?_, ?_, ?_⟩
  · rw [here, log]
  · rw [here, eof]
  · rw [here]
    exact load

theorem Flows.advanceDeliver (flows : session.Flows side) (count : Nat)
    (load : ((session.pipe side).deliver count).load < (session.pipe side).load) :
    ∃ event next, Advances side session next event := by
  have here : (session.setPipe side ((session.pipe side).deliver count)).pipe side = _ :=
    Function.update_self _ _ _
  refine ⟨.deliver side count, _, rfl, ?_, flows.deliver count, ?_, ?_, ?_⟩
  · simp only [machine, step, flows.open_]
    rfl
  · rw [here]
    rfl
  · rw [here]
    rfl
  · rw [here]
    exact load

/-- A task that is not at its read comes closer to it, and leaves everything else. -/
theorem control_step (role : Role)
    (fit : (session.task side role).pc.Fit session.clock (session.lastActive (role.endOf side)))
    (idle : (session.task side role).pc.pending = []) (away : ¬ (session.task side role).pc.Waits) :
    ∃ step pc, (machine Bi.tcp).step session (.task side role (.control step)) =
        some (session.setPipe side ((session.pipe side).withPc role pc)) ∧
      pc.Fit session.clock (session.lastActive (role.endOf side)) ∧ pc.pending = [] ∧
        pc.rank < (session.task side role).pc.rank := by
  rcases Task.comes_round (session.env (role.endOf side)) fit idle away
    (session.sourceReady side role) with ⟨step, pc, moved, still, owes, less⟩
  refine ⟨step, pc, ?_, still, owes, less⟩
  cases role with
  | up =>
      have taken : (session.pipe side).upStep Sock.tcp .tcpRead (session.env side) (.control step) =
          some ((session.pipe side).setUp (session.env side).lost { (session.pipe side).up with pc },
            session.lastActive side) := congrArg (Option.map _) moved
      rw [Pipe.setUp_running _ _ still.running] at taken
      rw [step_up taken]
      exact congrArg some (setActive_self _ side)
  | down =>
      have taken : (session.pipe side).downStep Sock.tcp (session.env side.other) (.control step) =
          some ((session.pipe side).setDown { (session.pipe side).down with pc },
            session.lastActive side.other) := congrArg (Option.map _) moved
      rw [Pipe.setDown_running _ still.running] at taken
      rw [step_down taken]
      exact congrArg some (setActive_self _ side.other)

theorem Flows.control (flows : session.Flows side) (role : Role)
    (idle : (session.task side role).pc.pending = []) (away : ¬ (session.task side role).pc.Waits) :
    ∃ event next, Advances side session next event := by
  rcases control_step role (flows.fit role) idle away with ⟨step, pc, taken, still, owes, less⟩
  have here : (session.setPipe side ((session.pipe side).withPc role pc)).pipe side = _ :=
    Function.update_self _ _ _
  refine ⟨.task side role (.control step), _, rfl, taken, flows.withPc still, ?_, ?_, ?_⟩
  · rw [here]
    cases role <;> rfl
  · rw [here]
    cases role <;> rfl
  · rw [here]
    cases role with
    | up =>
        have before : (session.pipe side).up.pc.pending = [] := idle
        simp only [Pipe.load, Pipe.withPc, owes, before]
        exact Nat.add_lt_add_right (Nat.add_lt_add_left less _) _
    | down =>
        have before : (session.pipe side).down.pc.pending = [] := idle
        simp only [Pipe.load, Pipe.withPc, owes, before]
        exact Nat.add_lt_add_left less _

/-- As long as not everything is out, the direction has a step of its own that
brings it closer to that. -/
theorem Flows.advances (flows : session.Flows side) (inv : (session.pipe side).Inv Sock.tcp)
    (rest : ¬ (session.pipe side).Drained) : ∃ event next, Advances side session next event := by
  have upFit : (session.pipe side).up.pc.Fit session.clock (session.lastActive side) := flows.fit .up
  have downFit : (session.pipe side).down.pc.Fit session.clock (session.lastActive side.other) :=
    flows.fit .down
  have upQuiet : (session.stop side).ready (session.pipe side).up.seen = false := flows.quiet .up
  have downQuiet : (session.stop side.other).ready (session.pipe side).down.seen = false :=
    flows.quiet .down
  have open_ := inv.up.open_of_running upFit.running
  -- the places are emptied from the far end on
  by_cases down : (session.pipe side).down.pc.pending = []
  · by_cases read : (session.pipe side).stream.pos = (session.pipe side).stream.arrived
    · by_cases arrived :
        (session.pipe side).stream.arrived = (session.pipe side).stream.accepted.length
      · by_cases up : (session.pipe side).up.pc.pending = []
        · by_cases got : (session.pipe side).got = (session.pipe side).log.length
          · exact absurd ⟨got, up, arrived, read, down⟩ rest
          · by_cases waits : (session.pipe side).up.pc.Waits
            · have more : (session.pipe side).got < (session.pipe side).log.length :=
                Nat.lt_of_le_of_ne (session.pipe side).got_le got
              rcases Pipe.upStep_takes (session.env side) waits upQuiet flows.sound more with
                ⟨byte, taken⟩
              refine flows.advanceUp taken (List.cons_ne_nil _ _) rfl rfl flows.sound rfl rfl ?_
              rcases waits with ⟨deadline, at_⟩
              simp only [Pipe.load, at_, Pc.pending, Pc.rank, List.length_cons, List.length_nil]
              omega
            · exact flows.control .up up waits
        · rcases passing upFit up with ⟨rest, at_, some_⟩
          have long := List.length_pos_of_ne_nil some_
          refine flows.advanceUp
            (Pipe.upStep_passes (session.env side) at_ some_ (flows.open_ side)) trivial rfl rfl
            flows.sound rfl rfl ?_
          have within := (session.pipe side).stream.arrived_le
          simp only [Pipe.load, at_, Pc.pending, Pc.rank, Stream.write, List.length_append,
            List.length_nil]
          omega
      · have within := (session.pipe side).stream.arrived_le
        refine flows.advanceDeliver
          ((session.pipe side).stream.accepted.length - (session.pipe side).stream.arrived) ?_
        simp only [Pipe.load, Pipe.deliver, Stream.deliver]
        omega
    · have more : (session.pipe side).stream.pos < (session.pipe side).stream.arrived :=
        Nat.lt_of_le_of_ne (session.pipe side).stream.pos_le read
      by_cases waits : (session.pipe side).down.pc.Waits
      · rcases Pipe.downStep_takes (session.env side.other) waits downQuiet (by simp [open_]) more with
          ⟨byte, taken⟩
        refine flows.advanceDown taken (List.cons_ne_nil _ _) rfl rfl flows.sound rfl rfl ?_
        rcases waits with ⟨deadline, at_⟩
        simp only [Pipe.load, at_, Pc.pending, Pc.rank, Stream.read, List.length_cons,
          List.length_nil]
        omega
      · exact flows.control .down down waits
  · rcases passing downFit down with ⟨rest, at_, some_⟩
    have long := List.length_pos_of_ne_nil some_
    refine flows.advanceDown (Pipe.downStep_passes (session.env side.other) at_ some_) trivial rfl rfl
      flows.sound rfl rfl ?_
    simp only [Pipe.load, at_, Pc.pending, Pc.rank, List.length_nil]
    omega

/-- The session with one of the tasks further on its way to its read. -/
def ComesRound (side : Side) (role : Role) (session next : Session UInt8) : Prop :=
  ∃ pc, next = session.setPipe side ((session.pipe side).withPc role pc) ∧
    pc.Fit session.clock (session.lastActive (role.endOf side)) ∧ pc.pending = []

/-- A task with nothing to write can be brought to its read, by itself. -/
theorem comes_to_read (role : Role)
    (fit : (session.task side role).pc.Fit session.clock (session.lastActive (role.endOf side)))
    (idle : (session.task side role).pc.pending = []) :
    (machine Bi.tcp).CanReach (TaskOf side role) (fun next => ∃ deadline,
      next = session.setPipe side ((session.pipe side).withPc role (.select deadline true))) session := by
  have task_withPc : ∀ pc, ((session.setPipe side ((session.pipe side).withPc role pc)).task side role).pc
      = pc := by
    intro pc
    cases role <;> simp [task, setPipe, Pipe.withPc]
  have twice : ∀ pc pc', (session.setPipe side ((session.pipe side).withPc role pc)).setPipe side
      (((session.setPipe side ((session.pipe side).withPc role pc)).pipe side).withPc role pc') =
        session.setPipe side ((session.pipe side).withPc role pc') := by
    intro pc pc'
    cases role <;> simp [setPipe, Pipe.withPc]
  have start : session = session.setPipe side
      ((session.pipe side).withPc role (session.task side role).pc) := by
    cases role <;> simp [setPipe, Pipe.withPc, task]
  have coming : ComesRound side role session session := ⟨_, start, fit, idle⟩
  refine Machine.CanReach.descend (fun next : Session UInt8 => (next.task side role).pc.rank) ?_ coming
  rintro next ⟨pc, rfl, still, owes⟩
  by_cases waits : pc.Waits
  · rcases waits with ⟨deadline, rfl⟩
    exact Or.inl (.here ⟨deadline, rfl⟩)
  · rw [← task_withPc pc] at still owes waits
    rcases control_step role still owes waits with ⟨step, pc', taken, still', owes', less⟩
    rw [twice] at taken
    refine Or.inr ⟨.task side role (.control step), _, ⟨_, rfl⟩, taken, ⟨pc', rfl, still', owes'⟩, ?_⟩
    rw [task_withPc]
    exact less

end Steps

end Session

/-! ## Nobody has stopped reading while the lower task runs -/

namespace Pipe

variable {α : Type} {sock : Sock α} {env : Env} {pipe next : Pipe α} {act : Act} {last : Nat}

theorem dropSend_stopped (stream : Stream) (lost : Bool) :
    (stream.dropSend lost).stopped = stream.stopped := by
  unfold Stream.dropSend
  split <;> rfl

theorem setUp_stopped (pipe : Pipe α) (lost : Bool) (task : Task) :
    (pipe.setUp lost task).stream.stopped = pipe.stream.stopped := by
  unfold setUp
  dsimp only
  split
  · exact dropSend_stopped _ _
  · rfl

theorem upStep_stopped {source : SourceRead}
    (taken : pipe.upStep sock source env act = some (next, last)) :
    next.stream.stopped = pipe.stream.stopped := by
  have after : ∀ (count : Nat) (enough : pipe.got + count ≤ pipe.log.length) (chunk : List UInt8),
      ((pipe.take count enough).afterRead env chunk).1.stream.stopped = pipe.stream.stopped := by
    intro count enough chunk
    unfold afterRead
    split <;> exact setUp_stopped _ _ _
  cases act with
  | control step =>
      rcases Option.map_eq_some_iff.mp taken with ⟨task, _, same⟩
      cases same
      exact setUp_stopped _ _ _
  | read count =>
      simp only [upStep] at taken
      split at taken
      · split at taken
        · rcases Option.map_eq_some_iff.mp taken with ⟨entry, _, same⟩
          cases same
          exact setUp_stopped _ _ _
        · split at taken
          · rcases congrArg Prod.fst (Option.some.inj taken) with rfl
            exact after _ _ _
          · cases taken
      · cases taken
  | recv =>
      simp only [upStep] at taken
      split at taken
      · split at taken
        · rcases congrArg Prod.fst (Option.some.inj taken) with rfl
          exact after _ _ _
        · cases taken
      · cases taken
  | readErr | recvErr | write _ | writeErr =>
      simp only [upStep] at taken
      split at taken
      · split at taken <;> cases taken
        exact setUp_stopped _ _ _
      · cases taken

theorem setDown_stopped {pipe : Pipe α} {task : Task}
    (before : pipe.stream.stopped = true → task.pc.isDone = true)
    (stopped : (pipe.setDown task).stream.stopped = true) : task.pc.isDone = true := by
  simp only [setDown] at stopped
  split at stopped
  · rename_i stops
    cases at_ : task.pc with
    | done exit => rfl
    | _ => simp [Pc.stopsReading, at_] at stops
  · exact before stopped

/-- A receive half that is dropped is dropped by a task that ends. -/
theorem downStep_stopped (taken : pipe.downStep sock env act = some (next, last))
    (before : pipe.stream.stopped = false) (stopped : next.stream.stopped = true) :
    next.down.pc.isDone = true := by
  have none_ : ∀ task : Task, pipe.stream.stopped = true → task.pc.isDone = true :=
    fun _ is => absurd is (by rw [before]; decide)
  cases act with
  | control step =>
      rcases Option.map_eq_some_iff.mp taken with ⟨task, _, same⟩
      cases same
      exact setDown_stopped (none_ task) stopped
  | read count =>
      simp only [downStep] at taken
      split at taken
      · split at taken
        · split at taken <;> cases taken
          exact setDown_stopped (none_ _) stopped
        · split at taken <;> cases taken
          exact setDown_stopped (none_ _) stopped
        · cases taken
      · cases taken
  | write count =>
      simp only [downStep] at taken
      split at taken
      · rcases Option.map_eq_some_iff.mp taken with ⟨⟨entries, left⟩, _, same⟩
        cases same
        exact setDown_stopped (none_ _) stopped
      · cases taken
  | readErr =>
      simp only [downStep] at taken
      split at taken
      · split at taken <;> cases taken
        exact setDown_stopped (none_ _) stopped
      · cases taken
  | writeErr =>
      simp only [downStep] at taken
      split at taken <;> cases taken
      exact setDown_stopped (none_ _) stopped
  | recv | recvErr => cases taken

end Pipe

namespace Session

/-- While the lower task runs, the stream has not been told to stop. -/
theorem inductive_reads (bi : Bi UInt8) : (machine bi).Inductive fun session : Session UInt8 =>
    ∀ side, (session.pipe side).down.pc.isDone = false → (session.pipe side).stream.stopped = false where
  start session starts side _ := by
    rcases starts.1 side with ⟨_, _, start⟩
    rw [start]
    rfl
  step session event next holds taken side running := by
    have before := holds side
    cases pipe_of_step taken side with
    | aside _ _ is | send is | close _ is | sockError is | deliver _ is | deliverEnd _ is =>
        rw [is] at running ⊢
        exact before running
    | up moved =>
        rw [Pipe.upStep_stopped moved]
        rw [(Pipe.upStep_frame moved).2.2] at running
        exact before running
    | down moved =>
        have ran := (Pipe.downStep_moves moved).running
        cases stops : (next.pipe side).stream.stopped with
        | false => rfl
        | true =>
            rw [Pipe.downStep_stopped moved (before ran) stops] at running
            cases running

/-! ## The whole way -/

/-- Everything the application has sent is out, or the direction goes on by itself. -/
structure Draining (side : Side) (start session : Session UInt8) : Prop where
  inv : Inv Bi.tcp session
  flows : session.Flows side
  log : (session.pipe side).log = (start.pipe side).log
  eof : (session.pipe side).eof = (start.pipe side).eof

section Whole

variable {session : Session UInt8} {side : Side}

theorem Draining.out_eq {start : Session UInt8} (draining : Draining side start session)
    (drained : (session.pipe side).Drained) : (session.pipe side).out = (start.pipe side).log := by
  have running : ∀ role, (session.task side role).pc.isDone = false :=
    fun role => (draining.flows.fit role).running
  rw [drained.out_eq_log (draining.inv side) (fun is => ?_) (fun is => ?_), draining.log]
  · have ran : (session.pipe side).up.pc.isDone = false := running .up
    rw [is] at ran
    cases ran
  · have ran : (session.pipe side).down.pc.isDone = false := running .down
    rw [is] at ran
    cases ran

theorem can_drain (inv : Inv Bi.tcp session) (flows : session.Flows side) :
    (machine Bi.tcp).CanReach (Own side)
      (fun next => Draining side session next ∧ (next.pipe side).Drained) session := by
  have draining : Draining side session session := ⟨inv, flows, rfl, rfl⟩
  refine Machine.CanReach.descend (fun next : Session UInt8 => (next.pipe side).load) ?_ draining
  intro now draining
  by_cases drained : (now.pipe side).Drained
  · exact Or.inl (.here ⟨draining, drained⟩)
  · rcases draining.flows.advances (draining.inv side) drained with ⟨event, next, step⟩
    refine Or.inr ⟨event, next, step.own, step.taken, ?_, step.load⟩
    exact ⟨(inductive_inv Bi.tcp).step _ _ _ draining.inv step.taken, step.flows,
      step.log.trans draining.log, step.eof.trans draining.eof⟩

/-- Something the application has sent is in the stream, and the lower task has not
moved. -/
structure Speaks (side : Side) (start session : Session UInt8) : Prop where
  accepted : (session.pipe side).stream.accepted ≠ []
  fit : (session.pipe side).up.pc.Fit session.clock (session.lastActive side)
  seen : (session.pipe side).up.seen = (start.pipe side).up.seen
  log : (session.pipe side).log = (start.pipe side).log
  sound : (session.pipe side).sockError = false

theorem step_up_again {act : Act} {pipe after : Pipe UInt8} {last later : Nat}
    (moved : pipe.upStep Sock.tcp .tcpRead (((session.setPipe side pipe).setActive side last).env side) act =
      some (after, later)) :
    (machine Bi.tcp).step ((session.setPipe side pipe).setActive side last) (.task side .up act) =
      some ((session.setPipe side after).setActive side later) := by
  have here : ((session.setPipe side pipe).setActive side last).pipe side = pipe :=
    Function.update_self _ _ _
  rw [← here] at moved
  rw [step_up moved]
  simp [setPipe, setActive]

/-- At its read, the upper task brings a byte into the stream. -/
theorem can_speak_from_read (waits : (session.pipe side).up.pc.Waits)
    (quiet : session.stopPending side .up = false) (open_ : session.lost side = false)
    (sound : (session.pipe side).sockError = false)
    (more : (session.pipe side).got < (session.pipe side).log.length) :
    (machine Bi.tcp).CanReach (TaskOf side .up) (Speaks side session) session := by
  rcases Pipe.upStep_takes (session.env side) waits quiet sound more with ⟨byte, takes⟩
  have passes := fun env : Env => Pipe.upStep_passes env
    (show ({ session.pipe side with
      got := (session.pipe side).got + 1
      got_le := more
      up := { (session.pipe side).up with pc := .write [byte] } } : Pipe UInt8).up.pc = _ from rfl)
    (List.cons_ne_nil byte [])
  refine .step (step_up takes) ⟨_, rfl⟩ (.step (step_up_again (passes _ open_)) ⟨_, rfl⟩ (.here ?_))
  refine ⟨?_, ?_, ?_, ?_, ?_⟩
  · simp [setActive, setPipe]
  · simp [setActive, setPipe, Pc.Fit]
  · simp [setActive, setPipe]
  · simp [setActive, setPipe]
  · simpa [setActive, setPipe] using sound

/-- The upper task alone can bring the first byte into the stream. -/
theorem can_speak (inv : (session.pipe side).UpInv Sock.tcp)
    (fit : (session.pipe side).up.pc.Fit session.clock (session.lastActive side))
    (quiet : session.stopPending side .up = false) (open_ : session.lost side = false)
    (sound : (session.pipe side).sockError = false) (said : (session.pipe side).log ≠ []) :
    (machine Bi.tcp).CanReach (TaskOf side .up) (Speaks side session) session := by
  by_cases silent : (session.pipe side).stream.accepted = []
  · by_cases idle : (session.pipe side).up.pc.pending = []
    · have running : (session.pipe side).up.pc ≠ .done .panicked := by
        intro is
        have ran := fit.running
        rw [is] at ran
        cases ran
      have more : (session.pipe side).got < (session.pipe side).log.length := by
        have carries := inv.whole running
        rw [silent, idle, show (session.pipe side).carried Sock.tcp = _ from tcp_carried _] at carries
        rcases List.take_eq_nil_iff.mp carries.symm with none_ | none_
        · rw [none_]
          exact List.length_pos_of_ne_nil said
        · exact absurd none_ said
      refine (comes_to_read .up fit idle).andThen ?_
      rintro _ ⟨deadline, rfl⟩
      have there : (session.setPipe side ((session.pipe side).withPc .up (.select deadline true))).pipe side
          = (session.pipe side).withPc .up (.select deadline true) := Function.update_self _ _ _
      have speaks := @can_speak_from_read
        (session.setPipe side ((session.pipe side).withPc .up (.select deadline true))) side
      rw [stopPending, task, there] at speaks
      refine (speaks ⟨deadline, rfl⟩ quiet open_ sound more).mono fun next said => ?_
      refine ⟨said.accepted, said.fit, ?_, ?_, said.sound⟩
      · rw [said.seen, there]
        rfl
      · rw [said.log, there]
        rfl
    · rcases passing fit idle with ⟨rest, at_, some_⟩
      refine .step (step_up (Pipe.upStep_passes (session.env side) at_ some_ open_)) ⟨_, rfl⟩ (.here ?_)
      refine ⟨?_, ?_, ?_, ?_, ?_⟩
      · simp [setActive, setPipe, some_]
      · simp [setActive, setPipe, Pc.Fit]
      · simp [setActive, setPipe]
      · simp [setActive, setPipe]
      · simpa [setActive, setPipe] using sound
  · exact .here ⟨silent, fit, rfl, rfl, sound⟩

/-- The upper task has read the application's end, and the stream is finished. -/
structure Finishing (side : Side) (log : List UInt8) (session : Session UInt8) : Prop where
  up : (session.pipe side).up.pc = .done .empty
  fit : (session.task side .down).pc.Fit session.clock (session.lastActive side.other)
  quiet : session.stopPending side .down = false
  open_ : session.lost side.other = false
  ended : (session.pipe side).stream.ending = some .fin
  read : (session.pipe side).stream.pos = (session.pipe side).stream.accepted.length
  owes : (session.pipe side).down.pc.pending = []
  out : (session.pipe side).out = log

theorem step_ends_up (waits : (session.pipe side).up.pc.Waits)
    (quiet : session.stopPending side .up = false) (sound : (session.pipe side).sockError = false)
    (eof : (session.pipe side).eof = true)
    (all : (session.pipe side).got = (session.pipe side).log.length) :
    (machine Bi.tcp).step session (.task side .up (.read 0)) =
      some (session.setPipe side ((session.pipe side).setUp (session.lost side)
        { (session.pipe side).up with pc := .done .empty })) := by
  rw [step_up (Pipe.upStep_ends (session.env side) waits quiet sound eof all)]
  exact congrArg some (setActive_self _ side)

theorem step_ends_down (waits : (session.pipe side).down.pc.Waits)
    (quiet : session.stopPending side .down = false)
    (ended : (session.pipe side).stream.ending = some .fin)
    (told : (session.pipe side).stream.endArrived = true)
    (all : (session.pipe side).stream.pos = (session.pipe side).stream.accepted.length) :
    (machine Bi.tcp).step session (.task side .down (.read 0)) =
      some (session.setPipe side ((session.pipe side).setDown
        { (session.pipe side).down with pc := .done .closed })) := by
  rw [step_down (Pipe.downStep_ends (session.env side.other) waits quiet ended told all)]
  exact congrArg some (setActive_self _ side.other)

/-- Behind the last byte the upper task meets the end, and finishes the stream. -/
theorem can_finish (flows : session.Flows side) (drained : (session.pipe side).Drained)
    (eof : (session.pipe side).eof = true) (ending : (session.pipe side).stream.ending = none)
    (listened : (session.pipe side).stream.stopped = false) :
    (machine Bi.tcp).CanReach (Own side) (Finishing side (session.pipe side).out) session := by
  refine ((comes_to_read .up (flows.fit .up) drained.up).widen own_of_taskOf).andThen ?_
  rintro _ ⟨deadline, rfl⟩
  have here : (session.setPipe side ((session.pipe side).withPc .up (.select deadline true))).pipe side =
      (session.pipe side).withPc .up (.select deadline true) := Function.update_self _ _ _
  have taken := @step_ends_up (session.setPipe side
    ((session.pipe side).withPc .up (.select deadline true))) side
  simp only [here, stopPending, task] at taken
  refine .step (taken ⟨deadline, rfl⟩ (flows.quiet .up) flows.sound eof drained.got) rfl (.here ?_)
  have after : ∀ (at_ : Session UInt8) (pipe : Pipe UInt8), (at_.setPipe side pipe).pipe side = pipe :=
    fun at_ pipe => Function.update_self _ _ _
  have lost : session.lost side = false := flows.open_ side
  have fin : ((session.pipe side).stream.dropSend (session.lost side)).ending = some .fin := by
    simp [Stream.dropSend_ending, lost, ending, listened]
  refine ⟨?_, ?_, ?_, flows.open_ side.other, ?_, ?_, ?_, ?_⟩
  · rw [after]
    rfl
  · have fit : (session.pipe side).down.pc.Fit session.clock (session.lastActive side.other) :=
      flows.fit .down
    simpa [task, setPipe, Pipe.setUp, Pipe.withPc] using fit
  · have quiet := flows.quiet .down
    simpa [stopPending, task, setPipe, Pipe.setUp, Pipe.withPc] using quiet
  · rw [after]
    exact fin
  · rw [after]
    change ((session.pipe side).stream.dropSend (session.lost side)).pos = _
    rw [Stream.dropSend_pos, drained.pos, drained.arrived]
    exact congrArg List.length (Stream.dropSend_accepted _ _).symm
  · rw [after]
    exact drained.down
  · rw [after]
    rfl

/-- The end of the stream arrives behind everything, and the lower task ends with it. -/
theorem can_close {log : List UInt8} (finishing : Finishing side log session) :
    (machine Bi.tcp).CanReach (Own side) (fun next =>
      (next.pipe side).up.pc = .done .empty ∧ (next.pipe side).down.pc = .done .closed ∧
        (next.pipe side).out = log) session := by
  have told : (machine Bi.tcp).step session (.deliverEnd side) =
      some (session.setPipe side (session.pipe side).deliverEnd) := by
    simp only [machine, step, finishing.open_]
    rfl
  refine .step told rfl ?_
  have here : (session.setPipe side (session.pipe side).deliverEnd).pipe side =
      (session.pipe side).deliverEnd := Function.update_self _ _ _
  have coming := @comes_to_read (session.setPipe side (session.pipe side).deliverEnd) side .down
  simp only [here, task] at coming
  refine ((coming finishing.fit finishing.owes).widen own_of_taskOf).andThen ?_
  rintro _ ⟨deadline, rfl⟩
  have there : ∀ (at_ : Session UInt8) (pipe : Pipe UInt8), (at_.setPipe side pipe).pipe side = pipe :=
    fun at_ pipe => Function.update_self _ _ _
  have taken := @step_ends_down ((session.setPipe side (session.pipe side).deliverEnd).setPipe side
    ((session.pipe side).deliverEnd.withPc .down (.select deadline true))) side
  simp only [there, stopPending, task] at taken
  have arrived : (session.pipe side).deliverEnd.stream.endArrived = true := by
    simp [Pipe.deliverEnd, Stream.deliverEnd, finishing.ended]
  refine .step (taken ⟨deadline, rfl⟩ finishing.quiet finishing.ended arrived finishing.read) rfl
    (.here ?_)
  rw [there]
  exact ⟨finishing.up, rfl, finishing.out⟩

/-- As long as both tasks of a direction come round to their reads, the direction
can bring out everything its application has sent, by steps of its own and with no
time going by; and where the application has ended its side, both tasks can come to
their clean end behind it.  The socket at the far end takes what is written to it. -/
theorem tcp_drains (reached : (machine Bi.tcp).Reachable session) (flows : session.Flows side) :
    (machine Bi.tcp).CanReach (Own side)
        (fun next => (next.pipe side).out = (session.pipe side).log) session ∧
      ((session.pipe side).eof = true →
        (machine Bi.tcp).CanReach (Own side) (fun next =>
          (next.pipe side).up.pc = .done .empty ∧ (next.pipe side).down.pc = .done .closed ∧
            (next.pipe side).out = (session.pipe side).log) session) := by
  have inv := (inductive_inv Bi.tcp).of_reachable reached
  refine ⟨(can_drain inv flows).mono fun next ⟨draining, drained⟩ => draining.out_eq drained, ?_⟩
  intro eof
  have listening := (inductive_reads Bi.tcp).of_reachable reached
  refine ((can_drain inv flows).keeping (inductive_reads Bi.tcp) listening).andThen ?_
  rintro next ⟨reads, draining, drained⟩
  have ending := (draining.inv side).up.open_of_running (draining.flows.fit .up).running
  have listened := reads side (draining.flows.fit .down).running
  rw [← draining.out_eq drained]
  exact (can_finish draining.flows drained (draining.eof.trans eof) ending listened).andThen
    fun _ finishing => can_close finishing

/-- One byte is sent and the application ends its side; nothing has moved yet. -/
def oneByteEnded : List (Event UInt8) := [.send .client 7, .close .client]

theorem tcp_drains_oneByteEnded :
    ∃ session, (machine Bi.tcp).run oneByteEnded fresh = some session ∧
      (machine Bi.tcp).CanReach (Own .client) (fun next =>
        (next.pipe .client).up.pc = .done .empty ∧ (next.pipe .client).down.pc = .done .closed ∧
          (next.pipe .client).out = [7]) session := by
  refine ⟨_, rfl, ?_⟩
  refine (tcp_drains ⟨fresh, oneByteEnded, fresh_starts, rfl⟩ ⟨?_, ?_, ?_, rfl⟩).2 rfl
  · intro role
    cases role <;> exact trivial
  · intro role
    cases role <;> rfl
  · intro at_
    rfl

end Whole

end Session

end Net
end Lantun
