import Lantun.Machine.Progress
import Lantun.Client.UdpTunnel
import Lantun.Net.Ending

namespace Lantun
namespace Client

open Async Net

/-!
# Who takes the datagram in front of the queue

A datagram in front of the shared queue is removed by a reader of its source.
If there is none, the listener has to start one, and it can do that only from its
selection: while it waits for a session, nobody looks at the queue but the reader
of that session.  A reader that finds the datagram of somebody else goes around,
and finds it again.  As its selection is biased towards the socket, the idle timer
behind it is never polled, so the reader does not end either, and the listener
waits on.

`Attended` names what saves the datagram in front.  `heads_consumable` shows
that it suffices, by giving the steps: a reader that is on its way out leaves, the
other forwarder of its session empties its stream and times out, the listener
returns to its selection and starts a session for the source.  A forwarder that
panics gives the listener back at once.  `Blocked` is the trap around the rest.
-/

namespace UdpTunnel

/-- The tunnel can, by steps of its own, get the datagram in front of the queue
consumed. -/
def HeadConsumable (tunnel : UdpTunnel) : Prop :=
  ∀ (datagram : Datagram) (rest : List Datagram), tunnel.socket.queue = datagram :: rest →
    machine.CanReach UdpEvent.own (fun later => later.socket.queue = rest) tunnel

end UdpTunnel

/-! ## The two forwarders of a session -/

/-- The reader will come to its `peek_from` again. -/
def Reader.Looks (lost : Bool) (reader : Reader) : Prop :=
  match reader.task.pc with
  | .top | .loaded _ | .select _ true => True
  | .write _ => lost = false
  | .recheck now => now - reader.lastActive < connectionTimeoutSeconds
  | _ => False

/-- The reader has ended, or its idle timer is what it will hear of next. -/
def Reader.Leaves (reader : Reader) : Prop :=
  match reader.task.pc with
  | .done _ | .select _ false | .woken => True
  | .recheck now => connectionTimeoutSeconds ≤ now - reader.lastActive
  | _ => False

namespace UdpSession

/-- A forwarder of the session has panicked, or is at a write that can fail. -/
def Breaks (session : UdpSession) : Prop :=
  session.pipe.down.pc = .done .panicked ∨ (∃ bytes, session.pipe.down.pc = .write bytes) ∨
    ∃ bytes, session.reader.task.pc = .write bytes ∧ session.reader.stopped = true

def task (session : UdpSession) : Role → Task
  | .up => session.reader.task
  | .down => session.pipe.down

def setTask (session : UdpSession) (task : Task) : Role → UdpSession
  | .up => { session with reader := { session.reader with task } }
  | .down => { session with pipe := session.pipe.setDown task }

@[simp] theorem task_setTask (session : UdpSession) (task : Task) (role : Role) :
    (session.setTask task role).task role = task := by
  cases role <;> rfl

@[simp] theorem lastActive_setTask (session : UdpSession) (task : Task) (role : Role) :
    (session.setTask task role).reader.lastActive = session.reader.lastActive := by
  cases role <;> rfl

/-- Moving one task leaves the other. -/
theorem task_setTask_of_ne (session : UdpSession) (task : Task) {role other : Role}
    (different : other ≠ role) : (session.setTask task role).task other = session.task other := by
  cases role <;> cases other <;> first | rfl | exact absurd rfl different

end UdpSession

namespace UdpTunnel

/-- The event in which a forwarder takes a step without data. -/
def controlEvent (id : Nat) (step : Control) : Role → UdpEvent
  | .up => .reader id (.control step)
  | .down => .sender id (.control step)

/-- The branch behind the stop channel is ready. -/
def sourceReady (tunnel : UdpTunnel) (session : UdpSession) : Role → Bool
  | .up => tunnel.socket.ready
  | .down => session.pipe.downReady tunnel.connected.closed

theorem own_controlEvent (id : Nat) (step : Control) (role : Role) :
    (controlEvent id step role).own := by
  cases role <;> trivial

variable {tunnel : UdpTunnel} {id : Nat} {session : UdpSession} {role : Role}

theorem step_control (at_ : tunnel.sessions[id]? = some session) {step : Control} {task : Task}
    (moved : (session.task role).control (session.reader.env tunnel.process)
      (tunnel.sourceReady session role) step = some task) :
    machine.step tunnel (controlEvent id step role) =
      some (tunnel.setSession id (session.setTask task role)) := by
  cases role with
  | up =>
      have taken : session.reader.step tunnel.process id tunnel.socket (.control step) =
          some (tunnel.socket, { session.reader with task }) := congrArg (Option.map _) moved
      simp only [controlEvent, machine, UdpTunnel.step, at_, Option.bind_some, taken,
        Option.map_some]
      rfl
  | down =>
      have taken : session.pipe.downStep Sock.udp (session.reader.env tunnel.process)
          (.control step) = some (session.pipe.setDown task, session.reader.lastActive) :=
        congrArg (Option.map _) moved
      simp only [controlEvent, machine, UdpTunnel.step, at_, Option.bind_some, taken,
        Option.map_some]
      rfl

/-- Between two states only time and sessions have changed, and no session was
started. -/
structure Aside (before after : UdpTunnel) : Prop where
  connected : after.connected = before.connected
  socket : after.socket = before.socket
  length : after.sessions.length = before.sessions.length

theorem Aside.refl (tunnel : UdpTunnel) : Aside tunnel tunnel := ⟨rfl, rfl, rfl⟩

theorem Aside.trans {first second third : UdpTunnel} (one : Aside first second)
    (two : Aside second third) : Aside first third :=
  ⟨two.connected.trans one.connected, two.socket.trans one.socket, two.length.trans one.length⟩

theorem aside_setSession (tunnel : UdpTunnel) (id : Nat) (session : UdpSession) :
    Aside tunnel (tunnel.setSession id session) :=
  ⟨rfl, rfl, List.length_set ..⟩

/-- Time has passed. -/
def later (tunnel : UdpTunnel) (nanos : Nat) : UdpTunnel :=
  { tunnel with clock := tunnel.clock + nanos }

theorem step_tick (tunnel : UdpTunnel) (nanos : Nat) :
    machine.step tunnel (.tick nanos) = some (tunnel.later nanos) := rfl

theorem aside_later (tunnel : UdpTunnel) (nanos : Nat) : Aside tunnel (tunnel.later nanos) :=
  ⟨rfl, rfl, rfl⟩

theorem getElem_setSession (at_ : tunnel.sessions[id]? = some session) (after : UdpSession) :
    (tunnel.setSession id after).sessions[id]? = some after :=
  List.getElem?_set_self (List.getElem?_eq_some_iff.mp at_).1

theorem setSession_setSession (tunnel : UdpTunnel) (id : Nat) (first second : UdpSession) :
    (tunnel.setSession id first).setSession id second = tunnel.setSession id second := by
  simp only [setSession, List.set_set]

/-- Some own steps lead to a state that differs in time and sessions only, where
one forwarder of the session has ended and the other is where it was. -/
def CanEnd (tunnel : UdpTunnel) (id : Nat) (session : UdpSession) (role : Role) : Prop :=
  machine.CanReach UdpEvent.own (fun later => Aside tunnel later ∧
    ∃ after : UdpSession, later.sessions[id]? = some after ∧
      after.reader.clientLocalAddr = session.reader.clientLocalAddr ∧
        (after.task role).pc.isDone = true ∧
          ∀ other, other ≠ role → after.task other = session.task other) tunnel

/-- Steps that move one forwarder may come first. -/
theorem CanEnd.after {first : UdpTunnel} {before : UdpSession}
    (ends : first.CanEnd id before role) (aside : Aside tunnel first)
    (addr : before.reader.clientLocalAddr = session.reader.clientLocalAddr)
    (others : ∀ other, other ≠ role → before.task other = session.task other) :
    machine.CanReach UdpEvent.own (fun later => Aside tunnel later ∧
      ∃ after : UdpSession, later.sessions[id]? = some after ∧
        after.reader.clientLocalAddr = session.reader.clientLocalAddr ∧
          (after.task role).pc.isDone = true ∧
            ∀ other, other ≠ role → after.task other = session.task other) first := by
  refine Machine.CanReach.mono ends ?_
  rintro later ⟨beside, after, at_, its, done, same⟩
  exact ⟨aside.trans beside, after, at_, its.trans addr, done,
    fun other different => (same other different).trans (others other different)⟩

theorem CanEnd.here (at_ : tunnel.sessions[id]? = some session)
    (done : (session.task role).pc.isDone = true) : tunnel.CanEnd id session role :=
  Machine.CanReach.here ⟨Aside.refl tunnel, session, at_, rfl, done, fun _ _ => rfl⟩

/-- A control step comes first. -/
theorem CanEnd.control (at_ : tunnel.sessions[id]? = some session) {step : Control} {task : Task}
    (moved : (session.task role).control (session.reader.env tunnel.process)
      (tunnel.sourceReady session role) step = some task)
    (ends : (tunnel.setSession id (session.setTask task role)).CanEnd id
      (session.setTask task role) role) : tunnel.CanEnd id session role := by
  refine Machine.CanReach.step (step_control at_ moved) (own_controlEvent id step role) ?_
  refine ends.after (aside_setSession tunnel id _) ?_ ?_
  · cases role <;> rfl
  · exact fun other different => session.task_setTask_of_ne task different

theorem CanEnd.tick (nanos : Nat) (ends : (tunnel.later nanos).CanEnd id session role) :
    tunnel.CanEnd id session role :=
  Machine.CanReach.step (step_tick tunnel nanos) trivial
    (ends.after (aside_later tunnel nanos) rfl (fun _ _ => rfl))

/-- A forwarder that finds itself idle for too long ends. -/
theorem canEnd_of_recheck (at_ : tunnel.sessions[id]? = some session) {now : Nat}
    (pc : (session.task role).pc = .recheck now)
    (idle : connectionTimeoutSeconds ≤ now - session.reader.lastActive) :
    tunnel.CanEnd id session role := by
  have moved : (session.task role).control (session.reader.env tunnel.process)
      (tunnel.sourceReady session role) .recheck =
        some { session.task role with pc := .done .timedOut } := by
    simp only [Task.control, pc, Reader.env, ge_iff_le, idle, if_true]
  refine CanEnd.control at_ moved (CanEnd.here (getElem_setSession at_ _) ?_)
  rw [UdpSession.task_setTask]
  rfl

theorem canEnd_of_woken_late (at_ : tunnel.sessions[id]? = some session)
    (pc : (session.task role).pc = .woken)
    (late : session.reader.lastActive + connectionTimeoutSeconds ≤ nowSecs tunnel.clock) :
    tunnel.CanEnd id session role := by
  have moved : (session.task role).control (session.reader.env tunnel.process)
      (tunnel.sourceReady session role) .wake =
        some { session.task role with pc := .recheck (nowSecs tunnel.clock) } := by
    simp only [Task.control, pc]
    rfl
  refine CanEnd.control at_ moved (canEnd_of_recheck (getElem_setSession at_ _)
    (congrArg Task.pc (UdpSession.task_setTask ..)) ?_)
  rw [UdpSession.lastActive_setTask]
  omega

/-- One whose timer has fired ends if it is not scheduled for a while. -/
theorem canEnd_of_woken (at_ : tunnel.sessions[id]? = some session)
    (pc : (session.task role).pc = .woken) : tunnel.CanEnd id session role := by
  -- long enough a wait makes every idle time long enough
  rcases exists_late tunnel.clock (session.reader.lastActive + connectionTimeoutSeconds) with
    ⟨nanos, late⟩
  exact CanEnd.tick nanos (canEnd_of_woken_late at_ pc late)

theorem canEnd_of_select_due (at_ : tunnel.sessions[id]? = some session) {deadline : Nat}
    {live : Bool} (pc : (session.task role).pc = .select deadline live)
    (quiet : tunnel.connected.stop.ready (session.task role).seen = false)
    (idle : (live && tunnel.sourceReady session role) = false)
    (due : deadline ≤ tunnel.clock) : tunnel.CanEnd id session role := by
  have chosen : (session.task role).selects (session.reader.env tunnel.process)
      (tunnel.sourceReady session role) = some .sleep := by
    simp only [Task.selects, pc, Reader.env, process, quiet, idle, biased, due, decide_true,
      Bool.false_eq_true, if_false, if_true]
  have moved : (session.task role).control (session.reader.env tunnel.process)
      (tunnel.sourceReady session role) .sleep =
        some { session.task role with pc := .woken } := by
    simp only [Task.control, chosen, if_true]
  exact CanEnd.control at_ moved (canEnd_of_woken (getElem_setSession at_ _)
    (congrArg Task.pc (UdpSession.task_setTask ..)))

/-- One that waits for a source with nothing to say is woken by its timer. -/
theorem canEnd_of_select (at_ : tunnel.sessions[id]? = some session) {deadline : Nat} {live : Bool}
    (pc : (session.task role).pc = .select deadline live)
    (quiet : tunnel.connected.stop.ready (session.task role).seen = false)
    (idle : (live && tunnel.sourceReady session role) = false) :
    tunnel.CanEnd id session role := by
  refine CanEnd.tick (deadline - tunnel.clock) (canEnd_of_select_due at_ pc quiet idle ?_)
  simp only [later]
  omega

/-! ## A channel nobody has touched -/

theorem ready_channel {seen : Nat} (behind : seen ≤ (Watch.channel false).version) :
    (Watch.channel false).ready seen = false := by
  have none_ : seen = 0 := Nat.le_zero.mp behind
  rw [none_]
  rfl

/-- No forwarder of a session hears of a channel that has not been touched. -/
theorem Inv.quiet (inv : tunnel.Inv) (stop : tunnel.connected.stop = Watch.channel false)
    (at_ : tunnel.sessions[id]? = some session) (role : Role) :
    tunnel.connected.stop.ready (session.task role).seen = false := by
  have was := inv.sessions id session at_
  rw [stop] at was ⊢
  cases role with
  | up => exact ready_channel was.readerSeen
  | down => exact ready_channel was.senderSeen

/-- A reader on its way out gets there. -/
theorem canEnd_of_leaves (inv : tunnel.Inv) (stop : tunnel.connected.stop = Watch.channel false)
    (at_ : tunnel.sessions[id]? = some session) (leaves : session.reader.Leaves) :
    tunnel.CanEnd id session .up := by
  unfold Reader.Leaves at leaves
  split at leaves
  · rename_i exit pc
    exact CanEnd.here at_ (congrArg Pc.isDone pc)
  · rename_i deadline pc
    exact canEnd_of_select at_ pc (inv.quiet stop at_ .up) rfl
  · rename_i pc
    exact canEnd_of_woken at_ pc
  · rename_i now pc
    exact canEnd_of_recheck at_ pc leaves
  · cases leaves

/-! ## The forwarder that reads the stream -/

theorem step_sender (at_ : tunnel.sessions[id]? = some session) {act : Act}
    {pipe : Pipe (List UInt8)} {last : Nat}
    (taken : session.pipe.downStep Sock.udp (session.reader.env tunnel.process) act =
      some (pipe, last)) :
    machine.step tunnel (.sender id act) =
      some (tunnel.setSession id ⟨{ session.reader with lastActive := last }, pipe⟩) := by
  simp only [machine, step, at_, Option.bind_some, taken, Option.map_some]

/-- A step of the sender comes first. -/
theorem CanEnd.sender (at_ : tunnel.sessions[id]? = some session) {act : Act}
    {pipe : Pipe (List UInt8)} {last : Nat}
    (taken : session.pipe.downStep Sock.udp (session.reader.env tunnel.process) act =
      some (pipe, last))
    (ends : (tunnel.setSession id ⟨{ session.reader with lastActive := last }, pipe⟩).CanEnd id
      ⟨{ session.reader with lastActive := last }, pipe⟩ .down) :
    tunnel.CanEnd id session .down := by
  refine Machine.CanReach.step (step_sender at_ taken) trivial
    (ends.after (aside_setSession tunnel id _) rfl ?_)
  intro other different
  cases other with
  | up => rfl
  | down => exact absurd rfl different

/-- A write of the sender goes through. -/
theorem sender_canEnd_of_write (at_ : tunnel.sessions[id]? = some session) {bytes : List UInt8}
    (pc : session.pipe.down.pc = .write bytes)
    (rest : ∀ pipe : Pipe (List UInt8), pipe.down = { session.pipe.down with pc := .top } →
      pipe.stream = session.pipe.stream →
        (tunnel.setSession id { session with pipe }).CanEnd id { session with pipe } .down) :
    tunnel.CanEnd id session .down := by
  have taken : session.pipe.downStep Sock.udp (session.reader.env tunnel.process) (.write 0) =
      some ({ session.pipe with out := session.pipe.out ++ [bytes] }.setDown
        { session.pipe.down with pc := .top }, session.reader.lastActive) := by
    simp only [Pipe.downStep, pc]
    rfl
  exact CanEnd.sender at_ taken (rest _ rfl rfl)

/-- In its selection the sender reads what there is, or leaves. -/
theorem sender_canEnd_of_select (at_ : tunnel.sessions[id]? = some session) {deadline : Nat}
    (pc : session.pipe.down.pc = .select deadline true)
    (quiet : tunnel.connected.stop.ready session.pipe.down.seen = false)
    (again : ∀ after : UdpSession, after.pipe.down.pc = .top →
      after.pipe.down.seen = session.pipe.down.seen →
        after.pipe.stream.arrived - after.pipe.stream.pos <
          session.pipe.stream.arrived - session.pipe.stream.pos →
            (tunnel.setSession id after).CanEnd id after .down) :
    tunnel.CanEnd id session .down := by
  have lost : (session.reader.env tunnel.process).lost = tunnel.connected.closed := rfl
  have chosen : session.pipe.stream.poll tunnel.connected.closed ≠ .pending →
      session.pipe.down.selects (session.reader.env tunnel.process)
        (session.pipe.downReady tunnel.connected.closed) = some .source := by
    intro ready
    simp only [Task.selects, pc, Reader.env, process, quiet, biased, Pipe.downReady, ready,
      Bool.true_and, ne_eq, not_false_eq_true, decide_true, Bool.false_eq_true, if_false, if_true]
  cases found : session.pipe.stream.poll tunnel.connected.closed with
  | pending =>
      refine canEnd_of_select at_ pc quiet ?_
      simp only [sourceReady, Pipe.downReady, found, ne_eq, not_true_eq_false, decide_false,
        Bool.and_false]
  | finished =>
      have taken : session.pipe.downStep Sock.udp (session.reader.env tunnel.process) (.read 0) =
          some (session.pipe.setDown { session.pipe.down with pc := .done .closed },
            session.reader.lastActive) := by
        simp only [Pipe.downStep, lost, chosen (by simp [found]), found, if_true]
        rfl
      exact CanEnd.sender at_ taken (CanEnd.here (getElem_setSession at_ _) rfl)
  | failed =>
      have taken : session.pipe.downStep Sock.udp (session.reader.env tunnel.process) .readErr =
          some (session.pipe.setDown { session.pipe.down with pc := .select deadline false },
            session.reader.lastActive) := by
        simp only [Pipe.downStep, pc, lost, chosen (by simp [found]), found, and_self, if_true]
        rfl
      exact CanEnd.sender at_ taken (canEnd_of_select (getElem_setSession at_ _) rfl quiet rfl)
  | data =>
      have some_ : session.pipe.stream.pos < session.pipe.stream.arrived := by
        unfold Stream.poll at found
        split at found
        · cases found
        · split at found
          · assumption
          · split at found
            · cases found
            · split at found <;> cases found
      have fits : 0 < 1 ∧ 1 ≤ tunnelForwarderBufferSize ∧
          1 ≤ session.pipe.stream.arrived - session.pipe.stream.pos :=
        ⟨Nat.one_pos, by decide, by omega⟩
      have taken : session.pipe.downStep Sock.udp (session.reader.env tunnel.process) (.read 1) =
          some ({ session.pipe with stream := session.pipe.stream.read 1 fits.2.2 }.setDown
            { session.pipe.down with pc := .write (session.pipe.stream.chunk 1) },
            nowSecs tunnel.clock) := by
        simp only [Pipe.downStep, lost, chosen (by simp [found]), found, if_true, dif_pos fits]
        rfl
      refine CanEnd.sender at_ taken
        (sender_canEnd_of_write (getElem_setSession at_ _) rfl fun pipe down stream => ?_)
      rw [setSession_setSession]
      refine again _ (by simp only [down]) (by simp only [down]; rfl) ?_
      rw [stream]
      simp only [Pipe.setDown, Pc.stopsReading, Bool.false_eq_true, if_false, Stream.read]
      omega

theorem sender_canEnd_of_loaded (at_ : tunnel.sessions[id]? = some session) {now : Nat}
    (pc : session.pipe.down.pc = .loaded now)
    (quiet : tunnel.connected.stop.ready session.pipe.down.seen = false)
    (again : ∀ after : UdpSession, after.pipe.down.pc = .top →
      after.pipe.down.seen = session.pipe.down.seen →
        after.pipe.stream.arrived - after.pipe.stream.pos <
          session.pipe.stream.arrived - session.pipe.stream.pos →
            (tunnel.setSession id after).CanEnd id after .down) :
    tunnel.CanEnd id session .down := by
  have moved : (session.task .down).control (session.reader.env tunnel.process)
      (tunnel.sourceReady session .down) .load = some { session.task .down with
        pc := .select (tunnel.clock + timeout now session.reader.lastActive * nanosPerSec) true } := by
    simp only [Task.control, UdpSession.task, pc]
    rfl
  refine CanEnd.control at_ moved (sender_canEnd_of_select (getElem_setSession at_ _) rfl quiet ?_)
  intro after pc' seen fewer
  rw [setSession_setSession]
  exact again after pc' seen fewer

/-- The sender ends from the head of a round: it empties its stream, and after
that it meets the end of the stream or its timer.  By induction on what is left
to read. -/
theorem sender_canEnd_of_top (left : Nat) (at_ : tunnel.sessions[id]? = some session)
    (pc : session.pipe.down.pc = .top)
    (quiet : tunnel.connected.stop.ready session.pipe.down.seen = false)
    (unread : session.pipe.stream.arrived - session.pipe.stream.pos = left) :
    tunnel.CanEnd id session .down := by
  induction left using Nat.strongRecOn generalizing tunnel session with
  | ind left ih =>
  have now : (session.task .down).control (session.reader.env tunnel.process)
      (tunnel.sourceReady session .down) .now =
        some { session.task .down with pc := .loaded (nowSecs tunnel.clock) } := by
    simp only [Task.control, UdpSession.task, pc]
    rfl
  refine CanEnd.control at_ now (sender_canEnd_of_loaded (getElem_setSession at_ _) rfl quiet ?_)
  intro after pc' seen fewer
  rw [setSession_setSession]
  refine ih _ ?_ (getElem_setSession at_ after) pc' (seen ▸ quiet) rfl
  rw [← unread]
  exact fewer

/-- The sender can end from anywhere. -/
theorem sender_canEnd (inv : tunnel.Inv) (stop : tunnel.connected.stop = Watch.channel false)
    (at_ : tunnel.sessions[id]? = some session) : tunnel.CanEnd id session .down := by
  have quiet := inv.quiet stop at_ .down
  simp only [UdpSession.task] at quiet
  have again : ∀ after : UdpSession, after.pipe.down.pc = .top →
      after.pipe.down.seen = session.pipe.down.seen →
        (tunnel.setSession id after).CanEnd id after .down := by
    intro after pc seen
    exact sender_canEnd_of_top _ (getElem_setSession at_ after) pc (seen ▸ quiet) rfl
  cases pc : session.pipe.down.pc with
  | top => exact sender_canEnd_of_top _ at_ pc quiet rfl
  | loaded now => exact sender_canEnd_of_loaded at_ pc quiet fun after pc seen _ => again after pc seen
  | select deadline live =>
      cases live with
      | true =>
          exact sender_canEnd_of_select at_ pc quiet fun after pc seen _ => again after pc seen
      | false => exact canEnd_of_select at_ pc quiet rfl
  | recv n => exact absurd pc ((inv.sessions id session at_).senderPeeks n)
  | write bytes =>
      refine sender_canEnd_of_write at_ pc fun pipe down _ => ?_
      exact again _ (by simp only [down]) (by simp only [down])
  | woken => exact canEnd_of_woken at_ pc
  | recheck now =>
      by_cases idle : connectionTimeoutSeconds ≤ now - session.reader.lastActive
      · exact canEnd_of_recheck at_ pc idle
      · have moved : (session.task .down).control (session.reader.env tunnel.process)
            (tunnel.sourceReady session .down) .recheck =
              some { session.task .down with pc := .top } := by
          simp only [Task.control, UdpSession.task, pc, Reader.env, ge_iff_le, idle, if_false]
        exact CanEnd.control at_ moved (again _ rfl rfl)
  | done exit => exact CanEnd.here at_ (congrArg Pc.isDone pc)

/-! ## A reader that looks -/

section Looking

variable {datagram : Datagram} {rest : List Datagram}

/-- The datagram in front can be consumed by steps of the tunnel. -/
def Consumes (rest : List Datagram) (tunnel : UdpTunnel) : Prop :=
  machine.CanReach UdpEvent.own (fun later => later.socket.queue = rest) tunnel

theorem step_reader (at_ : tunnel.sessions[id]? = some session) {act : Act}
    {socket : SharedSocket} {reader : Reader}
    (taken : session.reader.step tunnel.process id tunnel.socket act = some (socket, reader)) :
    machine.step tunnel (.reader id act) =
      some ((tunnel.setSocket socket).setSession id { session with reader }) := by
  simp only [machine, step, at_, Option.bind_some, taken, Option.map_some]

theorem consumes_of_recv (at_ : tunnel.sessions[id]? = some session) {n : Nat}
    (pc : session.reader.task.pc = .recv n) (error : tunnel.socket.error = false)
    (front : tunnel.socket.queue = datagram :: rest) : tunnel.Consumes rest := by
  have taken : session.reader.step tunnel.process id tunnel.socket .recv =
      some (tunnel.socket.receive id datagram rest,
        session.reader.afterRecv tunnel.process n datagram) := by
    simp only [Reader.step, pc, front, error, Bool.false_eq_true, if_false]
  exact Machine.CanReach.step (step_reader at_ taken) trivial (Machine.CanReach.here rfl)

/-- The datagram is peeked and received. -/
theorem consumes_of_select (at_ : tunnel.sessions[id]? = some session) {deadline : Nat}
    (pc : session.reader.task.pc = .select deadline true)
    (quiet : tunnel.connected.stop.ready session.reader.task.seen = false)
    (error : tunnel.socket.error = false) (front : tunnel.socket.queue = datagram :: rest)
    (mine : datagram.source = session.reader.clientLocalAddr) : tunnel.Consumes rest := by
  have ready : tunnel.socket.ready = true := by
    simp only [SharedSocket.ready, front, List.isEmpty_cons, Bool.not_false, Bool.or_true]
  have chosen : session.reader.task.selects (session.reader.env tunnel.process)
      tunnel.socket.ready = some .source := by
    simp only [Task.selects, pc, Reader.env, process, quiet, biased, ready, Bool.and_self,
      Bool.false_eq_true, if_false, if_true]
  have taken : session.reader.step tunnel.process id tunnel.socket (.read 0) =
      some (tunnel.socket, session.reader.peek tunnel.socket datagram) := by
    simp only [Reader.step, chosen, error, and_self, if_true, front, mine, ne_eq,
      not_true_eq_false, if_false]
  refine Machine.CanReach.step (step_reader at_ taken) trivial ?_
  exact consumes_of_recv (getElem_setSession at_ _) rfl error front

/-- A control step of a reader comes first. -/
theorem Consumes.control (at_ : tunnel.sessions[id]? = some session) {step : Control} {task : Task}
    (moved : session.reader.task.control (session.reader.env tunnel.process) tunnel.socket.ready
      step = some task)
    (consumes : (tunnel.setSession id (session.setTask task .up)).Consumes rest) :
    tunnel.Consumes rest := by
  have taken : machine.step tunnel (controlEvent id step .up) =
      some (tunnel.setSession id (session.setTask task .up)) := step_control at_ moved
  exact Machine.CanReach.step taken trivial consumes

theorem consumes_of_loaded (at_ : tunnel.sessions[id]? = some session) {now : Nat}
    (pc : session.reader.task.pc = .loaded now)
    (quiet : tunnel.connected.stop.ready session.reader.task.seen = false)
    (error : tunnel.socket.error = false) (front : tunnel.socket.queue = datagram :: rest)
    (mine : datagram.source = session.reader.clientLocalAddr) : tunnel.Consumes rest := by
  have load : session.reader.task.control (session.reader.env tunnel.process) tunnel.socket.ready
      .load = some { session.reader.task with
        pc := .select (tunnel.clock + timeout now session.reader.lastActive * nanosPerSec) true } := by
    simp only [Task.control, pc]
    rfl
  refine Consumes.control at_ load ?_
  exact consumes_of_select (getElem_setSession at_ _) rfl quiet error front mine

theorem consumes_of_top (at_ : tunnel.sessions[id]? = some session)
    (pc : session.reader.task.pc = .top)
    (quiet : tunnel.connected.stop.ready session.reader.task.seen = false)
    (error : tunnel.socket.error = false) (front : tunnel.socket.queue = datagram :: rest)
    (mine : datagram.source = session.reader.clientLocalAddr) : tunnel.Consumes rest := by
  have now : session.reader.task.control (session.reader.env tunnel.process) tunnel.socket.ready
      .now = some { session.reader.task with pc := .loaded (nowSecs tunnel.clock) } := by
    simp only [Task.control, pc]
    rfl
  refine Consumes.control at_ now ?_
  exact consumes_of_loaded (getElem_setSession at_ _) rfl quiet error front mine

/-- A reader that looks for the source of the datagram in front gets there. -/
theorem consumes_of_looks (inv : tunnel.Inv) (stop : tunnel.connected.stop = Watch.channel false)
    (at_ : tunnel.sessions[id]? = some session)
    (looks : session.reader.Looks tunnel.connected.closed)
    (error : tunnel.socket.error = false) (front : tunnel.socket.queue = datagram :: rest)
    (mine : datagram.source = session.reader.clientLocalAddr) : tunnel.Consumes rest := by
  have quiet := inv.quiet stop at_ .up
  simp only [UdpSession.task] at quiet
  unfold Reader.Looks at looks
  split at looks
  · rename_i pc
    exact consumes_of_top at_ pc quiet error front mine
  · rename_i now pc
    exact consumes_of_loaded at_ pc quiet error front mine
  · rename_i deadline pc
    exact consumes_of_select at_ pc quiet error front mine
  · rename_i bytes pc
    have taken : session.reader.step tunnel.process id tunnel.socket (.write bytes.length) =
        some (tunnel.socket, { session.reader.goto .top with
          written := session.reader.written ++ bytes }) := by
      have owes := (inv.sessions id session at_).readerOwes bytes pc
      have fits : 0 < bytes.length ∧ bytes.length ≤ bytes.length ∧ tunnel.process.lost = false :=
        ⟨List.length_pos_iff.mpr owes, Nat.le_refl _, looks⟩
      simp only [Reader.step, pc, if_pos fits, List.drop_length, List.take_length]
      rfl
    refine Machine.CanReach.step (step_reader at_ taken) trivial ?_
    exact consumes_of_top (getElem_setSession at_ _) rfl quiet error front mine
  · rename_i now pc
    have moved : session.reader.task.control (session.reader.env tunnel.process)
        tunnel.socket.ready .recheck = some { session.reader.task with pc := .top } := by
      simp only [Task.control, pc, Reader.env, ge_iff_le, Nat.not_le.mpr looks, if_false]
    refine Consumes.control at_ moved ?_
    exact consumes_of_top (getElem_setSession at_ _) rfl quiet error front mine
  · cases looks

end Looking

/-! ## The listener on its way to a session -/

/-- A datagram is in front, nobody has touched the stop channel, the connection
is open and the socket has no error to report. -/
structure Waits (datagram : Datagram) (rest : List Datagram) (tunnel : UdpTunnel) : Prop where
  inv : tunnel.Inv
  stop : tunnel.connected.stop = Watch.channel false
  open_ : tunnel.connected.closed = false
  error : tunnel.socket.error = false
  front : tunnel.socket.queue = datagram :: rest

section Listening

variable {next : UdpTunnel} {datagram : Datagram} {rest : List Datagram}

/-- A step of the listener leaves a socket that has no error to report. -/
theorem listenerStep_frame {act : ListenerAct} (error : tunnel.socket.error = false)
    (taken : tunnel.listenerStep act = some next) :
    ∃ connected, tunnel.connected.step .udp act = some connected ∧ next.connected = connected ∧
      next.socket = tunnel.socket := by
  cases act with
  | incoming addr =>
      simp only [listenerStep] at taken
      split at taken
      · rcases Option.map_eq_some_iff.mp taken with ⟨connected, moved, same⟩
        cases same
        exact ⟨connected, moved, rfl, rfl⟩
      · cases taken
  | sent =>
      simp only [listenerStep] at taken
      split at taken
      · rcases Option.map_eq_some_iff.mp taken with ⟨connected, moved, same⟩
        cases same
        exact ⟨connected, moved, rfl, rfl⟩
      · cases taken
  | forwarderEnds role status =>
      simp only [listenerStep] at taken
      split at taken
      · rcases Option.map_eq_some_iff.mp taken with ⟨connected, moved, same⟩
        cases same
        exact ⟨connected, moved, rfl, rfl⟩
      · cases taken
  | incomingFails =>
      simp only [listenerStep, error, Bool.false_eq_true, if_false] at taken
      cases taken
  | bound | bindFails | stop | opened | openFails | sendFails | join | detachedEnds =>
      rcases Option.map_eq_some_iff.mp taken with ⟨connected, moved, same⟩
      cases same
      exact ⟨connected, moved, rfl, rfl⟩

theorem Waits.listener (waits : Waits datagram rest tunnel) {act : ListenerAct}
    (taken : tunnel.listenerStep act = some next) : Waits datagram rest next := by
  rcases listenerStep_frame waits.error taken with ⟨connected, moved, is, socket⟩
  rcases Connected.step_frame moved with ⟨stop, closed⟩
  refine ⟨inductive_inv.step tunnel (.listener act) next waits.inv taken, ?_, ?_, ?_, ?_⟩
  · rw [is, stop]
    exact waits.stop
  · rw [is, closed]
    exact waits.open_
  · rw [socket]
    exact waits.error
  · rw [socket]
    exact waits.front

theorem Waits.aside (waits : Waits datagram rest tunnel) (inv : next.Inv)
    (aside : Aside tunnel next) : Waits datagram rest next := by
  refine ⟨inv, ?_, ?_, ?_, ?_⟩
  · rw [aside.connected]
    exact waits.stop
  · rw [aside.connected]
    exact waits.open_
  · rw [aside.socket]
    exact waits.error
  · rw [aside.socket]
    exact waits.front

theorem Consumes.listener {act : ListenerAct} (taken : tunnel.listenerStep act = some next)
    (consumes : next.Consumes rest) : tunnel.Consumes rest := by
  have moved : machine.step tunnel (.listener act) = some next := taken
  exact Machine.CanReach.step moved trivial consumes

theorem Waits.quiet (waits : Waits datagram rest tunnel) :
    tunnel.connected.stop.ready tunnel.connected.seen = false := by
  have behind := waits.inv.seen
  rw [waits.stop] at behind ⊢
  exact ready_channel behind

theorem consumes_of_sending (waits : Waits datagram rest tunnel)
    (at_ : tunnel.connected.listener = .sending datagram.source) : tunnel.Consumes rest := by
  have taken : tunnel.listenerStep .sent = some { tunnel.setConnected { tunnel.connected with
      localConnections := tunnel.connected.localConnections.insert datagram.source
        (Connected.localConnection datagram.source)
      listener := .session datagram.source Forwarders.spawned } with
      sessions := tunnel.sessions ++ [tunnel.spawn datagram.source] } := by
    simp only [listenerStep, at_, Connected.step, waits.open_, Bool.false_eq_true, if_false,
      Option.map_some]
  have there : (tunnel.sessions ++ [tunnel.spawn datagram.source])[tunnel.sessions.length]? =
      some (tunnel.spawn datagram.source) := by simp
  exact Consumes.listener taken
    (consumes_of_top there rfl waits.quiet waits.error waits.front rfl)

theorem consumes_of_opening (waits : Waits datagram rest tunnel)
    (at_ : tunnel.connected.listener = .opening datagram.source) : tunnel.Consumes rest := by
  have taken : tunnel.listenerStep .opened = some (tunnel.setConnected { tunnel.connected with
      listener := .sending datagram.source }) := by
    simp only [listenerStep, at_, Connected.step, waits.open_, Bool.false_eq_true, if_false,
      Option.map_some]
  exact Consumes.listener taken (consumes_of_sending (waits.listener taken) rfl)

/-- In its selection the listener finds a source it has no session with. -/
theorem consumes_of_listening (waits : Waits datagram rest tunnel)
    (at_ : tunnel.connected.listener = .select) : tunnel.Consumes rest := by
  have unknown : datagram.source ∉ tunnel.connected.localConnections := by
    intro member
    rcases waits.inv.registered _ member with ⟨forwarders, in_⟩
    rw [at_] at in_
    cases in_
  have taken : tunnel.listenerStep (.incoming datagram.source) =
      some (tunnel.setConnected { tunnel.connected with listener := .opening datagram.source }) := by
    simp only [listenerStep, waits.error, waits.front, List.head?_cons, Option.map_some,
      and_self, if_true, Connected.step, at_, waits.quiet, Bool.false_eq_true, if_false,
      Connected.afterIncoming, unknown]
  exact Consumes.listener taken (consumes_of_opening (waits.listener taken) rfl)

/-- Once both forwarders of its session have ended, the listener hears of it and
returns to its selection.  By induction on what it has not heard of. -/
theorem consumes_of_ended (unheard : Nat) (waits : Waits datagram rest tunnel)
    {addr : SocketAddr} {forwarders : Forwarders}
    (in_ : tunnel.connected.listener = .session addr forwarders)
    (at_ : tunnel.sessions[tunnel.current]? = some session)
    (ended : ∀ role, session.status role ≠ .running) (left : forwarders.left = unheard) :
    tunnel.Consumes rest := by
  induction unheard using Nat.strongRecOn generalizing tunnel forwarders with
  | ind unheard ih =>
  by_cases heard : ∀ role, forwarders.status role ≠ .running
  · have taken : tunnel.listenerStep .join = some (tunnel.setConnected { tunnel.connected with
        localConnections := tunnel.connected.localConnections.erase addr
        detached := tunnel.connected.detached + forwarders.left
        listener := .select }) := by
      simp only [listenerStep, in_, Connected.step, Forwarders.joined_of_ended heard, if_true, Option.map_some]
    exact Consumes.listener taken (consumes_of_listening (waits.listener taken) rfl)
  · rcases not_forall_not.mp heard with ⟨role, running⟩
    have taken : tunnel.listenerStep (.forwarderEnds role (session.status role)) =
        some (tunnel.setConnected { tunnel.connected with
          listener := .session addr (forwarders.setStatus role (session.status role)) }) := by
      simp only [listenerStep, at_, Option.map_some, if_true, Connected.step, in_, running,
        ended role, ne_eq, not_false_eq_true, and_self]
    refine Consumes.listener taken (ih _ ?_ (waits.listener taken) rfl at_ rfl)
    rw [← left]
    exact Forwarders.left_setStatus_lt running (ended role)

/-- A session whose reader is on its way out gives the listener back. -/
theorem consumes_of_leaves (waits : Waits datagram rest tunnel) {addr : SocketAddr}
    {forwarders : Forwarders} (in_ : tunnel.connected.listener = .session addr forwarders)
    (at_ : tunnel.sessions[tunnel.current]? = some session) (leaves : session.reader.Leaves) :
    tunnel.Consumes rest := by
  refine Machine.CanReach.andThen ((canEnd_of_leaves waits.inv waits.stop at_ leaves).keeping
    inductive_inv waits.inv) ?_
  rintro first ⟨inv, aside, after, at', _, done, _⟩
  have waits' := waits.aside inv aside
  refine Machine.CanReach.andThen ((sender_canEnd inv waits'.stop at').keeping inductive_inv inv) ?_
  rintro second ⟨inv', aside', last, at'', _, done', kept⟩
  have both := aside.trans aside'
  have same : second.current = tunnel.current := by
    unfold current
    rw [both.length]
  refine consumes_of_ended _ (waits.aside inv' both) (by rw [both.connected]; exact in_)
    (by rw [same]; exact at'') ?_ rfl
  intro role
  cases role with
  | up =>
      have upper : last.reader.task = after.reader.task := kept .up (by simp)
      exact Pc.status_ne_running_of_done (by rw [upper]; exact done)
  | down => exact Pc.status_ne_running_of_done done'

/-- One panic is enough for the listener to return to its selection. -/
theorem consumes_of_panicked (waits : Waits datagram rest tunnel) {addr : SocketAddr}
    {forwarders : Forwarders} (in_ : tunnel.connected.listener = .session addr forwarders)
    (at_ : tunnel.sessions[tunnel.current]? = some session)
    (panicked : session.status role = .panicked) : tunnel.Consumes rest := by
  have heard : ∀ {tunnel : UdpTunnel} {forwarders : Forwarders}, Waits datagram rest tunnel →
      tunnel.connected.listener = .session addr forwarders →
        forwarders.status role = .panicked → tunnel.Consumes rest := by
    intro tunnel forwarders waits in_ knows
    have joined : forwarders.joined = true := by
      cases role <;> simp only [Forwarders.status] at knows <;> simp [Forwarders.joined, knows]
    have taken : tunnel.listenerStep .join = some (tunnel.setConnected { tunnel.connected with
        localConnections := tunnel.connected.localConnections.erase addr
        detached := tunnel.connected.detached + forwarders.left
        listener := .select }) := by
      simp only [listenerStep, in_, Connected.step, joined, if_true, Option.map_some]
    exact Consumes.listener taken (consumes_of_listening (waits.listener taken) rfl)
  by_cases running : forwarders.status role = .running
  · have taken : tunnel.listenerStep (.forwarderEnds role .panicked) =
        some (tunnel.setConnected { tunnel.connected with
          listener := .session addr (forwarders.setStatus role .panicked) }) := by
      simp [listenerStep, at_, panicked, Connected.step, in_, running]
    refine Consumes.listener taken (heard (waits.listener taken) rfl ?_)
    cases role <;> rfl
  · rcases waits.inv.knows addr forwarders in_ with ⟨session', at', _, told⟩
    cases at_.symm.trans at'
    exact heard waits in_ (((told role).resolve_left running).trans panicked)

/-- A session of which a forwarder panics gives the listener back. -/
theorem consumes_of_breaks (waits : Waits datagram rest tunnel) {addr : SocketAddr}
    {forwarders : Forwarders} (in_ : tunnel.connected.listener = .session addr forwarders)
    (at_ : tunnel.sessions[tunnel.current]? = some session) (breaks : session.Breaks) :
    tunnel.Consumes rest := by
  have after : ∀ {event : UdpEvent} {session' : UdpSession}, event.own →
      machine.step tunnel event = some (tunnel.setSession tunnel.current session') →
        (∃ role, session'.status role = .panicked) → tunnel.Consumes rest := by
    intro event session' own taken ⟨role, panicked⟩
    have beside := aside_setSession tunnel tunnel.current session'
    have same : (tunnel.setSession tunnel.current session').current = tunnel.current := by
      simp only [current, setSession, List.length_set]
    refine Machine.CanReach.step taken own ?_
    exact consumes_of_panicked (waits.aside (inductive_inv.step _ _ _ waits.inv taken) beside) in_
      (by rw [same]; exact getElem_setSession at_ session') panicked
  rcases breaks with panicked | ⟨bytes, owes⟩ | ⟨bytes, owes, stopped⟩
  · have status : session.status .down = .panicked := by
      simp only [UdpSession.status, panicked, Pc.status]
    exact consumes_of_panicked waits in_ at_ status
  · have taken : session.pipe.downStep Sock.udp (session.reader.env tunnel.process) .writeErr =
        some (session.pipe.setDown { session.pipe.down with pc := .done .panicked },
          session.reader.lastActive) := by
      simp only [Pipe.downStep, owes]
      rfl
    exact after (by exact trivial) (step_sender at_ taken) ⟨.down, rfl⟩
  · have taken : session.reader.step tunnel.process tunnel.current tunnel.socket .writeErr =
        some (tunnel.socket, session.reader.goto (.done .panicked)) := by
      simp only [Reader.step, owes, stopped, Bool.true_or, if_true]
    exact after (by exact trivial) (step_reader at_ taken) ⟨.up, rfl⟩

end Listening

/-! ## What saves the datagram in front -/

/-- The listener stands where it can still start a session for this source, or
waits for one that has this source, is on its way out, or breaks. -/
def Path (tunnel : UdpTunnel) (source : SocketAddr) : Prop :=
  match tunnel.connected.listener with
  | .select => True
  | .opening addr | .sending addr => addr = source
  | .session addr _ => ∃ session : UdpSession, tunnel.sessions[tunnel.current]? = some session ∧
      (addr = source ∨ session.reader.Leaves ∨ session.Breaks)
  | _ => False

/-- This reader is between its peek and its `recv`. -/
def Receives (tunnel : UdpTunnel) (id : Nat) : Prop :=
  ∃ (session : UdpSession) (n : Nat), tunnel.sessions[id]? = some session ∧
    session.reader.task.pc = .recv n

/-- A reader of this source looks. -/
def Looked (tunnel : UdpTunnel) (source : SocketAddr) : Prop :=
  ∃ (id : Nat) (session : UdpSession), tunnel.sessions[id]? = some session ∧
    source = session.reader.clientLocalAddr ∧ session.reader.Looks tunnel.connected.closed

/-- The datagram in front has somebody to go to.  A reader is between its peek and
its `recv`, and a second one where the socket has an error for the first to report;
or nobody has touched the stop channel, a pending error goes to a reader at its
`recv`, and a reader of the source looks, or is the one that gets the error, or the
connection is open and the listener is free for the source. -/
def Attended (tunnel : UdpTunnel) : Prop :=
  ∀ (datagram : Datagram) (rest : List Datagram), tunnel.socket.queue = datagram :: rest →
    (tunnel.socket.error = false ∧ ∃ id, tunnel.Receives id) ∨
      (∃ id other, id ≠ other ∧ tunnel.Receives id ∧ tunnel.Receives other) ∨
        tunnel.connected.stop = Watch.channel false ∧
          (tunnel.socket.error = true → ∃ id, tunnel.Receives id) ∧
            (tunnel.Looked datagram.source ∨
              (∃ (id : Nat) (session : UdpSession) (n : Nat), tunnel.sessions[id]? = some session ∧
                session.reader.task.pc = .recv n ∧
                  datagram.source = session.reader.clientLocalAddr) ∨
                tunnel.connected.closed = false ∧ tunnel.Path datagram.source)

/-- A reader is between its peek and its `recv`, looks, or leaves. -/
theorem recv_or_looks_or_leaves (reader : Reader) :
    (∃ n, reader.task.pc = .recv n) ∨ reader.Looks false ∨ reader.Leaves := by
  unfold Reader.Looks Reader.Leaves
  cases pc : reader.task.pc with
  | recv n => exact Or.inl ⟨n, rfl⟩
  | select deadline live => cases live <;> simp
  | recheck now => exact Or.inr (Nat.lt_or_ge _ _)
  | _ => simp

theorem consumes_of_path {datagram : Datagram} {rest : List Datagram}
    (waits : Waits datagram rest tunnel) (path : tunnel.Path datagram.source) :
    tunnel.Consumes rest := by
  unfold Path at path
  split at path
  · rename_i at_
    exact consumes_of_listening waits at_
  · rename_i addr at_
    exact consumes_of_opening waits (path ▸ at_)
  · rename_i addr at_
    exact consumes_of_sending waits (path ▸ at_)
  · rename_i addr forwarders in_
    rcases path with ⟨session, at_, same | leaves | breaks⟩
    · rcases waits.inv.knows addr forwarders in_ with ⟨session', at', its, _⟩
      cases at_.symm.trans at'
      rcases recv_or_looks_or_leaves session.reader with ⟨n, pc⟩ | looks | leaves
      · exact consumes_of_recv at_ pc waits.error waits.front
      · exact consumes_of_looks waits.inv waits.stop at_ (by rw [waits.open_]; exact looks)
          waits.error waits.front (same.symm.trans its.symm)
      · exact consumes_of_leaves waits in_ at_ leaves
    · exact consumes_of_leaves waits in_ at_ leaves
    · exact consumes_of_breaks waits in_ at_ breaks
  · cases path

/-- Where the socket has no error to report, somebody gets there. -/
theorem consumes_of_clean {datagram : Datagram} {rest : List Datagram} (inv : tunnel.Inv)
    (error : tunnel.socket.error = false) (front : tunnel.socket.queue = datagram :: rest)
    (stop : tunnel.connected.stop = Watch.channel false)
    (way : tunnel.Looked datagram.source ∨
      tunnel.connected.closed = false ∧ tunnel.Path datagram.source) : tunnel.Consumes rest := by
  rcases way with ⟨id, session, at_, mine, looks⟩ | ⟨open_, path⟩
  · exact consumes_of_looks inv stop at_ looks error front mine
  · exact consumes_of_path ⟨inv, stop, open_, error, front⟩ path

/-- The tunnel behind a `recv` of this reader that has got the error of the socket. -/
def reported (tunnel : UdpTunnel) (id : Nat) (session : UdpSession) : UdpTunnel :=
  (tunnel.setSocket tunnel.socket.clearError).setSession id
    { session with reader := session.reader.goto .top }

theorem step_reported (at_ : tunnel.sessions[id]? = some session) {n : Nat}
    (pc : session.reader.task.pc = .recv n) (error : tunnel.socket.error = true) :
    machine.step tunnel (.reader id .recvErr) = some (tunnel.reported id session) := by
  have taken : session.reader.step tunnel.process id tunnel.socket .recvErr =
      some (tunnel.socket.clearError, session.reader.goto .top) := by
    simp only [Reader.step, pc, error, if_true]
  exact step_reader at_ taken

/-- Another session is where it was. -/
theorem getElem_reported {other : Nat} (different : id ≠ other) :
    (tunnel.reported id session).sessions[other]? = tunnel.sessions[other]? :=
  List.getElem?_set_ne different

/-- A reader at its `recv` does not look, so the one that does is another. -/
theorem Looked.reported {source : SocketAddr} (looked : tunnel.Looked source)
    (at_ : tunnel.sessions[id]? = some session) {n : Nat} (pc : session.reader.task.pc = .recv n) :
    (tunnel.reported id session).Looked source := by
  rcases looked with ⟨other, session', at', mine, looks⟩
  refine ⟨other, session', ?_, mine, looks⟩
  rw [getElem_reported]
  · exact at'
  · rintro rfl
    cases at_.symm.trans at'
    unfold Reader.Looks at looks
    rw [pc] at looks
    exact looks

theorem Path.reported {source : SocketAddr} (path : tunnel.Path source)
    (at_ : tunnel.sessions[id]? = some session) {n : Nat} (pc : session.reader.task.pc = .recv n) :
    (tunnel.reported id session).Path source := by
  have same : (tunnel.reported id session).current = tunnel.current := by
    simp only [current, UdpTunnel.reported, setSession, setSocket, List.length_set]
  unfold Path at path ⊢
  rw [show (tunnel.reported id session).connected = tunnel.connected from rfl, same]
  split at path
  · trivial
  · exact path
  · exact path
  · rcases path with ⟨session', at', way⟩
    by_cases here : id = tunnel.current
    · subst here
      cases at_.symm.trans at'
      have there : (tunnel.reported tunnel.current session).sessions[tunnel.current]? =
          some { session with reader := session.reader.goto .top } :=
        List.getElem?_set_self (List.getElem?_eq_some_iff.mp at_).1
      refine ⟨_, there, ?_⟩
      rcases way with same | leaves | panicked | owes | ⟨bytes, owes, _⟩
      · exact Or.inl same
      · unfold Reader.Leaves at leaves
        rw [pc] at leaves
        exact leaves.elim
      · exact Or.inr (Or.inr (Or.inl panicked))
      · exact Or.inr (Or.inr (Or.inr (Or.inl owes)))
      · rw [pc] at owes
        cases owes
    · exact ⟨session', (getElem_reported here).trans at', way⟩
  · exact path

theorem consumable_of_attended (inv : tunnel.Inv) (attended : tunnel.Attended) :
    tunnel.HeadConsumable := by
  intro datagram rest front
  rcases attended datagram rest front with ⟨error, id, session, n, at_, pc⟩ |
    ⟨id, other, different, ⟨session, n, at_, pc⟩, ⟨session', m, at', pc'⟩⟩ | ⟨stop, reports, way⟩
  · exact consumes_of_recv at_ pc error front
  · cases error : tunnel.socket.error with
    | false => exact consumes_of_recv at_ pc error front
    | true =>
        have there : (tunnel.reported id session).sessions[other]? = some session' :=
          (getElem_reported different).trans at'
        exact .step (step_reported at_ pc error) trivial (consumes_of_recv there pc' rfl front)
  · cases error : tunnel.socket.error with
    | false =>
        rcases way with looked | ⟨id, session, n, at_, pc, _⟩ | path
        · exact consumes_of_clean inv error front stop (Or.inl looked)
        · exact consumes_of_recv at_ pc error front
        · exact consumes_of_clean inv error front stop (Or.inr path)
    | true =>
        rcases reports error with ⟨id, session, n, at_, pc⟩
        have kept := inductive_inv.step _ _ _ inv (step_reported at_ pc error)
        refine .step (step_reported at_ pc error) trivial ?_
        rcases way with looked | ⟨other, session', m, at', pc', mine⟩ | ⟨open_, path⟩
        · exact consumes_of_clean kept rfl front stop (Or.inl (looked.reported at_ pc))
        · by_cases same : id = other
          · subst same
            cases at_.symm.trans at'
            have there : (tunnel.reported id session).sessions[id]? =
                some { session with reader := session.reader.goto .top } :=
              List.getElem?_set_self (List.getElem?_eq_some_iff.mp at_).1
            exact consumes_of_top there rfl (kept.quiet stop there .up) rfl front mine
          · have there : (tunnel.reported id session).sessions[other]? = some session' :=
              (getElem_reported same).trans at'
            exact consumes_of_recv there pc' rfl front
        · exact consumes_of_clean kept rfl front stop (Or.inr ⟨open_, path.reported at_ pc⟩)

/-- In every run in which the datagram in front always has somebody to go to, it
can always be consumed. -/
theorem heads_consumable (labels : List UdpEvent)
    (attended : machine.EveryState Attended labels bound) :
    machine.EveryState HeadConsumable labels bound := by
  have inv : machine.EveryState Inv labels bound :=
    inductive_inv.everyState labels (inductive_inv.start bound rfl)
  exact (inv.and attended).imp fun _ both => consumable_of_attended both.1 both.2

theorem heads_consumable_arrival : machine.EveryState HeadConsumable
    [.arrive ⟨.v4 0 5000, [1]⟩] bound := by
  refine heads_consumable _ ⟨?_, ?_⟩
  · intro datagram rest front
    cases front
  · intro tunnel taken datagram rest front
    cases taken
    exact Or.inr (Or.inr ⟨rfl, (fun error => by cases error), Or.inr (Or.inr ⟨rfl, trivial⟩)⟩)

/-! ## A datagram nobody will take -/

/-- Points of a round at which a reader that meets somebody else's datagram goes
around. -/
def Circles : Pc → Prop
  | .top | .loaded _ | .select _ true => True
  | _ => False

/-- The listener waits for a session of another application, whose reader goes
around and whose sender has nothing to send; no other reader is for the source of
the datagram in front. -/
structure Blocked (datagram : Datagram) (rest : List Datagram) (tunnel : UdpTunnel) : Prop where
  stop : tunnel.connected.stop = Watch.channel false
  error : tunnel.socket.error = false
  front : tunnel.socket.queue = datagram :: rest
  readers : ∀ (id : Nat) (session : UdpSession), tunnel.sessions[id]? = some session →
    session.reader.task.pc.isDone = true ∨
      (datagram.source ≠ session.reader.clientLocalAddr ∧ Circles session.reader.task.pc)
  waits : ∃ addr forwarders, tunnel.connected.listener = .session addr forwarders ∧
    forwarders.status .up = .running ∧ forwarders.status .down ≠ .panicked
  session : ∃ session : UdpSession, tunnel.sessions[tunnel.current]? = some session ∧
    session.reader.task.pc.isDone = false ∧
      (∀ bytes, session.pipe.down.pc ≠ .write bytes) ∧
        session.pipe.down.pc ≠ .done .panicked ∧
          session.pipe.stream.arrived = session.pipe.stream.pos

section Trapped

variable {datagram : Datagram} {rest : List Datagram} {next : UdpTunnel}

/-- A reader that circles in front of somebody else's datagram goes on to do
so. -/
theorem circles_of_step {process : Process} {socket after : SharedSocket} {reader next : Reader}
    {act : Act} (quiet : process.stop.ready reader.task.seen = false)
    (error : socket.error = false) (front : socket.queue = datagram :: rest)
    (other : datagram.source ≠ reader.clientLocalAddr) (circles : Circles reader.task.pc)
    (taken : reader.step process id socket act = some (after, next)) :
    after = socket ∧ next.clientLocalAddr = reader.clientLocalAddr ∧ Circles next.task.pc := by
  have ready : socket.ready = true := by
    simp only [SharedSocket.ready, front, List.isEmpty_cons, Bool.not_false, Bool.or_true]
  have source : ∀ branch, reader.task.selects (reader.env process) socket.ready = some branch →
      branch = .source := by
    intro branch chosen
    rcases Task.selects_pc chosen with ⟨deadline, live, at_⟩
    rw [at_] at circles
    cases live with
    | false => cases circles
    | true =>
        simp only [Task.selects, at_, Reader.env, quiet, ready, biased, Bool.and_self,
          Bool.false_eq_true, if_false, if_true] at chosen
        exact (Option.some.inj chosen).symm
  cases act with
  | control step =>
      rcases Option.map_eq_some_iff.mp taken with ⟨task, moved, same⟩
      cases same
      refine ⟨rfl, rfl, ?_⟩
      cases step with
      | now | load =>
          simp only [Task.control] at moved
          split at moved <;> cases moved
          trivial
      | stop | sleep =>
          simp only [Task.control] at moved
          split at moved
          · rename_i chosen
            cases source _ chosen
          · cases moved
      | wake | recheck =>
          simp only [Task.control] at moved
          split at moved
          · rename_i at_
            rw [at_] at circles
            cases circles
          · cases moved
  | read count =>
      simp only [Reader.step, front, other, ne_eq, not_false_eq_true, if_true] at taken
      split at taken <;> cases taken
      exact ⟨rfl, rfl, trivial⟩
  | readErr =>
      simp only [Reader.step, error, Bool.false_eq_true, and_false, if_false] at taken
      split at taken <;> cases taken
  | recv =>
      simp only [Reader.step] at taken
      split at taken
      · rename_i at_ _
        rw [at_] at circles
        cases circles
      · cases taken
  | recvErr | write count | writeErr =>
      simp only [Reader.step] at taken
      split at taken
      · rename_i at_
        rw [at_] at circles
        cases circles
      · cases taken

/-- A sender with nothing to send stays so, and does not panic. -/
theorem idle_of_senderStep {pipe next : Pipe (List UInt8)} {env : Env} {act : Act} {last : Nat}
    (owes : ∀ bytes, pipe.down.pc ≠ .write bytes)
    (empty : pipe.stream.arrived = pipe.stream.pos)
    (taken : pipe.downStep Sock.udp env act = some (next, last)) :
    (∀ bytes, next.down.pc ≠ .write bytes) ∧ next.down.pc ≠ .done .panicked ∧
      next.stream.arrived = next.stream.pos := by
  have kept : ∀ task : Task, (pipe.setDown task).stream.arrived = (pipe.setDown task).stream.pos := by
    intro task
    unfold Pipe.setDown
    simp only
    split <;> exact empty
  cases act with
  | control step =>
      rcases Option.map_eq_some_iff.mp taken with ⟨task, moved, same⟩
      cases same
      exact ⟨(Task.control_cases moved).2.2.1, Task.control_unpanicked moved, kept task⟩
  | read count =>
      simp only [Pipe.downStep] at taken
      split at taken
      · split at taken
        · split at taken
          · rename_i fits
            omega
          · cases taken
        · split at taken <;> cases taken
          exact ⟨by simp [Pipe.setDown], by simp [Pipe.setDown], kept _⟩
        · cases taken
      · cases taken
  | readErr =>
      simp only [Pipe.downStep] at taken
      split at taken
      · split at taken <;> cases taken
        exact ⟨by simp [Pipe.setDown], by simp [Pipe.setDown], kept _⟩
      · cases taken
  | write count | writeErr =>
      -- there is nothing in hand to be written
      simp only [Pipe.downStep] at taken
      cases taken
  | recv | recvErr => cases taken

/-- The session the listener waits for is the only place where a step of a
session could matter; the others change nothing a blocked tunnel rests on. -/
theorem Blocked.of_session (blocked : Blocked datagram rest tunnel)
    (at_ : tunnel.sessions[id]? = some session) {after : UdpSession}
    (reader : after.reader.task.pc.isDone = true ∨
      (datagram.source ≠ after.reader.clientLocalAddr ∧ Circles after.reader.task.pc))
    (runs : session.reader.task.pc.isDone = false → after.reader.task.pc.isDone = false)
    (idle : (∀ bytes, session.pipe.down.pc ≠ .write bytes) →
      session.pipe.down.pc ≠ .done .panicked →
        session.pipe.stream.arrived = session.pipe.stream.pos →
          (∀ bytes, after.pipe.down.pc ≠ .write bytes) ∧ after.pipe.down.pc ≠ .done .panicked ∧
            after.pipe.stream.arrived = after.pipe.stream.pos) :
    Blocked datagram rest (tunnel.setSession id after) where
  stop := blocked.stop
  error := blocked.error
  front := blocked.front
  waits := blocked.waits
  readers other session' is := by
    simp only [setSession] at is
    rw [List.getElem?_set] at is
    split at is
    · split at is <;> cases is
      exact reader
    · exact blocked.readers other session' is
  session := by
    rcases blocked.session with ⟨session', last, running, owes, unpanicked, empty⟩
    simp only [current, setSession, List.length_set]
    simp only [current] at last
    by_cases here : id = tunnel.sessions.length - 1
    · subst here
      rw [at_] at last
      cases last
      rcases idle owes unpanicked empty with ⟨owes', unpanicked', empty'⟩
      exact ⟨after, getElem_setSession at_ after, runs running, owes', unpanicked', empty'⟩
    · exact ⟨session', (List.getElem?_set_ne here).trans last, running, owes, unpanicked, empty⟩

/-- The listener hears at most that the sender has ended. -/
theorem Blocked.of_listener (blocked : Blocked datagram rest tunnel) {act : ListenerAct}
    (taken : tunnel.listenerStep act = some next) : Blocked datagram rest next := by
  rcases blocked.waits with ⟨addr, forwarders, in_, running, unpanicked⟩
  rcases blocked.session with ⟨session, at_, runs, owes, unpanicked', empty⟩
  have still : ∀ connected : Connected, connected.stop = tunnel.connected.stop →
      (∃ addr forwarders, connected.listener = .session addr forwarders ∧
        forwarders.status .up = .running ∧ forwarders.status .down ≠ .panicked) →
          Blocked datagram rest (tunnel.setConnected connected) :=
    fun connected stop waits => ⟨stop.trans blocked.stop, blocked.error, blocked.front,
      blocked.readers, waits, blocked.session⟩
  cases act with
  | forwarderEnds role status =>
      simp only [listenerStep, at_, Option.map_some] at taken
      split at taken
      · rename_i told
        rcases Option.map_eq_some_iff.mp taken with ⟨connected, moved, same⟩
        cases same
        simp only [Connected.step, in_] at moved
        split at moved <;> cases moved
        rename_i ends
        refine still _ rfl ⟨addr, _, rfl, ?_, ?_⟩
        · cases role with
          | up =>
              have upper := Pc.status_of_running runs
              exact absurd ((Option.some.inj told).symm.trans upper) ends.2
          | down => exact running
        · cases role with
          | up => exact unpanicked
          | down =>
              have lower := Pc.status_ne_panicked unpanicked'
              exact fun panicked => lower ((Option.some.inj told).trans panicked)
      · cases taken
  | join =>
      rcases Option.map_eq_some_iff.mp taken with ⟨connected, moved, _⟩
      simp only [Connected.step, in_] at moved
      split at moved
      · rename_i joined
        simp only [Forwarders.status] at running unpanicked
        simp [Forwarders.joined, running, unpanicked] at joined
      · cases moved
  | detachedEnds =>
      rcases Option.map_eq_some_iff.mp taken with ⟨connected, moved, same⟩
      cases same
      simp only [Connected.step] at moved
      split at moved <;> cases moved
      exact ⟨blocked.stop, blocked.error, blocked.front, blocked.readers,
        ⟨addr, forwarders, in_, running, unpanicked⟩, blocked.session⟩
  | incoming head =>
      rcases listenerStep_frame blocked.error taken with ⟨connected, moved, _⟩
      simp only [Connected.step, in_] at moved
      cases moved
  | sent =>
      simp only [listenerStep, in_] at taken
      cases taken
  | stop =>
      rcases listenerStep_frame blocked.error taken with ⟨connected, moved, _⟩
      simp [Connected.step, Listener.selects, in_] at moved
  | bound | bindFails | incomingFails | opened | openFails | sendFails =>
      rcases listenerStep_frame blocked.error taken with ⟨connected, moved, _⟩
      simp only [Connected.step, in_] at moved
      cases moved

theorem blocked_trap (datagram : Datagram) (rest : List Datagram) :
    Machine.Trap machine UdpEvent.own (fun later => later.socket.queue = rest)
      (fun tunnel => tunnel.Inv ∧ Blocked datagram rest tunnel) := by
  refine Machine.Trap.of_invariant inductive_inv ?_ ?_
  · intro tunnel event next inv blocked own taken
    cases event with
    | listener act => exact blocked.of_listener taken
    | reader id act =>
        rcases Option.bind_eq_some_iff.mp taken with ⟨session, at_, moved⟩
        rcases Option.map_eq_some_iff.mp moved with ⟨⟨socket, reader⟩, taken', same⟩
        cases same
        have running := (Reader.moves_of_step taken').running
        rcases blocked.readers id session at_ with done | ⟨other, circles⟩
        · rw [running] at done
          cases done
        · rcases circles_of_step (inv.quiet blocked.stop at_ .up) blocked.error blocked.front other
            circles taken' with ⟨rfl, addr, circles'⟩
          refine blocked.of_session at_ (Or.inr ⟨addr ▸ other, circles'⟩) (fun _ => ?_)
            (fun owes unpanicked empty => ⟨owes, unpanicked, empty⟩)
          cases pc : reader.task.pc with
          | done exit =>
              rw [pc] at circles'
              cases circles'
          | _ => rfl
    | sender id act =>
        rcases Option.bind_eq_some_iff.mp taken with ⟨session, at_, moved⟩
        rcases Option.map_eq_some_iff.mp moved with ⟨⟨pipe, last⟩, taken', same⟩
        cases same
        exact blocked.of_session at_ (blocked.readers id session at_) (fun running => running)
          (fun owes _ empty => idle_of_senderStep owes empty taken')
    | tick nanos =>
        cases taken
        exact ⟨blocked.stop, blocked.error, blocked.front, blocked.readers, blocked.waits,
          blocked.session⟩
    | _ => cases own
  · intro tunnel _ blocked consumed
    have lengths := congrArg List.length (blocked.front.symm.trans consumed)
    simp at lengths

/-- A blocked datagram stays in front of the queue, whatever the tunnel does. -/
theorem not_consumable_of_blocked (inv : tunnel.Inv) (blocked : Blocked datagram rest tunnel) :
    ¬ tunnel.HeadConsumable := fun consumable =>
  (blocked_trap datagram rest).not_canReach ⟨inv, blocked⟩ (consumable datagram rest blocked.front)

end Trapped

/-! ## Two applications -/

/-- The first application speaks and gets its session. -/
def firstSpeaks : List UdpEvent :=
  [.arrive ⟨.v4 0 5000, [1]⟩, .listener (.incoming (.v4 0 5000)), .listener .opened,
    .listener .sent, .reader 0 (.control .now), .reader 0 (.control .load), .reader 0 (.read 0),
    .reader 0 .recv, .reader 0 (.write 1)]

/-- Then the second does. -/
def secondSpeaks : List UdpEvent := firstSpeaks ++ [.arrive ⟨.v4 0 6000, [2]⟩]

def served : UdpSession where
  reader :=
    { Reader.spawned ⟨0, Watch.channel false, false⟩ (.v4 0 5000) 0 with
      buf := [1]
      written := [1] }
  pipe := Pipe.start 0 0

/-- What that leaves: the first session going on, the second datagram in front. -/
def waiting : UdpTunnel where
  clock := 0
  connected :=
    { Connected.spawned with
      localConnections := AList.insert (.v4 0 5000) (Connected.localConnection (.v4 0 5000)) ∅
      listener := .session (.v4 0 5000) Forwarders.spawned }
  socket := ⟨[⟨.v4 0 6000, [2]⟩], [(0, ⟨.v4 0 5000, [1]⟩)], false⟩
  sessions := [served]

theorem secondSpeaks_runs : machine.run secondSpeaks bound = some waiting := by rfl

theorem blocked_waiting : Blocked ⟨.v4 0 6000, [2]⟩ [] waiting where
  stop := rfl
  error := rfl
  front := rfl
  readers id session at_ := by
    rcases List.getElem?_eq_some_iff.mp at_ with ⟨bound, is⟩
    have first : id = 0 := by
      simp only [waiting, List.length_singleton] at bound
      omega
    subst first
    have other : (SocketAddr.v4 0 6000) ≠ .v4 0 5000 := by decide
    cases is
    exact Or.inr ⟨other, trivial⟩
  waits := ⟨_, _, rfl, rfl, by decide⟩
  session := ⟨served, rfl, rfl, (fun bytes at_ => by cases at_), (fun at_ => by cases at_), rfl⟩

/-- The second application is not served while the session of the first goes
on. -/
theorem waiting_starves : ¬ ∀ tunnel, machine.Reachable tunnel → tunnel.HeadConsumable := by
  intro always
  have reached : machine.Reachable waiting := ⟨bound, secondSpeaks, rfl, secondSpeaks_runs⟩
  exact not_consumable_of_blocked (inductive_inv.of_reachable reached) blocked_waiting
    (always waiting reached)

end UdpTunnel

end Client
end Lantun
