import Lantun.Client.Stopping
import Lantun.Client.SharedSocket

namespace Lantun
namespace Client

open Async Net

/-!
# The UDP side of a client tunnel

The listener of `connect`, the sessions it has started one after the other, and
the one socket they share.  The listener is the one of `Connected`; what is added
is when its steps are possible.  It takes an application from the front of the
queue only, it learns that a forwarder has ended from the forwarder itself, and its
`peek_from` fails where the socket has an error to report.

A session is a reader and the direction from the host, at whose lower end its
other forwarder stands.  Both store `last_active` of the one connection.  A
session stays in the list after its function has returned, since a forwarder of
it may still be running.
-/

structure UdpSession where
  reader : Reader
  /-- The direction from the host; `tunnel_to_udp_forwader` is its lower task. -/
  pipe : Pipe (List UInt8)
  deriving DecidableEq

/-- How a forwarder of the session stands, as its join handle knows it. -/
def UdpSession.status (session : UdpSession) : Role → TaskStatus
  | .up => session.reader.task.pc.status
  | .down => session.pipe.down.pc.status

structure UdpTunnel where
  clock : Nat
  connected : Connected
  socket : SharedSocket
  sessions : List UdpSession

inductive UdpEvent where
  | listener (act : ListenerAct)
  | reader (id : Nat) (act : Act)
  | sender (id : Nat) (act : Act)
  | tick (nanos : Nat)
  | arrive (datagram : Datagram)
  | sockError
  | sendStop
  | dropStop
  | close
  /-- The host stops reading the stream of a session. -/
  | stopReading (id : Nat)
  /-- The host writes into the stream of a session, or ends it. -/
  | write (id : Nat) (bytes : List UInt8)
  | finish (id : Nat)
  | deliver (id : Nat) (count : Nat)
  | deliverEnd (id : Nat)
  deriving DecidableEq, Repr

/-- A step the tunnel takes by itself: a task of it moves, or time passes. -/
def UdpEvent.own : UdpEvent → Prop
  | .listener _ | .reader _ _ | .sender _ _ | .tick _ => True
  | _ => False

namespace UdpTunnel

def process (tunnel : UdpTunnel) : Process := ⟨tunnel.clock, tunnel.connected.stop, tunnel.connected.closed⟩

/-- The place of the session the listener waits for: the last it has started. -/
def current (tunnel : UdpTunnel) : Nat := tunnel.sessions.length - 1

def setSession (tunnel : UdpTunnel) (id : Nat) (session : UdpSession) : UdpTunnel :=
  { tunnel with sessions := tunnel.sessions.set id session }

def setSocket (tunnel : UdpTunnel) (socket : SharedSocket) : UdpTunnel := { tunnel with socket }

/-- The listener has moved. -/
def setConnected (tunnel : UdpTunnel) (connected : Connected) : UdpTunnel := { tunnel with connected }

/-- What `bi_udp_client` starts with: two forwarders, each with a clone of the
listener's receiver. -/
def spawn (tunnel : UdpTunnel) (addr : SocketAddr) : UdpSession where
  reader := Reader.spawned tunnel.process addr tunnel.connected.seen
  pipe := Pipe.start tunnel.connected.seen tunnel.connected.seen

/-- A step of the listener. -/
def listenerStep (tunnel : UdpTunnel) : ListenerAct → Option UdpTunnel
  | .incoming addr =>
      if tunnel.socket.error = false ∧
          tunnel.socket.queue.head?.map Datagram.source = some addr then
        (tunnel.connected.step .udp (.incoming addr)).map tunnel.setConnected
      else none
  | .incomingFails =>
      if tunnel.socket.error = true then
        (tunnel.connected.step .udp .incomingFails).map
          (tunnel.setSocket tunnel.socket.clearError).setConnected
      else none
  | .sent =>
      match tunnel.connected.listener with
      | .sending addr =>
          (tunnel.connected.step .udp .sent).map fun connected =>
            { tunnel.setConnected connected with
              sessions := tunnel.sessions ++ [tunnel.spawn addr] }
      | _ => none
  | .forwarderEnds role status =>
      if (tunnel.sessions[tunnel.current]?).map (fun session => session.status role) =
          some status then
        (tunnel.connected.step .udp (.forwarderEnds role status)).map tunnel.setConnected
      else none
  | act => (tunnel.connected.step .udp act).map tunnel.setConnected

def step (tunnel : UdpTunnel) : UdpEvent → Option UdpTunnel
  | .listener act => tunnel.listenerStep act
  | .reader id act =>
      (tunnel.sessions[id]?).bind fun session =>
        (session.reader.step tunnel.process id tunnel.socket act).map fun (socket, reader) =>
          (tunnel.setSocket socket).setSession id { session with reader }
  | .sender id act =>
      (tunnel.sessions[id]?).bind fun session =>
        (session.pipe.downStep Sock.udp (session.reader.env tunnel.process) act).map
          fun (pipe, last) =>
            tunnel.setSession id ⟨{ session.reader with lastActive := last }, pipe⟩
  | .tick nanos => some { tunnel with clock := tunnel.clock + nanos }
  | .arrive datagram => some (tunnel.setSocket (tunnel.socket.arrive datagram))
  | .sockError => some (tunnel.setSocket { tunnel.socket with error := true })
  | .sendStop =>
      if tunnel.connected.stop.closed then none
      else some { tunnel with
        connected := { tunnel.connected with stop := tunnel.connected.stop.send true } }
  | .dropStop =>
      some { tunnel with
        connected := { tunnel.connected with stop := tunnel.connected.stop.dropSender } }
  | .close => some { tunnel with connected := { tunnel.connected with closed := true } }
  | .stopReading id =>
      (tunnel.sessions[id]?).map fun session =>
        tunnel.setSession id { session with reader := { session.reader with stopped := true } }
  | .write id bytes =>
      (tunnel.sessions[id]?).map fun session =>
        tunnel.setSession id { session with pipe := session.pipe.accept bytes }
  | .finish id =>
      (tunnel.sessions[id]?).map fun session =>
        tunnel.setSession id { session with pipe := { session.pipe with
          stream := session.pipe.stream.dropSend false } }
  | .deliver id count =>
      (tunnel.sessions[id]?).map fun session =>
        tunnel.setSession id { session with pipe := session.pipe.deliver count }
  | .deliverEnd id =>
      (tunnel.sessions[id]?).map fun session =>
        tunnel.setSession id { session with pipe := session.pipe.deliverEnd }

/-- The socket is bound and nothing has happened yet. -/
def bound : UdpTunnel where
  clock := 0
  connected := { Connected.spawned with listener := .select }
  socket := ⟨[], [], false⟩
  sessions := []

def machine : Machine UdpTunnel UdpEvent where
  initial tunnel := tunnel = bound
  step := step

/-! ## Its invariant -/

/-- What holds of a session whatever happens: its tasks have not seen more of the
stop channel than there is, and they hold bytes where they say so. -/
structure SessionInv (stop : Watch) (session : UdpSession) : Prop where
  readerSeen : session.reader.task.seen ≤ stop.version
  senderSeen : session.pipe.down.seen ≤ stop.version
  peeked : ∀ n, session.reader.task.pc = .recv n → session.reader.buf.length = n
  readerOwes : ∀ bytes, session.reader.task.pc = .write bytes → bytes ≠ []
  senderPeeks : ∀ n, session.pipe.down.pc ≠ .recv n

/-- While the listener is in its session, the last session is that one, and what
the listener knows of its forwarders is true. -/
def Knows (tunnel : UdpTunnel) : Prop :=
  ∀ addr forwarders, tunnel.connected.listener = .session addr forwarders →
    ∃ session : UdpSession, tunnel.sessions[tunnel.current]? = some session ∧
      session.reader.clientLocalAddr = addr ∧
        ∀ role, forwarders.status role = .running ∨ forwarders.status role = session.status role

/-- An application is registered while the listener is in its session only. -/
def Registered (connected : Connected) : Prop :=
  ∀ addr, addr ∈ connected.localConnections →
    ∃ forwarders, connected.listener = .session addr forwarders

structure Inv (tunnel : UdpTunnel) : Prop where
  seen : tunnel.connected.seen ≤ tunnel.connected.stop.version
  registered : Registered tunnel.connected
  knows : tunnel.Knows
  sessions : ∀ (id : Nat) (session : UdpSession), tunnel.sessions[id]? = some session →
    SessionInv tunnel.connected.stop session

/-! ### One session -/

section Sessions

variable {process : Process} {id : Nat} {socket after : SharedSocket} {reader next : Reader}
  {act : Act}

/-- A step of a reader looks at the stop channel in its selection only. -/
theorem seen_le_of_readerStep (taken : reader.step process id socket act = some (after, next))
    (behind : reader.task.seen ≤ process.stop.version) :
    next.task.seen ≤ process.stop.version := by
  have heeds := (Reader.taskMoves_of_step taken).heeds
  by_cases looks : act = .control .stop
  · rw [(heeds.stop looks).2]
    exact Watch.seenAfter_le behind
  · rw [heeds.seen looks]
    exact behind

theorem length_chunk {n : Nat} (filled : reader.buf.length = n) (some_ : n ≠ 0)
    (datagram : Datagram) : reader.chunk n datagram ≠ [] := by
  intro empty
  have length := congrArg List.length empty
  simp only [Reader.chunk, List.length_append, List.length_take, List.length_drop,
    List.length_nil] at length
  omega

theorem SessionInv.readerStep {session : UdpSession} (inv : SessionInv process.stop session)
    (taken : session.reader.step process id socket act = some (after, next)) :
    SessionInv process.stop { session with reader := next } := by
  have moves := Reader.moves_of_step taken
  refine ⟨seen_le_of_readerStep taken inv.readerSeen, inv.senderSeen, ?_, ?_, inv.senderPeeks⟩
  · intro n at_
    cases moves with
    | idle _ _ _ _ _ _ noRecv => exact absurd at_ (noRecv n)
    | peek =>
        cases at_
        rfl
    | recv =>
        unfold Reader.afterRecv at at_
        split at at_ <;> cases at_
    | write =>
        simp only [Reader.goto, Pc.afterWrite] at at_
        split at at_ <;> cases at_
    | panic => cases at_
  · intro bytes at_
    cases moves with
    | idle _ _ _ _ _ noWrite => exact absurd at_ (noWrite bytes)
    | peek => cases at_
    | recv there =>
        unfold Reader.afterRecv at at_
        split at at_
        · cases at_
        · rename_i some_
          cases at_
          exact length_chunk (inv.peeked _ there) some_ _
    | write =>
        simp only [Reader.goto, Pc.afterWrite] at at_
        split at at_ <;> cases at_
        assumption
    | panic => cases at_

theorem SessionInv.senderStep {session : UdpSession} (inv : SessionInv process.stop session)
    {pipe : Pipe (List UInt8)} {last : Nat}
    (taken : session.pipe.downStep Sock.udp (session.reader.env process) act = some (pipe, last)) :
    SessionInv process.stop ⟨{ session.reader with lastActive := last }, pipe⟩ := by
  have heeds := (Pipe.downStep_moves taken).heeds
  refine ⟨inv.readerSeen, ?_, inv.peeked, inv.readerOwes, Pipe.downStep_recv taken⟩
  by_cases looks : act = .control .stop
  · rw [(heeds.stop looks).2]
    exact Watch.seenAfter_le inv.senderSeen
  · rw [heeds.seen looks]
    exact inv.senderSeen

/-- The channel only grows. -/
theorem SessionInv.of_stop {stop grown : Watch} {session : UdpSession}
    (inv : SessionInv stop session) (more : stop.version ≤ grown.version) :
    SessionInv grown session :=
  ⟨Nat.le_trans inv.readerSeen more, Nat.le_trans inv.senderSeen more, inv.peeked, inv.readerOwes,
    inv.senderPeeks⟩

end Sessions

/-! ### The listener -/

section Listener

variable {connected next : Connected} {act : ListenerAct}

/-- How the listener comes to be in a session. -/
theorem session_of_step (taken : connected.step .udp act = some next) {addr : SocketAddr}
    {forwarders : Forwarders} (in_ : next.listener = .session addr forwarders) :
    (act = .sent ∧ connected.listener = .sending addr ∧ forwarders = Forwarders.spawned) ∨
      ∃ before, connected.listener = .session addr before ∧
        (forwarders = before ∨
          ∃ role status, act = .forwarderEnds role status ∧
            forwarders = before.setStatus role status) := by
  cases act with
  | bound | bindFails | sendFails | detachedEnds =>
      simp only [Connected.step] at taken
      split at taken <;> cases taken
      first | cases in_ | exact Or.inr ⟨forwarders, in_, Or.inl rfl⟩
  | stop =>
      simp only [Connected.step] at taken
      split at taken <;> cases taken
      simp only at in_
      split at in_ <;> cases in_
  | incoming head =>
      simp only [Connected.step] at taken
      split at taken
      · rename_i at_
        split at taken <;> cases taken
        simp only [Connected.afterIncoming] at in_
        split at in_
        · rw [at_] at in_
          cases in_
        · cases in_
      · cases taken
  | incomingFails | opened | openFails | join =>
      simp only [Connected.step] at taken
      split at taken
      · split at taken <;> cases taken
        cases in_
      · cases taken
  | sent =>
      simp only [Connected.step] at taken
      split at taken
      · rename_i at_
        split at taken <;> cases taken
        cases in_
        exact Or.inl ⟨rfl, at_, rfl⟩
      · cases taken
  | forwarderEnds role status =>
      simp only [Connected.step] at taken
      split at taken
      · rename_i at_
        split at taken <;> cases taken
        cases in_
        exact Or.inr ⟨_, at_, Or.inr ⟨role, status, rfl, rfl⟩⟩
      · cases taken

theorem Registered.step (registered : Registered connected)
    (taken : connected.step .udp act = some next) : Registered next := by
  have nobody : (∀ addr forwarders, connected.listener ≠ .session addr forwarders) →
      ∀ addr, addr ∉ connected.localConnections := by
    intro elsewhere addr member
    rcases registered addr member with ⟨forwarders, at_⟩
    exact elsewhere addr forwarders at_
  cases act with
  | detachedEnds =>
      simp only [Connected.step] at taken
      split at taken <;> cases taken
      exact registered
  | bound | bindFails | sendFails =>
      simp only [Connected.step] at taken
      split at taken <;> cases taken
      rename_i at_
      exact fun addr member => absurd member (nobody (by rw [at_]; simp) addr)
  | stop =>
      simp only [Connected.step] at taken
      split at taken <;> cases taken
      rename_i told
      refine fun addr member => absurd member (nobody ?_ addr)
      rcases Listener.selects_cases told.1 with at_ | at_ <;> rw [at_] <;> simp
  | incomingFails | opened | openFails =>
      simp only [Connected.step] at taken
      split at taken
      · rename_i at_
        split at taken <;> cases taken
        exact fun addr member => absurd member (nobody (by rw [at_]; simp) addr)
      · cases taken
  | incoming head =>
      simp only [Connected.step] at taken
      split at taken
      · rename_i at_
        split at taken <;> cases taken
        simp only [Connected.afterIncoming]
        split <;> exact fun addr member => absurd member (nobody (by rw [at_]; simp) addr)
      · cases taken
  | sent =>
      simp only [Connected.step] at taken
      split at taken
      · rename_i at_
        split at taken <;> cases taken
        intro addr member
        rcases (AList.mem_insert _).mp member with rfl | before
        · exact ⟨_, rfl⟩
        · exact absurd before (nobody (by rw [at_]; simp) addr)
      · cases taken
  | forwarderEnds role status =>
      simp only [Connected.step] at taken
      split at taken
      · rename_i at_
        split at taken <;> cases taken
        intro addr member
        rcases registered addr member with ⟨forwarders, is⟩
        rw [at_] at is
        cases is
        exact ⟨_, rfl⟩
      · cases taken
  | join =>
      simp only [Connected.step] at taken
      split at taken
      · rename_i at_
        split at taken <;> cases taken
        intro addr member
        rcases AList.mem_erase.mp member with ⟨different, before⟩
        rcases registered addr before with ⟨forwarders, is⟩
        rw [at_] at is
        cases is
        exact absurd rfl different
      · cases taken

end Listener

/-! ### The tunnel -/

/-- One session changes, and what its join handles know stays true. -/
theorem Inv.of_session {tunnel : UdpTunnel} (inv : tunnel.Inv) {id : Nat}
    {session after : UdpSession} (at_ : tunnel.sessions[id]? = some session)
    (kept : SessionInv tunnel.connected.stop after)
    (addr : after.reader.clientLocalAddr = session.reader.clientLocalAddr)
    (moved : ∀ role, session.status role = .running ∨ after.status role = session.status role)
    (socket : SharedSocket) : ((tunnel.setSocket socket).setSession id after).Inv := by
  have bound := (List.getElem?_eq_some_iff.mp at_).1
  refine ⟨inv.seen, inv.registered, ?_, ?_⟩
  · intro source forwarders in_
    rcases inv.knows source forwarders in_ with ⟨session', last, its, told⟩
    simp only [current, setSession, setSocket, List.length_set]
    simp only [current] at last
    by_cases here : id = tunnel.sessions.length - 1
    · subst here
      rw [at_] at last
      cases last
      refine ⟨after, List.getElem?_set_self bound, addr.trans its, fun role => ?_⟩
      rcases told role with running | same
      · exact Or.inl running
      · rcases moved role with runs | stays
        · exact Or.inl (same.trans runs)
        · exact Or.inr (same.trans stays.symm)
    · exact ⟨session', (List.getElem?_set_ne here).trans last, its, told⟩
  · intro other session' is
    simp only [setSession, setSocket] at is
    rw [List.getElem?_set] at is
    split at is
    · cases is
      exact kept
    · exact inv.sessions other session' is

/-- The stop channel grows and nothing else moves. -/
theorem Inv.of_stop {tunnel : UdpTunnel} (inv : tunnel.Inv) {stop : Watch}
    (more : tunnel.connected.stop.version ≤ stop.version) :
    ({ tunnel with connected := { tunnel.connected with stop } } : UdpTunnel).Inv :=
  ⟨Nat.le_trans inv.seen more, inv.registered, inv.knows,
    fun id session at_ => (inv.sessions id session at_).of_stop more⟩

/-- A step of the listener that starts no session. -/
theorem Inv.of_listener {tunnel : UdpTunnel} (inv : tunnel.Inv) {act : ListenerAct}
    {next : Connected} (taken : tunnel.connected.step .udp act = some next) (other : act ≠ .sent)
    (told : ∀ role status, act = .forwarderEnds role status →
      (tunnel.sessions[tunnel.current]?).map (fun session => session.status role) = some status) :
    (tunnel.setConnected next).Inv := by
  have heeds := Connected.step_heeds taken
  refine ⟨?_, inv.registered.step taken, ?_, ?_⟩
  · simp only [setConnected, heeds.channel]
    by_cases looks : act = .stop
    · rw [(heeds.stop looks).2.1]
      exact Watch.seenAfter_le inv.seen
    · rw [heeds.seen looks]
      exact inv.seen
  · intro addr forwarders in_
    rcases session_of_step taken in_ with ⟨is, _⟩ | ⟨before, was, same | ⟨role, status, is, same⟩⟩
    · exact absurd is other
    · rcases inv.knows addr before was with ⟨session, last, its, knew⟩
      exact ⟨session, last, its, same ▸ knew⟩
    · rcases inv.knows addr before was with ⟨session, last, its, knew⟩
      refine ⟨session, last, its, fun role' => ?_⟩
      have ended := told role status is
      rw [last] at ended
      rw [same]
      by_cases here : role' = role
      · subst here
        refine Or.inr (Eq.trans ?_ (Option.some.inj ended).symm)
        cases role' <;> rfl
      · have kept : (before.setStatus role status).status role' = before.status role' := by
          cases role <;> cases role' <;> first | rfl | exact absurd rfl here
        rw [kept]
        exact knew role'
  · intro id session at_
    simp only [setConnected, heeds.channel]
    exact inv.sessions id session at_

/-- A session starts. -/
theorem Inv.of_sent {tunnel : UdpTunnel} (inv : tunnel.Inv) {addr : SocketAddr}
    {next : Connected} (at_ : tunnel.connected.listener = .sending addr)
    (taken : tunnel.connected.step .udp .sent = some next) :
    ({ tunnel.setConnected next with sessions := tunnel.sessions ++ [tunnel.spawn addr] } :
      UdpTunnel).Inv := by
  have heeds := Connected.step_heeds taken
  refine ⟨?_, inv.registered.step taken, ?_, ?_⟩
  · simp only [setConnected, heeds.channel, heeds.seen (by simp)]
    exact inv.seen
  · intro source forwarders in_
    rcases session_of_step taken in_ with ⟨_, was, spawned⟩ | ⟨before, was, _⟩
    · rw [at_] at was
      cases was
      refine ⟨tunnel.spawn addr, ?_, rfl, fun role => Or.inl ?_⟩
      · simp [current]
      · rw [spawned]
        cases role <;> rfl
    · rw [at_] at was
      cases was
  · intro id session is
    simp only [setConnected, heeds.channel]
    rw [List.getElem?_append] at is
    split at is
    · exact inv.sessions id session is
    · rw [List.getElem?_singleton] at is
      split at is <;> cases is
      exact ⟨inv.seen, inv.seen, (fun n there => by cases there),
        (fun bytes there => by cases there), (fun n there => by cases there)⟩

/-- What the application or the host does to a session touches neither its tasks nor
its address. -/
theorem Inv.of_around {tunnel : UdpTunnel} (inv : tunnel.Inv) {id : Nat}
    {session after : UdpSession} (at_ : tunnel.sessions[id]? = some session)
    (task : after.reader.task = session.reader.task) (buf : after.reader.buf = session.reader.buf)
    (addr : after.reader.clientLocalAddr = session.reader.clientLocalAddr)
    (down : after.pipe.down = session.pipe.down) : (tunnel.setSession id after).Inv := by
  have was := inv.sessions id session at_
  refine inv.of_session at_ ⟨?_, ?_, ?_, ?_, ?_⟩ addr (fun role => Or.inr ?_) tunnel.socket
  · rw [task]
    exact was.readerSeen
  · rw [down]
    exact was.senderSeen
  · rw [task, buf]
    exact was.peeked
  · rw [task]
    exact was.readerOwes
  · rw [down]
    exact was.senderPeeks
  · cases role <;> simp only [UdpSession.status, task, down]

theorem Inv.of_listenerStep {tunnel next : UdpTunnel} (inv : tunnel.Inv) {act : ListenerAct}
    (taken : tunnel.listenerStep act = some next) : next.Inv := by
  cases act with
  | incoming addr =>
      simp only [listenerStep] at taken
      split at taken
      · rcases Option.map_eq_some_iff.mp taken with ⟨connected, moved, same⟩
        cases same
        exact inv.of_listener moved (by simp) (fun _ _ is => by cases is)
      · cases taken
  | sent =>
      simp only [listenerStep] at taken
      split at taken
      · rename_i at_
        rcases Option.map_eq_some_iff.mp taken with ⟨connected, moved, same⟩
        cases same
        exact inv.of_sent at_ moved
      · cases taken
  | forwarderEnds role status =>
      simp only [listenerStep] at taken
      split at taken
      · rename_i told
        rcases Option.map_eq_some_iff.mp taken with ⟨connected, moved, same⟩
        cases same
        refine inv.of_listener moved (by simp) (fun _ _ is => ?_)
        cases is
        exact told
      · cases taken
  | incomingFails =>
      simp only [listenerStep] at taken
      split at taken
      · rcases Option.map_eq_some_iff.mp taken with ⟨connected, moved, same⟩
        cases same
        have kept := inv.of_listener moved (by simp) (fun _ _ is => by cases is)
        exact ⟨kept.seen, kept.registered, kept.knows, kept.sessions⟩
      · cases taken
  | bound | bindFails | stop | opened | openFails | sendFails | join | detachedEnds =>
      rcases Option.map_eq_some_iff.mp taken with ⟨connected, moved, same⟩
      cases same
      exact inv.of_listener moved (by simp) (fun _ _ is => by cases is)

theorem Inv.of_reader {tunnel next : UdpTunnel} (inv : tunnel.Inv) {id : Nat} {act : Act}
    (taken : machine.step tunnel (.reader id act) = some next) : next.Inv := by
  rcases Option.bind_eq_some_iff.mp taken with ⟨session, at_, moved⟩
  rcases Option.map_eq_some_iff.mp moved with ⟨⟨socket, reader⟩, taken', same⟩
  cases same
  have moves := Reader.moves_of_step taken'
  refine inv.of_session at_ ((inv.sessions id session at_).readerStep taken') moves.addr ?_ socket
  intro role
  cases role with
  | up => exact Or.inl (Pc.status_of_running moves.running)
  | down => exact Or.inr rfl

theorem Inv.of_sender {tunnel next : UdpTunnel} (inv : tunnel.Inv) {id : Nat} {act : Act}
    (taken : machine.step tunnel (.sender id act) = some next) : next.Inv := by
  rcases Option.bind_eq_some_iff.mp taken with ⟨session, at_, moved⟩
  rcases Option.map_eq_some_iff.mp moved with ⟨⟨pipe, last⟩, taken', same⟩
  cases same
  refine inv.of_session at_ ((inv.sessions id session at_).senderStep taken') rfl ?_ tunnel.socket
  intro role
  cases role with
  | up => exact Or.inr rfl
  | down => exact Or.inl (Pc.status_of_running (Pipe.downStep_moves taken').running)

theorem inductive_inv : machine.Inductive Inv where
  start tunnel starts := by
    cases starts
    refine ⟨Nat.le_refl _, ?_, ?_, ?_⟩
    · intro addr member
      cases member
    · intro addr forwarders in_
      cases in_
    · intro id session is
      cases is
  step tunnel event next inv taken := by
    cases event with
    | listener act => exact inv.of_listenerStep taken
    | reader id act => exact inv.of_reader taken
    | sender id act => exact inv.of_sender taken
    | tick | arrive | sockError | close =>
        cases taken
        exact ⟨inv.seen, inv.registered, inv.knows, inv.sessions⟩
    | sendStop =>
        simp only [machine, step] at taken
        split at taken <;> cases taken
        exact inv.of_stop (Nat.le_succ _)
    | dropStop =>
        cases taken
        exact inv.of_stop (Nat.le_refl _)
    | stopReading id | write id bytes | finish id | deliver id count | deliverEnd id =>
        rcases Option.map_eq_some_iff.mp taken with ⟨session, at_, same⟩
        cases same
        exact inv.of_around at_ rfl rfl rfl rfl

end UdpTunnel

end Client
end Lantun
