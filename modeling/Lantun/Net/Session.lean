import Lantun.Machine.Run
import Lantun.Net.PipeInvariant

namespace Lantun
namespace Net

open Async

/-!
# A session between its two ends

One local connection of the client and the host's connection to the service are
joined by a bidirectional QUIC stream.  `bi_tcp_stream_client` or
`bi_udp_client` runs at one end, `bi_tcp_stream_host` or `bi_udp_host` at the
other, two forwarders each.  The session is a labelled machine: a label lets an
application, the network, the clock, one of the two tunnels or one of the four
tasks move.  Tasks meet at `last_active` and at the stop channel of their own
end, and at the streams between the ends.

A direction is named after the end whose socket it starts at, so its upper task
runs at that end and its lower task at the other.
-/

inductive Side where
  | client
  | host
  deriving DecidableEq, Repr

def Side.other : Side → Side
  | .client => .host
  | .host => .client

/-! ## The eight forwarders under their names -/

abbrev Forwarder (α : Type) := Env → Pipe α → Act → Option (Pipe α × Nat)

namespace BiTcpStreamHost
def tunnelToTcpForwader : Forwarder UInt8 := Pipe.downStep Sock.tcp
def tcpToTunnelForwader : Forwarder UInt8 := Pipe.upStep Sock.tcp .tcpRead
end BiTcpStreamHost

namespace BiTcpStreamClient
def tunnelToTcpForwader : Forwarder UInt8 := Pipe.downStep Sock.tcp
def tcpToTunnelForwader : Forwarder UInt8 := Pipe.upStep Sock.tcp .tcpRead
end BiTcpStreamClient

namespace BiUdpHost
def tunnelToUdpForwader : Forwarder (List UInt8) := Pipe.downStep Sock.udp
def udpToTunnelForwader : Forwarder (List UInt8) := Pipe.upStep Sock.udp .udpRecv
end BiUdpHost

namespace BiUdpClient
def tunnelToUdpForwader : Forwarder (List UInt8) := Pipe.downStep Sock.udp
def udpToTunnelForwader : Forwarder (List UInt8) := Pipe.upStep Sock.udp .udpPeekFrom
end BiUdpClient

/-- The four tasks of a session, indexed by the direction they serve. -/
structure Bi (α : Type) where
  sock : Sock α
  up : Side → Forwarder α
  down : Side → Forwarder α
  up_eq : ∀ side, ∃ source, up side = Pipe.upStep sock source
  down_eq : ∀ side, down side = Pipe.downStep sock

namespace Bi

/-- `bi_tcp_stream_client` joined to `bi_tcp_stream_host`. -/
def tcp : Bi UInt8 where
  sock := .tcp
  up
    | .client => BiTcpStreamClient.tcpToTunnelForwader
    | .host => BiTcpStreamHost.tcpToTunnelForwader
  down
    | .client => BiTcpStreamHost.tunnelToTcpForwader
    | .host => BiTcpStreamClient.tunnelToTcpForwader
  up_eq side := ⟨.tcpRead, by cases side <;> rfl⟩
  down_eq side := by cases side <;> rfl

/-- `bi_udp_client` joined to `bi_udp_host`. -/
def udp : Bi (List UInt8) where
  sock := .udp
  up
    | .client => BiUdpClient.udpToTunnelForwader
    | .host => BiUdpHost.udpToTunnelForwader
  down
    | .client => BiUdpHost.tunnelToUdpForwader
    | .host => BiUdpClient.tunnelToUdpForwader
  up_eq
    | .client => ⟨.udpPeekFrom, rfl⟩
    | .host => ⟨.udpRecv, rfl⟩
  down_eq side := by cases side <;> rfl

end Bi

structure Session (α : Type) where
  clock : Nat
  /-- The two directions, each named after the end it starts at. -/
  pipe : Side → Pipe α
  lastActive : Side → Nat
  stop : Side → Watch
  lost : Side → Bool

inductive Event (α : Type) where
  /-- The application at this end sends. -/
  | send (side : Side) (entry : α)
  | close (side : Side)
  | sockError (side : Side)
  | tick (nanos : Nat)
  | stop (side : Side)
  | dropStop (side : Side)
  | lose (side : Side)
  /-- The network carries bytes of the direction that starts at this end. -/
  | deliver (side : Side) (count : Nat)
  | deliverEnd (side : Side)
  /-- One task of the direction that starts at this end moves. -/
  | task (side : Side) (role : Role) (act : Act)
  deriving DecidableEq, Repr

namespace Session

variable {α : Type}

def env (session : Session α) (side : Side) : Env where
  clock := session.clock
  lastActive := session.lastActive side
  stop := session.stop side
  lost := session.lost side

def setPipe (session : Session α) (side : Side) (pipe : Pipe α) : Session α :=
  { session with pipe := Function.update session.pipe side pipe }

def setActive (session : Session α) (side : Side) (last : Nat) : Session α :=
  { session with lastActive := Function.update session.lastActive side last }

/-- One event. -/
def step (bi : Bi α) (session : Session α) : Event α → Option (Session α)
  | .send side entry =>
      if (session.pipe side).eof then none
      else some (session.setPipe side ((session.pipe side).send entry))
  | .close side =>
      if bi.sock.hasEof then some (session.setPipe side { session.pipe side with eof := true })
      else none
  | .sockError side => some (session.setPipe side { session.pipe side with sockError := true })
  | .tick nanos => some { session with clock := session.clock + nanos }
  | .stop side =>
      if (session.stop side).closed then none
      else some { session with
        stop := Function.update session.stop side ((session.stop side).send true) }
  | .dropStop side =>
      some { session with
        stop := Function.update session.stop side (session.stop side).dropSender }
  | .lose side => some { session with lost := Function.update session.lost side true }
  | .deliver side count =>
      if session.lost side.other then none
      else some (session.setPipe side ((session.pipe side).deliver count))
  | .deliverEnd side =>
      if session.lost side.other then none
      else some (session.setPipe side (session.pipe side).deliverEnd)
  | .task side .up act =>
      (bi.up side (session.env side) (session.pipe side) act).map fun (pipe, last) =>
        (session.setPipe side pipe).setActive side last
  | .task side .down act =>
      (bi.down side (session.env side.other) (session.pipe side) act).map fun (pipe, last) =>
        (session.setPipe side pipe).setActive side.other last

/-- Both ends store the current second before they spawn their forwarders.  The
receivers may have been cloned from a stop channel in any state. -/
def Starts (session : Session α) : Prop :=
  (∀ side, ∃ seenUp seenDown, session.pipe side = Pipe.start seenUp seenDown) ∧
    (∀ side, session.lastActive side = nowSecs session.clock) ∧
    ∀ side, session.lost side = false

def machine (bi : Bi α) : Machine (Session α) (Event α) where
  initial := Starts
  step := step bi

/-- A session that has just started at time zero. -/
def fresh : Session α where
  clock := 0
  pipe _ := Pipe.start 0 0
  lastActive _ := 0
  stop _ := Watch.channel false
  lost _ := false

theorem fresh_starts : Starts (fresh : Session α) :=
  ⟨fun _ => ⟨0, 0, rfl⟩, fun _ => (Nat.zero_div _).symm, fun _ => rfl⟩

/-- One round of a task up to its `select!`. -/
def enterSelect (side : Side) (role : Role) : List (Event α) :=
  [.task side role (.control .now), .task side role (.control .load)]

/-! ## What an event does to one direction -/

/-- Everything an event can do to the direction that starts at `side`. -/
inductive PipeMoves (bi : Bi α) (session next : Session α) (side : Side) : Event α → Prop where
  | aside {event : Event α} :
      (∀ entry, event ≠ .send side entry) → (∀ role act, event ≠ .task side role act) →
        next.pipe side = session.pipe side → PipeMoves bi session next side event
  | send {entry : α} :
      next.pipe side = (session.pipe side).send entry →
        PipeMoves bi session next side (.send side entry)
  | close :
      bi.sock.hasEof = true → next.pipe side = { session.pipe side with eof := true } →
        PipeMoves bi session next side (.close side)
  | sockError :
      next.pipe side = { session.pipe side with sockError := true } →
        PipeMoves bi session next side (.sockError side)
  | deliver {count : Nat} :
      session.lost side.other = false → next.pipe side = (session.pipe side).deliver count →
        PipeMoves bi session next side (.deliver side count)
  | deliverEnd :
      session.lost side.other = false → next.pipe side = (session.pipe side).deliverEnd →
        PipeMoves bi session next side (.deliverEnd side)
  | up {source : SourceRead} {act : Act} :
      (session.pipe side).upStep bi.sock source (session.env side) act =
          some (next.pipe side, next.lastActive side) →
        PipeMoves bi session next side (.task side .up act)
  | down {act : Act} :
      (session.pipe side).downStep bi.sock (session.env side.other) act =
          some (next.pipe side, next.lastActive side.other) →
        PipeMoves bi session next side (.task side .down act)

theorem pipe_of_step {bi : Bi α} {session next : Session α} {event : Event α}
    (taken : (machine bi).step session event = some next) (side : Side) :
    PipeMoves bi session next side event := by
  have here : ∀ pipe : Pipe α, (session.setPipe side pipe).pipe side = pipe := by
    intro pipe
    simp [setPipe]
  have away : ∀ {at_ : Side} (pipe : Pipe α), side ≠ at_ →
      (session.setPipe at_ pipe).pipe side = session.pipe side := by
    intro at_ pipe different
    simp [setPipe, Function.update_of_ne different]
  cases event with
  | send at_ entry =>
      simp only [machine, step] at taken
      split at taken <;> cases taken
      by_cases same : side = at_
      · subst same
        exact .send (here _)
      · exact .aside (by simp [Ne.symm same]) (by simp) (away _ same)
  | close at_ =>
      simp only [machine, step] at taken
      split at taken <;> cases taken
      rename_i ends
      by_cases same : side = at_
      · subst same
        exact .close ends (here _)
      · exact .aside (by simp) (by simp) (away _ same)
  | sockError at_ =>
      cases taken
      by_cases same : side = at_
      · subst same
        exact .sockError (here _)
      · exact .aside (by simp) (by simp) (away _ same)
  | tick _ | dropStop _ | lose _ =>
      cases taken
      exact .aside (by simp) (by simp) rfl
  | stop _ =>
      simp only [machine, step] at taken
      split at taken <;> cases taken
      exact .aside (by simp) (by simp) rfl
  | deliver at_ count =>
      simp only [machine, step] at taken
      split at taken <;> cases taken
      rename_i open_
      by_cases same : side = at_
      · subst same
        exact .deliver (by simpa using open_) (here _)
      · exact .aside (by simp) (by simp) (away _ same)
  | deliverEnd at_ =>
      simp only [machine, step] at taken
      split at taken <;> cases taken
      rename_i open_
      by_cases same : side = at_
      · subst same
        exact .deliverEnd (by simpa using open_) (here _)
      · exact .aside (by simp) (by simp) (away _ same)
  | task at_ role act =>
      cases role with
      | up =>
          rcases Option.map_eq_some_iff.mp taken with ⟨⟨pipe, last⟩, moved, rfl⟩
          rcases bi.up_eq at_ with ⟨source, is⟩
          rw [is] at moved
          by_cases same : side = at_
          · subst same
            apply PipeMoves.up
            rw [moved]
            simp [setActive, setPipe]
          · exact .aside (by simp) (by simp [Ne.symm same]) (away _ same)
      | down =>
          rcases Option.map_eq_some_iff.mp taken with ⟨⟨pipe, last⟩, moved, rfl⟩
          rw [bi.down_eq at_] at moved
          by_cases same : side = at_
          · subst same
            apply PipeMoves.down
            rw [moved]
            simp [setActive, setPipe]
          · exact .aside (by simp) (by simp [Ne.symm same]) (away _ same)

/-! ## Both directions keep their invariant -/

def Inv (bi : Bi α) (session : Session α) : Prop := ∀ side, (session.pipe side).Inv bi.sock

theorem inductive_inv (bi : Bi α) : (machine bi).Inductive (Inv bi) where
  start session starts side := by
    obtain ⟨seenUp, seenDown, start⟩ := starts.1 side
    rw [start]
    exact Pipe.inv_start _ _ _
  step session event next inv taken side := by
    cases pipe_of_step taken side with
    | aside _ _ is =>
        rw [is]
        exact inv side
    | send is =>
        rw [is]
        exact (inv side).send _
    | close _ is =>
        rw [is]
        exact (inv side).close
    | sockError is =>
        rw [is]
        exact (inv side).sockError
    | deliver _ is =>
        rw [is]
        exact (inv side).deliver _
    | deliverEnd _ is =>
        rw [is]
        exact (inv side).deliverEnd
    | up moved => exact (inv side).upStep moved
    | down moved => exact (inv side).downStep moved

end Session

end Net
end Lantun
