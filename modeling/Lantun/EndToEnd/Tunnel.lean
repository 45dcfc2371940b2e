import Lantun.Host.Connection
import Lantun.Net.Session
import Lantun.Pair.Exchange
import Lantun.Pair.Parties

namespace Lantun
namespace EndToEnd

open Async Client Net Pair

/-!
# A TCP tunnel from end to end

One client tunnel, the handler that serves it, and all that flows between them:
the exchange of streams and requests, and for every application its connection,
the bidirectional stream that is opened for it, the connection to the service,
and the four forwarders in between.

The parts are those modelled before.  What is added is how they are put together.
The listener hands the socket it has accepted and the stream it has opened last to
the forwarders of its end.  The handler hands the stream it has accepted last and
the socket it connects to the forwarders of the other.  Each end waits for its two
forwarders before it goes on; forwarders that a panic has detached run on.  A
stream whose halves nobody has been given is dropped where its function returns.

The listener takes applications in the order in which they connect, and any error
ends it, so the `k`-th stream is the one of the `k`-th application.
-/

/-- An application's connection and everything that carries it. -/
structure Line where
  addr : SocketAddr
  pipe : Side → Pipe UInt8
  lastActive : Side → Nat

namespace Line

/-- An application has connected. -/
def dialed (addr : SocketAddr) : Line := ⟨addr, fun _ => Pipe.start 0 0, fun _ => 0⟩

def setPipe (line : Line) (side : Side) (pipe : Pipe UInt8) : Line :=
  { line with pipe := Function.update line.pipe side pipe }

def setActive (line : Line) (side : Side) (last : Nat) : Line :=
  { line with lastActive := Function.update line.lastActive side last }

/-- Put the two tasks of one end: the upper one of the direction that starts there
and the lower one of the direction that ends there. -/
def setEnd (line : Line) (at_ : Side) (lost : Bool) (task : Task) : Line :=
  { line with
    pipe := fun side =>
      if side = at_ then (line.pipe side).setUp lost task else (line.pipe side).setDown task }

/-- `bi_tcp_stream_client` or `bi_tcp_stream_host` has spawned its forwarders, with
clones of a receiver that has seen `seen`. -/
def begins (line : Line) (at_ : Side) (lost : Bool) (seen clock : Nat) : Line :=
  (line.setEnd at_ lost ⟨.top, seen⟩).setActive at_ (nowSecs clock)

/-- Both halves at one end are dropped without forwarders.  To the stream that is
what the end of a forwarder is, and none will run there. -/
def drops (line : Line) (at_ : Side) (lost : Bool) : Line :=
  line.setEnd at_ lost ⟨.done .stopped, 0⟩

/-- How the two forwarders of one end stand. -/
def forwarders (line : Line) (at_ : Side) : Forwarders where
  tunnelToSocket := (line.pipe at_.other).down.pc.status
  socketToTunnel := (line.pipe at_).up.pc.status

/-- The client has sent something on the stream, or ended it. -/
def announced (line : Line) : Bool :=
  !(line.pipe .client).stream.accepted.isEmpty || (line.pipe .client).stream.ending.isSome

end Line

structure Tunnel where
  clock : Nat
  exchange : Exchange
  /-- Every application that has connected, in order. -/
  lines : List Line
  /-- How many of them the listener has accepted. -/
  taken : Nat
  /-- How many sessions have begun at each end. -/
  begun : Side → Nat
  /-- The stop channel of the host tunnel. -/
  hostStop : Watch

/-- What an application or the service does with its connection. -/
inductive SocketAct where
  | sends (byte : UInt8)
  | closes
  | fails
  deriving DecidableEq, Repr

inductive Label where
  | dial (addr : SocketAddr)
  | socket (index : Nat) (side : Side) (act : SocketAct)
  | exchange (event : ExchangeEvent)
  /-- The handler has connected a socket to the service. -/
  | connect
  /-- A step of a forwarder of the direction that starts at `side`. -/
  | task (index : Nat) (side : Side) (role : Role) (act : Act)
  | deliver (index : Nat) (side : Side) (count : Nat)
  | deliverEnd (index : Nat) (side : Side)
  | tick (nanos : Nat)
  | stopHost
  | dropHostStop
  deriving DecidableEq, Repr

namespace Tunnel

/-- Right after the connection has been admitted. -/
def started : Tunnel where
  clock := 0
  exchange := Exchange.started
  lines := []
  taken := 0
  begun _ := 0
  hostStop := Watch.channel false

/-- The connection is lost on this side. -/
def lost (tunnel : Tunnel) : Side → Bool
  | .client => tunnel.exchange.client.closed
  | .host => tunnel.exchange.lost

def stop (tunnel : Tunnel) : Side → Watch
  | .client => tunnel.exchange.client.stop
  | .host => tunnel.hostStop

/-- What the forwarders of one line see at one end. -/
def env (tunnel : Tunnel) (line : Line) (side : Side) : Env where
  clock := tunnel.clock
  lastActive := line.lastActive side
  stop := tunnel.stop side
  lost := tunnel.lost side

def onLine (tunnel : Tunnel) (index : Nat) (change : Line → Line) : Tunnel :=
  { tunnel with lines := tunnel.lines.modify index change }

/-- The session on a line begins at one end. -/
def spawn (tunnel : Tunnel) (at_ : Side) (index seen : Nat) : Tunnel :=
  { tunnel.onLine index (fun line => line.begins at_ (tunnel.lost at_) seen tunnel.clock) with
    begun := Function.update tunnel.begun at_ (tunnel.begun at_ + 1) }

/-- The line of the session that one end waits for. -/
def current (tunnel : Tunnel) (at_ : Side) : Option Line := tunnel.lines[tunnel.begun at_ - 1]?

/-- Whether the surroundings allow a step of the exchange. -/
def permits (tunnel : Tunnel) : ExchangeEvent → Bool
  | .listener (.incoming addr) => decide ((tunnel.lines[tunnel.taken]?).map Line.addr = some addr)
  | .listener (.forwarderEnds role status) =>
      decide ((tunnel.current .client).map (fun line => (line.forwarders .client).status role) =
        some status)
  -- a detached forwarder is a task of its line
  | .listener .detachedEnds => false
  | .host .fails =>
      match tunnel.exchange.handler with
      | .serving _ => decide (tunnel.begun .host < tunnel.exchange.accepted)
      | _ => true
  | .host .sessionEnds =>
      decide (tunnel.begun .host = tunnel.exchange.accepted) &&
        ((tunnel.current .host).map fun line => (line.forwarders .host).joined) == some true
  | .announceBi =>
      ((tunnel.lines.take tunnel.exchange.opened.length).drop tunnel.exchange.knownBi).any
        Line.announced
  | _ => true

/-- What a step of the exchange means for the lines.  The stream that was opened
last is the client's to hand on or to drop, and the one accepted last the host's. -/
def after (tunnel : Tunnel) (event : ExchangeEvent) (exchange : Exchange) : Tunnel :=
  match event with
  | .listener (.incoming _) => { tunnel with exchange, taken := tunnel.taken + 1 }
  | .listener .sent =>
      { tunnel with exchange }.spawn .client (tunnel.exchange.opened.length - 1)
        tunnel.exchange.client.seen
  | .listener .sendFails =>
      { tunnel with exchange }.onLine (tunnel.exchange.opened.length - 1) fun line =>
        line.drops .client (tunnel.lost .client)
  | .host _ =>
      if exchange.handler = .returned ∧ tunnel.exchange.handler ≠ .acceptBi then
        { tunnel with exchange }.onLine (tunnel.exchange.accepted - 1) fun line =>
          line.drops .host (tunnel.lost .host)
      else { tunnel with exchange }
  | _ => { tunnel with exchange }

def socketStep (tunnel : Tunnel) (index : Nat) (side : Side) (act : SocketAct) : Option Tunnel :=
  if side = .client ∨ index < tunnel.begun .host then
    (tunnel.lines[index]?).bind fun line =>
      match act with
      | .sends byte =>
          if (line.pipe side).eof then none
          else some (tunnel.onLine index fun line => line.setPipe side ((line.pipe side).send byte))
      | .closes =>
          some (tunnel.onLine index fun line =>
            line.setPipe side { line.pipe side with eof := true })
      | .fails =>
          some (tunnel.onLine index fun line =>
            line.setPipe side { line.pipe side with sockError := true })
  else none

/-- The handler connects the virtual client socket.  It has a receiver of the
accept loop, which never looks at the stop channel. -/
def connectStep (tunnelAddr : SocketAddr) (tunnel : Tunnel) : Option Tunnel :=
  match tunnel.exchange.handler with
  | .serving localAddr =>
      if tunnel.begun .host < tunnel.exchange.accepted ∧
          Host.compatible .tcp tunnelAddr localAddr = true then
        some (tunnel.spawn .host (tunnel.exchange.accepted - 1) 0)
      else none
  | _ => none

/-- A step of a forwarder, at the end it runs at. -/
def taskStep (tunnel : Tunnel) (index : Nat) (side : Side) (role : Role) (act : Act) :
    Option Tunnel :=
  if index < tunnel.begun (role.endOf side) then
    (tunnel.lines[index]?).bind fun line =>
      let moved :=
        match role with
        | .up => Bi.tcp.up side (tunnel.env line side) (line.pipe side) act
        | .down => Bi.tcp.down side (tunnel.env line side.other) (line.pipe side) act
      moved.map fun (pipe, last) =>
        tunnel.onLine index fun line =>
          (line.setPipe side pipe).setActive (role.endOf side) last
  else none

/-- One step. -/
def step (bincode : Bincode) (tunnelAddr : SocketAddr) (tunnel : Tunnel) : Label → Option Tunnel
  | .dial addr =>
      if listens tunnel.exchange.client.listener then
        some { tunnel with lines := tunnel.lines ++ [Line.dialed addr] }
      else none
  | .socket index side act => tunnel.socketStep index side act
  | .exchange event =>
      if tunnel.permits event then
        (tunnel.exchange.step bincode .tcp event).map (tunnel.after event)
      else none
  | .connect => tunnel.connectStep tunnelAddr
  | .task index side role act => tunnel.taskStep index side role act
  | .deliver index side count =>
      if tunnel.lost side.other then none
      else some (tunnel.onLine index fun line =>
        line.setPipe side ((line.pipe side).deliver count))
  | .deliverEnd index side =>
      if tunnel.lost side.other then none
      else some (tunnel.onLine index fun line =>
        line.setPipe side (line.pipe side).deliverEnd)
  | .tick nanos => some { tunnel with clock := tunnel.clock + nanos }
  | .stopHost =>
      if tunnel.hostStop.closed then none
      else some { tunnel with hostStop := tunnel.hostStop.send true }
  | .dropHostStop => some { tunnel with hostStop := tunnel.hostStop.dropSender }

def machine (bincode : Bincode) (tunnelAddr : SocketAddr) : Machine Tunnel Label where
  initial tunnel := tunnel = started
  step := step bincode tunnelAddr

end Tunnel

end EndToEnd
end Lantun
