import Lantun.Machine.Progress
import Lantun.Client.Listener
import Lantun.Host.Connection

namespace Lantun
namespace Pair

open Client Net

/-!
# A client tunnel and the handler that serves it

The TCP listener of `ClientTunnel::connect` and `HostTunnel::handle_connection`
meet over one connection.  Both are the functions modelled before; here the
client's steps put bytes, endings and requests on streams, the network carries
them, and only what has been carried is there for the host.

Two facts about the transport shape the machine.  A bidirectional stream costs
nothing to open and is not announced: the host can accept it once the client has
sent something on it, finished it, or done so on a later stream.  And a request
travels on a unidirectional stream of its own, so it can overtake the stream it
is about.

Applications are numbered in the order in which they reach the listener.  The
listener takes them in that order and an error ends it, so application `k` is
the one the client opens its `k`-th stream for, and `k` names the session.  The forwarders of a session
move while the session lasts; those that a session leaves behind when it returns
are not followed.  The machine covers the time in which both tunnels run: to
stop one of them is not among its steps.
-/

/-- A local application and its connection to the client tunnel's socket. -/
structure App where
  addr : SocketAddr
  /-- Bytes it has sent that the tunnel has not read. -/
  unread : Nat
  eof : Bool
  /-- It has reset its connection. -/
  broken : Bool
  deriving DecidableEq, Repr

/-- A bidirectional stream, as far as the client's side and the network go. -/
structure Wire where
  /-- Bytes the client's send half has accepted. -/
  written : Nat
  /-- How many of them have arrived at the host. -/
  arrived : Nat
  /-- The client's send half has ended. -/
  fin : Bool
  /-- The client's receive half was dropped before its end. -/
  stopped : Bool
  /-- Bytes from the service that the client has not read. -/
  back : Nat
  /-- The host's send half has ended. -/
  backFin : Bool
  /-- The host's receive half was dropped before its end. -/
  declined : Bool
  /-- The client's send half knows of it. -/
  refused : Bool
  /-- Bytes that have been written to the service. -/
  delivered : Nat
  deriving DecidableEq, Repr

namespace Wire

def opened : Wire := ⟨0, 0, false, false, 0, false, false, false, 0⟩

/-- Something has been sent on the stream, so the host can come to know of it. -/
def announced (wire : Wire) : Bool := decide (0 < wire.written) || wire.fin

/-- The client's send half is dropped. -/
def dropSend (wire : Wire) (lost : Bool) : Wire := { wire with fin := wire.fin || !lost }

end Wire

structure Parties where
  /-- Every application that has connected, in order. -/
  apps : List App
  /-- How many of them the listener has accepted. -/
  taken : Nat
  client : Connected
  wires : List Wire
  /-- How many requests have been sent completely. -/
  requests : Nat
  /-- The connection as the host has it. -/
  conn : Host.Conn Unit
  handler : Host.Outcome
  /-- The host's `local_connections` of this client. -/
  registry : LocalConnections
  /-- The local addresses for which a socket was connected to the service. -/
  established : List SocketAddr
  deriving DecidableEq

inductive AppAct where
  | sends (count : Nat)
  | closes
  | resets
  deriving DecidableEq, Repr

/-- A step of one of the client's two forwarders. -/
inductive Forward where
  | relay (count : Nat)
  | relayFails
  | ends
  | timesOut
  deriving DecidableEq, Repr

/-- Something the network carries from one end to the other. -/
inductive Delivery where
  /-- The next bidirectional stream becomes known to the host. -/
  | announce
  | data (stream count : Nat)
  | finish (stream : Nat)
  | stopReading (stream : Nat)
  /-- The next unidirectional stream becomes known to the host. -/
  | openUni
  /-- A request has arrived completely. -/
  | request (index : Nat)
  /-- The client learns that the host no longer reads a stream. -/
  | refuse (stream : Nat)
  deriving DecidableEq, Repr

inductive Label where
  | dial (addr : SocketAddr)
  | app (index : Nat) (act : AppAct)
  | listener (act : ListenerAct)
  /-- A forwarder of the client's current session, which is the one named. -/
  | forwarder (session : Nat) (role : Role) (act : Forward)
  /-- A step of the handler on the way to, or in, the session named. -/
  | host (session : Nat) (act : Host.HandlerAct)
  | network (delivery : Delivery)
  | clientLoses
  | hostLoses
  deriving DecidableEq

/-- The listening socket is there to connect to. -/
def listens : Listener → Bool
  | .binding | .ended _ => false
  | _ => true

/-! ## What a forwarder of the client does -/

/-- Whether `tcp_read.read` would return something. -/
def App.readable (app : App) : Bool := !app.broken && (decide (0 < app.unread) || app.eof)

/-- A forwarder moves: what it leaves of its application and its stream, and how
it stands after it. -/
def forward (lost : Bool) (app : App) (wire : Wire) :
    Role → Forward → Option (App × Wire × TaskStatus)
  | .up, .relay count =>
      if 0 < count ∧ count ≤ app.unread ∧ count ≤ tunnelForwarderBufferSize ∧
          app.broken = false ∧ lost = false ∧ wire.refused = false then
        some ({ app with unread := app.unread - count },
          { wire with written := wire.written + count }, .running)
      else none
  | .up, .relayFails =>
      if 0 < app.unread ∧ app.broken = false ∧ (lost = true ∨ wire.refused = true) then
        some (app, wire.dropSend lost, .panicked)
      else none
  | .up, .ends =>
      if app.unread = 0 ∧ app.eof = true ∧ app.broken = false then
        some (app, wire.dropSend lost, .finished)
      else none
  | .up, .timesOut => some (app, wire.dropSend lost, .finished)
  | .down, .relay count =>
      if 0 < count ∧ count ≤ wire.back ∧ count ≤ tunnelForwarderBufferSize then
        some (app, { wire with back := wire.back - count }, .running)
      else none
  | .down, .relayFails =>
      -- an application that has gone refuses what is written to it
      if 0 < wire.back ∧ (app.broken = true ∨ app.eof = true) then
        some (app, { wire with stopped := true }, .panicked)
      else none
  | .down, .ends =>
      if wire.back = 0 ∧ wire.backFin = true then some (app, wire, .finished) else none
  | .down, .timesOut => some (app, { wire with stopped := true }, .finished)

/-! ## What the host does to a stream -/

/-- The stream a handler step is about. -/
def stream : Host.Phase → Option Nat
  | .acceptBi => none
  | .receivePacket stream | .connecting stream _ | .session stream _ _ => some stream

/-- What a handler step leaves on the stream of the session. -/
def effect (act : Host.HandlerAct) (wire : Wire) : Wire :=
  match act with
  | .relay .down count => { wire with delivered := wire.delivered + count }
  | .relay .up count => { wire with back := wire.back + count }
  | .relayFails .up | .ends .up | .timesOut .up => { wire with backFin := true }
  | .relayFails .down | .timesOut .down => { wire with declined := true }
  | .receiveFails | .connectFails | .familyMismatch =>
      { wire with backFin := true, declined := true }
  | _ => wire

/-- The local address for which a handler step has connected to the service. -/
def connects : Host.Phase → Host.HandlerAct → Option SocketAddr
  | .connecting _ localAddr, .connect => some localAddr
  | _, _ => none

/-- What a step does to the `local_connections` of the client. -/
def register (connections : LocalConnections) : Host.Registration → LocalConnections
  | .keep => connections
  | .insert virtualAddr connection => connections.insert virtualAddr connection
  | .remove virtualAddr => connections.erase virtualAddr

namespace Parties

/-- Right after the connection is established and admitted. -/
def started : Parties where
  apps := []
  taken := 0
  client := .spawned
  wires := []
  requests := 0
  conn := { Host.Conn.incoming () with link := .live, life := .serving }
  handler := .continues .acceptBi
  registry := ∅
  established := []

/-- The local address of an application. -/
def addr? (parties : Parties) (index : Nat) : Option SocketAddr :=
  (parties.apps[index]?).map App.addr

/-- The session the handler is on the way to, or in. -/
def turn (parties : Parties) : Nat :=
  match parties.handler with
  | .continues phase => (stream phase).getD parties.conn.accepted
  | .returns _ => parties.conn.accepted

/-- The connection still carries what the client sends. -/
def alive (parties : Parties) : Bool :=
  decide (parties.conn.link = .live) && !parties.client.closed

def setApp (parties : Parties) (index : Nat) (app : App) : Parties :=
  { parties with apps := parties.apps.set index app }

def setWire (parties : Parties) (index : Nat) (wire : Wire) : Parties :=
  { parties with wires := parties.wires.set index wire }

def appStep (parties : Parties) (index : Nat) (act : AppAct) : Option Parties :=
  (parties.apps[index]?).bind fun app =>
    if app.eof || app.broken then none
    else
      match act with
      | .sends count => some (parties.setApp index { app with unread := app.unread + count })
      | .closes => some (parties.setApp index { app with eof := true })
      | .resets => some (parties.setApp index { app with broken := true })

/-- A step of the listener task.  It accepts in order, and `send_packet` fails
on a lost connection only, since the host reads every request to its end. -/
def listenerStep (parties : Parties) (act : ListenerAct) : Option Parties :=
  (parties.client.step .tcp act).bind fun client =>
    match act with
    | .incoming addr =>
        if parties.addr? parties.taken = some addr then
          some { parties with client, taken := parties.taken + 1 }
        else none
    | .opened => some { parties with client, wires := parties.wires ++ [.opened] }
    | .sent => some { parties with client, requests := parties.requests + 1 }
    | .sendFails => if parties.client.closed then some { parties with client } else none
    | .forwarderEnds _ _ | .detachedEnds => none
    | _ => some { parties with client }

/-- The listener learns how a forwarder of its session stands. -/
def settle (client : Connected) (role : Role) : TaskStatus → Option Connected
  | .running => some client
  | status => client.step .tcp (.forwarderEnds role status)

def forwarderStep (parties : Parties) (role : Role) (act : Forward) : Option Parties :=
  match parties.client.listener with
  | .session _ forwarders =>
      if forwarders.status role = .running then
        let index := parties.wires.length - 1
        (parties.apps[index]?).bind fun app =>
          (parties.wires[index]?).bind fun wire =>
            (forward parties.client.closed app wire role act).bind fun (app, wire, status) =>
              (settle parties.client role status).map fun client =>
                { (parties.setApp index app).setWire index wire with client }
      else none
  | _ => none

def onStream (parties : Parties) (act : Host.HandlerAct) : Option Nat → Parties
  | some stream =>
      { parties with wires := parties.wires.modify stream (effect act) }
  | none => parties

def hostStep (tunnelAddr : SocketAddr) (parties : Parties) (act : Host.HandlerAct) :
    Option Parties :=
  match parties.handler with
  | .returns _ => none
  | .continues phase =>
      (parties.conn.handlerStep .tcp tunnelAddr false phase act).map
        fun (conn, registration, outcome) =>
          { parties.onStream act (stream phase) with
            conn
            handler := outcome
            registry := register parties.registry registration
            established := parties.established ++ (connects phase act).toList }

def networkStep (parties : Parties) (delivery : Delivery) : Option Parties :=
  if parties.alive then
    match delivery with
    | .announce =>
        if (parties.wires.drop parties.conn.streams.length).any Wire.announced then
          (parties.conn.clientStep .announceBi).map fun conn => { parties with conn }
        else none
    | .data stream count =>
        (parties.wires[stream]?).bind fun wire =>
          if wire.arrived + count ≤ wire.written then
            (parties.conn.clientStep (.data stream count)).map fun conn =>
              { parties.setWire stream { wire with arrived := wire.arrived + count } with conn }
          else none
    | .finish stream =>
        (parties.wires[stream]?).bind fun wire =>
          if wire.arrived = wire.written ∧ wire.fin = true then
            (parties.conn.clientStep (.finish stream)).map fun conn => { parties with conn }
          else none
    | .stopReading stream =>
        (parties.wires[stream]?).bind fun wire =>
          if wire.stopped then
            (parties.conn.clientStep (.stopReading stream)).map fun conn => { parties with conn }
          else none
    | .openUni =>
        if parties.conn.controls.length < parties.wires.length then
          (parties.conn.clientStep .openUni).map fun conn => { parties with conn }
        else none
    | .request index =>
        if index < parties.requests then
          (parties.addr? index).bind fun addr =>
            (parties.conn.clientStep (.control index (.packet (.connReq addr)))).map
              fun conn => { parties with conn }
        else none
    | .refuse stream =>
        (parties.wires[stream]?).bind fun wire =>
          if wire.declined then some (parties.setWire stream { wire with refused := true })
          else none
  else none

/-- One step. -/
def step (tunnelAddr : SocketAddr) (parties : Parties) : Label → Option Parties
  | .dial addr =>
      if listens parties.client.listener then
        some { parties with apps := parties.apps ++ [⟨addr, 0, false, false⟩] }
      else none
  | .app index act => parties.appStep index act
  | .listener act => parties.listenerStep act
  | .forwarder session role act =>
      if session + 1 = parties.wires.length then parties.forwarderStep role act else none
  | .host session act => if parties.turn = session then parties.hostStep tunnelAddr act else none
  | .network delivery => parties.networkStep delivery
  | .clientLoses => some { parties with client := { parties.client with closed := true } }
  | .hostLoses => some { parties with conn := { parties.conn with link := .closed } }

def machine (tunnelAddr : SocketAddr) : Machine Parties Label where
  initial parties := parties = started
  step := step tunnelAddr

end Parties

end Pair
end Lantun
