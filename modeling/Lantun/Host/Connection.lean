import Lantun.Common
import Lantun.Net.Join

namespace Lantun
namespace Host

open Net

/-!
# One client connection, and the function that serves it

`HostTunnel::handle_connection` serves the sessions of one connection one after
the other.  For each it accepts a bidirectional stream, receives a `ConnReq` on a
unidirectional stream, registers the local connection, connects a socket to the
tunneled service and waits inside `bi_tcp_stream_host` or `bi_udp_host`.  Its
loop has no exit of its own; it returns where one of the fallible steps fails.

What the client has done to the connection so far is the state the function
waits on: streams it has made visible, control messages that have arrived, the
connection being closed.  Streams that arrived before a connection was closed
can still be accepted and read after it.
-/

/-- How a control stream ended, as far as it has arrived. -/
inductive Control where
  | arriving
  | packet (message : Client2HostControlMsg)
  /-- A finished stream whose bytes do not decode. -/
  | undecodable
  | reset
  deriving DecidableEq, Repr

/-- The client's end of a bidirectional stream, and the service's end of the socket
that it is relayed to, as the host knows them. -/
structure Inbound where
  /-- Bytes that have arrived and are not relayed yet. -/
  data : Nat
  fin : Bool
  reset : Bool
  /-- The client no longer reads what the host sends. -/
  stopped : Bool
  /-- Bytes of the service that are not relayed yet. -/
  served : Nat
  /-- The service sends no more. -/
  servedFin : Bool
  /-- The service takes no more. -/
  refused : Bool
  deriving DecidableEq, Repr

namespace Inbound

def opened : Inbound where
  data := 0
  fin := false
  reset := false
  stopped := false
  served := 0
  servedFin := false
  refused := false

/-- What a forwarder can read.  An error of the stream is not one of its branches. -/
def pending (inbound : Inbound) : Role → Nat
  | .up => inbound.served
  | .down => if inbound.reset then 0 else inbound.data

/-- The end of a forwarder's source has arrived. -/
def exhausted (inbound : Inbound) : Role → Bool
  | .up => inbound.servedFin
  | .down => inbound.fin && !inbound.reset

/-- A socket has just been connected to the service. -/
def connected (inbound : Inbound) : Inbound :=
  { inbound with served := 0, servedFin := false, refused := false }

/-- A forwarder has read `count` bytes. -/
def relay (inbound : Inbound) (count : Nat) : Role → Inbound
  | .up => { inbound with served := inbound.served - count }
  | .down => { inbound with data := inbound.data - count }

end Inbound

/-- The connection as the transport sees it. -/
inductive Link where
  /-- The handshake is not over. -/
  | pending
  | failed
  | live
  /-- Closed by either side, or lost. -/
  | closed
  deriving DecidableEq, Repr

/-- The connection has got through its handshake. -/
def Link.shaken : Link → Bool
  | .live | .closed => true
  | _ => false

/-- The variants of `HostError` with which `handle_connection` returns. -/
inductive HostError where
  | connectionError
  | receivePacketError
  | ioError
  deriving DecidableEq, Repr

/-- What the accept loop has made of a connection. -/
inductive Life where
  | incoming
  /-- Dropped because its client is registered already. -/
  | ignored
  | serving
  | returned (error : HostError)
  deriving DecidableEq, Repr

structure Conn (Key : Type) where
  client : Key
  link : Link
  /-- The bidirectional streams the host can know of, in opening order. -/
  streams : List Inbound
  accepted : Nat
  controls : List Control
  received : Nat
  life : Life
  /-- A session request has been answered: its session was started, or it was
  one that cannot be served.  A service that refuses is no answer. -/
  answered : Bool
  deriving DecidableEq

/-- Where `handle_connection` stands; the number is the stream of the request. -/
inductive Phase where
  | acceptBi
  | receivePacket (stream : Nat)
  /-- Registered; creating, binding and connecting the socket. -/
  | connecting (stream : Nat) (localAddr : SocketAddr)
  | session (stream : Nat) (localAddr : SocketAddr) (forwarders : Forwarders)
  deriving DecidableEq, Repr

/-- The request that is being set up. -/
def Phase.request : Phase → Option Nat
  | .receivePacket stream | .connecting stream _ => some stream
  | _ => none

/-- What a client does to one of its connections. -/
inductive ClientAct where
  | handshake (succeeds : Bool)
  | close
  /-- A bidirectional stream becomes visible to the host. -/
  | announceBi
  | openUni
  | control (index : Nat) (outcome : Control)
  | data (stream count : Nat)
  | finish (stream : Nat)
  | reset (stream : Nat)
  | stopReading (stream : Nat)
  deriving DecidableEq, Repr

/-- What the service does at its end of a session's socket. -/
inductive ServiceAct where
  | sends (count : Nat)
  | finishes
  | refuses
  deriving DecidableEq, Repr

inductive HandlerAct where
  | acceptBi
  | acceptBiFails
  | receivePacket
  | receiveFails
  | connect
  | connectFails
  /-- The socket cannot be bound and connected, since the families do not fit. -/
  | familyMismatch
  /-- A forwarder takes `count` bytes from its source and writes them. -/
  | relay (role : Role) (count : Nat)
  /-- A forwarder takes something from its source, and the write fails. -/
  | relayFails (role : Role)
  /-- A forwarder meets the end of its source. -/
  | ends (role : Role)
  | timesOut (role : Role)
  /-- A forwarder finds the tunnel stopped. -/
  | stops (role : Role)
  /-- The service moves, and a forwarder will see it. -/
  | service (act : ServiceAct)
  /-- `try_join!` returns. -/
  | join
  deriving DecidableEq, Repr

/-- It is the service that moves. -/
def HandlerAct.ofService : HandlerAct → Bool
  | .service _ => true
  | _ => false

/-- The steps at which a `?` of `handle_connection` returns. -/
def HandlerAct.fails : HandlerAct → Bool
  | .acceptBiFails | .receiveFails | .connectFails | .familyMismatch => true
  | _ => false

/-- The steps at which the setup of an accepted request fails. -/
def HandlerAct.setupFails : HandlerAct → Bool
  | .receiveFails | .connectFails | .familyMismatch => true
  | _ => false

namespace Conn

variable {Key : Type}

/-- An incoming connection. -/
def incoming (client : Key) : Conn Key where
  client := client
  link := .pending
  streams := []
  accepted := 0
  controls := []
  received := 0
  life := .incoming
  answered := false

/-- Change one of the visible streams. -/
def onStream (conn : Conn Key) (stream : Nat) (change : Inbound → Inbound) : Option (Conn Key) :=
  (conn.streams[stream]?).map fun inbound =>
    { conn with streams := conn.streams.set stream (change inbound) }

/-- What the client and the network can do to a connection.  After the
handshake everything else needs an open connection. -/
def clientStep (conn : Conn Key) : ClientAct → Option (Conn Key)
  | .handshake succeeds =>
      if conn.link = .pending then
        some { conn with link := if succeeds then .live else .failed }
      else none
  | act =>
      if conn.link = .live then
        match act with
        | .close => some { conn with link := .closed }
        | .announceBi => some { conn with streams := conn.streams ++ [.opened] }
        | .openUni => some { conn with controls := conn.controls ++ [.arriving] }
        | .control index outcome =>
            if conn.controls[index]? = some .arriving then
              some { conn with controls := conn.controls.set index outcome }
            else none
        | .data stream count =>
            conn.onStream stream fun inbound => { inbound with data := inbound.data + count }
        | .finish stream => conn.onStream stream fun inbound => { inbound with fin := true }
        | .reset stream => conn.onStream stream fun inbound => { inbound with reset := true }
        | .stopReading stream =>
            conn.onStream stream fun inbound => { inbound with stopped := true }
        | .handshake _ => none
      else none

/-- What closing the endpoint does to a connection. -/
def shut (conn : Conn Key) : Conn Key :=
  { conn with
    link :=
      match conn.link with
      | .pending | .failed => .failed
      | .live | .closed => .closed }

/-- The control message the next `receive_packet` will read. -/
def nextControl (conn : Conn Key) : Option Control := conn.controls[conn.received]?

end Conn

/-- A virtual client socket of one family can be bound and connected to a
service address of the other only for UDP, from IPv6 to IPv4, where the system
maps addresses. -/
def compatible (protocol : TunnelProtocol) (tunnelAddr localAddr : SocketAddr) : Bool :=
  match protocol with
  | .tcp => localAddr.isIpv4 == tunnelAddr.isIpv4
  | .udp => localAddr.isIpv4 == tunnelAddr.isIpv4 || !localAddr.isIpv4

/-- What a step does to the registry of the client's local connections. -/
inductive Registration where
  | keep
  | insert (virtualAddr : SocketAddr) (connection : LocalClientConnection)
  | remove (virtualAddr : SocketAddr)
  deriving DecidableEq, Repr

/-- Where a step leaves the function. -/
inductive Outcome where
  | continues (phase : Phase)
  | returns (error : HostError)
  deriving DecidableEq, Repr

namespace Conn

variable {Key : Type}

/-- What a forwarder writes to does not take it any more. -/
def refuses (conn : Conn Key) (inbound : Inbound) : Role → Bool
  | .up => inbound.stopped || decide (conn.link = .closed)
  | .down => inbound.refused

/-- A forwarder of the current session moves, or what it reads from or writes to:
which one, what is left of its stream, and how it stands after it. -/
def forward (conn : Conn Key) (stopSent : Bool) (inbound : Inbound) :
    HandlerAct → Option (Role × Inbound × TaskStatus)
  | .relay role count =>
      if 0 < count ∧ count ≤ inbound.pending role ∧ conn.refuses inbound role = false then
        some (role, inbound.relay count role, .running)
      else none
  | .relayFails role =>
      if 0 < inbound.pending role ∧ conn.refuses inbound role = true then
        some (role, inbound, .panicked)
      else none
  | .ends role =>
      if inbound.pending role = 0 ∧ inbound.exhausted role = true then
        some (role, inbound, .finished)
      else none
  | .timesOut role => some (role, inbound, .finished)
  | .stops role => if stopSent then some (role, inbound, .finished) else none
  | .service (.sends count) =>
      if inbound.servedFin then none
      else some (.up, { inbound with served := inbound.served + count }, .running)
  | .service .finishes => some (.up, { inbound with servedFin := true }, .running)
  | .service .refuses => some (.down, { inbound with refused := true }, .running)
  | _ => none

/-- Waiting in `conn.accept_bi`. -/
def acceptStep (conn : Conn Key) : HandlerAct → Option (Conn Key × Registration × Outcome)
  | .acceptBi =>
      if conn.accepted < conn.streams.length then
        some ({ conn with accepted := conn.accepted + 1 }, .keep,
          .continues (.receivePacket conn.accepted))
      else none
  | .acceptBiFails =>
      if conn.streams.length ≤ conn.accepted ∧ conn.link = .closed then
        some (conn, .keep, .returns .connectionError)
      else none
  | _ => none

/-- Waiting in `receive_packet`, and the registration behind it. -/
def receiveStep (conn : Conn Key) (stream : Nat) :
    HandlerAct → Option (Conn Key × Registration × Outcome)
  | .receivePacket =>
      match conn.nextControl with
      | some (.packet (.connReq localAddr)) =>
          let clientVirtualAddr := getUnspecified localAddr.isIpv4
          some ({ conn with received := conn.received + 1 },
            .insert clientVirtualAddr ⟨localAddr, clientVirtualAddr⟩,
            .continues (.connecting stream localAddr))
      | _ => none
  | .receiveFails =>
      match conn.nextControl with
      | some (.packet _) => none
      | some .undecodable | some .reset =>
          some ({ conn with received := conn.received + 1, answered := true }, .keep,
            .returns .receivePacketError)
      | some .arriving | none =>
          if conn.link = .closed then some (conn, .keep, .returns .receivePacketError) else none
  | _ => none

/-- Creating, binding and connecting the socket. -/
def connectStep (protocol : TunnelProtocol) (tunnelAddr : SocketAddr) (conn : Conn Key)
    (stream : Nat) (localAddr : SocketAddr) :
    HandlerAct → Option (Conn Key × Registration × Outcome)
  | .connect =>
      if compatible protocol tunnelAddr localAddr then
        some ({ conn with streams := conn.streams.modify stream .connected, answered := true },
          .keep, .continues (.session stream localAddr Forwarders.spawned))
      else none
  | .connectFails =>
      if compatible protocol tunnelAddr localAddr then some (conn, .keep, .returns .ioError)
      else none
  | .familyMismatch =>
      if compatible protocol tunnelAddr localAddr then none
      else some ({ conn with answered := true }, .keep, .returns .ioError)
  | _ => none

/-- Waiting in `bi_tcp_stream_host` or `bi_udp_host`. -/
def sessionStep (stopSent : Bool) (conn : Conn Key) (stream : Nat) (localAddr : SocketAddr)
    (forwarders : Forwarders) (act : HandlerAct) :
    Option (Conn Key × Registration × Outcome) :=
  if act = .join then
    if forwarders.joined then
      some (conn, .remove (getUnspecified localAddr.isIpv4), .continues .acceptBi)
    else none
  else
    (conn.streams[stream]?).bind fun inbound =>
      (conn.forward stopSent inbound act).bind fun (role, inbound, status) =>
        if forwarders.status role = .running then
          some ({ conn with streams := conn.streams.set stream inbound }, .keep,
            .continues (.session stream localAddr (forwarders.setStatus role status)))
        else none

/-- One step of `handle_connection`. -/
def handlerStep (protocol : TunnelProtocol) (tunnelAddr : SocketAddr) (stopSent : Bool)
    (conn : Conn Key) : Phase → HandlerAct → Option (Conn Key × Registration × Outcome)
  | .acceptBi => conn.acceptStep
  | .receivePacket stream => conn.receiveStep stream
  | .connecting stream localAddr => conn.connectStep protocol tunnelAddr stream localAddr
  | .session stream localAddr forwarders =>
      conn.sessionStep stopSent stream localAddr forwarders

end Conn

end Host
end Lantun
