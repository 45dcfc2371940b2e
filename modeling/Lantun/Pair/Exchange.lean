import Lantun.Machine.Run
import Lantun.Client.Listener
import Lantun.Async.Stream

namespace Lantun
namespace Pair

open Async Client Net

/-!
# The two kinds of stream between a client and its host

A session has two streams on its way to the host: the bidirectional one that will
carry its bytes, and a unidirectional one with the `ConnReq` that names the local
application.  Nothing in either says which of the other kind it goes with.  The
host takes the next stream of each kind, and relies on the client having opened
both in the same order.

Here `send_packet` and `receive_packet` are followed step by step: opening the
control stream, writing it in pieces, finishing it, and on the other side
collecting what the reads return until the end of the stream and decoding that.
The network makes streams of one kind known in opening order, and is free
otherwise.
-/

/-- The two functions of the codec that `send_packet` and `receive_packet` call. -/
structure Bincode where
  encodeToVec : Client2HostControlMsg → List UInt8
  decodeFromSlice : List UInt8 → Option Client2HostControlMsg

/-- Decoding inverts encoding on the request for this address. -/
def Bincode.Inverts (bincode : Bincode) (addr : SocketAddr) : Prop :=
  bincode.decodeFromSlice (bincode.encodeToVec (.connReq addr)) = some (.connReq addr)

instance (bincode : Bincode) (addr : SocketAddr) : Decidable (bincode.Inverts addr) :=
  inferInstanceAs (Decidable (_ = _))

/-- Where `send_packet` stands. -/
inductive SendPacket where
  | openUni
  | writeAll (rest : List UInt8)
  | finish
  deriving DecidableEq, Repr

/-- `write_all` returns once nothing is left. -/
def SendPacket.writing (rest : List UInt8) : SendPacket :=
  if rest = [] then .finish else .writeAll rest

/-- What `send_packet` still has to write. -/
def SendPacket.rest : SendPacket → List UInt8
  | .writeAll rest => rest
  | _ => []

@[simp] theorem SendPacket.rest_writing (rest : List UInt8) : (writing rest).rest = rest := by
  unfold writing
  split
  · rename_i empty
    rw [empty]
    rfl
  · rfl

theorem SendPacket.writing_ne_openUni (rest : List UInt8) : writing rest ≠ .openUni := by
  unfold writing
  split <;> exact SendPacket.noConfusion

/-- Where `handle_connection` stands, `receive_packet` included. -/
inductive Handler where
  | acceptBi
  | acceptUni
  /-- In the loop of `receive_packet`, with what it has collected. -/
  | reading (buf : List UInt8)
  /-- Registered: setting up the socket, or in `bi_tcp_stream_host` or
  `bi_udp_host`. -/
  | serving (localAddr : SocketAddr)
  | returned
  deriving DecidableEq, Repr

structure Exchange where
  client : Connected
  sending : SendPacket
  /-- History: the application for which each bidirectional stream was opened. -/
  opened : List SocketAddr
  /-- The unidirectional streams, in opening order. -/
  controls : List Stream
  /-- How many streams of either kind the host can accept by now. -/
  knownBi : Nat
  knownUni : Nat
  handler : Handler
  accepted : Nat
  received : Nat
  /-- The host has lost the connection. -/
  lost : Bool
  /-- History: what was registered, and on which accepted stream. -/
  registered : List (Nat × LocalClientConnection)

inductive HandlerAct where
  | acceptBi
  | acceptUni
  | read (count : Nat)
  /-- `read` returns `None`. -/
  | readEnd
  /-- Some fallible step of the function fails. -/
  | fails
  /-- `bi_tcp_stream_host` or `bi_udp_host` returns. -/
  | sessionEnds
  deriving DecidableEq, Repr

inductive ExchangeEvent where
  | listener (act : ListenerAct)
  /-- `open_uni` returns. -/
  | uniOpened
  | writes (count : Nat)
  | host (act : HandlerAct)
  | announceBi
  | announceUni
  | deliver (control count : Nat)
  | deliverEnd (control : Nat)
  | sendStop
  | dropStop
  | clientLoses
  | hostLoses
  deriving DecidableEq, Repr

namespace Exchange

/-- The connection is established; both tasks are about to begin. -/
def started : Exchange where
  client := .spawned
  sending := .openUni
  opened := []
  controls := []
  knownBi := 0
  knownUni := 0
  handler := .acceptBi
  accepted := 0
  received := 0
  lost := false
  registered := []

def setControl (exchange : Exchange) (index : Nat) (stream : Stream) : Exchange :=
  { exchange with controls := exchange.controls.set index stream }

/-- The place of the control stream that was opened last. -/
def lastControl (exchange : Exchange) : Nat := exchange.controls.length - 1

/-- A step of the listener.  `send_packet` fails on a lost connection, and on a
stream the host no longer reads; its send half is dropped with it. -/
def listenerStep (protocol : TunnelProtocol) (exchange : Exchange) (act : ListenerAct) :
    Option Exchange :=
  (exchange.client.step protocol act).bind fun client =>
    match act, exchange.client.listener with
    | .opened, .opening addr =>
        some { exchange with
          client
          sending := .openUni
          opened := exchange.opened ++ [addr] }
    | .sent, _ =>
        if exchange.sending = .finish then
          (exchange.controls[exchange.lastControl]?).map fun stream =>
            { exchange.setControl exchange.lastControl (stream.dropSend false) with client }
        else none
    | .sendFails, _ =>
        match exchange.sending with
        | .openUni => if exchange.client.closed then some { exchange with client } else none
        | _ =>
            (exchange.controls[exchange.lastControl]?).bind fun stream =>
              if exchange.client.closed || stream.stopped then
                some { exchange.setControl exchange.lastControl
                  (stream.dropSend exchange.client.closed) with client }
              else none
    | _, _ => some { exchange with client }

/-- Behind `receive_packet`: the message is decoded, and its session registered. -/
def receive (bincode : Bincode) (exchange : Exchange) (buf : List UInt8) : Exchange :=
  match bincode.decodeFromSlice buf with
  | some (.connReq localAddr) =>
      { exchange with
        handler := .serving localAddr
        registered := exchange.registered ++
          [(exchange.accepted - 1, ⟨localAddr, getUnspecified localAddr.isIpv4⟩)] }
  | none => { exchange with handler := .returned }

/-- A step of `handle_connection`. -/
def hostStep (bincode : Bincode) (exchange : Exchange) : HandlerAct → Option Exchange
  | .acceptBi =>
      if exchange.handler = .acceptBi ∧ exchange.accepted < exchange.knownBi then
        some { exchange with
          handler := .acceptUni
          accepted := exchange.accepted + 1 }
      else none
  | .acceptUni =>
      if exchange.handler = .acceptUni ∧ exchange.received < exchange.knownUni then
        some { exchange with
          handler := .reading []
          received := exchange.received + 1 }
      else none
  | .read count =>
      match exchange.handler with
      | .reading buf =>
          (exchange.controls[exchange.received - 1]?).bind fun stream =>
            if fits : 0 < count ∧ count ≤ 1024 ∧ count ≤ stream.arrived - stream.pos then
              if stream.poll exchange.lost = .data then
                some { exchange.setControl (exchange.received - 1) (stream.read count fits.2.2) with
                  handler := .reading (buf ++ stream.chunk count) }
              else none
            else none
      | _ => none
  | .readEnd =>
      match exchange.handler with
      | .reading buf =>
          (exchange.controls[exchange.received - 1]?).bind fun stream =>
            if stream.poll exchange.lost = .finished then some (exchange.receive bincode buf)
            else none
      | _ => none
  | .fails =>
      match exchange.handler with
      | .returned => none
      | .reading _ =>
          (exchange.controls[exchange.received - 1]?).map fun stream =>
            { exchange.setControl (exchange.received - 1) stream.dropRecv with
              handler := .returned }
      | _ => some { exchange with handler := .returned }
  | .sessionEnds =>
      match exchange.handler with
      | .serving _ => some { exchange with handler := .acceptBi }
      | _ => none

def step (bincode : Bincode) (protocol : TunnelProtocol) (exchange : Exchange) :
    ExchangeEvent → Option Exchange
  | .listener act => exchange.listenerStep protocol act
  | .uniOpened =>
      match exchange.client.listener with
      | .sending addr =>
          if exchange.sending = .openUni ∧ exchange.client.closed = false then
            some { exchange with
              sending := .writing (bincode.encodeToVec (.connReq addr))
              controls := exchange.controls ++ [.opened] }
          else none
      | _ => none
  | .writes count =>
      match exchange.client.listener, exchange.sending with
      | .sending _, .writeAll rest =>
          if 0 < count ∧ count ≤ rest.length ∧ exchange.client.closed = false then
            (exchange.controls[exchange.lastControl]?).map fun stream =>
              { exchange.setControl exchange.lastControl (stream.write (rest.take count)) with
                sending := .writing (rest.drop count) }
          else none
      | _, _ => none
  | .host act => exchange.hostStep bincode act
  | .announceBi =>
      if exchange.knownBi < exchange.opened.length then
        some { exchange with knownBi := exchange.knownBi + 1 }
      else none
  | .announceUni =>
      if exchange.knownUni < exchange.controls.length then
        some { exchange with knownUni := exchange.knownUni + 1 }
      else none
  | .deliver control count =>
      (exchange.controls[control]?).map fun stream =>
        exchange.setControl control (stream.deliver count)
  | .deliverEnd control =>
      (exchange.controls[control]?).map fun stream =>
        exchange.setControl control stream.deliverEnd
  | .sendStop =>
      some { exchange with
        client := { exchange.client with stop := exchange.client.stop.send true } }
  | .dropStop =>
      some { exchange with
        client := { exchange.client with stop := exchange.client.stop.dropSender } }
  | .clientLoses => some { exchange with client := { exchange.client with closed := true } }
  | .hostLoses => some { exchange with lost := true }

def machine (bincode : Bincode) (protocol : TunnelProtocol) : Machine Exchange ExchangeEvent where
  initial exchange := exchange = started
  step := step bincode protocol

end Exchange

end Pair
end Lantun
