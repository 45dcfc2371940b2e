import Lantun.Machine.Progress
import Lantun.Pair.Exchange

namespace Lantun
namespace Pair

open Async Client Net

/-!
# A request can be brought through

What `send_packet` writes is read by `receive_packet` piece by piece, and the two
never wait for each other: the first may have finished before the second has been
called.  So on a connection that both ends still have, the listener can put its
request on a control stream by itself, and the handler can collect it by itself,
with the help of the network only.
-/

namespace Exchange

/-- A step that brings a request from the listener to the handler. -/
def Carries : ExchangeEvent → Prop
  | .listener .opened | .uniOpened | .writes _ => True
  | .host .acceptBi | .announceUni | .host .acceptUni | .host (.read _) => True
  | .deliver _ _ | .deliverEnd _ => True
  | _ => False

variable {bincode : Bincode} {protocol : TunnelProtocol} {exchange : Exchange}

/-! ## The listener sends -/

/-- The request is on its control stream, whose send half is still held. -/
def requested (bincode : Bincode) (exchange : Exchange) (addr : SocketAddr) : Exchange :=
  { exchange with
    client := { exchange.client with listener := .sending addr }
    sending := .finish
    opened := exchange.opened ++ [addr]
    controls := exchange.controls ++ [Stream.opened.write (bincode.encodeToVec (.connReq addr))] }

theorem can_request {addr : SocketAddr} (at_ : exchange.client.listener = .opening addr)
    (open_ : exchange.client.closed = false) :
    (machine bincode protocol).CanReach Carries (· = exchange.requested bincode addr) exchange := by
  have opens : (machine bincode protocol).step exchange (.listener .opened) = some { exchange with
      client := { exchange.client with listener := .sending addr }
      sending := .openUni
      opened := exchange.opened ++ [addr] } := by
    simp [machine, step, listenerStep, Connected.step, at_, open_]
  refine .step opens trivial ?_
  have control : (machine bincode protocol).step { exchange with
        client := { exchange.client with listener := .sending addr }
        sending := .openUni
        opened := exchange.opened ++ [addr] } .uniOpened = some { exchange with
      client := { exchange.client with listener := .sending addr }
      sending := .writing (bincode.encodeToVec (.connReq addr))
      opened := exchange.opened ++ [addr]
      controls := exchange.controls ++ [.opened] } := by
    simp [machine, step, open_]
  refine .step control trivial ?_
  by_cases empty : bincode.encodeToVec (.connReq addr) = []
  · apply Machine.CanReach.here
    simp [requested, empty, SendPacket.writing, Stream.write, Stream.opened]
  · have long : 0 < (bincode.encodeToVec (.connReq addr)).length := List.length_pos_of_ne_nil empty
    have writes : (machine bincode protocol).step { exchange with
          client := { exchange.client with listener := .sending addr }
          sending := .writing (bincode.encodeToVec (.connReq addr))
          opened := exchange.opened ++ [addr]
          controls := exchange.controls ++ [.opened] }
        (.writes (bincode.encodeToVec (.connReq addr)).length) =
          some (exchange.requested bincode addr) := by
      simp [machine, step, SendPacket.writing, empty, long, open_, lastControl, setControl, requested]
    exact .step writes trivial (.here rfl)

/-- `send_packet` has returned, and the session begins. -/
def asked (bincode : Bincode) (exchange : Exchange) (addr : SocketAddr) : Exchange :=
  { exchange with
    client := { exchange.client with
      localConnections := exchange.client.localConnections.insert addr (Connected.localConnection addr)
      listener := .session addr Forwarders.spawned }
    sending := .finish
    opened := exchange.opened ++ [addr]
    controls := exchange.controls ++
      [(Stream.opened.write (bincode.encodeToVec (.connReq addr))).dropSend false] }

theorem step_requested {addr : SocketAddr} (open_ : exchange.client.closed = false) :
    (exchange.requested bincode addr).step bincode protocol (.listener .sent) =
      some (exchange.asked bincode addr) := by
  simp [step, listenerStep, requested, asked, Connected.step, open_, lastControl, setControl]

/-- The request is the last control stream, and finished. -/
theorem asked_control (addr : SocketAddr) :
    ∃ stream, (exchange.asked bincode addr).controls[exchange.controls.length]? = some stream ∧
      stream.accepted = bincode.encodeToVec (.connReq addr) ∧ stream.ending = some .fin ∧
        stream.pos = 0 :=
  ⟨_, List.getElem?_concat_length, by simp [Stream.opened], rfl, rfl⟩

/-! ## The handler collects -/

/-- The handler has collected `bytes`, which are all there is on its control stream. -/
structure Collected (bytes : List UInt8) (before after : Exchange) : Prop where
  handler : after.handler = .reading bytes
  finished : ∃ stream, after.controls[after.received - 1]? = some stream ∧
    stream.poll after.lost = .finished
  accepted : after.accepted = before.accepted + 1
  client : after.client = before.client
  open_ : after.lost = false

/-- The handler is in the loop of `receive_packet`, on a control stream that has
finished. -/
structure Collecting (bytes : List UInt8) (before now : Exchange) (stream : Stream) : Prop where
  handler : now.handler = .reading stream.consumed
  found : now.controls[now.received - 1]? = some stream
  whole : stream.accepted = bytes
  ending : stream.ending = some .fin
  open_ : now.lost = false
  accepted : now.accepted = before.accepted + 1
  client : now.client = before.client

variable {bytes : List UInt8} {before : Exchange} {stream : Stream}

/-- The stream of the handler changes in a way that neither end has a part in. -/
theorem Collecting.network (collecting : Collecting bytes before exchange stream) {after : Stream}
    (accepted : after.accepted = stream.accepted) (pos : after.pos = stream.pos)
    (ending : after.ending = stream.ending) :
    Collecting bytes before (exchange.setControl (exchange.received - 1) after) after where
  handler := by
    rw [show after.consumed = stream.consumed by rw [Stream.consumed, accepted, pos]; rfl]
    exact collecting.handler
  found := List.getElem?_set_self (List.getElem?_eq_some_iff.mp collecting.found).1
  whole := accepted.trans collecting.whole
  ending := ending.trans collecting.ending
  open_ := collecting.open_
  accepted := collecting.accepted
  client := collecting.client

/-- Everything has arrived, the end included. -/
def Arrived (bytes : List UInt8) (before now : Exchange) : Prop :=
  ∃ stream, Collecting bytes before now stream ∧ stream.arrived = stream.accepted.length ∧
    stream.endArrived = true

theorem can_arrive (collecting : Collecting bytes before exchange stream) :
    (machine bincode protocol).CanReach Carries (Arrived bytes before) exchange := by
  have brings : (machine bincode protocol).step exchange
      (.deliver (exchange.received - 1) stream.accepted.length) =
        some (exchange.setControl (exchange.received - 1) (stream.deliver stream.accepted.length)) := by
    simp only [machine, step, collecting.found, Option.map_some]
  have brought := collecting.network (stream.deliver_accepted stream.accepted.length)
    (stream.deliver_pos _) (stream.deliver_ending _)
  have ends : (machine bincode protocol).step
      (exchange.setControl (exchange.received - 1) (stream.deliver stream.accepted.length))
      (.deliverEnd (exchange.received - 1)) = some
        ((exchange.setControl (exchange.received - 1) (stream.deliver stream.accepted.length)).setControl
          (exchange.received - 1) (stream.deliver stream.accepted.length).deliverEnd) := by
    have found := brought.found
    simp only [machine, step]
    rw [show (exchange.setControl _ _).controls[exchange.received - 1]? = _ from found]
    rfl
  refine .step brings trivial (.step ends trivial (.here ⟨_, brought.network rfl rfl rfl, ?_, ?_⟩))
  · change min (stream.arrived + stream.accepted.length) stream.accepted.length = _
    exact Nat.min_eq_right (Nat.le_add_left _ _)
  · change stream.ending.isSome = true
    rw [collecting.ending]
    rfl

/-- One byte more is collected. -/
theorem Collecting.read (collecting : Collecting bytes before exchange stream)
    (more : stream.pos < stream.arrived) :
    ∃ next after, (machine bincode protocol).step exchange (.host (.read 1)) = some next ∧
      Collecting bytes before next after ∧ after.pos = stream.pos + 1 ∧
        after.arrived = stream.arrived ∧ after.endArrived = stream.endArrived := by
  have fits : 0 < 1 ∧ 1 ≤ 1024 ∧ 1 ≤ stream.arrived - stream.pos :=
    ⟨Nat.one_pos, by decide, Nat.le_sub_of_add_le (by omega)⟩
  have data : stream.poll exchange.lost = .data := by
    simp [Stream.poll, collecting.ending, more]
  refine ⟨{ exchange.setControl (exchange.received - 1) (stream.read 1 fits.2.2) with
      handler := .reading (stream.consumed ++ stream.chunk 1) }, stream.read 1 fits.2.2, ?_, ?_,
    rfl, rfl, rfl⟩
  · simp only [machine, step, hostStep, collecting.handler, collecting.found, Option.bind_some]
    rw [dif_pos fits, if_pos data]
  · refine ⟨?_, ?_, collecting.whole, collecting.ending, collecting.open_, collecting.accepted,
      collecting.client⟩
    · rw [Stream.read_consumed]
    · exact List.getElem?_set_self (List.getElem?_eq_some_iff.mp collecting.found).1

/-- What has arrived can be collected to its end. -/
theorem can_finish_collecting (arrived : Arrived bytes before exchange) :
    (machine bincode protocol).CanReach Carries (Collected bytes before) exchange := by
  refine Machine.CanReach.descend (fun now : Exchange =>
    (now.controls[now.received - 1]?).elim 0 fun stream => bytes.length - stream.pos) ?_ arrived
  rintro now ⟨stream, collecting, all, ended⟩
  have within := stream.arrived_le
  have behind := stream.pos_le
  by_cases read : stream.pos = stream.arrived
  · refine Or.inl (.here ⟨?_, ⟨stream, collecting.found, ?_⟩, collecting.accepted, collecting.client,
      collecting.open_⟩)
    · rw [collecting.handler, Stream.consumed, read, all, List.take_length, collecting.whole]
    · simp [Stream.poll, collecting.ending, ended, read, all]
  · rcases collecting.read (Nat.lt_of_le_of_ne behind read) with ⟨next, after, taken, still, pos, same, told⟩
    refine Or.inr ⟨.host (.read 1), next, trivial, taken, ⟨after, still, ?_, told.trans ended⟩, ?_⟩
    · rw [same, all, collecting.whole, still.whole]
    · simp only [collecting.found, still.found, Option.elim_some, pos]
      rw [collecting.whole] at all
      omega

/-- The handler has accepted its stream and waits for the control stream, of which the
network has made `count` known. -/
def awaiting (exchange : Exchange) (count : Nat) : Exchange :=
  { exchange with
    handler := .acceptUni
    accepted := exchange.accepted + 1
    knownUni := count }

def Awaits (exchange now : Exchange) : Prop := ∃ count, now = exchange.awaiting count

/-- The control streams up to the one that is waited for can be made known. -/
theorem can_know (inside : exchange.received < exchange.controls.length) (count : Nat) :
    (machine bincode protocol).CanReach Carries
      (fun now => ∃ count, exchange.received < count ∧ now = exchange.awaiting count)
      (exchange.awaiting count) := by
  have waiting : Awaits exchange (exchange.awaiting count) := ⟨count, rfl⟩
  refine Machine.CanReach.descend (fun now : Exchange => exchange.controls.length - now.knownUni) ?_ waiting
  rintro now ⟨known, rfl⟩
  by_cases enough : exchange.received < known
  · exact Or.inl (.here ⟨known, enough, rfl⟩)
  · have more : known < exchange.controls.length := by omega
    refine Or.inr ⟨.announceUni, exchange.awaiting (known + 1), trivial, ?_, ⟨known + 1, rfl⟩, ?_⟩
    · simp [machine, step, awaiting, more]
    · simp only [awaiting]
      omega

/-- The handler takes the next stream of either kind once the one can be accepted. -/
theorem can_collect (at_ : exchange.handler = .acceptBi) (known : exchange.accepted < exchange.knownBi)
    (found : exchange.controls[exchange.received]? = some stream) (ending : stream.ending = some .fin)
    (unread : stream.pos = 0) (open_ : exchange.lost = false) :
    (machine bincode protocol).CanReach Carries (Collected stream.accepted exchange) exchange := by
  have accepts : (machine bincode protocol).step exchange (.host .acceptBi) =
      some (exchange.awaiting exchange.knownUni) := by
    simp [machine, step, hostStep, awaiting, at_, known]
  have inside : exchange.received < exchange.controls.length := (List.getElem?_eq_some_iff.mp found).1
  refine .step accepts trivial ((can_know inside exchange.knownUni).andThen ?_)
  rintro now ⟨count, enough, rfl⟩
  have takes : (machine bincode protocol).step (exchange.awaiting count) (.host .acceptUni) =
      some { exchange.awaiting count with
        handler := .reading []
        received := exchange.received + 1 } := by
    simp [machine, step, hostStep, awaiting, enough]
  refine .step takes trivial ?_
  have collecting : Collecting stream.accepted exchange { exchange.awaiting count with
      handler := .reading []
      received := exchange.received + 1 } stream :=
    ⟨by simp [Stream.consumed, unread], found, rfl, ending, open_, rfl, rfl⟩
  exact (can_arrive collecting).andThen fun _ arrived => can_finish_collecting arrived

end Exchange

end Pair
end Lantun
