import Lantun.EndToEnd.Cables
import Lantun.EndToEnd.Invariant
import Lantun.Machine.Refinement
import Lantun.Net.TcpFidelity

namespace Lantun
namespace EndToEnd

open Async Client Net Pair

/-!
# The tunnel is a bundle of cables

The abstraction forgets the exchange, the streams, the tasks and the clock.  Of a
line there remain two queues: what has come out of the far socket, and what the
near socket was given beyond that.  The service is plugged in as often as the
handler has connected to it.

What is seen of a step is what happens at a socket.  A write of a forwarder lets
entries be heard, and the two ends disagree about nothing that can be seen: the
number by which the handler knows a stream, and the address it has read from a
request of its own, are those of the application that the listener opened it for.
-/

/-- One direction as a queue. -/
def laneOf (pipe : Pipe UInt8) : Lane UInt8 := ⟨pipe.out, pipe.log.drop pipe.out.length⟩

section

variable {pipe next : Pipe UInt8}

theorem laneOf_of_same (log : next.log = pipe.log) (out : next.out = pipe.out) :
    laneOf next = laneOf pipe := by
  rw [laneOf, log, out, laneOf]

theorem out_isPrefix_log (inv : pipe.Inv Sock.tcp) : pipe.out <+: pipe.log := by
  have leading := inv.written_isPrefix_carried
  rw [show pipe.written Sock.tcp = _ from Session.tcp_written pipe,
    show pipe.carried Sock.tcp = _ from Session.tcp_carried pipe] at leading
  exact leading.trans (List.take_prefix _ _)

theorem laneOf_send (inv : pipe.Inv Sock.tcp) (byte : UInt8) :
    laneOf (pipe.send byte) = (laneOf pipe).say byte := by
  have short := (out_isPrefix_log inv).length_le
  change Lane.mk pipe.out ((pipe.log ++ [byte]).drop pipe.out.length) = _
  rw [List.drop_append_of_le_length short]
  rfl

/-- What a write adds to the far socket was next in the queue. -/
theorem laneOf_hear {entries : List UInt8} (inv : next.Inv Sock.tcp) (log : next.log = pipe.log)
    (out : next.out = pipe.out ++ entries) : (laneOf pipe).hear entries = some (laneOf next) := by
  rcases out_isPrefix_log inv with ⟨rest, whole⟩
  rw [log, out, List.append_assoc] at whole
  have underway : (laneOf pipe).underway = entries ++ rest := by
    change pipe.log.drop pipe.out.length = _
    rw [← whole, List.drop_left]
  rw [Lane.hear, if_pos (by rw [underway]; exact List.prefix_append _ _), underway, List.drop_left]
  apply congrArg some
  change Lane.mk (pipe.out ++ entries) rest = Lane.mk next.out (next.log.drop next.out.length)
  rw [log, out, ← whole, ← List.append_assoc, List.drop_left]

end

theorem out_setEnd (line : Line) (at_ : Side) (lost : Bool) (task : Task) (side : Side) :
    ((line.setEnd at_ lost task).pipe side).out = (line.pipe side).out := by
  unfold Line.setEnd
  dsimp only
  split <;> rfl

/-- New tasks change nothing that has been said or heard. -/
theorem laneOf_setEnd (line : Line) (at_ : Side) (lost : Bool) (task : Task) (side : Side) :
    laneOf ((line.setEnd at_ lost task).pipe side) = laneOf (line.pipe side) :=
  laneOf_of_same (Line.log_setEnd line at_ lost task side) (out_setEnd line at_ lost task side)

namespace Tunnel

/-- What has come out of the socket at the far end. -/
def outAt (tunnel : Tunnel) (place : Place) : List UInt8 :=
  match tunnel.lines[place.1]? with
  | some line => (line.pipe place.2).out
  | none => []

/-- The cables a tunnel stands for. -/
def cables (tunnel : Tunnel) : Cables SocketAddr UInt8 where
  addrs := tunnel.addrs
  plugged := tunnel.begun .host
  lane place :=
    match tunnel.lines[place.1]? with
    | some line => laneOf (line.pipe place.2)
    | none => .empty

/-- What a step shows to the applications and the service. -/
def observe (tunnel : Tunnel) (label : Label) (next : Tunnel) : Option (Show SocketAddr UInt8) :=
  match label with
  | .dial addr => some (.dialed addr)
  | .socket index side (.sends byte) => some (.said (index, side) byte)
  | .connect =>
      match tunnel.exchange.handler with
      | .serving localAddr => some (.plugged (tunnel.exchange.accepted - 1) localAddr)
      | _ => none
  | .task index side .down (.write _) =>
      some (.heard (index, side) ((next.outAt (index, side)).drop (tunnel.outAt (index, side)).length))
  | _ => none

/-! ## What a change of one line means for the cables -/

theorem cables_onLine_same (tunnel : Tunnel) (index : Nat) {change : Line → Line}
    (addr : ∀ line, (change line).addr = line.addr)
    (lane : ∀ line, tunnel.lines[index]? = some line →
      ∀ side, laneOf ((change line).pipe side) = laneOf (line.pipe side)) :
    (tunnel.onLine index change).cables = tunnel.cables := by
  have lanes : (tunnel.onLine index change).cables.lane = tunnel.cables.lane := by
    funext place
    simp only [cables, onLine, List.getElem?_modify]
    cases found : tunnel.lines[place.1]? with
    | none => rfl
    | some line =>
        by_cases here : index = place.1
        · subst here
          simpa using lane line found place.2
        · simp [here]
  unfold cables at lanes ⊢
  rw [addrs_onLine tunnel index addr]
  exact congrArg (Cables.mk tunnel.addrs (tunnel.begun .host)) lanes

theorem cables_onLine (tunnel : Tunnel) {index : Nat} {change : Line → Line} {line : Line}
    (found : tunnel.lines[index]? = some line) (side : Side)
    (addr : ∀ line, (change line).addr = line.addr)
    (other : laneOf ((change line).pipe side.other) = laneOf (line.pipe side.other)) :
    (tunnel.onLine index change).cables =
      tunnel.cables.setLane (index, side) (laneOf ((change line).pipe side)) := by
  have lanes : (tunnel.onLine index change).cables.lane =
      Function.update tunnel.cables.lane (index, side) (laneOf ((change line).pipe side)) := by
    funext place
    rcases place with ⟨number, at_⟩
    by_cases here : index = number
    · subst here
      by_cases same : at_ = side
      · subst same
        simp [cables, onLine, List.getElem?_modify, found]
      · have is : at_ = side.other := by
          cases at_ <;> cases side <;> first | rfl | exact absurd rfl same
        subst is
        rw [Function.update_of_ne (fun is => same (congrArg Prod.snd is))]
        simpa [cables, onLine, List.getElem?_modify, found] using other
    · rw [Function.update_of_ne (fun is => here (congrArg Prod.fst is).symm)]
      simp [cables, onLine, List.getElem?_modify, here]
  unfold cables at lanes ⊢
  rw [addrs_onLine tunnel index addr]
  exact congrArg (Cables.mk tunnel.addrs (tunnel.begun .host)) lanes

theorem lane_of_found {tunnel : Tunnel} {index : Nat} {line : Line}
    (found : tunnel.lines[index]? = some line) (side : Side) :
    tunnel.cables.lane (index, side) = laneOf (line.pipe side) := by
  simp [cables, found]

theorem outAt_of_found {tunnel : Tunnel} {index : Nat} {line : Line}
    (found : tunnel.lines[index]? = some line) (side : Side) :
    tunnel.outAt (index, side) = (line.pipe side).out := by
  simp [outAt, found]

theorem outAt_onLine {tunnel : Tunnel} {index : Nat} {line : Line} {change : Line → Line}
    (found : tunnel.lines[index]? = some line) (side : Side) :
    (tunnel.onLine index change).outAt (index, side) = ((change line).pipe side).out := by
  simp [outAt, onLine, found]

theorem cables_spawn_lanes (tunnel : Tunnel) (at_ : Side) (index seen : Nat) :
    (tunnel.spawn at_ index seen).cables =
      { tunnel.cables with plugged := (tunnel.spawn at_ index seen).begun .host } := by
  have same := tunnel.cables_onLine_same index
    (fun _ => rfl : ∀ line : Line, (line.begins at_ (tunnel.lost at_) seen tunnel.clock).addr = _)
    (fun line _ side => laneOf_setEnd line at_ (tunnel.lost at_) ⟨.top, seen⟩ side)
  calc (tunnel.spawn at_ index seen).cables
      = { (tunnel.onLine index fun line => line.begins at_ (tunnel.lost at_) seen tunnel.clock).cables with
          plugged := (tunnel.spawn at_ index seen).begun .host } := rfl
    _ = _ := by rw [same]

/-! ## One step -/

/-- Nothing that the exchange does can be seen. -/
theorem cables_after (tunnel : Tunnel) {event : ExchangeEvent} {exchange : Exchange} :
    (tunnel.after event exchange).cables = tunnel.cables := by
  have drops : ∀ (index : Nat) (at_ : Side) (lost : Bool),
      ({ tunnel with exchange }.onLine index fun line => line.drops at_ lost).cables = tunnel.cables := by
    intro index at_ lost
    exact { tunnel with exchange }.cables_onLine_same index (fun _ => rfl)
      (fun line _ side => laneOf_setEnd line at_ lost ⟨.done .stopped, 0⟩ side)
  unfold after
  split
  · rfl
  · rw [cables_spawn_lanes]
    rfl
  · exact drops _ _ _
  · split
    · exact drops _ _ _
    · rfl
  · rfl

theorem entries_of_emit {rest entries left : List UInt8} {count : Nat}
    (emits : Sock.tcp.emit rest count = some (entries, left)) : entries ≠ [] := by
  simp only [Sock.tcp] at emits
  split at emits
  · rename_i fits
    cases emits
    intro none_
    have length := congrArg List.length none_
    rw [List.length_take, List.length_nil] at length
    omega
  · cases emits

/-- Whatever comes out comes out of a line that the service is plugged into. -/
theorem plugged_of_heard {bincode : Bincode} {tunnel : Tunnel} (inv : tunnel.Inv bincode)
    {index : Nat} {side : Side} {line : Line} (found : tunnel.lines[index]? = some line)
    {pipe : Pipe UInt8} (keeps : pipe.Inv Sock.tcp) (log : pipe.log = (line.pipe side).log)
    (heard : pipe.out ≠ []) (begun : index < tunnel.begun side.other) :
    index < tunnel.begun .host := by
  cases side with
  | client => exact begun
  | host =>
      by_contra before
      have silent := (inv.lines index line found).silent (Nat.le_of_not_lt before)
      have leading := out_isPrefix_log keeps
      rw [log, silent] at leading
      exact heard (List.prefix_nil.mp leading)

/-- What a step shows accounts for what it does to the cables. -/
def Explained (tunnel : Tunnel) (label : Label) (next : Tunnel) : Prop :=
  match tunnel.observe label next with
  | none => next.cables = tunnel.cables
  | some now => tunnel.cables.step now = some next.cables

/-- What the network and the sockets do to a direction without a word. -/
theorem cables_setPipe_same (tunnel : Tunnel) (index : Nat) (side : Side)
    (change : Pipe UInt8 → Pipe UInt8) (log : ∀ pipe, (change pipe).log = pipe.log)
    (out : ∀ pipe, (change pipe).out = pipe.out) :
    (tunnel.onLine index fun line => line.setPipe side (change (line.pipe side))).cables =
      tunnel.cables := by
  refine tunnel.cables_onLine_same index (fun _ => rfl) ?_
  intro line _ at_
  by_cases same : at_ = side
  · subst same
    have here : ((line.setPipe at_ (change (line.pipe at_))).pipe at_) = change (line.pipe at_) :=
      Function.update_self _ _ _
    rw [here]
    exact laneOf_of_same (log _) (out _)
  · have away : ((line.setPipe side (change (line.pipe side))).pipe at_) = line.pipe at_ :=
      Function.update_of_ne same _ _
    rw [away]

theorem explained_dial (tunnel : Tunnel) (addr : SocketAddr) :
    tunnel.Explained (.dial addr) { tunnel with lines := tunnel.lines ++ [Line.dialed addr] } := by
  change some _ = some _
  apply congrArg some
  have lanes : ∀ place : Place, tunnel.cables.lane place =
      { tunnel with lines := tunnel.lines ++ [Line.dialed addr] }.cables.lane place := by
    intro place
    simp only [cables, List.getElem?_append]
    by_cases old : place.1 < tunnel.lines.length
    · rw [if_pos old]
    · rw [if_neg old, List.getElem?_eq_none (Nat.le_of_not_lt old)]
      by_cases new : place.1 - tunnel.lines.length = 0
      · rw [new]
        rfl
      · rw [List.getElem?_eq_none (Nat.pos_of_ne_zero new)]
  unfold cables at lanes ⊢
  simp only [addrs, List.map_append, List.map_cons, List.map_nil, Cables.mk.injEq]
  exact ⟨rfl, trivial, funext lanes⟩

theorem explained_socket {bincode : Bincode} {tunnel next : Tunnel} (inv : tunnel.Inv bincode)
    {index : Nat} {side : Side} {act : SocketAct}
    (taken : tunnel.socketStep index side act = some next) :
    tunnel.Explained (.socket index side act) next := by
  unfold Tunnel.socketStep at taken
  split at taken
  · rename_i there
    rcases Option.bind_eq_some_iff.mp taken with ⟨line, found, rest⟩
    cases act with
    | sends byte =>
        simp only at rest
        split at rest <;> cases rest
        have changed := tunnel.cables_onLine found side
          (fun _ => rfl : ∀ line : Line, (line.setPipe side ((line.pipe side).send byte)).addr = _)
          (congrArg laneOf (Function.update_of_ne (Line.ne_other side) _ _))
        have here : ((line.setPipe side ((line.pipe side).send byte)).pipe side) =
            (line.pipe side).send byte := Function.update_self _ _ _
        rw [here, laneOf_send ((inv.lines index line found).pipes side), ← lane_of_found found] at changed
        have bound : index < tunnel.addrs.length := by
          simpa [addrs] using (List.getElem?_eq_some_iff.mp found).1
        change (if index < tunnel.addrs.length ∧ (side = .client ∨ index < tunnel.begun .host) then _
          else none) = _
        rw [if_pos ⟨bound, there⟩, changed]
    | closes =>
        cases rest
        exact tunnel.cables_setPipe_same index side (fun pipe => { pipe with eof := true })
          (fun _ => rfl) (fun _ => rfl)
    | fails =>
        cases rest
        exact tunnel.cables_setPipe_same index side (fun pipe => { pipe with sockError := true })
          (fun _ => rfl) (fun _ => rfl)
  · cases taken

/-- The handler connects for the application that is next, and knows its address. -/
theorem explained_connect {bincode : Bincode} {tunnelAddr : SocketAddr} {tunnel next : Tunnel}
    (inv : tunnel.Inv bincode) (taken : tunnel.connectStep tunnelAddr = some next) :
    tunnel.Explained .connect next := by
  unfold Tunnel.connectStep at taken
  split at taken
  · rename_i addr at_
    split at taken
    · rename_i ready
      cases taken
      rcases inv.counts.host.serving addr at_ with ⟨level | behind, opened⟩
      · omega
      have turn : tunnel.exchange.accepted - 1 = tunnel.begun .host := by omega
      have front : tunnel.addrs[tunnel.exchange.accepted - 1]? = some addr := by
        rcases inv.counts.client.opened with ⟨rest, whole⟩
        rw [← whole]
        exact getElem?_append_of_found opened rest
      have shows : tunnel.observe .connect (tunnel.spawn .host (tunnel.exchange.accepted - 1) 0) =
          some (.plugged (tunnel.exchange.accepted - 1) addr) := by
        simp only [observe, at_]
      unfold Explained
      rw [shows, cables_spawn_lanes]
      change (if tunnel.exchange.accepted - 1 = tunnel.begun .host ∧
        tunnel.addrs[tunnel.exchange.accepted - 1]? = some addr then _ else none) = _
      rw [if_pos ⟨turn, front⟩]
      rfl
    · cases taken
  · cases taken

/-- A step of a forwarder is silent, or a write that lets what was next be heard. -/
theorem explained_task {bincode : Bincode} {tunnel next : Tunnel} (inv : tunnel.Inv bincode)
    {index : Nat} {side : Side} {role : Role} {act : Act}
    (taken : tunnel.taskStep index side role act = some next) :
    tunnel.Explained (.task index side role act) next := by
  rcases taskMoves_of_step taken with ⟨begun, line, pipe, last, found, moved, rfl⟩
  have holds := inv.lines index line found
  have other : ∀ at_, (((line.setPipe side pipe).setActive at_ last).pipe side.other) =
      line.pipe side.other := by
    intro at_
    exact Function.update_of_ne (Line.ne_other side) _ _
  have here : ∀ at_, (((line.setPipe side pipe).setActive at_ last).pipe side) = pipe :=
    fun at_ => Function.update_self _ _ _
  have still : pipe.log = (line.pipe side).log → pipe.out = (line.pipe side).out →
      (tunnel.onLine index fun line =>
        (line.setPipe side pipe).setActive (role.endOf side) last).cables = tunnel.cables := by
    intro log out
    refine tunnel.cables_onLine_same index (fun _ => rfl) ?_
    intro line' found' at_
    cases found.symm.trans found'
    by_cases same : at_ = side
    · subst same
      rw [here]
      exact laneOf_of_same log out
    · have is : at_ = side.other := by
        cases at_ <;> cases side <;> first | rfl | exact absurd rfl same
      rw [is, other]
  cases moved with
  | up moved =>
      rcases Pipe.upStep_frame moved with ⟨log, out, _⟩
      exact still log out
  | down moved =>
      rcases Pipe.downStep_cases moved with ⟨log, ways⟩
      have keeps := (holds.pipes side).downStep moved
      cases act with
      | write count =>
          rcases ways with ⟨_, _, is, _⟩ | ⟨_, _, entries, _, _, _, emits, out, _⟩ | ⟨_, no, _⟩
          · cases is
          · have heard : pipe.out ≠ [] := by
              rw [out]
              exact fun none_ => entries_of_emit emits (List.append_eq_nil_iff.mp none_).2
            have plugged := plugged_of_heard inv found keeps log heard begun
            simp only [Explained, observe, outAt_onLine found, here, outAt_of_found found, out,
              List.drop_left]
            have changed := tunnel.cables_onLine found side
              (fun _ => rfl : ∀ line : Line, ((line.setPipe side pipe).setActive _ last).addr = _)
              (congrArg laneOf (other (Role.endOf side .down)))
            rw [changed, here]
            change (if index < tunnel.begun .host then _ else none) = _
            rw [if_pos plugged, lane_of_found found, laneOf_hear keeps log out]
            rfl
          · exact absurd rfl (no count)
      | _ =>
          refine still log ?_
          rcases ways with ⟨_, _, _, _, _, _, _, out, _⟩ | ⟨_, _, _, _, is, _⟩ | ⟨_, _, out, _⟩
          · exact out
          · cases is
          · exact out

theorem explained_of_step {bincode : Bincode} {tunnelAddr : SocketAddr} {tunnel next : Tunnel}
    (inv : tunnel.Inv bincode) {label : Label}
    (taken : (machine bincode tunnelAddr).step tunnel label = some next) :
    tunnel.Explained label next := by
  cases label with
  | dial addr =>
      simp only [machine, Tunnel.step] at taken
      split at taken <;> cases taken
      exact explained_dial tunnel addr
  | socket index side act => exact explained_socket inv taken
  | exchange event =>
      simp only [machine, Tunnel.step] at taken
      split at taken
      · rcases Option.map_eq_some_iff.mp taken with ⟨exchange, _, same⟩
        subst same
        exact cables_after tunnel
      · cases taken
  | connect => exact explained_connect inv taken
  | task index side role act => exact explained_task inv taken
  | deliver index side count =>
      simp only [machine, Tunnel.step] at taken
      split at taken <;> cases taken
      exact tunnel.cables_setPipe_same index side (Pipe.deliver · count) (fun _ => rfl)
        (fun _ => rfl)
  | deliverEnd index side =>
      simp only [machine, Tunnel.step] at taken
      split at taken <;> cases taken
      exact tunnel.cables_setPipe_same index side Pipe.deliverEnd (fun _ => rfl) (fun _ => rfl)
  | tick _ | dropHostStop =>
      cases taken
      rfl
  | stopHost =>
      simp only [machine, Tunnel.step] at taken
      split at taken <;> cases taken
      rfl

/-- Every step is silent or a step of the cables. -/
theorem refines (bincode : Bincode) (tunnelAddr : SocketAddr) :
    (machine bincode tunnelAddr).Refines Cables.machine observe cables (Inv bincode) := by
  refine ⟨?_, ?_, ?_⟩
  · rintro tunnel rfl
    rfl
  · intro tunnel label next inv taken sees
    have explained := explained_of_step inv taken
    rw [Explained, sees] at explained
    exact explained
  · intro tunnel label next now inv taken sees
    have explained := explained_of_step inv taken
    rw [Explained, sees] at explained
    exact explained

/-- Whatever the applications and the service see of a tunnel, they could have seen
of a bundle of cables: in every run, with all interleavings of the two programs, the
network and the sockets, every service connection is made for the next application,
and what is heard at the far end of a connection is a leading part of what was said
at its own near end. -/
theorem shown_by_cables (bincode : Bincode) (tunnelAddr : SocketAddr) (labels : List Label)
    (inverts : ∀ addr, Label.exchange (.listener (.incoming addr)) ∈ labels → bincode.Inverts addr)
    {tunnel : Tunnel} (ran : (machine bincode tunnelAddr).run labels started = some tunnel) :
    let shows := (machine bincode tunnelAddr).shown observe labels started
    Cables.machine.run shows Cables.unused = some tunnel.cables ∧
      (∀ place, Cables.heardFrom place shows <+: Cables.saidAt place shows) ∧
      Cables.pluggedFor shows <+: Cables.dialedBy shows := by
  have explains := (refines bincode tunnelAddr).run
    (fun label listed _ _ inv taken => inv.step (fun addr same => inverts addr (same ▸ listed)) taken)
    (inv_started bincode) ran
  exact ⟨explains, Cables.faithful_of_run explains⟩

/-- An application says one byte before it is accepted.  Its request overtakes the
stream, the handler connects to the service, and the byte comes out there. -/
def oneByte : List Label :=
  let addr : SocketAddr := .v4 0x7f000001 5000
  [.exchange (.listener .bound), .dial addr, .socket 0 .client (.sends 7),
    .exchange (.listener (.incoming addr)), .exchange (.listener .opened), .exchange .uniOpened,
    .exchange (.writes 9), .exchange (.listener .sent), .task 0 .client .up (.control .now),
    .task 0 .client .up (.control .load), .task 0 .client .up (.read 1),
    .task 0 .client .up (.write 1), .exchange .announceBi, .exchange (.host .acceptBi),
    .exchange .announceUni, .exchange (.deliver 0 9), .exchange (.deliverEnd 0),
    .exchange (.host .acceptUni), .exchange (.host (.read 9)), .exchange (.host .readEnd), .connect,
    .deliver 0 .client 1, .task 0 .client .down (.control .now),
    .task 0 .client .down (.control .load), .task 0 .client .down (.read 1),
    .task 0 .client .down (.write 1)]

theorem shown_by_cables_oneByte :
    let tunnels := machine Exchange.ipv4Bincode (.v4 0 80)
    tunnels.shown observe oneByte started =
        [.dialed (.v4 0x7f000001 5000), .said (0, .client) 7, .plugged 0 (.v4 0x7f000001 5000),
          .heard (0, .client) [7]] ∧
      ∃ tunnel, tunnels.run oneByte started = some tunnel ∧
        Cables.machine.run (tunnels.shown observe oneByte started) Cables.unused =
          some tunnel.cables := by
  have runs : ((machine Exchange.ipv4Bincode (.v4 0 80)).run oneByte started).isSome = true := by
    decide +kernel
  rcases Option.isSome_iff_exists.mp runs with ⟨tunnel, ran⟩
  refine ⟨by decide +kernel, tunnel, ran, ?_⟩
  refine (shown_by_cables Exchange.ipv4Bincode (.v4 0 80) oneByte ?_ ran).1
  intro addr listed
  simp only [oneByte, List.mem_cons, reduceCtorEq, Label.exchange.injEq, ExchangeEvent.listener.injEq,
    ListenerAct.incoming.injEq, List.not_mem_nil, false_or, or_false] at listed
  subst listed
  decide

end Tunnel

end EndToEnd
end Lantun
