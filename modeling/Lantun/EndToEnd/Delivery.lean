import Lantun.Net.Draining
import Lantun.Pair.Request
import Lantun.EndToEnd.Invariant

namespace Lantun
namespace EndToEnd

open Async Client Net Pair

/-!
# Whoever is next can be served

An application that has connected and said something waits until the listener is
back at its selection and the handler at its `accept_bi`.  From there on nothing but
the two programs and the network is needed to bring all it has said to the service:
the listener accepts it and sends the request, the upper forwarder makes the stream
known with its first byte, the handler takes stream and request and connects, and
what is left of the bytes drains through the forwarders of both ends.

That much takes an accepting branch that no error has disabled, an application whose
socket has not been reset and whose address is of the service's family, a codec that
inverts the addresses that turn up, and a service that takes what is written to it.

The exchange and the single line have been looked at by themselves.  What they can
do there they can do here, since every step of theirs is one of the tunnel.
-/

namespace Tunnel

/-- A step by which the two programs and the network serve the application `addr` on
the line `index`.  No time goes by, nothing fails, and nobody else says anything. -/
def Serves (index : Nat) (addr : SocketAddr) : Label → Prop
  | .exchange (.listener (.incoming other)) => other = addr
  | .exchange (.listener .sent) | .exchange .announceBi | .exchange (.host .readEnd) => True
  | .exchange event => Exchange.Carries event
  | .connect => True
  | .task at_ side _ _ | .deliver at_ side _ | .deliverEnd at_ side => at_ = index ∧ side = .client
  | _ => False

variable {bincode : Bincode} {tunnelAddr addr : SocketAddr} {tunnel : Tunnel} {index : Nat}

/-! ## The parts move by themselves -/

theorem carries_serves {event : ExchangeEvent} (carries : Exchange.Carries event) :
    Serves index addr (.exchange event) := by
  cases event with
  | listener act =>
      cases act with
      | opened => trivial
      | _ => exact carries.elim
  | host act =>
      cases act with
      | acceptBi | acceptUni | read _ => trivial
      | _ => exact carries.elim
  | uniOpened | writes _ | announceUni | deliver _ _ | deliverEnd _ => trivial
  | _ => exact carries.elim

theorem carries_permitted {event : ExchangeEvent} (carries : Exchange.Carries event) :
    tunnel.permits event = true := by
  unfold permits
  split
  · exact carries.elim
  · exact carries.elim
  · exact carries.elim
  · exact carries.elim
  · exact carries.elim
  · exact carries.elim
  · rfl

/-- What the exchange can do by itself. -/
theorem can_carry {goal : Exchange → Prop}
    (reach : (Exchange.machine bincode .tcp).CanReach Exchange.Carries goal tunnel.exchange) :
    (machine bincode tunnelAddr).CanReach (Serves index addr)
      (fun next => ∃ exchange, goal exchange ∧ next = { tunnel with exchange }) tunnel := by
  refine reach.simulate (R := fun exchange next => next = { tunnel with exchange }) ?_ rfl
  rintro exchange event exchange' _ carries taken rfl
  have moved : exchange.step bincode .tcp event = some exchange' := taken
  refine ⟨.exchange event, { tunnel with exchange := exchange' }, carries_serves carries, ?_, rfl⟩
  simp only [machine, step, if_pos (carries_permitted carries), moved, Option.map_some]
  apply congrArg some
  refine after_quiet _ ?_ ?_ ?_ ?_
  · rintro other rfl
    exact carries.elim
  · rintro rfl
    exact carries.elim
  · rintro rfl
    exact carries.elim
  · rintro ⟨act, rfl⟩ returned
    cases turn_of_step moved with
    | hostAccepts _ goes _ _ => cases goes.symm.trans returned
    | hostReads _ goes _ _ => simp [returned, collecting] at goes
    | hostRegisters _ _ _ _ _ _ => exact carries.elim
    | hostReturns ends _ _ _ _ =>
        rcases ends with ⟨rfl, _⟩ | rfl
        · exact carries.elim
        · exact carries.elim
    | hostFinishes _ _ _ _ => exact carries.elim
    | aside _ noHost _ _ => exact absurd rfl (noHost act)

/-- A line with what surrounds it, as the session it carries. -/
def session (tunnel : Tunnel) (line : Line) : Session UInt8 where
  clock := tunnel.clock
  pipe := line.pipe
  lastActive := line.lastActive
  stop := tunnel.stop
  lost := tunnel.lost

def putLine (tunnel : Tunnel) (index : Nat) (line : Line) : Tunnel :=
  { tunnel with lines := tunnel.lines.set index line }

theorem putLine_found {line : Line} (found : tunnel.lines[index]? = some line) (after : Line) :
    (tunnel.putLine index after).lines[index]? = some after :=
  List.getElem?_set_self (List.getElem?_eq_some_iff.mp found).1

theorem onLine_putLine {line : Line} (found : tunnel.lines[index]? = some line) (after : Line)
    (change : Line → Line) :
    (tunnel.putLine index after).onLine index change = tunnel.putLine index (change after) := by
  have inside := (List.getElem?_eq_some_iff.mp found).1
  simp [putLine, onLine, List.modify_eq_set_getElem?, inside]

/-- A forwarder whose end has begun can take any step that it has. -/
theorem taskStep_of_moves {side : Side} {role : Role} {act : Act} {line : Line} {pipe : Pipe UInt8}
    {last : Nat} (inside : index < tunnel.begun (role.endOf side))
    (found : tunnel.lines[index]? = some line)
    (moves : TaskMoves tunnel index side act line pipe last role) :
    tunnel.taskStep index side role act = some (tunnel.onLine index fun line =>
      (line.setPipe side pipe).setActive (role.endOf side) last) := by
  unfold taskStep
  rw [if_pos inside, found, Option.bind_some]
  cases moves with
  | up moved =>
      rw [show Bi.tcp.up side = Pipe.upStep Sock.tcp .tcpRead by cases side <;> rfl]
      simp only [moved, Option.map_some]
  | down moved =>
      rw [show Bi.tcp.down side = Pipe.downStep Sock.tcp from Bi.tcp.down_eq side]
      simp only [moved, Option.map_some]

/-- What the session of a line can do by itself, in the direction to the service. -/
theorem can_move {allowed : Event UInt8 → Prop} {goal : Session UInt8 → Prop} {line : Line}
    (found : tunnel.lines[index]? = some line)
    (own : ∀ event, allowed event → Session.Own .client event)
    (begun : ∀ role act, allowed (.task .client role act) → index < tunnel.begun (role.endOf .client))
    (reach : (Session.machine Bi.tcp).CanReach allowed goal (tunnel.session line)) :
    (machine bincode tunnelAddr).CanReach (Serves index addr) (fun next => ∃ after,
      goal (tunnel.session after) ∧ after.addr = line.addr ∧ next = tunnel.putLine index after) tunnel := by
  have start : tunnel = tunnel.putLine index line := by
    rcases List.getElem?_eq_some_iff.mp found with ⟨inside, is⟩
    rw [putLine, ← is, List.set_getElem_self]
  refine (reach.simulate (R := fun now next => ∃ after, now = tunnel.session after ∧
    after.addr = line.addr ∧ next = tunnel.putLine index after) ?_ ⟨line, rfl, rfl, start⟩).mono ?_
  · rintro _ event next _ permitted taken ⟨after, rfl, same, rfl⟩
    have here := own event permitted
    cases event with
    | task side role act =>
        obtain rfl : side = .client := here
        have inside : index < (tunnel.putLine index after).begun (role.endOf .client) :=
          begun role act permitted
        have there := putLine_found found after
        cases role with
        | up =>
            rcases Option.map_eq_some_iff.mp taken with ⟨⟨pipe, last⟩, moved, rfl⟩
            have steps : (tunnel.putLine index after).taskStep index .client .up act = _ :=
              taskStep_of_moves inside there (.up moved)
            rw [onLine_putLine found] at steps
            exact ⟨.task index .client .up act, _, ⟨rfl, rfl⟩, steps,
              (after.setPipe .client pipe).setActive .client last, rfl, same, rfl⟩
        | down =>
            rcases Option.map_eq_some_iff.mp taken with ⟨⟨pipe, last⟩, moved, rfl⟩
            have steps : (tunnel.putLine index after).taskStep index .client .down act = _ :=
              taskStep_of_moves inside there (.down moved)
            rw [onLine_putLine found] at steps
            exact ⟨.task index .client .down act, _, ⟨rfl, rfl⟩, steps,
              (after.setPipe .client pipe).setActive .host last, rfl, same, rfl⟩
    | deliver side count =>
        obtain rfl : side = .client := here
        simp only [Session.machine, Session.step] at taken
        split at taken <;> cases taken
        rename_i open_
        have shut : ¬ (tunnel.putLine index after).lost Side.client.other = true := open_
        refine ⟨.deliver index .client count, _, ⟨rfl, rfl⟩, ?_,
          after.setPipe .client ((after.pipe .client).deliver count), rfl, same, rfl⟩
        simp only [machine, step]
        rw [if_neg shut, onLine_putLine found]
    | deliverEnd side =>
        obtain rfl : side = .client := here
        simp only [Session.machine, Session.step] at taken
        split at taken <;> cases taken
        rename_i open_
        have shut : ¬ (tunnel.putLine index after).lost Side.client.other = true := open_
        refine ⟨.deliverEnd index .client, _, ⟨rfl, rfl⟩, ?_,
          after.setPipe .client (after.pipe .client).deliverEnd, rfl, same, rfl⟩
        simp only [machine, step]
        rw [if_neg shut, onLine_putLine found]
    | _ => exact here.elim
  · rintro _ ⟨_, met, after, rfl, same, rfl⟩
    exact ⟨after, met, same, rfl⟩

theorem Inv.serves (inverts : bincode.Inverts addr) (before : Tunnel) (label : Label) (after : Tunnel)
    (serves : Serves index addr label) (inv : before.Inv bincode)
    (taken : (machine bincode tunnelAddr).step before label = some after) : after.Inv bincode := by
  refine inv.step (fun other is => ?_) taken
  subst is
  exact (show other = addr from serves) ▸ inverts

/-! ## From the selection to the first byte -/

/-- Both programs are back where they look for the next session, the listener with its
accepting branch enabled, and the connection is up; the application on `line` is next,
has said something, has not been reset, and is of the service's address family. -/
structure Ready (tunnelAddr : SocketAddr) (tunnel : Tunnel) (line : Line) : Prop where
  listening : tunnel.exchange.client.listener = .select
  handling : tunnel.exchange.handler = .acceptBi
  level : tunnel.exchange.accepted = tunnel.exchange.opened.length
  clientOpen : tunnel.exchange.client.closed = false
  hostOpen : tunnel.exchange.lost = false
  clientQuiet : tunnel.exchange.client.stop.ready tunnel.exchange.client.seen = false
  hostQuiet : tunnel.hostStop.ready 0 = false
  next : tunnel.lines[tunnel.taken]? = some line
  said : (line.pipe .client).log ≠ []
  sound : (line.pipe .client).sockError = false
  compatible : Host.compatible .tcp tunnelAddr line.addr = true

/-- The client has begun the session of `line`, and nothing is in the way of it. -/
structure Going (tunnelAddr : SocketAddr) (index : Nat) (line : Line) (tunnel : Tunnel) : Prop where
  clientOpen : tunnel.exchange.client.closed = false
  hostOpen : tunnel.exchange.lost = false
  clientQuiet : tunnel.exchange.client.stop.ready (line.pipe .client).up.seen = false
  hostQuiet : tunnel.hostStop.ready 0 = false
  begun : index < tunnel.begun .client
  waiting : tunnel.begun .host = index
  found : tunnel.lines[index]? = some line
  fit : (line.pipe .client).up.pc.Fit tunnel.clock (line.lastActive .client)
  sound : (line.pipe .client).sockError = false
  compatible : Host.compatible .tcp tunnelAddr line.addr = true

/-- The handler's side of the exchange moves. -/
theorem Going.of_exchange {line : Line} (going : Going tunnelAddr index line tunnel)
    {exchange : Exchange} (client : exchange.client = tunnel.exchange.client)
    (open_ : exchange.lost = false) : Going tunnelAddr index line { tunnel with exchange } where
  clientOpen := by rw [client]; exact going.clientOpen
  hostOpen := open_
  clientQuiet := by rw [client]; exact going.clientQuiet
  hostQuiet := going.hostQuiet
  begun := going.begun
  waiting := going.waiting
  found := going.found
  fit := going.fit
  sound := going.sound
  compatible := going.compatible

/-- The request of `line` waits for the handler. -/
structure Asked (bincode : Bincode) (tunnelAddr : SocketAddr) (index : Nat) (line : Line)
    (tunnel : Tunnel) : Prop extends Going tunnelAddr index line tunnel where
  handling : tunnel.exchange.handler = .acceptBi
  level : tunnel.exchange.accepted = index
  opened : index < tunnel.exchange.opened.length
  control : ∃ stream, tunnel.exchange.controls[index]? = some stream ∧
    stream.accepted = bincode.encodeToVec (.connReq line.addr) ∧ stream.ending = some .fin ∧
      stream.pos = 0

/-- The handler has the request, and is about to connect to the service. -/
structure Told (tunnelAddr : SocketAddr) (index : Nat) (line : Line) (tunnel : Tunnel) : Prop
    extends Going tunnelAddr index line tunnel where
  handling : tunnel.exchange.handler = .serving line.addr
  level : tunnel.exchange.accepted = index + 1

/-- The listener has taken the application out of its queue. -/
def accepting (tunnel : Tunnel) (addr : SocketAddr) : Tunnel :=
  { tunnel with
    exchange := { tunnel.exchange with
      client := { tunnel.exchange.client with listener := .opening addr } }
    taken := tunnel.taken + 1 }

theorem Ready.accepts {line : Line} (ready : tunnel.Ready tunnelAddr line) :
    (machine bincode tunnelAddr).step tunnel (.exchange (.listener (.incoming line.addr))) =
      some (tunnel.accepting line.addr) := by
  have permitted : tunnel.permits (.listener (.incoming line.addr)) = true := by
    simp [permits, ready.next]
  simp only [machine, step, if_pos permitted]
  simp [Exchange.step, Exchange.listenerStep, Connected.step, Connected.afterIncoming,
    ready.listening, ready.clientQuiet, after, accepting]

/-- The request is on its way, and the forwarders of the client run. -/
def asking (bincode : Bincode) (tunnel : Tunnel) (addr : SocketAddr) : Tunnel :=
  { tunnel with exchange := tunnel.exchange.asked bincode addr }.spawn .client
    tunnel.exchange.opened.length tunnel.exchange.client.seen

theorem can_ask (at_ : tunnel.exchange.client.listener = .opening addr)
    (open_ : tunnel.exchange.client.closed = false) :
    (machine bincode tunnelAddr).CanReach (Serves index addr) (· = tunnel.asking bincode addr)
      tunnel := by
  refine (can_carry (Exchange.can_request at_ open_)).andThen ?_
  rintro _ ⟨_, rfl, rfl⟩
  have begins : (machine bincode tunnelAddr).step
      { tunnel with exchange := tunnel.exchange.requested bincode addr } (.exchange (.listener .sent)) =
        some (tunnel.asking bincode addr) := by
    have permitted : ({ tunnel with exchange := tunnel.exchange.requested bincode addr } : Tunnel).permits
        (.listener .sent) = true := rfl
    simp only [machine, step]
    rw [if_pos permitted, Exchange.step_requested open_, Option.map_some]
    simp [after, asking, Exchange.requested, spawn, onLine, lost, Exchange.asked]
  exact .step begins trivial (.here rfl)

/-- The same application, with the same to say. -/
def SameCall (before after : Line) : Prop :=
  after.addr = before.addr ∧ (after.pipe .client).log = (before.pipe .client).log

theorem SameCall.trans {first second third : Line} (once : SameCall first second)
    (twice : SameCall second third) : SameCall first third :=
  ⟨twice.1.trans once.1, twice.2.trans once.2⟩

/-- The listener accepts the application and sends its request. -/
theorem Ready.can_ask {line : Line} (ready : tunnel.Ready tunnelAddr line) (inv : tunnel.Inv bincode) :
    (machine bincode tunnelAddr).CanReach (Serves tunnel.taken line.addr)
      (fun next => ∃ after, Asked bincode tunnelAddr tunnel.taken after next ∧ SameCall line after)
      tunnel := by
  have asks : (machine bincode tunnelAddr).CanReach (Serves tunnel.taken line.addr)
      (· = (tunnel.accepting line.addr).asking bincode line.addr) (tunnel.accepting line.addr) :=
    Tunnel.can_ask rfl ready.clientOpen
  refine .step ready.accepts rfl (asks.mono ?_)
  rintro _ rfl
  have counts := inv.counts.client.settled (by rw [ready.listening]; rfl)
  have even := inv.exchange.sends.between (by rw [ready.listening]; rfl)
  rw [Exchange.contents_length] at even
  have place : tunnel.exchange.opened.length = tunnel.taken := counts.1.symm
  have control := @Exchange.asked_control bincode tunnel.exchange line.addr
  rw [even, place] at control
  have found : ((tunnel.accepting line.addr).asking bincode line.addr).lines[tunnel.taken]? =
      some (line.begins .client tunnel.exchange.client.closed tunnel.exchange.client.seen tunnel.clock) := by
    simp only [asking, spawn, onLine, accepting, place]
    rw [List.getElem?_modify_eq, ready.next]
    rfl
  refine ⟨line.begins .client tunnel.exchange.client.closed tunnel.exchange.client.seen tunnel.clock,
    ⟨⟨ready.clientOpen, ready.hostOpen, ready.clientQuiet, ready.hostQuiet, ?_, ?_, found, trivial,
      ready.sound, ready.compatible⟩, ready.handling, ready.level.trans place, ?_, control⟩, rfl, rfl⟩
  · simp [asking, spawn, onLine, accepting, counts]
  · have waits := (inv.counts.host.idle ready.handling).trans (ready.level.trans place)
    simpa [asking, spawn, onLine, accepting] using waits
  · simp [asking, spawn, onLine, accepting, Exchange.asked, place]

/-- The upper forwarder makes itself heard on the stream. -/
theorem Asked.can_speak {line : Line} (asked : Asked bincode tunnelAddr index line tunnel)
    (inv : tunnel.Inv bincode) (said : (line.pipe .client).log ≠ []) :
    (machine bincode tunnelAddr).CanReach (Serves index addr)
      (fun next => ∃ after, Asked bincode tunnelAddr index after next ∧ SameCall line after ∧
        (after.pipe .client).stream.accepted ≠ []) tunnel := by
  have keeps := (inv.lines index line asked.found).pipes .client
  have speaks : (Session.machine Bi.tcp).CanReach (Session.TaskOf .client .up)
      (Session.Speaks .client (tunnel.session line)) (tunnel.session line) :=
    Session.can_speak keeps.up asked.fit asked.clientQuiet asked.clientOpen asked.sound said
  refine (can_move asked.found Session.own_of_taskOf ?_ speaks).mono ?_
  · rintro role act ⟨_, is⟩
    cases is
    exact asked.begun
  · rintro _ ⟨after, spoken, same, rfl⟩
    have seen : (after.pipe .client).up.seen = (line.pipe .client).up.seen := spoken.seen
    have quiet : tunnel.exchange.client.stop.ready (after.pipe .client).up.seen = false := by
      rw [seen]
      exact asked.clientQuiet
    exact ⟨after, ⟨⟨asked.clientOpen, asked.hostOpen, quiet, asked.hostQuiet, asked.begun,
      asked.waiting, putLine_found asked.found after, spoken.fit, spoken.sound,
      same ▸ asked.compatible⟩, asked.handling, asked.level, asked.opened, same ▸ asked.control⟩,
      ⟨same, spoken.log⟩, spoken.accepted⟩

/-! ## From the first byte to the last -/

/-- The streams up to that of the line are made known. -/
theorem Asked.can_announce {line : Line} (asked : Asked bincode tunnelAddr index line tunnel)
    (spoken : (line.pipe .client).stream.accepted ≠ []) :
    (machine bincode tunnelAddr).CanReach (Serves index addr)
      (fun next => Asked bincode tunnelAddr index line next ∧ index < next.exchange.knownBi)
      tunnel := by
  refine Machine.CanReach.descend
    (fun now : Tunnel => now.exchange.opened.length - now.exchange.knownBi) ?_ asked
  intro now asked
  by_cases known : index < now.exchange.knownBi
  · exact Or.inl (.here ⟨asked, known⟩)
  · have more : now.exchange.knownBi < now.exchange.opened.length :=
      Nat.lt_of_le_of_lt (Nat.le_of_not_lt known) asked.opened
    have permitted : now.permits .announceBi = true := by
      simp only [permits, List.any_eq_true]
      refine ⟨line, List.mem_of_getElem? (i := index - now.exchange.knownBi) ?_, ?_⟩
      · rw [List.getElem?_drop, Nat.add_sub_cancel' (Nat.le_of_not_lt known),
          List.getElem?_take_of_lt asked.opened]
        exact asked.found
      · simp [Line.announced, spoken]
    have taken : (machine bincode tunnelAddr).step now (.exchange .announceBi) =
        some { now with exchange := { now.exchange with knownBi := now.exchange.knownBi + 1 } } := by
      simp only [machine, step, if_pos permitted, Exchange.step, if_pos more]
      rfl
    refine Or.inr ⟨.exchange .announceBi, _, trivial, taken, ⟨asked.toGoing.of_exchange rfl asked.hostOpen, asked.handling,
      asked.level, asked.opened, asked.control⟩, ?_⟩
    simp only
    omega

/-- The handler takes the stream and its request. -/
theorem Asked.can_tell {line : Line} (asked : Asked bincode tunnelAddr index line tunnel)
    (inv : tunnel.Inv bincode) (inverts : bincode.Inverts line.addr)
    (known : index < tunnel.exchange.knownBi) :
    (machine bincode tunnelAddr).CanReach (Serves index addr) (Told tunnelAddr index line) tunnel := by
  rcases asked.control with ⟨stream, found, carries, ending, unread⟩
  have even := inv.exchange.receives.idle asked.handling
  have next : tunnel.exchange.controls[tunnel.exchange.received]? = some stream := by
    rw [← even, asked.level]
    exact found
  refine (can_carry (Exchange.can_collect asked.handling (asked.level.symm ▸ known) next ending unread
    asked.hostOpen)).andThen ?_
  rintro _ ⟨exchange, collected, rfl⟩
  rcases collected.finished with ⟨last, here, finished⟩
  have decoded : bincode.decodeFromSlice stream.accepted = some (.connReq line.addr) := by
    rw [carries]
    exact inverts
  have received : exchange.step bincode .tcp (.host .readEnd) =
      some (exchange.receive bincode stream.accepted) := by
    simp only [Exchange.step, Exchange.hostStep, collected.handler, here, Option.bind_some,
      if_pos finished]
  have serving : (exchange.receive bincode stream.accepted).handler = .serving line.addr := by
    simp only [Exchange.receive, decoded]
  have taken : (machine bincode tunnelAddr).step { tunnel with exchange } (.exchange (.host .readEnd)) =
      some { tunnel with exchange := exchange.receive bincode stream.accepted } := by
    simp only [machine, step, permits, if_true, received, Option.map_some, after, serving]
    rw [if_neg (fun returned => Handler.noConfusion returned.1)]
  have kept : (exchange.receive bincode stream.accepted).client = exchange.client ∧
      (exchange.receive bincode stream.accepted).lost = exchange.lost ∧
        (exchange.receive bincode stream.accepted).accepted = exchange.accepted := by
    simp only [Exchange.receive, decoded, and_self]
  refine .step taken trivial (.here ⟨asked.toGoing.of_exchange (kept.1.trans collected.client)
    (kept.2.1.trans collected.open_), serving, ?_⟩)
  rw [kept.2.2, collected.accepted, asked.level]

/-- Both ends have begun, and what the application says flows to the service. -/
structure Flowing (index : Nat) (line : Line) (tunnel : Tunnel) : Prop where
  found : tunnel.lines[index]? = some line
  begun : ∀ side, index < tunnel.begun side
  flows : (tunnel.session line).Flows .client

/-- The handler connects to the service. -/
theorem Told.can_connect {line : Line} (told : Told tunnelAddr index line tunnel) :
    (machine bincode tunnelAddr).CanReach (Serves index addr)
      (fun next => ∃ after, Flowing index after next ∧ SameCall line after) tunnel := by
  have turn : tunnel.exchange.accepted - 1 = index := by
    rw [told.level]
    rfl
  have taken : (machine bincode tunnelAddr).step tunnel .connect = some (tunnel.spawn .host index 0) := by
    have ready : tunnel.begun .host < tunnel.exchange.accepted ∧
        Host.compatible .tcp tunnelAddr line.addr = true :=
      ⟨by rw [told.waiting, told.level]; exact Nat.lt_succ_self _, told.compatible⟩
    simp only [machine, step, connectStep, told.handling, if_pos ready, turn]
  refine .step taken trivial (.here
    ⟨line.begins .host tunnel.exchange.lost 0 tunnel.clock, ⟨?_, ?_, ?_, ?_, ?_, ?_⟩, rfl, ?_⟩)
  · simp only [spawn, onLine]
    rw [List.getElem?_modify_eq, told.found]
    rfl
  · intro side
    cases side with
    | client => simpa [spawn, onLine] using told.begun
    | host => simp [spawn, onLine, told.waiting]
  · intro role
    cases role with
    | up =>
        have fit := told.fit
        simpa [session, spawn, onLine, Session.task, Role.endOf, Line.begins, Line.setActive,
          Line.setEnd] using fit
    | down => exact trivial
  · intro role
    cases role with
    | up =>
        have quiet := told.clientQuiet
        simpa [session, spawn, onLine, stop, Session.stopPending, Session.task, Role.endOf,
          Line.begins, Line.setActive, Line.setEnd] using quiet
    | down => exact told.hostQuiet
  · intro side
    cases side with
    | client => exact told.clientOpen
    | host => exact told.hostOpen
  · have sound := told.sound
    simpa [session, Line.begins, Line.setActive, Line.setEnd, Pipe.setDown] using sound
  · exact Line.log_setEnd line .host tunnel.exchange.lost ⟨.top, 0⟩ .client

/-- Everything the application has said comes out at the service. -/
theorem Flowing.can_deliver {line : Line} (flowing : Flowing index line tunnel)
    (inv : tunnel.Inv bincode) :
    (machine bincode tunnelAddr).CanReach (Serves index addr)
      (fun next => index < next.begun .host ∧ ∃ after, next.lines[index]? = some after ∧
        SameCall line after ∧ (after.pipe .client).out = (line.pipe .client).log) tunnel := by
  have keeps : Session.Inv Bi.tcp (tunnel.session line) := (inv.lines index line flowing.found).pipes
  refine (can_move flowing.found (fun _ own => own) (fun role _ _ => flowing.begun _)
    (Session.can_drain keeps flowing.flows)).mono ?_
  rintro _ ⟨after, ⟨draining, drained⟩, same, rfl⟩
  exact ⟨flowing.begun .host, after, putLine_found flowing.found after, ⟨same, draining.log⟩,
    draining.out_eq drained⟩

/-- In every state that a tunnel can reach, whatever has been going on before: when
both programs are back where they look for the next session, the accepting branch is
enabled, the connection is up and no stop is pending, the application that has waited
longest can be served to its last byte, if it is of the service's address family and
has not been reset.  The two programs and the network do it alone, without a failure
and with no time going by, provided the codec inverts the addresses that turn up. -/
theorem next_can_be_served (bincode : Bincode) (tunnelAddr : SocketAddr) (labels : List Label)
    (inverts : ∀ addr, Label.exchange (.listener (.incoming addr)) ∈ labels → bincode.Inverts addr)
    {tunnel : Tunnel} (ran : (machine bincode tunnelAddr).run labels started = some tunnel)
    {line : Line} (ready : tunnel.Ready tunnelAddr line) (inverted : bincode.Inverts line.addr) :
    (machine bincode tunnelAddr).CanReach (Serves tunnel.taken line.addr)
      (fun next => tunnel.taken < next.begun .host ∧ ∃ served,
        next.lines[tunnel.taken]? = some served ∧ SameCall line served ∧
          (served.pipe .client).out = (line.pipe .client).log) tunnel := by
  have along : (machine bincode tunnelAddr).EveryState (Inv bincode) labels started := by
    apply Machine.everyState_of_steps _ (inv_started bincode)
    intro label listed before after inv taken
    exact inv.step (fun addr same => inverts addr (same ▸ listed)) taken
  have inv := along.of_run ran
  have kept := @Inv.serves bincode tunnelAddr line.addr tunnel.taken inverted
  -- each stage starts from what the one before it leaves, with the invariant carried along
  refine ((ready.can_ask inv).keepingAllowed kept inv).andThen ?_
  rintro asking ⟨inv, first, asked, call⟩
  refine ((asked.can_speak inv (call.2 ▸ ready.said)).keepingAllowed kept inv).andThen ?_
  rintro speaking ⟨inv, second, asked, again, spoken⟩
  have call := call.trans again
  refine ((asked.can_announce spoken).keepingAllowed kept inv).andThen ?_
  rintro announced ⟨inv, asked, known⟩
  refine ((asked.can_tell inv (call.1 ▸ inverted) known).keepingAllowed kept inv).andThen ?_
  rintro told ⟨inv, heard⟩
  refine (heard.can_connect.keepingAllowed kept inv).andThen ?_
  rintro flowing ⟨inv, third, flows, again⟩
  have call := call.trans again
  refine (flows.can_deliver inv).mono ?_
  rintro next ⟨begun, served, found, last, out⟩
  exact ⟨begun, served, found, call.trans last, out.trans call.2⟩

/-- One application has connected and said a byte, and nothing else has happened. -/
def oneWaiting : List Label :=
  [.exchange (.listener .bound), .dial (.v4 0x7f000001 5000), .socket 0 .client (.sends 7)]

theorem next_can_be_served_oneWaiting :
    let tunnels := machine Exchange.ipv4Bincode (.v4 0 80)
    ∃ tunnel, tunnels.run oneWaiting started = some tunnel ∧
      tunnels.CanReach (Serves 0 (.v4 0x7f000001 5000)) (fun next => ∃ served : Line,
        next.lines[0]? = some served ∧ (served.pipe .client).out = [7]) tunnel := by
  refine ⟨_, rfl, ?_⟩
  refine (next_can_be_served Exchange.ipv4Bincode (.v4 0 80) oneWaiting ?_ rfl
    ⟨rfl, rfl, rfl, rfl, rfl, rfl, rfl, rfl, ?_, rfl, rfl⟩ ?_).mono ?_
  · intro addr listed
    simp [oneWaiting] at listed
  · exact List.cons_ne_nil 7 []
  · decide
  · rintro next ⟨_, served, found, _, out⟩
    exact ⟨served, found, out⟩

end Tunnel

end EndToEnd
end Lantun
