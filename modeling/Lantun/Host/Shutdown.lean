import Lantun.Machine.Progress
import Lantun.Host.Invariant

namespace Lantun
namespace Host

open Net

/-!
# The accept loop after the endpoint is closed

`stop` sends on the stop channel and closes the endpoint.  The forwarders of a
session hear of the first, and `handle_connection` fails because of the second,
but the accept loop knows neither.  `endpoint.accept` yields `None` from now on,
and the arm for `None` goes around.  No arm leaves the loop, so its task never
ends; it can only spin.

Where the task stands when the endpoint is closed does not matter.  From a
handshake, a request or a session it comes back to the head of the loop by steps
of its own, since nothing it waits for there can keep it once the connection is
gone.
-/

/-- The stream a handler is occupied with. -/
def Phase.stream : Phase → Option Nat
  | .acceptBi => none
  | .receivePacket stream | .connecting stream _ | .session stream _ _ => some stream

/-- How far a handler on a closed connection is from returning. -/
def Phase.distance : Phase → Nat
  | .session _ _ forwarders => 4 + forwarders.left
  | .acceptBi => 3
  | .receivePacket _ => 2
  | .connecting _ _ => 1

def Loop.distance : Loop → Nat
  | .handshake _ => 7
  | .handling _ phase => phase.distance
  | .accept | .panicked => 0

variable {Key : Type}

namespace Conn

/-- A handler step names only streams that are there. -/
theorem handlerStep_stream {protocol : TunnelProtocol} {tunnelAddr : SocketAddr}
    {stopSent : Bool} {conn next : Conn Key} {phase phase' : Phase} {act : HandlerAct}
    {registration : Registration}
    (taken : conn.handlerStep protocol tunnelAddr stopSent phase act =
      some (next, registration, .continues phase'))
    (placed : ∀ stream, phase.stream = some stream → stream < conn.streams.length) :
    ∀ stream, phase'.stream = some stream → stream < next.streams.length := by
  cases phase with
  | acceptBi =>
      cases act <;> simp only [handlerStep, acceptStep] at taken <;> try cases taken
      all_goals
        split at taken <;> cases taken
      rename_i visible
      rintro stream ⟨⟩
      exact visible
  | receivePacket stream =>
      cases act <;> simp only [handlerStep, receiveStep] at taken <;> try cases taken
      · split at taken <;> cases taken
        exact placed
      · split at taken
        · cases taken
        · cases taken
        · cases taken
        · split at taken <;> cases taken
        · split at taken <;> cases taken
  | connecting stream localAddr =>
      cases act <;> simp only [handlerStep, connectStep] at taken <;> try cases taken
      · split at taken <;> cases taken
        simpa [Phase.stream] using placed
      all_goals split at taken <;> cases taken
  | session stream localAddr forwarders =>
      simp only [handlerStep, sessionStep] at taken
      split at taken
      · split at taken <;> cases taken
        rintro stream ⟨⟩
      · rcases Option.bind_eq_some_iff.mp taken with ⟨inbound, _, rest⟩
        rcases Option.bind_eq_some_iff.mp rest with ⟨⟨role, after, status⟩, _, last⟩
        simp only at last
        split at last <;> cases last
        simpa [Phase.stream] using placed

/-- On a closed connection every phase has a step that returns or comes nearer
to returning. -/
theorem exists_step_of_closed {conn : Conn Key} (closed : conn.link = .closed) {phase : Phase}
    (placed : ∀ stream, phase.stream = some stream → stream < conn.streams.length)
    (protocol : TunnelProtocol) (tunnelAddr : SocketAddr) (stopSent : Bool) :
    ∃ act after registration outcome, act.ofService = false ∧
      conn.handlerStep protocol tunnelAddr stopSent phase act =
        some (after, registration, outcome) ∧
      ((∃ error, outcome = .returns error) ∨
        ∃ phase', outcome = .continues phase' ∧ phase'.distance < phase.distance) := by
  cases phase with
  | acceptBi =>
      by_cases visible : conn.accepted < conn.streams.length
      · refine ⟨.acceptBi, { conn with accepted := conn.accepted + 1 }, .keep,
          .continues (.receivePacket conn.accepted), rfl, ?_, Or.inr ⟨_, rfl, ?_⟩⟩
        · simp only [handlerStep, acceptStep, if_pos visible]
        · simp [Phase.distance]
      · refine ⟨.acceptBiFails, conn, .keep, .returns .connectionError, rfl, ?_, Or.inl ⟨_, rfl⟩⟩
        simp only [handlerStep, acceptStep, closed, and_true, if_pos (Nat.le_of_not_lt visible)]
  | receivePacket stream =>
      have fails : ∀ after : Conn Key,
          conn.receiveStep stream .receiveFails =
            some (after, .keep, .returns .receivePacketError) →
          ∃ act after registration outcome, act.ofService = false ∧
            conn.handlerStep protocol tunnelAddr stopSent (.receivePacket stream) act =
              some (after, registration, outcome) ∧
            ((∃ error, outcome = .returns error) ∨
              ∃ phase', outcome = .continues phase' ∧
                phase'.distance < (Phase.receivePacket stream).distance) :=
        fun after moved => ⟨.receiveFails, after, .keep, _, rfl, moved, Or.inl ⟨_, rfl⟩⟩
      cases next : conn.nextControl with
      | none =>
          apply fails conn
          simp only [receiveStep, next, closed, if_true]
      | some control =>
          cases control with
          | packet message =>
              rcases message with ⟨localAddr⟩
              refine ⟨.receivePacket, { conn with received := conn.received + 1 },
                .insert (getUnspecified localAddr.isIpv4)
                  ⟨localAddr, getUnspecified localAddr.isIpv4⟩,
                .continues (.connecting stream localAddr), rfl, ?_, Or.inr ⟨_, rfl, ?_⟩⟩
              · simp only [handlerStep, receiveStep, next]
              · simp [Phase.distance]
          | arriving =>
              apply fails conn
              simp only [receiveStep, next, closed, if_true]
          | undecodable | reset =>
              apply fails { conn with received := conn.received + 1, answered := true }
              simp only [receiveStep, next]
  | connecting stream localAddr =>
      cases fits : compatible protocol tunnelAddr localAddr with
      | true =>
          refine ⟨.connectFails, conn, .keep, .returns .ioError, rfl, ?_, Or.inl ⟨_, rfl⟩⟩
          simp only [handlerStep, connectStep, fits, if_true]
      | false =>
          refine ⟨.familyMismatch, { conn with answered := true }, .keep, .returns .ioError, rfl,
            ?_, Or.inl ⟨_, rfl⟩⟩
          simp only [handlerStep, connectStep, fits, Bool.false_eq_true, if_false]
  | session stream localAddr forwarders =>
      cases joined : forwarders.joined with
      | true =>
          refine ⟨.join, conn, .remove (getUnspecified localAddr.isIpv4), .continues .acceptBi,
            rfl, ?_, Or.inr ⟨_, rfl, ?_⟩⟩
          · simp only [handlerStep, sessionStep, joined, if_true]
          · simp only [Phase.distance]
            omega
      | false =>
          have waits : ∃ role, forwarders.status role = .running := by
            by_contra none_
            have up : forwarders.socketToTunnel ≠ .running := fun is => none_ ⟨.up, is⟩
            have down : forwarders.tunnelToSocket ≠ .running := fun is => none_ ⟨.down, is⟩
            cases first : forwarders.tunnelToSocket <;> cases second : forwarders.socketToTunnel <;>
              simp [Forwarders.joined, first, second] at joined up down
          rcases waits with ⟨role, running⟩
          have within := placed stream rfl
          refine ⟨.timesOut role, { conn with
            streams := conn.streams.set stream conn.streams[stream] }, .keep,
            .continues (.session stream localAddr (forwarders.setStatus role .finished)), rfl, ?_,
            Or.inr ⟨_, rfl, ?_⟩⟩
          · simp only [handlerStep, sessionStep, reduceCtorEq, if_false,
              List.getElem?_eq_getElem within, Option.bind_some, forward, running, if_true]
          · have fewer := Forwarders.left_setStatus_lt running
              (show TaskStatus.finished ≠ .running by decide)
            simp only [Phase.distance]
            omega

/-- A client can do nothing on a connection that is closed. -/
theorem clientStep_of_shut {conn : Conn Key} (shut : conn.link = .failed ∨ conn.link = .closed)
    (act : ClientAct) : conn.clientStep act = none := by
  have pending : conn.link ≠ .pending := by rcases shut with is | is <;> simp [is]
  have live : conn.link ≠ .live := by rcases shut with is | is <;> simp [is]
  cases act <;> simp [clientStep, pending, live]

end Conn

variable [DecidableEq Key]

namespace HostTunnel

/-- The endpoint is closed, and with it every connection. -/
structure Down (host : HostTunnel Key) : Prop where
  closed : host.endpointClosed = true
  shut : ∀ (index : Nat) (conn : Conn Key), host.conns[index]? = some conn →
    conn.link = .failed ∨ conn.link = .closed

/-- The handler is occupied with a stream that is there. -/
def Placed (host : HostTunnel Key) : Prop :=
  ∀ index phase (conn : Conn Key) stream, host.loop = .handling index phase →
    host.conns[index]? = some conn → phase.stream = some stream → stream < conn.streams.length

/-- Steps of the task that `start` has spawned. -/
def OwnStep : Label Key → Prop
  | .accept | .handshakeEnds => True
  | .handler _ act => act.ofService = false
  | _ => False

/-- The iterations of the accept loop among some steps. -/
def iterations (labels : List (Label Key)) : Nat := labels.countP fun label => label = .accept

/-- The task comes to its end, or at least stops iterating. -/
def Ends (protocol : TunnelProtocol) (tunnelAddr : SocketAddr) (host : HostTunnel Key) : Prop :=
  (machine protocol tunnelAddr).CanReach (fun _ => True) (fun host => host.loop = .panicked) host ∨
    ∃ bound, ∀ labels next, (∀ label ∈ labels, OwnStep label) →
      (machine protocol tunnelAddr).run labels host = some next → iterations labels ≤ bound

/-! ## Every way leads back to the head of the loop -/

theorem inductive_placed (protocol : TunnelProtocol) (tunnelAddr : SocketAddr) :
    (machine protocol tunnelAddr : Machine (HostTunnel Key) (Label Key)).Inductive
      (fun host => host.Inv ∧ host.Placed) := by
  refine (inductive_inv protocol tunnelAddr).and_of ?_ ?_
  · intro host first index phase conn stream at_
    rw [show host = started from first] at at_
    cases at_
  · intro host label next inv placed taken
    -- only the connection being served matters, and it is one of the old ones
    have written : ∀ {at_ : Nat} {before after : Conn Key}, host.conns[at_]? = some before →
        before.streams.length ≤ after.streams.length →
        ∀ index phase (conn : Conn Key) stream, host.loop = .handling index phase →
          (host.setConn at_ after).conns[index]? = some conn → phase.stream = some stream →
          stream < conn.streams.length := by
      intro at_ before after found grown index phase conn stream loop here is
      rw [getElem?_setConn found after index] at here
      split at here
      · rename_i same
        cases here
        exact Nat.lt_of_lt_of_le (placed index phase before stream loop (same ▸ found) is) grown
      · exact placed index phase conn stream loop here is
    cases label with
    | dial key =>
        simp only [machine, step] at taken
        split at taken <;> cases taken
        intro index phase conn stream at_ here is
        rcases inv.handling index phase at_ with ⟨_, old, there, _⟩
        rw [List.getElem?_append_left (List.getElem?_eq_some_iff.mp there).1] at here
        exact placed index phase conn stream at_ here is
    | client key index act =>
        rcases Option.bind_eq_some_iff.mp taken with ⟨before, found, rest⟩
        split at rest
        · rcases Option.map_eq_some_iff.mp rest with ⟨after, moved, same⟩
          subst same
          exact written found (Conn.clientStep_counted moved).1
        · cases rest
    | accept =>
        simp only [machine, step] at taken
        split at taken
        · split at taken
          · cases taken
            intro index phase conn stream at_
            cases at_
          · split at taken <;> cases taken
            exact placed
        · cases taken
    | handshakeEnds =>
        simp only [machine, step] at taken
        split at taken
        · rcases Option.bind_eq_some_iff.mp taken with ⟨before, found, admitted⟩
          rcases afterHandshake_cases admitted with ⟨_, rfl⟩ | ⟨_, ⟨_, rfl⟩ | ⟨_, rfl⟩⟩
          · intro index phase conn stream at_
            cases at_
          · intro index phase conn stream at_
            cases at_
          · rintro index phase conn stream ⟨⟩ _ ⟨⟩
        · cases taken
    | handler key act =>
        rcases handler_cases taken with
          ⟨index, phase, before, after, registration, outcome, at_, found, _, moved, same⟩
        rcases inv.handled_eq at_ found (Conn.handlerStep_sameOwner moved).client registration
          outcome with ⟨clients, _, is⟩
        rw [same, is]
        cases outcome with
        | continues phase' =>
            rintro other phase conn stream ⟨⟩ here is
            have there := (getElem?_setConn found after index).trans (if_pos rfl)
            cases there.symm.trans here
            exact Conn.handlerStep_stream moved
              (fun stream is => placed index _ before stream at_ found is) stream is
        | returns error =>
            intro other phase conn stream at_
            cases at_
    | stop =>
        simp only [machine, step] at taken
        split at taken
        · split at taken <;> cases taken
          exact placed
        · cases taken
          exact placed
    | closeEndpoint =>
        simp only [machine, step] at taken
        split at taken <;> cases taken
        intro index phase conn stream at_ here is
        rcases Option.map_eq_some_iff.mp ((List.getElem?_map ..).symm.trans here) with
          ⟨old, there, same⟩
        subst same
        exact placed index phase old stream at_ there is

/-- Nothing opens a connection again. -/
theorem Down.of_step {protocol : TunnelProtocol} {tunnelAddr : SocketAddr}
    {host next : HostTunnel Key} {label : Label Key} (inv : host.Inv) (down : host.Down)
    (taken : step protocol tunnelAddr host label = some next) : next.Down := by
  have written : ∀ {at_ : Nat} {before after : Conn Key}, host.conns[at_]? = some before →
      (after.link = before.link ∨ after.link = .closed) →
      ∀ (index : Nat) (conn : Conn Key), (host.setConn at_ after).conns[index]? = some conn →
        conn.link = .failed ∨ conn.link = .closed := by
    intro at_ before after found link index conn here
    rw [getElem?_setConn found after index] at here
    split at here
    · cases here
      rcases link with same | is
      · exact same ▸ down.shut at_ before found
      · exact Or.inr is
    · exact down.shut index conn here
  cases label with
  | dial key =>
      simp only [step, down.closed, if_true] at taken
      cases taken
  | client key index act =>
      rcases Option.bind_eq_some_iff.mp taken with ⟨before, found, rest⟩
      split at rest
      · rw [Conn.clientStep_of_shut (down.shut index before found) act] at rest
        cases rest
      · cases rest
  | accept =>
      simp only [step] at taken
      split at taken
      · split at taken
        · cases taken
          exact ⟨down.closed, down.shut⟩
        · split at taken <;> cases taken
          exact down
      · cases taken
  | handshakeEnds =>
      simp only [step] at taken
      split at taken
      · rcases Option.bind_eq_some_iff.mp taken with ⟨before, found, admitted⟩
        rcases afterHandshake_cases admitted with ⟨_, rfl⟩ | ⟨_, ⟨_, rfl⟩ | ⟨_, rfl⟩⟩
        · exact ⟨down.closed, down.shut⟩
        · exact ⟨down.closed, written found (Or.inr rfl)⟩
        · exact ⟨down.closed, written found (Or.inl rfl)⟩
      · cases taken
  | handler key act =>
      rcases handler_cases taken with
        ⟨index, phase, before, after, registration, outcome, at_, found, _, moved, same⟩
      have owner := Conn.handlerStep_sameOwner moved
      rcases inv.handled_eq at_ found owner.client registration outcome with ⟨clients, _, is⟩
      rw [same, is]
      cases outcome with
      | continues phase' => exact ⟨down.closed, written found (Or.inl owner.link)⟩
      | returns error => exact ⟨down.closed, written found (Or.inl owner.link)⟩
  | stop =>
      simp only [step] at taken
      split at taken
      · split at taken <;> cases taken
        exact ⟨down.closed, down.shut⟩
      · cases taken
        exact down
  | closeEndpoint =>
      simp only [step] at taken
      split at taken <;> cases taken
      refine ⟨rfl, fun index conn here => ?_⟩
      rcases Option.map_eq_some_iff.mp ((List.getElem?_map ..).symm.trans here) with
        ⟨old, there, same⟩
      subst same
      rcases down.shut index old there with is | is <;> simp [Conn.shut, is]

/-- What the task can rely on once the endpoint is closed. -/
structure Spinning (host : HostTunnel Key) : Prop where
  inv : host.Inv
  placed : host.Placed
  down : host.Down

theorem Spinning.after {protocol : TunnelProtocol} {tunnelAddr : SocketAddr}
    {host next : HostTunnel Key} {label : Label Key} (spinning : host.Spinning)
    (taken : step protocol tunnelAddr host label = some next) : next.Spinning := by
  have both := (inductive_placed protocol tunnelAddr).step host label next
    ⟨spinning.inv, spinning.placed⟩ taken
  exact ⟨both.1, both.2, spinning.down.of_step spinning.inv taken⟩

/-- The task gets back to the head of its loop. -/
theorem Spinning.canReach_accept {host : HostTunnel Key} (spinning : host.Spinning)
    (protocol : TunnelProtocol) (tunnelAddr : SocketAddr) :
    (machine protocol tunnelAddr).CanReach OwnStep
      (fun host => host.Spinning ∧ host.loop = .accept) host := by
  refine Machine.CanReach.descend (fun host : HostTunnel Key => host.loop.distance) ?_ spinning
  intro host spinning
  cases at_ : host.loop with
  | accept => exact Or.inl (Machine.CanReach.here ⟨spinning, at_⟩)
  | panicked => exact absurd at_ spinning.inv.notPanicked
  | handshake index =>
      have within : index < host.conns.length :=
        Nat.lt_of_lt_of_le (Nat.lt_of_succ_le (Nat.le_of_eq (spinning.inv.handshake index at_)))
          spinning.inv.taken_le
      have found := List.getElem?_eq_getElem within
      have admitted : ∃ next, host.afterHandshake index host.conns[index] = some next ∧
          next.loop.distance < 7 := by
        unfold afterHandshake
        rcases spinning.down.shut index _ found with link | link <;> rw [link]
        · exact ⟨_, rfl, by simp [Loop.distance]⟩
        · dsimp only
          split
          · exact ⟨_, rfl, by simp [ignore, Loop.distance]⟩
          · exact ⟨_, rfl, by simp [enter, Loop.distance, Phase.distance]⟩
      rcases admitted with ⟨next, is, nearer⟩
      have taken : step protocol tunnelAddr host .handshakeEnds = some next := by
        simp only [step, at_, found, Option.bind_some, is]
      exact Or.inr ⟨.handshakeEnds, next, trivial, taken, spinning.after taken, nearer⟩
  | handling index phase =>
      rcases spinning.inv.handling index phase at_ with ⟨_, conn, found, serving⟩
      have link : conn.link = .closed := by
        refine (spinning.down.shut index conn found).resolve_left fun failed => ?_
        have shaken := spinning.inv.shaken index conn found serving
        rw [failed] at shaken
        cases shaken
      rcases Conn.exists_step_of_closed link
        (fun stream => spinning.placed index phase conn stream at_ found) protocol tunnelAddr
        host.stopSent with ⟨act, after, registration, outcome, own, moved, progress⟩
      rcases spinning.inv.handler_step at_ found moved with
        ⟨next, final, taken, _, _, _, _, _, ⟨phase', continues, loop, _⟩ | ⟨_, loop⟩⟩
      · refine Or.inr ⟨.handler conn.client act, next, own, taken, spinning.after taken, ?_⟩
        rcases progress with ⟨error, returns⟩ | ⟨nearer, is, smaller⟩
        · cases continues.symm.trans returns
        · cases continues.symm.trans is
          rw [loop]
          exact smaller
      · have moved : (machine protocol tunnelAddr).step host (.handler conn.client act) =
            some next := taken
        exact Or.inl (Machine.CanReach.step moved own
          (Machine.CanReach.here ⟨spinning.after taken, loop⟩))

/-- At the head of the loop the closed endpoint answers at once. -/
theorem Spinning.accept {host : HostTunnel Key} (spinning : host.Spinning)
    (at_ : host.loop = .accept) (protocol : TunnelProtocol) (tunnelAddr : SocketAddr) :
    ∃ next, step protocol tunnelAddr host .accept = some next ∧ next.Spinning := by
  have taken : ∃ next, step protocol tunnelAddr host .accept = some next := by
    simp only [step, at_, if_true, spinning.down.closed]
    split
    · exact ⟨_, rfl⟩
    · exact ⟨_, rfl⟩
  rcases taken with ⟨next, taken⟩
  exact ⟨next, taken, spinning.after taken⟩

/-- Only closing the endpoint closes it. -/
theorem endpointClosed_of_step {protocol : TunnelProtocol} {tunnelAddr : SocketAddr}
    {host next : HostTunnel Key} {label : Label Key}
    (taken : step protocol tunnelAddr host label = some next) (other : label ≠ .closeEndpoint) :
    next.endpointClosed = host.endpointClosed := by
  by_cases stops : label = .stop
  · subst stops
    simp only [step] at taken
    split at taken
    · split at taken <;> cases taken
      rfl
    · cases taken
      rfl
  · exact (step_frame taken stops other).2.2.2

theorem inductive_spinning (protocol : TunnelProtocol) (tunnelAddr : SocketAddr) :
    (machine protocol tunnelAddr : Machine (HostTunnel Key) (Label Key)).Inductive
      (fun host => (host.Inv ∧ host.Placed) ∧ (host.endpointClosed = true → host.Down)) := by
  refine (inductive_placed protocol tunnelAddr).and_of ?_ ?_
  · intro host first closed
    rw [show host = started from first] at closed
    cases closed
  · intro host label next both down taken closed
    by_cases before : host.endpointClosed = true
    · exact (down before).of_step both.1 taken
    · by_cases last : label = .closeEndpoint
      · subst last
        simp only [machine, step] at taken
        split at taken <;> cases taken
        refine ⟨rfl, fun index conn here => ?_⟩
        rcases Option.map_eq_some_iff.mp ((List.getElem?_map ..).symm.trans here) with
          ⟨old, _, same⟩
        subst same
        cases link : old.link <;> simp [Conn.shut, link]
      · exact absurd ((endpointClosed_of_step taken last).symm.trans closed) before

theorem spinning_of_reachable {protocol : TunnelProtocol} {tunnelAddr : SocketAddr}
    {host : HostTunnel Key} (reached : (machine protocol tunnelAddr).Reachable host)
    (closed : host.endpointClosed = true) : host.Spinning := by
  rcases (inductive_spinning protocol tunnelAddr).of_reachable reached with ⟨both, down⟩
  exact ⟨both.1, both.2, down closed⟩

/-- The task goes once more around its loop. -/
theorem Spinning.again {host : HostTunnel Key} (spinning : host.Spinning)
    (protocol : TunnelProtocol) (tunnelAddr : SocketAddr) :
    ∃ labels next, (∀ label ∈ labels, OwnStep label) ∧
      (machine protocol tunnelAddr).run labels host = some next ∧ next.Spinning ∧
      0 < iterations labels := by
  rcases spinning.canReach_accept protocol tunnelAddr with ⟨labels, middle, own, ran, back, at_⟩
  rcases back.accept at_ protocol tunnelAddr with ⟨next, taken, kept⟩
  refine ⟨labels ++ [.accept], next, ?_, ?_, kept, ?_⟩
  · intro label member
    rcases List.mem_append.mp member with inside | last
    · exact own label inside
    · rw [List.mem_singleton.mp last]
      trivial
  · exact (Machine.run_append_eq_some _).mpr
      ⟨middle, ran, (Machine.run_singleton _ _ _).trans taken⟩
  · simp [iterations]

theorem Spinning.not_ends {host : HostTunnel Key} (spinning : host.Spinning)
    (protocol : TunnelProtocol) (tunnelAddr : SocketAddr) : ¬ host.Ends protocol tunnelAddr := by
  rintro (⟨labels, next, _, ran, ended⟩ | ⟨bound, bounded⟩)
  · exact ((inductive_inv protocol tunnelAddr).run spinning.inv ran).notPanicked ended
  · rcases Machine.exists_run_counting (T := Spinning)
      (fun _ spinning => spinning.again protocol tunnelAddr) (bound + 1) spinning with
      ⟨labels, next, own, ran, _, many⟩
    exact absurd (bounded labels next own ran) (Nat.not_le_of_lt many)

/-- Once the endpoint is closed the task of the accept loop neither ends nor
stops iterating, in any run and wherever it stood. -/
theorem never_ends {protocol : TunnelProtocol} {tunnelAddr : SocketAddr} {host : HostTunnel Key}
    (reached : (machine protocol tunnelAddr).Reachable host)
    (closed : host.endpointClosed = true) : ¬ host.Ends protocol tunnelAddr :=
  (spinning_of_reachable reached closed).not_ends protocol tunnelAddr

/-- A tunnel that is started and stopped with no client about. -/
def stoppedRun : List (Label Nat) := [.stop, .closeEndpoint]

/-- One that is stopped while a client is in a session. -/
def stoppedInSession : List (Label Nat) :=
  [.dial 7, .accept, .client 7 0 (.handshake true), .handshakeEnds, .client 7 0 .announceBi,
    .client 7 0 .openUni, .client 7 0 (.control 0 (.packet (.connReq (.v4 1 5000)))),
    .handler 7 .acceptBi, .handler 7 .receivePacket, .handler 7 .connect, .stop, .closeEndpoint]

theorem exists_stopped : ∃ host : HostTunnel Nat,
    (machine .tcp (.v4 0 80)).Reachable host ∧ host.endpointClosed = true := by
  have ends : ((machine .tcp (.v4 0 80)).run stoppedRun started).any
      (fun host => host.endpointClosed) = true := by decide
  rcases (Option.any_eq_true ..).mp ends with ⟨host, ran, closed⟩
  exact ⟨host, ⟨started, stoppedRun, rfl, ran⟩, closed⟩

theorem exists_stopped_inSession : ∃ host : HostTunnel Nat,
    (machine .tcp (.v4 0 80)).Reachable host ∧ host.endpointClosed = true ∧
      host.loop = .handling 0 (.session 0 (.v4 1 5000) .spawned) := by
  have ends : ((machine .tcp (.v4 0 80)).run stoppedInSession started).any (fun host =>
      host.endpointClosed && decide (host.loop = .handling 0 (.session 0 (.v4 1 5000) .spawned))) =
        true := by decide
  rcases (Option.any_eq_true ..).mp ends with ⟨host, ran, point⟩
  simp only [Bool.and_eq_true, decide_eq_true_eq] at point
  exact ⟨host, ⟨started, stoppedInSession, rfl, ran⟩, point⟩

theorem never_ends_stoppedRun :
    (∃ host : HostTunnel Nat, host.endpointClosed = true ∧ ¬ host.Ends .tcp (.v4 0 80)) ∧
      ∃ host : HostTunnel Nat, host.loop = .handling 0 (.session 0 (.v4 1 5000) .spawned) ∧
        host.endpointClosed = true ∧ ¬ host.Ends .tcp (.v4 0 80) := by
  constructor
  · rcases exists_stopped with ⟨host, reached, closed⟩
    exact ⟨host, closed, never_ends reached closed⟩
  · rcases exists_stopped_inSession with ⟨host, reached, closed, session⟩
    exact ⟨host, session, closed, never_ends reached closed⟩

theorem stoppedRun_spins : ¬ ∀ host : HostTunnel Nat, (machine .tcp (.v4 0 80)).Reachable host →
    host.endpointClosed = true → host.Ends .tcp (.v4 0 80) := by
  intro always
  rcases exists_stopped with ⟨host, reached, closed⟩
  exact (spinning_of_reachable reached closed).not_ends _ _ (always host reached closed)

end HostTunnel

end Host
end Lantun
