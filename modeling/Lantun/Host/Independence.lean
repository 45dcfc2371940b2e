import Lantun.Host.Clearance

namespace Lantun
namespace Host

open Net

/-!
# When a new client is served without the others

From a clear state the host works its way to the new client: the handler running
now returns, the connections in front are looked at one after the other, and the
client's own is admitted.  Each of these steps lowers a measure, so the way ends.
None of them is left to the service of somebody else's session: what has arrived
from both its ends is relayed, and its forwarders meet the ends of their sources or
a sink that takes nothing any more.  The new client's own session is started, if its
request is one that can be served at all.
-/

variable {Key : Type}

namespace HostTunnel

/-! ## Streams and messages are counted correctly -/

/-- No more is accepted than has become visible. -/
def Counted (host : HostTunnel Key) : Prop :=
  ∀ (index : Nat) (conn : Conn Key), host.conns[index]? = some conn →
    conn.accepted ≤ conn.streams.length ∧ conn.received ≤ conn.controls.length

theorem Counted.setConn {host : HostTunnel Key} (counted : host.Counted) {index : Nat}
    {before : Conn Key} (found : host.conns[index]? = some before) (after : Conn Key)
    (kept : after.accepted ≤ after.streams.length ∧ after.received ≤ after.controls.length) :
    (host.setConn index after).Counted := by
  intro other conn here
  rw [getElem?_setConn found after] at here
  split at here
  · cases here
    exact kept
  · exact counted other conn here

end HostTunnel

namespace Conn

/-- A forwarder of a session moves, and the session goes on. -/
theorem sessionStep_of_forward {stopSent : Bool} {conn : Conn Key} {stream : Nat}
    {localAddr : SocketAddr} {forwarders : Forwarders} {act : HandlerAct}
    {inbound after : Inbound} {role : Role} {status : TaskStatus}
    (found : conn.streams[stream]? = some inbound)
    (moved : conn.forward stopSent inbound act = some (role, after, status))
    (running : forwarders.status role = .running) :
    conn.sessionStep stopSent stream localAddr forwarders act =
      some ({ conn with streams := conn.streams.set stream after }, .keep,
        .continues (.session stream localAddr (forwarders.setStatus role status))) := by
  have other : act ≠ .join := by
    intro is
    simp [is, forward] at moved
  simp [sessionStep, other, found, moved, running]

/-- What a forwarder has finished, or is about to, another forwarder's end does not
undo. -/
theorem finishes_setStatus {inbound : Inbound} {forwarders : Forwarders} {role other : Role}
    (finishes : Conn.finishes inbound forwarders other = true) :
    Conn.finishes inbound (forwarders.setStatus role .finished) other = true := by
  cases role <;> cases other <;> first
    | exact finishes
    | simp [Conn.finishes, Forwarders.setStatus, Forwarders.status]

/-- A forwarder that comes to the end of its source relays what is there, and then
ends. -/
theorem forward_of_finishes {conn : Conn Key} {inbound : Inbound} {forwarders : Forwarders}
    {role : Role} (running : forwarders.status role = .running)
    (ended : inbound.exhausted role = true)
    (calm : conn.panics inbound forwarders role = false) (stopSent : Bool) :
    ∃ act after status, act.byHost = true ∧
      conn.forward stopSent inbound act = some (role, after, status) ∧
      (∀ other, after.exhausted other = inbound.exhausted other) ∧
      ((status = .running ∧ after.unread < inbound.unread) ∨
        (status = .finished ∧ after = inbound)) := by
  by_cases some_ : 0 < inbound.pending role
  · have takes : conn.refuses inbound role = false := by
      simpa [Conn.panics, running, some_] using calm
    refine ⟨.relay role (inbound.pending role), inbound.relay (inbound.pending role) role, .running,
      rfl, ?_, inbound.exhausted_relay _ _, Or.inl ⟨rfl, Inbound.unread_relay_lt some_⟩⟩
    simp only [forward, some_, takes, Nat.le_refl, and_self, if_true]
  · have none_ : inbound.pending role = 0 := Nat.eq_zero_of_not_pos some_
    refine ⟨.ends role, inbound, .finished, rfl, ?_, fun _ => rfl, Or.inr ⟨rfl, rfl⟩⟩
    simp only [forward, none_, ended, and_self, if_true]

/-- In a session that can end by the host alone, some forwarder can move, after
which the session can still end and there is less left to do. -/
theorem forward_of_yields {conn : Conn Key} {inbound : Inbound} {forwarders : Forwarders}
    (apart : forwarders.joined = false) (yields : conn.yields inbound forwarders = true)
    (stopSent : Bool) :
    ∃ act role after status, act.byHost = true ∧
      conn.forward stopSent inbound act = some (role, after, status) ∧
      forwarders.status role = .running ∧
      ((forwarders.setStatus role status).joined ||
        conn.yields after (forwarders.setStatus role status)) = true ∧
      (forwarders.setStatus role status).left + after.unread < forwarders.left + inbound.unread := by
  by_cases calm : ∀ role, conn.panics inbound forwarders role = false
  · have both : ∀ role, finishes inbound forwarders role = true := by
      simp only [Conn.yields, calm, Bool.false_or, Bool.and_eq_true] at yields
      intro role
      cases role with
      | up => exact yields.1
      | down => exact yields.2
    have some_ : ∃ role, forwarders.status role = .running := by
      by_contra none_
      rw [Forwarders.joined_of_ended fun role is => none_ ⟨role, is⟩] at apart
      cases apart
    rcases some_ with ⟨role, running⟩
    have ended : inbound.exhausted role = true := by simpa [finishes, running] using both role
    rcases forward_of_finishes running ended (calm role) stopSent with
      ⟨act, after, status, own, moved, same, ⟨rfl, less⟩ | ⟨rfl, rfl⟩⟩
    · refine ⟨act, role, after, .running, own, moved, running, ?_, ?_⟩ <;>
        rw [Forwarders.setStatus_running running]
      · have still : ∀ other, finishes after forwarders other = true := by
          intro other
          simpa only [finishes, same] using both other
        simp only [Conn.yields, still, Bool.and_self, Bool.or_true]
      · omega
    · refine ⟨act, role, after, .finished, own, moved, running, ?_, ?_⟩
      · simp only [Conn.yields, finishes_setStatus (both _), Bool.and_self, Bool.or_true]
      · have ended : TaskStatus.finished ≠ .running := TaskStatus.noConfusion
        have less := Forwarders.left_setStatus_lt running ended
        omega
  · rcases not_forall.mp calm with ⟨role, panics⟩
    simp only [Conn.panics, Bool.not_eq_false, Bool.and_eq_true, decide_eq_true_eq] at panics
    rcases panics with ⟨⟨running, some_⟩, refuses⟩
    refine ⟨.relayFails role, role, inbound, .panicked, rfl, ?_, running, ?_, ?_⟩
    · simp only [forward, some_, refuses, and_self, if_true]
    · cases role <;> simp [Forwarders.joined, Forwarders.setStatus]
    · have ended : TaskStatus.panicked ≠ .running := TaskStatus.noConfusion
      have less := Forwarders.left_setStatus_lt running ended
      omega

/-- What is left to do in a phase whose handler returns by itself. -/
def effort (conn : Conn Key) : Phase → Nat
  | .acceptBi => 4
  | .receivePacket _ => 3
  | .connecting _ _ => 2
  | .session stream _ forwarders =>
      5 + forwarders.left + (conn.streams[stream]?).elim 0 Inbound.unread

/-- A session that can end by the host alone has a step that brings the end
nearer. -/
theorem closes_cases {conn : Conn Key} {stream : Nat} {forwarders : Forwarders}
    (closes : conn.closes stream forwarders = true) (stopSent : Bool) (localAddr : SocketAddr) :
    ∃ act after registration phase, act.byHost = true ∧
      conn.sessionStep stopSent stream localAddr forwarders act =
        some (after, registration, .continues phase) ∧
      (∀ protocol tunnelAddr, after.departs protocol tunnelAddr = conn.departs protocol tunnelAddr) ∧
      (phase = .acceptBi ∨
        ∃ forwarders' : Forwarders, phase = .session stream localAddr forwarders' ∧
          after.closes stream forwarders' = true) ∧
      after.effort phase < conn.effort (.session stream localAddr forwarders) := by
  cases joined : forwarders.joined with
  | true =>
      refine ⟨.join, conn, .remove (getUnspecified localAddr.isIpv4), .acceptBi, rfl, ?_,
        fun _ _ => rfl, Or.inl rfl, ?_⟩
      · simp only [sessionStep, joined, if_true]
      · simp only [effort]
        omega
  | false =>
      rw [Conn.closes, joined, Bool.false_or, Option.any_eq_true] at closes
      rcases closes with ⟨inbound, found, yields⟩
      rcases forward_of_yields joined yields stopSent with
        ⟨act, role, after, status, own, moved, running, still, less⟩
      have there : (conn.streams.set stream after)[stream]? = some after :=
        List.getElem?_set_self (List.getElem?_eq_some_iff.mp found).1
      refine ⟨act, { conn with streams := conn.streams.set stream after }, .keep, _, own,
        sessionStep_of_forward found moved running, fun _ _ => ?_, Or.inr ⟨_, rfl, ?_⟩, ?_⟩
      · simp [departs, rejects, nextControl]
      · simp only [Conn.closes, there, Option.any_some]
        exact still
      · simp only [effort, there, found, Option.elim_some]
        omega

end Conn

variable [DecidableEq Key]

namespace HostTunnel

theorem inductive_counted (protocol : TunnelProtocol) (tunnelAddr : SocketAddr) :
    (machine protocol tunnelAddr : Machine (HostTunnel Key) (Label Key)).Inductive
      (fun host => host.Inv ∧ host.Counted) := by
  refine (inductive_inv protocol tunnelAddr).and_of ?_ ?_
  · intro host first index conn here
    rw [show host = started from first] at here
    simp [started] at here
  · intro host label next inv counted taken
    cases label with
    | dial key =>
        simp only [machine, step] at taken
        split at taken <;> cases taken
        intro index conn here
        rw [List.getElem?_append] at here
        split at here
        · exact counted index conn here
        · rw [List.getElem?_singleton] at here
          split at here <;> cases here
          exact ⟨Nat.le_refl 0, Nat.le_refl 0⟩
    | client key index act =>
        rcases Option.bind_eq_some_iff.mp taken with ⟨before, found, rest⟩
        split at rest
        · rcases Option.map_eq_some_iff.mp rest with ⟨after, moved, same⟩
          subst same
          rcases Conn.clientStep_frame moved with ⟨_, _, accepted, received, _⟩
          have grown := Conn.clientStep_counted moved
          have held := counted index before found
          exact counted.setConn found after (by omega)
        · cases rest
    | accept =>
        simp only [machine, step] at taken
        split at taken
        · split at taken
          · cases taken
            exact counted
          · split at taken <;> cases taken
            exact counted
        · cases taken
    | handshakeEnds =>
        simp only [machine, step] at taken
        split at taken
        · rename_i index at_
          rcases Option.bind_eq_some_iff.mp taken with ⟨before, found, admitted⟩
          have held := counted index before found
          rcases afterHandshake_cases admitted with ⟨_, rfl⟩ | ⟨_, ⟨_, rfl⟩ | ⟨_, rfl⟩⟩
          · exact counted
          · exact counted.setConn found { before with life := .ignored, link := .closed } held
          · exact counted.setConn found { before with life := .serving } held
        · cases taken
    | handler key act =>
        rcases handler_cases taken with
          ⟨index, phase, before, after, registration, outcome, at_, found, _, moved, same⟩
        have client := (Conn.handlerStep_sameOwner moved).client
        have held := Conn.handlerStep_counted moved (counted index before found)
        rcases inv.handled_eq at_ found client registration outcome with ⟨clients, _, is⟩
        rw [same, is]
        cases outcome with
        | continues phase' => exact counted.setConn found after held
        | returns error =>
            exact counted.setConn found { after with life := .returned error } held
    | stop =>
        simp only [machine, step] at taken
        split at taken
        · split at taken <;> cases taken
          exact counted
        · cases taken
          exact counted
    | closeEndpoint =>
        simp only [machine, step] at taken
        split at taken <;> cases taken
        intro index conn here
        rcases Option.map_eq_some_iff.mp ((List.getElem?_map ..).symm.trans here) with
          ⟨old, there, same⟩
        subst same
        exact counted index old there

/-! ## The client's own connection -/

/-- What the way to the goal may rely on in every state. -/
structure Sound (host : HostTunnel Key) : Prop where
  inv : host.Inv
  counted : host.Counted
  running : host.runningProps = true

theorem runningProps_of_permitted {protocol : TunnelProtocol} {tunnelAddr : SocketAddr}
    {host next : HostTunnel Key} {key : Key} {label : Label Key}
    (taken : step protocol tunnelAddr host label = some next) (permitted : ByHostAnd key label)
    (running : host.runningProps = true) : next.runningProps = true := by
  have noStop : label ≠ .stop := by
    rintro rfl
    exact permitted.elim
  have noClose : label ≠ .closeEndpoint := by
    rintro rfl
    exact permitted.elim
  exact (step_frame taken noStop noClose).2.1.trans running

theorem Sound.after {protocol : TunnelProtocol} {tunnelAddr : SocketAddr}
    {host next : HostTunnel Key} {key : Key} {label : Label Key} (sound : host.Sound)
    (taken : step protocol tunnelAddr host label = some next) (permitted : ByHostAnd key label) :
    next.Sound where
  inv := sound.inv.after taken
  counted := ((inductive_counted protocol tunnelAddr).step host label next
    ⟨sound.inv, sound.counted⟩ taken).2
  running := runningProps_of_permitted taken permitted sound.running

variable (protocol : TunnelProtocol) (tunnelAddr : SocketAddr)

/-- The host and the client can bring it about that the client is answered. -/
abbrev CanAnswer (key : Key) (host : HostTunnel Key) : Prop :=
  (machine protocol tunnelAddr).CanReach (ByHostAnd key) (Answered key) host

variable {protocol tunnelAddr}

theorem CanAnswer.of_step {host next : HostTunnel Key} {key : Key} {label : Label Key}
    (taken : step protocol tunnelAddr host label = some next) (permitted : ByHostAnd key label)
    (rest : next.CanAnswer protocol tunnelAddr key) : host.CanAnswer protocol tunnelAddr key :=
  Machine.CanReach.step (M := machine protocol tunnelAddr) taken permitted rest

/-- One handler step answers the request. -/
theorem Sound.canAnswer_of_answers {host : HostTunnel Key} (sound : host.Sound) {index : Nat}
    {phase : Phase} {before after : Conn Key} (act : HandlerAct) {registration : Registration}
    {outcome : Outcome} (at_ : host.loop = .handling index phase)
    (found : host.conns[index]? = some before)
    (moved : before.handlerStep protocol tunnelAddr host.stopSent phase act =
      some (after, registration, outcome)) (answers : after.answered = true) :
    host.CanAnswer protocol tunnelAddr before.client := by
  rcases sound.inv.handler_step at_ found moved with
    ⟨next, final, taken, _, conns, members, client, answered, _⟩
  rcases sound.inv.handling index phase at_ with ⟨_, conn, there, serving⟩
  rw [found] at there
  cases there
  refine CanAnswer.of_step taken (Or.inl rfl)
    (Machine.CanReach.here ⟨?_, index, final, ?_, client, ?_⟩)
  · exact (members _).mpr (sound.inv.mem_of_serving found serving)
  · rw [conns, getElem?_setConn found final, if_pos rfl]
  · exact answered.trans answers

/-- A registered request is answered: its session is started if the families
allow it, and cannot be served otherwise. -/
theorem Sound.canAnswer_of_connecting {host : HostTunnel Key} (sound : host.Sound) {index : Nat}
    {stream : Nat} {localAddr : SocketAddr} {conn : Conn Key}
    (at_ : host.loop = .handling index (.connecting stream localAddr))
    (found : host.conns[index]? = some conn) : host.CanAnswer protocol tunnelAddr conn.client := by
  cases fits : compatible protocol tunnelAddr localAddr with
  | true =>
      apply sound.canAnswer_of_answers .connect at_ found
      · simp only [Conn.handlerStep, Conn.connectStep, fits, if_true]
        rfl
      · rfl
  | false =>
      apply sound.canAnswer_of_answers .familyMismatch at_ found
      · simp only [Conn.handlerStep, Conn.connectStep, fits, Bool.false_eq_true, if_false]
        rfl
      · rfl

/-- The client does something on its connection, and the way goes on from
there. -/
theorem Sound.canAnswer_of_client {host : HostTunnel Key} (sound : host.Sound) {index : Nat}
    {before after : Conn Key} {act : ClientAct} (found : host.conns[index]? = some before)
    (lets : host.lets index act = true) (moved : before.clientStep act = some after)
    (rest : (host.setConn index after).Sound →
      (host.setConn index after).conns[index]? = some after →
        (host.setConn index after).CanAnswer protocol tunnelAddr after.client) :
    host.CanAnswer protocol tunnelAddr before.client := by
  have taken : step protocol tunnelAddr host (.client before.client index act) =
      some (host.setConn index after) := by
    simp [step, found, moved, lets]
  have own : ByHostAnd before.client (.client before.client index act) := rfl
  have here : (host.setConn index after).conns[index]? = some after :=
    (getElem?_setConn found after index).trans (if_pos rfl)
  have reached := rest (sound.after taken own) here
  rw [(Conn.clientStep_frame moved).1] at reached
  exact CanAnswer.of_step taken own reached

/-- Once the message is there, the request is received and answered. -/
theorem Sound.canAnswer_of_hasMessage {host : HostTunnel Key} (sound : host.Sound) {index : Nat}
    {stream : Nat} {conn : Conn Key} (at_ : host.loop = .handling index (.receivePacket stream))
    (found : host.conns[index]? = some conn) (message : conn.hasMessage = true) :
    host.CanAnswer protocol tunnelAddr conn.client := by
  cases next : conn.nextControl with
  | none => simp [Conn.hasMessage, next] at message
  | some control =>
      cases control with
      | arriving => simp [Conn.hasMessage, next] at message
      | undecodable | reset =>
          apply sound.canAnswer_of_answers .receiveFails at_ found
          · simp only [Conn.handlerStep, Conn.receiveStep, next]
            rfl
          · rfl
      | packet request =>
          cases request with
          | connReq localAddr =>
              have moved : conn.handlerStep protocol tunnelAddr host.stopSent
                  (.receivePacket stream) .receivePacket = some ({ conn with
                    received := conn.received + 1 },
                  .insert (getUnspecified localAddr.isIpv4)
                    ⟨localAddr, getUnspecified localAddr.isIpv4⟩,
                  .continues (.connecting stream localAddr)) := by
                simp only [Conn.handlerStep, Conn.receiveStep, next]
              rcases sound.inv.handler_step at_ found moved with
                ⟨host', final, taken, _, conns, _, client, _, ⟨phase', is, loop, _⟩ | ⟨⟨_, is⟩, _⟩⟩
              · cases is
                have here : host'.conns[index]? = some final := by
                  rw [conns, getElem?_setConn found final, if_pos rfl]
                have own : ByHostAnd conn.client (.handler conn.client .receivePacket) := Or.inl rfl
                have rest : host'.CanAnswer protocol tunnelAddr final.client :=
                  (sound.after taken own).canAnswer_of_connecting loop here
                rw [client] at rest
                exact CanAnswer.of_step taken own rest
              · cases is

/-- The client completes a message it has begun. -/
theorem Sound.canAnswer_of_arriving {host : HostTunnel Key} (sound : host.Sound) {index : Nat}
    {stream : Nat} {conn : Conn Key} (at_ : host.loop = .handling index (.receivePacket stream))
    (found : host.conns[index]? = some conn) (live : conn.link = .live)
    (arriving : conn.nextControl = some .arriving) :
    host.CanAnswer protocol tunnelAddr conn.client := by
  have moved : conn.clientStep (.control conn.received (.packet (.connReq tunnelAddr))) =
      some { conn with
        controls := conn.controls.set conn.received (.packet (.connReq tunnelAddr)) } := by
    have here : conn.controls[conn.received]? = some .arriving := arriving
    simp [Conn.clientStep, live, here]
  apply sound.canAnswer_of_client found rfl moved
  intro sound there
  apply sound.canAnswer_of_hasMessage at_ there
  have bound := (List.getElem?_eq_some_iff.mp arriving).1
  simp [Conn.hasMessage, Conn.nextControl, bound]

/-- The client sends its message and waits for the answer. -/
theorem Sound.canAnswer_of_receiving {host : HostTunnel Key} (sound : host.Sound) {index : Nat}
    {stream : Nat} {conn : Conn Key} (at_ : host.loop = .handling index (.receivePacket stream))
    (found : host.conns[index]? = some conn)
    (reaches : conn.reaches (.receivePacket stream) = true) :
    host.CanAnswer protocol tunnelAddr conn.client := by
  rcases sound.inv.handling index _ at_ with ⟨_, other, there, serving⟩
  rw [found] at there
  cases there
  have shaken := sound.inv.shaken index conn found serving
  cases message : conn.hasMessage with
  | true => exact sound.canAnswer_of_hasMessage at_ found message
  | false =>
      have live : conn.link = .live := by
        cases link : conn.link <;> simp [link, Link.shaken, Conn.reaches, message] at shaken reaches ⊢
      cases next : conn.nextControl with
      | some control =>
          cases control with
          | arriving => exact sound.canAnswer_of_arriving at_ found live next
          | _ => simp [Conn.hasMessage, next] at message
      | none =>
          have moved : conn.clientStep .openUni =
              some { conn with controls := conn.controls ++ [.arriving] } := by
            simp [Conn.clientStep, live]
          have beyond := List.getElem?_eq_none_iff.mp next
          have counted := (sound.counted index conn found).2
          have exactly : conn.received = conn.controls.length := by omega
          apply sound.canAnswer_of_client found rfl moved
          intro sound there
          apply sound.canAnswer_of_arriving at_ there live
          simp [Conn.nextControl, exactly]

/-- Its stream is accepted, with its message to follow. -/
theorem Sound.canAnswer_of_visible {host : HostTunnel Key} (sound : host.Sound) {index : Nat}
    {conn : Conn Key} (at_ : host.loop = .handling index .acceptBi)
    (found : host.conns[index]? = some conn) (visible : conn.accepted < conn.streams.length)
    (reaches : conn.reaches .acceptBi = true) : host.CanAnswer protocol tunnelAddr conn.client := by
  have moved : conn.handlerStep protocol tunnelAddr host.stopSent .acceptBi .acceptBi =
      some ({ conn with accepted := conn.accepted + 1 }, .keep,
        .continues (.receivePacket conn.accepted)) := by
    simp only [Conn.handlerStep, Conn.acceptStep, visible, if_true]
  rcases sound.inv.handler_step at_ found moved with
    ⟨host', final, taken, _, conns, _, client, _, ⟨phase', is, loop, final_eq⟩ | ⟨⟨_, is⟩, _⟩⟩
  · cases is
    have here : host'.conns[index]? = some final := by
      rw [conns, getElem?_setConn found final, if_pos rfl]
    have own : ByHostAnd conn.client (.handler conn.client .acceptBi) := Or.inl rfl
    have rest : host'.CanAnswer protocol tunnelAddr final.client := by
      apply (sound.after taken own).canAnswer_of_receiving loop here
      rw [final_eq]
      simpa [Conn.reaches, Conn.asks, Conn.hasMessage, Conn.nextControl, visible] using reaches
    rw [client] at rest
    exact CanAnswer.of_step taken own rest
  · cases is

/-- The client asks for a session of a handler that waits for it. -/
theorem Sound.canAnswer_of_accepting {host : HostTunnel Key} (sound : host.Sound) {index : Nat}
    {conn : Conn Key} (at_ : host.loop = .handling index .acceptBi)
    (found : host.conns[index]? = some conn) (reaches : conn.reaches .acceptBi = true) :
    host.CanAnswer protocol tunnelAddr conn.client := by
  rcases sound.inv.handling index _ at_ with ⟨_, other, there, serving⟩
  rw [found] at there
  cases there
  have shaken := sound.inv.shaken index conn found serving
  by_cases visible : conn.accepted < conn.streams.length
  · exact sound.canAnswer_of_visible at_ found visible reaches
  · have live : conn.link = .live := by
      cases link : conn.link <;>
        simp [link, Link.shaken, Conn.reaches, Conn.asks, visible] at shaken reaches ⊢
    have moved : conn.clientStep .announceBi =
        some { conn with streams := conn.streams ++ [.opened] } := by
      simp [Conn.clientStep, live]
    have counted := (sound.counted index conn found).1
    apply sound.canAnswer_of_client found rfl moved
    intro sound there
    apply sound.canAnswer_of_visible at_ there
    · simp
      omega
    · simp [Conn.reaches, live]

/-- The client is admitted. -/
theorem Sound.canAnswer_of_shaken {host : HostTunnel Key} (sound : host.Sound) {index : Nat}
    {conn : Conn Key} (at_ : host.loop = .handshake index) (found : host.conns[index]? = some conn)
    (new : conn.client ∉ host.tunnelClients) (shaken : conn.link.shaken = true)
    (reaches : conn.reaches .acceptBi = true) : host.CanAnswer protocol tunnelAddr conn.client := by
  have taken : step protocol tunnelAddr host .handshakeEnds = some (host.enter index conn) := by
    cases link : conn.link <;> simp [link, Link.shaken] at shaken <;>
      simp [step, at_, found, HostTunnel.afterHandshake, link, new]
  have own : ByHostAnd conn.client .handshakeEnds := trivial
  have here : (host.enter index conn).conns[index]? = some { conn with life := .serving } :=
    (getElem?_setConn found _ index).trans (if_pos rfl)
  have rest : (host.enter index conn).CanAnswer protocol tunnelAddr
      ({ conn with life := .serving } : Conn Key).client :=
    (sound.after taken own).canAnswer_of_accepting rfl here reaches
  exact CanAnswer.of_step taken own rest

/-- The loop waits for the handshake of the client's own connection. -/
theorem Sound.canAnswer_of_handshake {host : HostTunnel Key} (sound : host.Sound) {index : Nat}
    {conn : Conn Key} (at_ : host.loop = .handshake index) (found : host.conns[index]? = some conn)
    (new : conn.client ∉ host.tunnelClients) (usable : conn.link ≠ .failed)
    (reaches : conn.reaches .acceptBi = true) : host.CanAnswer protocol tunnelAddr conn.client := by
  cases link : conn.link with
  | failed => exact absurd link usable
  | live | closed =>
      exact sound.canAnswer_of_shaken at_ found new (by rw [link]; rfl) reaches
  | pending =>
      have moved : conn.clientStep (.handshake true) = some { conn with link := .live } := by
        simp [Conn.clientStep, link]
      have awaited : host.lets index (.handshake true) = true := decide_eq_true at_
      apply sound.canAnswer_of_client found awaited moved
      intro sound there
      exact sound.canAnswer_of_shaken at_ there new rfl (by simp [Conn.reaches])

/-! ## The others in front -/

variable (protocol tunnelAddr) in
/-- Where the client waits and nothing but the host stands before it. -/
structure Waits (key : Key) (host : HostTunnel Key) : Prop where
  sound : host.Sound
  new : key ∉ host.tunnelClients
  clear : host.clearFor protocol tunnelAddr key = true

/-- How far the loop is from looking at the next connection. -/
def effort (host : HostTunnel Key) : Nat :=
  match host.loop with
  | .accept | .panicked => 0
  | .handshake _ => 9
  | .handling index phase => (host.conns[index]?).elim 0 fun conn => conn.effort phase

/-- The work in front of the client. -/
def work (host : HostTunnel Key) : Nat := 10 * (host.conns.length - host.taken) + host.effort

/-- A step of a stranger's handler after which the handler can still return, or
has returned. -/
theorem Waits.of_handler {key : Key} {host : HostTunnel Key}
    (waits : host.Waits protocol tunnelAddr key) {index : Nat} {phase : Phase}
    {before after : Conn Key} (act : HandlerAct) {registration : Registration}
    {outcome : Outcome} (at_ : host.loop = .handling index phase)
    (found : host.conns[index]? = some before)
    (moved : before.handlerStep protocol tunnelAddr host.stopSent phase act =
      some (after, registration, outcome))
    (alone : act.byHost = true)
    (leaves : ∀ phase', outcome = .continues phase' →
      after.leaves protocol tunnelAddr phase' = true ∧ after.effort phase' < before.effort phase) :
    ∃ label next, ByHostAnd key label ∧ step protocol tunnelAddr host label = some next ∧
      next.Waits protocol tunnelAddr key ∧ next.work < host.work := by
  rcases waits.sound.inv.handler_step at_ found moved with
    ⟨next, final, taken, counts, conns, members, _, _, result⟩
  have own : ByHostAnd key (.handler before.client act) := Or.inr alone
  have last := (waits.sound.inv.handling index phase at_).1
  have clear := waits.clear
  simp only [clearFor, queue, at_, Bool.and_eq_true] at clear
  have rest : next.conns.drop host.taken = host.conns.drop host.taken := by
    rw [conns]
    exact drop_setConn final last
  have length : next.conns.length = host.conns.length := by
    rw [conns]
    exact List.length_set
  have clears : queueClears protocol tunnelAddr key next.tunnelClients.keys
      (next.conns.drop host.taken) = true := by
    rw [rest, ← clear.2]
    apply queueClears_congr
    intro other
    rw [← AList.mem_keys, ← AList.mem_keys, members]
  refine ⟨_, next, own, taken, ⟨waits.sound.after taken own, fun present => ?_, ?_⟩, ?_⟩
  · exact waits.new ((members key).mp present)
  · rcases result with ⟨phase', is, loop, final_eq⟩ | ⟨_, loop⟩
    · have here : next.conns[index]? = some after := by
        rw [conns, getElem?_setConn found final, if_pos rfl, final_eq]
      simp only [clearFor, handlerLeaves, queue, loop, here, counts, Option.any_some,
        Bool.and_eq_true]
      exact ⟨(leaves phase' is).1, clears⟩
    · simp only [clearFor, handlerLeaves, queue, loop, counts, Bool.and_eq_true]
      exact ⟨trivial, clears⟩
  · rcases result with ⟨phase', is, loop, final_eq⟩ | ⟨_, loop⟩
    · have fewer := (leaves phase' is).2
      have here : next.conns[index]? = some after := by
        rw [conns, getElem?_setConn found final, if_pos rfl, final_eq]
      simp only [work, effort, length, counts, loop, at_, here, found, Option.elim_some]
      omega
    · have some_ : 0 < before.effort phase := by
        cases phase <;> simp only [Conn.effort] <;> omega
      simp only [work, effort, length, counts, loop, at_, found, Option.elim_some]
      omega

/-- A handler whose next request brings it to its return reads it, or finds that it
will not come. -/
theorem Waits.next_receivePacket {key : Key} {host : HostTunnel Key}
    (waits : host.Waits protocol tunnelAddr key) {index stream : Nat} {conn : Conn Key}
    (at_ : host.loop = .handling index (.receivePacket stream))
    (found : host.conns[index]? = some conn)
    (leaves : conn.leaves protocol tunnelAddr (.receivePacket stream) = true) :
    ∃ label next, ByHostAnd key label ∧ step protocol tunnelAddr host label = some next ∧
      next.Waits protocol tunnelAddr key ∧ next.work < host.work := by
  have fails : ∀ after : Conn Key,
      conn.handlerStep protocol tunnelAddr host.stopSent (.receivePacket stream)
        .receiveFails = some (after, .keep, .returns .receivePacketError) →
      ∃ label next, ByHostAnd key label ∧ step protocol tunnelAddr host label = some next ∧
        next.Waits protocol tunnelAddr key ∧ next.work < host.work := by
    intro after moved
    exact waits.of_handler .receiveFails at_ found moved rfl fun phase' is => (by cases is)
  cases next : conn.nextControl with
  | none =>
      have gone : conn.link = .closed := by
        simpa [Conn.leaves, Conn.rejects, next] using leaves
      apply fails conn
      simp only [Conn.handlerStep, Conn.receiveStep, next, gone, if_true]
  | some control =>
      cases control with
      | arriving =>
          have gone : conn.link = .closed := by
            simpa [Conn.leaves, Conn.rejects, next] using leaves
          apply fails conn
          simp only [Conn.handlerStep, Conn.receiveStep, next, gone, if_true]
      | undecodable | reset =>
          apply fails { conn with received := conn.received + 1, answered := true }
          simp only [Conn.handlerStep, Conn.receiveStep, next]
      | packet request =>
          cases request with
          | connReq localAddr =>
              apply waits.of_handler .receivePacket at_ found
              · simp only [Conn.handlerStep, Conn.receiveStep, next]
                rfl
              · rfl
              · intro phase' is
                cases is
                refine ⟨?_, by simp [Conn.effort]⟩
                simpa [Conn.leaves, Conn.rejects, next] using leaves

/-- A stranger's handler that can return by itself comes nearer to it. -/
theorem Waits.next_handling {key : Key} {host : HostTunnel Key}
    (waits : host.Waits protocol tunnelAddr key) {index : Nat} {phase : Phase}
    (at_ : host.loop = .handling index phase) :
    ∃ label next, ByHostAnd key label ∧ step protocol tunnelAddr host label = some next ∧
      next.Waits protocol tunnelAddr key ∧ next.work < host.work := by
  rcases waits.sound.inv.handling index phase at_ with ⟨_, conn, found, _⟩
  have leaves : conn.leaves protocol tunnelAddr phase = true := by
    have clear := waits.clear
    simp only [clearFor, handlerLeaves, at_, found, Option.any_some, Bool.and_eq_true] at clear
    exact clear.1
  cases phase with
  | acceptBi =>
      by_cases visible : conn.accepted < conn.streams.length
      · apply waits.of_handler .acceptBi at_ found
        · simp only [Conn.handlerStep, Conn.acceptStep, visible, if_true]
          rfl
        · rfl
        · intro phase' is
          cases is
          refine ⟨?_, by simp [Conn.effort]⟩
          simpa [Conn.leaves, Conn.departs, Conn.rejects, Conn.nextControl, visible] using leaves
      · have gone : conn.link = .closed := by
          simpa [Conn.leaves, Conn.departs, visible] using leaves
        apply waits.of_handler .acceptBiFails at_ found
        · simp only [Conn.handlerStep, Conn.acceptStep, Nat.le_of_not_lt visible, gone, and_self,
            if_true]
          rfl
        · rfl
        · exact fun phase' is => (by cases is)
  | receivePacket stream => exact waits.next_receivePacket at_ found leaves
  | connecting stream localAddr =>
      have misfit : compatible protocol tunnelAddr localAddr = false := by
        simpa [Conn.leaves] using leaves
      apply waits.of_handler .familyMismatch at_ found
      · simp only [Conn.handlerStep, Conn.connectStep, misfit, Bool.false_eq_true, if_false]
        rfl
      · rfl
      · exact fun phase' is => (by cases is)
  | session stream localAddr forwarders =>
      simp only [Conn.leaves, Bool.and_eq_true] at leaves
      rcases Conn.closes_cases leaves.1 host.stopSent localAddr with
        ⟨act, after, registration, phase', alone, moved, departs, result, fewer⟩
      have still : after.departs protocol tunnelAddr = true :=
        (departs protocol tunnelAddr).trans leaves.2
      apply waits.of_handler act at_ found moved alone
      intro phase'' is
      cases is
      refine ⟨?_, fewer⟩
      rcases result with rfl | ⟨forwarders', rfl, closes⟩
      · exact still
      · simp only [Conn.leaves, still, closes, Bool.and_self]

/-- With its loop idle the host takes the next connection; if there is none, the
client connects. -/
theorem Waits.next_accept {key : Key} {host : HostTunnel Key}
    (waits : host.Waits protocol tunnelAddr key) (at_ : host.loop = .accept) :
    host.CanAnswer protocol tunnelAddr key ∨
      ∃ label next, ByHostAnd key label ∧ step protocol tunnelAddr host label = some next ∧
        next.Waits protocol tunnelAddr key ∧ next.work < host.work := by
  by_cases more : host.taken < host.conns.length
  · have taken : step protocol tunnelAddr host .accept =
        some { host with loop := .handshake host.taken, taken := host.taken + 1 } := by
      simp only [step, at_, more, if_true]
    have own : ByHostAnd key .accept := trivial
    have clear := waits.clear
    simp only [clearFor, queue, at_, Bool.and_eq_true] at clear
    refine Or.inr ⟨_, _, own, taken, ⟨waits.sound.after taken own, waits.new, ?_⟩, ?_⟩
    · simp only [clearFor, handlerLeaves, queue, Bool.true_and]
      exact clear.2
    · simp only [work, effort, at_]
      omega
  · refine Or.inl ?_
    have all : host.taken = host.conns.length := by
      have bound := waits.sound.inv.taken_le
      omega
    have alive := (waits.sound.inv.running waits.sound.running).2
    have dialed : step protocol tunnelAddr host (.dial key) =
        some { host with conns := host.conns ++ [.incoming key] } := by
      simp only [step, alive, Bool.false_eq_true, if_false]
    have own : ByHostAnd key (.dial key) := rfl
    have sound := waits.sound.after dialed own
    apply CanAnswer.of_step dialed own
    have taken : step protocol tunnelAddr { host with conns := host.conns ++ [.incoming key] }
        .accept = some { host with
          conns := host.conns ++ [.incoming key]
          loop := .handshake host.taken
          taken := host.taken + 1 } := by
      simp [step, at_, all]
    apply CanAnswer.of_step taken (show ByHostAnd key .accept from trivial)
    have found : (host.conns ++ [Conn.incoming key])[host.taken]? = some (.incoming key) := by
      simp [all]
    exact (sound.after taken (show ByHostAnd key .accept from trivial)).canAnswer_of_handshake
      rfl found waits.new (by simp [Conn.incoming]) (by simp [Conn.reaches, Conn.incoming])

/-- A stranger's connection that is turned away leaves the queue behind it. -/
theorem clearFor_ignore {key : Key} {host : HostTunnel Key} {index : Nat} {conn : Conn Key}
    (last : index + 1 = host.taken)
    (clears : queueClears protocol tunnelAddr key host.tunnelClients.keys
      (host.conns.drop host.taken) = true) :
    (host.ignore index conn).clearFor protocol tunnelAddr key = true := by
  have rest : (host.ignore index conn).queue = host.conns.drop host.taken := drop_setConn _ last
  rw [clearFor, rest]
  exact clears

/-- One that is admitted and departs does so too. -/
theorem clearFor_enter {key : Key} {host : HostTunnel Key} {index : Nat} {conn : Conn Key}
    (last : index + 1 = host.taken) (found : host.conns[index]? = some conn)
    (departs : conn.departs protocol tunnelAddr = true)
    (clears : queueClears protocol tunnelAddr key (conn.client :: host.tunnelClients.keys)
      (host.conns.drop host.taken) = true) :
    (host.enter index conn).clearFor protocol tunnelAddr key = true := by
  have here : (host.enter index conn).conns[index]? = some { conn with life := .serving } :=
    (getElem?_setConn found _ index).trans (if_pos rfl)
  have rest : (host.enter index conn).queue = host.conns.drop host.taken := drop_setConn _ last
  rw [clearFor, rest, Bool.and_eq_true]
  constructor
  · rw [show (host.enter index conn).handlerLeaves protocol tunnelAddr =
      ((host.enter index conn).conns[index]?).any
        fun conn => conn.leaves protocol tunnelAddr .acceptBi from rfl, here]
    exact departs
  · rw [← clears]
    apply queueClears_congr
    intro other
    rw [← AList.mem_keys, show other ∈ (host.enter index conn).tunnelClients ↔ _ from
      AList.mem_insert _, List.mem_cons, AList.mem_keys]

theorem effort_enter {host : HostTunnel Key} {index : Nat} {conn : Conn Key}
    (found : host.conns[index]? = some conn) : (host.enter index conn).effort = 4 := by
  have here : (host.enter index conn).conns[index]? = some { conn with life := .serving } :=
    (getElem?_setConn found _ index).trans (if_pos rfl)
  rw [show (host.enter index conn).effort =
    ((host.enter index conn).conns[index]?).elim 0 fun conn => conn.effort .acceptBi
    from rfl, here]
  rfl

/-- The loop has dealt with a stranger's connection. -/
theorem Waits.of_handshakeEnds {key : Key} {host next : HostTunnel Key}
    (waits : host.Waits protocol tunnelAddr key) {index : Nat} {conn : Conn Key}
    (at_ : host.loop = .handshake index) (found : host.conns[index]? = some conn)
    (admitted : host.afterHandshake index conn = some next) (new : key ∉ next.tunnelClients)
    (clear : next.clearFor protocol tunnelAddr key = true)
    (same : next.conns.length - next.taken = host.conns.length - host.taken)
    (fewer : next.effort < 9) :
    ∃ label next, ByHostAnd key label ∧ step protocol tunnelAddr host label = some next ∧
      next.Waits protocol tunnelAddr key ∧ next.work < host.work := by
  have own : ByHostAnd key .handshakeEnds := trivial
  have taken : step protocol tunnelAddr host .handshakeEnds = some next := by
    simp only [step, at_, found, Option.bind_some, admitted]
  refine ⟨_, next, own, taken, ⟨waits.sound.after taken own, new, clear⟩, ?_⟩
  have awaits : host.effort = 9 := by simp only [effort, at_]
  rw [work, work, same, awaits]
  exact Nat.add_lt_add_left fewer _

/-- The loop deals with a stranger's connection that is through its handshake. -/
theorem Waits.next_stranger {key : Key} {host : HostTunnel Key}
    (waits : host.Waits protocol tunnelAddr key) {index : Nat} {conn : Conn Key}
    (at_ : host.loop = .handshake index) (found : host.conns[index]? = some conn)
    (shaken : conn.link.shaken = true) (stranger : conn.client ≠ key)
    (clears : (if conn.client ∈ host.tunnelClients.keys then
      queueClears protocol tunnelAddr key host.tunnelClients.keys (host.conns.drop host.taken)
      else conn.departs protocol tunnelAddr &&
        queueClears protocol tunnelAddr key (conn.client :: host.tunnelClients.keys)
          (host.conns.drop host.taken)) = true) :
    ∃ label next, ByHostAnd key label ∧ step protocol tunnelAddr host label = some next ∧
      next.Waits protocol tunnelAddr key ∧ next.work < host.work := by
  have last := waits.sound.inv.handshake index at_
  by_cases known : conn.client ∈ host.tunnelClients
  · rw [if_pos (AList.mem_keys.mp known)] at clears
    have admitted : host.afterHandshake index conn = some (host.ignore index conn) := by
      cases link : conn.link <;> simp [link, Link.shaken] at shaken <;>
        simp [afterHandshake, link, known]
    apply waits.of_handshakeEnds at_ found admitted waits.new (clearFor_ignore last clears)
    · simp [ignore, setConn]
    · simp [effort, ignore]
  · have listed : conn.client ∉ host.tunnelClients.keys :=
      fun listed => known (AList.mem_keys.mpr listed)
    rw [if_neg listed, Bool.and_eq_true] at clears
    have admitted : host.afterHandshake index conn = some (host.enter index conn) := by
      cases link : conn.link <;> simp [link, Link.shaken] at shaken <;>
        simp [afterHandshake, link, known]
    apply waits.of_handshakeEnds at_ found admitted _
      (clearFor_enter last found clears.1 clears.2)
    · simp [enter, setConn]
    · rw [effort_enter found]
      decide
    · intro present
      rcases (AList.mem_insert _).mp present with same | earlier
      · exact stranger same.symm
      · exact waits.new earlier

/-- A connection whose handshake the loop awaits is the client's own, or it is
dealt with. -/
theorem Waits.next_handshake {key : Key} {host : HostTunnel Key}
    (waits : host.Waits protocol tunnelAddr key) {index : Nat}
    (at_ : host.loop = .handshake index) :
    host.CanAnswer protocol tunnelAddr key ∨
      ∃ label next, ByHostAnd key label ∧ step protocol tunnelAddr host label = some next ∧
        next.Waits protocol tunnelAddr key ∧ next.work < host.work := by
  have last := waits.sound.inv.handshake index at_
  have bound := waits.sound.inv.taken_le
  have found : host.conns[index]? = some host.conns[index] := List.getElem?_eq_getElem (by omega)
  generalize host.conns[index] = conn at found
  have clear := waits.clear
  simp only [clearFor, waits.sound.inv.queue_handshake at_ found, Bool.and_eq_true] at clear
  have clears := clear.2
  cases shaken : conn.link.shaken with
  | false =>
      cases link : conn.link with
      | live | closed => simp [link, Link.shaken] at shaken
      | pending =>
          have mine : conn.client = key := by simpa [queueClears, link] using clears
          subst mine
          exact Or.inl (waits.sound.canAnswer_of_handshake at_ found waits.new (by simp [link])
            (by simp [Conn.reaches, link]))
      | failed =>
          have admitted : host.afterHandshake index conn = some { host with loop := .accept } := by
            simp only [afterHandshake, link]
          apply Or.inr
          apply waits.of_handshakeEnds at_ found admitted waits.new
          · simpa only [clearFor, handlerLeaves, queue, queueClears, link, Bool.true_and]
              using clears
          · rfl
          · simp [effort]
  | true =>
      rw [queueClears_shaken shaken] at clears
      by_cases mine : conn.client = key
      · subst mine
        rw [if_pos rfl] at clears
        refine Or.inl (waits.sound.canAnswer_of_handshake at_ found waits.new ?_ clears)
        intro failed
        simp [failed, Link.shaken] at shaken
      · rw [if_neg mine] at clears
        exact Or.inr (waits.next_stranger at_ found shaken mine clears)

/-- From a clear state the client can be answered. -/
theorem Waits.canAnswer {key : Key} {host : HostTunnel Key}
    (waits : host.Waits protocol tunnelAddr key) :
    host.CanAnswer protocol tunnelAddr key := by
  refine Machine.CanReach.descend work (fun host waits => ?_) waits
  cases at_ : host.loop with
  | accept => exact waits.next_accept at_
  | handshake index => exact waits.next_handshake at_
  | handling index phase => exact Or.inr (waits.next_handling at_)
  | panicked => exact absurd at_ waits.sound.inv.notPanicked

/-- A client that can be answered is in an open state. -/
theorem CanAnswer.is_open {key : Key} {host : HostTunnel Key} (inv : host.Inv)
    (running : host.runningProps = true) (reaches : host.CanAnswer protocol tunnelAddr key) :
    host.Open protocol tunnelAddr key := by
  rcases reaches with ⟨labels, final, permitted, ran, answered⟩
  induction labels generalizing host with
  | nil =>
      cases ran
      exact Or.inl answered
  | cons label labels ih =>
      rcases Machine.run_cons_eq_some _ |>.mp ran with ⟨next, taken, rest⟩
      have may := permitted label List.mem_cons_self
      have moved : step protocol tunnelAddr host label = some next := taken
      have later : next.Open protocol tunnelAddr key :=
        ih (inv.after moved) (runningProps_of_permitted moved may running)
          (fun other member => permitted other (List.mem_cons_of_mem label member)) rest
      exact later.of_step inv running moved may

/-- The connection of a client that the accept loop has not taken yet. -/
def WaitingAt (host : HostTunnel Key) (key : Key) : Prop :=
  ∃ (index : Nat) (conn : Conn Key), host.taken ≤ index ∧ host.conns[index]? = some conn ∧
    conn.client = key

/-- A new client waiting at a running tunnel can be registered and have its
first request answered, by steps of the host and its own only, exactly when
the way is clear. -/
theorem served_independently_iff {host : HostTunnel Key} {key : Key}
    (reached : (machine protocol tunnelAddr).Reachable host)
    (running : host.runningProps = true) (new : key ∉ host.tunnelClients) :
    (machine protocol tunnelAddr).CanReach (ByHostAnd key) (Answered key) host ↔
      host.clearFor protocol tunnelAddr key = true := by
  have both := (inductive_counted protocol tunnelAddr).of_reachable reached
  constructor
  · intro reaches
    rcases CanAnswer.is_open both.1 running reaches with
      ⟨registered, _⟩ | ⟨index, phase, conn, at_, found, client, _⟩ | ⟨_, clear⟩
    · exact absurd registered new
    · exact absurd client (both.1.client_ne new at_ found)
    · exact clear
  · intro clear
    exact Waits.canAnswer ⟨⟨both.1, both.2, running⟩, new, clear⟩

/-- Client 7 is in a session, whose service has sent something; client 8 has come. -/
def busyRun : List (Label Nat) :=
  [.dial 7, .accept, .client 7 0 (.handshake true), .handshakeEnds, .client 7 0 .announceBi,
    .client 7 0 .openUni, .client 7 0 (.control 0 (.packet (.connReq (.v4 1 5000)))),
    .handler 7 .acceptBi, .handler 7 .receivePacket, .handler 7 .connect,
    .handler 7 (.service (.sends 3)), .dial 8]

/-- Relaying what the service has sent does not end the session. -/
example : ((machine .tcp (.v4 0 80)).run busyRun started).map
    (fun host => host.clearFor .tcp (.v4 0 80) 8) = some false := by decide

/-- With client 7 gone it does. -/
example : ((machine .tcp (.v4 0 80)).run (busyRun ++ [.client 7 0 .close]) started).map
    (fun host => host.clearFor .tcp (.v4 0 80) 8) = some true := by decide

/-- Client 7 is admitted, says nothing and leaves; client 8 has come meanwhile. -/
def leftRun : List (Label Nat) :=
  [.dial 7, .accept, .client 7 0 (.handshake true), .handshakeEnds, .dial 8,
    .client 7 0 .close]

/-- Client 7 is admitted and says nothing; client 8 has come. -/
def silentRun : List (Label Nat) :=
  [.dial 7, .accept, .client 7 0 (.handshake true), .handshakeEnds, .dial 8]

theorem served_independently_iff_leftRun : ∃ host : HostTunnel Nat,
    (machine .tcp (.v4 0 80)).run leftRun started = some host ∧ host.WaitingAt 8 ∧
      (machine .tcp (.v4 0 80)).CanReach (ByHostAnd 8) (Answered 8) host := by
  have ends : ((machine .tcp (.v4 0 80)).run leftRun started).any (fun host =>
      host.runningProps && decide (8 ∉ host.tunnelClients) && host.clearFor .tcp (.v4 0 80) 8 &&
        decide (host.taken ≤ 1) && decide (host.conns[1]? = some (.incoming 8))) = true := by
    decide
  rcases (Option.any_eq_true ..).mp ends with ⟨host, ran, point⟩
  simp only [Bool.and_eq_true, decide_eq_true_eq] at point
  rcases point with ⟨⟨⟨⟨running, new⟩, clear⟩, untaken⟩, here⟩
  exact ⟨host, ran, ⟨1, _, untaken, here, rfl⟩,
    (served_independently_iff ⟨started, leftRun, rfl, ran⟩ running new).mpr clear⟩

theorem silentRun_blocks :
    ¬ ∀ host : HostTunnel Nat, (machine .tcp (.v4 0 80)).Reachable host →
      host.runningProps = true → host.WaitingAt 8 → 8 ∉ host.tunnelClients →
        (machine .tcp (.v4 0 80)).CanReach (ByHostAnd 8) (Answered 8) host := by
  intro always
  have ends : ((machine .tcp (.v4 0 80)).run silentRun started).any (fun host =>
      host.runningProps && decide (8 ∉ host.tunnelClients) && !host.clearFor .tcp (.v4 0 80) 8 &&
        decide (host.taken ≤ 1) && decide (host.conns[1]? = some (.incoming 8))) = true := by
    decide
  rcases (Option.any_eq_true ..).mp ends with ⟨host, ran, point⟩
  simp only [Bool.and_eq_true, Bool.not_eq_true', decide_eq_true_eq] at point
  rcases point with ⟨⟨⟨⟨running, new⟩, blocked⟩, untaken⟩, here⟩
  have reached : (machine .tcp (.v4 0 80)).Reachable host := ⟨started, silentRun, rfl, ran⟩
  have inv := (inductive_inv .tcp (.v4 0 80)).of_reachable reached
  rcases CanAnswer.is_open inv running
      (always host reached running ⟨1, _, untaken, here, rfl⟩ new) with
    ⟨registered, _⟩ | ⟨index, phase, other, handling, found, mine, _⟩ | ⟨_, clear⟩
  · exact new registered
  · exact inv.client_ne new handling found mine
  · rw [blocked] at clear
    cases clear

end HostTunnel

end Host
end Lantun
