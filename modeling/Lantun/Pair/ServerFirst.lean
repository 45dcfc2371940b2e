import Lantun.Pair.Establish

namespace Lantun
namespace Pair

open Client Net

/-!
# When a session is established without the application speaking

The handler accepts the stream before it reads the request.  The request always
arrives, but the stream is announced only when the client has something to send
on it, and the client sends nothing on it of its own.  So it is the application
that has to speak first: a service whose protocol starts with the server is never
connected to, although the host could know all it needs from the request.

For every state in which the handler waits for a stream, and every request the
client has sent, this module says exactly whether the session can come about
while no application, no service and no timer does anything.
-/

namespace Parties

/-- Steps that need no application, no service, no timer and no loss. -/
def Unprompted : Label → Prop
  | .listener _ | .network _ => True
  | .forwarder _ _ act => act ≠ .timesOut
  | .host _ act =>
      match act with
      | .relay .up _ | .relayFails _ | .ends .up | .timesOut _ | .stops _ | .service _ => False
      | _ => True
  | .dial _ | .app _ _ | .clientLoses | .hostLoses => False

/-- The host has registered the application of this session and connected a
socket to the service for it. -/
def Established (session : Nat) (parties : Parties) : Prop :=
  ∃ addr, parties.addr? session = some addr ∧ parties.established[session]? = some addr

/-- Something has been sent on the session's stream or a later one, or the client
will send something that its application has left for it. -/
def speaks (parties : Parties) (session : Nat) : Bool :=
  parties.announced session ||
    (parties.current session && (parties.apps[session]?).any App.readable)

/-- The session is established already, or it is the host's next, its address
fits, and stream and request are there or on their way. -/
def establishable (tunnelAddr : SocketAddr) (parties : Parties) (session : Nat) : Bool :=
  decide (session < parties.established.length) ||
    (decide (parties.established.length = session) && parties.fits tunnelAddr session &&
      (parties.known session || (parties.alive && parties.speaks session)) &&
      (parties.conn.hasMessage || parties.alive))

theorem Inv.established_iff {parties : Parties} (inv : parties.Inv) {session : Nat} :
    Established session parties ↔ session < parties.established.length := by
  constructor
  · rintro ⟨addr, _, here⟩
    exact (List.getElem?_eq_some_iff.mp here).1
  · intro bound
    have here := List.getElem?_eq_getElem bound
    exact ⟨_, inv.established session _ here, here⟩

/-! ## From what has been left for it the client sends something -/

/-- The client's forwarder passes on what the application has left. -/
theorem Inv.forwards (tunnelAddr : SocketAddr) {parties : Parties} (inv : parties.Inv)
    {session : Nat} (turn : parties.established.length = session)
    (waits : parties.handler = .continues .acceptBi) (alive : parties.alive = true)
    (current : parties.current session = true)
    (readable : (parties.apps[session]?).any App.readable = true)
    (unannounced : parties.announced session = false) :
    ∃ act next, act ≠ .timesOut ∧
      step tunnelAddr parties (.forwarder session .up act) = some next ∧
      next.announced session = true := by
  rcases current_iff.mp current with ⟨last, addr, forwarders, at_⟩
  have open_ : parties.client.closed = false := by
    simp only [Parties.alive, Bool.and_eq_true, Bool.not_eq_true'] at alive
    exact alive.2
  have bound : session < parties.wires.length := by omega
  have found : parties.wires[session]? = some parties.wires[session] :=
    List.getElem?_eq_getElem bound
  generalize parties.wires[session] = wire at found
  have unsent : wire.announced = false := by
    cases sent : wire.announced with
    | false => rfl
    | true => rw [announced_of_wire found sent] at unannounced; cases unannounced
  have index : parties.wires.length - 1 = session := by omega
  have running : forwarders.status .up = .running := by
    by_contra ended
    rcases (inv.session addr forwarders at_).1 ended with closed | ⟨other, there, finished⟩
    · rw [open_] at closed
      cases closed
    · rw [index, found] at there
      cases there
      simp [Wire.announced, finished] at unsent
  have whole : wire.refused = false := by
    have progress := inv.progress
    simp only [Progress, waits] at progress
    exact (inv.unaccepted session wire found (by omega)).2
  rcases (Option.any_eq_true ..).mp readable with ⟨app, foundApp, reads⟩
  simp only [App.readable, Bool.and_eq_true, Bool.not_eq_true', Bool.or_eq_true,
    decide_eq_true_eq] at reads
  have sends : ∃ act app' wire' status, act ≠ .timesOut ∧ wire'.announced = true ∧
      forward parties.client.closed app wire .up act = some (app', wire', status) := by
    by_cases some_ : 0 < app.unread
    · refine ⟨.relay 1, { app with unread := app.unread - 1 },
        { wire with written := wire.written + 1 }, .running, by simp, by simp [Wire.announced], ?_⟩
      have fits : 1 ≤ tunnelForwarderBufferSize := by decide
      simp only [forward, open_, whole, reads.1, fits, and_true]
      exact if_pos ⟨Nat.one_pos, some_⟩
    · refine ⟨.ends, app, wire.dropSend false, .finished, by simp,
        by simp [Wire.announced, Wire.dropSend], ?_⟩
      have ended : app.eof = true := reads.2.resolve_left some_
      have none_ : app.unread = 0 := by omega
      simp only [forward, open_, ended, none_, reads.1, and_self, if_true]
  rcases sends with ⟨act, app', wire', status, untimed, sent, moved⟩
  refine ⟨act, _, untimed, forwarderStep_eq tunnelAddr at_ running last foundApp found moved, ?_⟩
  apply announced_of_wire _ sent
  exact List.getElem?_set_self bound

/-- What is known, announced or left by the application is enough. -/
theorem Inv.canEstablish {tunnelAddr : SocketAddr} {parties : Parties} (inv : parties.Inv)
    {session : Nat} (waits : parties.handler = .continues .acceptBi)
    (sent : session < parties.requests)
    (ready : parties.establishable tunnelAddr session = true) :
    (machine tunnelAddr).CanReach Unprompted (Established session) parties := by
  have serves : Serves Unprompted session := ⟨trivial, trivial, trivial, trivial, trivial, trivial⟩
  have done : ∀ start final, Opened start session final → Established session final := by
    intro start final opened
    rcases opened.served with ⟨addr, _, at_, _⟩
    have progress := opened.follows.inv.progress
    simp only [Progress, at_] at progress
    exact opened.follows.inv.established_iff.mpr (by omega)
  simp only [establishable, Bool.or_eq_true, Bool.and_eq_true, decide_eq_true_eq] at ready
  rcases ready with served | ⟨⟨⟨turn, fits⟩, known | ⟨alive, speaks⟩⟩, message⟩
  · exact Machine.CanReach.here (inv.established_iff.mpr served)
  · exact ((Follows.refl inv session).canReach_of_known serves waits turn known fits sent
      message).mono (done parties)
  · cases announced : parties.announced session with
    | true =>
        exact ((Follows.refl inv session).canReach_of_announced serves waits turn announced alive
          fits sent).mono (done parties)
    | false =>
        simp only [Parties.speaks, announced, Bool.false_or, Bool.and_eq_true] at speaks
        rcases inv.forwards tunnelAddr turn waits alive speaks.1 speaks.2 announced
          with ⟨act, next, untimed, taken, announces⟩
        have permitted : Unprompted (.forwarder session .up act) := untimed
        apply canReach_of_step taken permitted
        rcases forwarder_frame (forwarder_of_step taken) with
          ⟨conn, handler, established, _, closed, requests, addrs⟩
        have still : next.alive = true := by
          simpa only [Parties.alive, conn, closed] using alive
        have suits : next.fits tunnelAddr session = true := by
          simpa only [Parties.fits, addrs] using fits
        exact ((Follows.refl (inv.after taken) session).canReach_of_announced serves
          (handler.trans waits) (established ▸ turn) announces still suits (requests ▸ sent)).mono
          (done next)

/-! ## Otherwise both sides wait for each other -/

/-- Nothing will be sent from this session on: the connection is gone, or the
client waits in this session for an application that has left it nothing. -/
def Silent (session : Nat) (parties : Parties) : Prop :=
  parties.alive = false ∨
    (parties.announced session = false ∧ parties.current session = true ∧
      (parties.apps[session]?).any App.readable = false)

/-- The request is not there and will not arrive. -/
def Unheard (parties : Parties) : Prop := parties.conn.hasMessage = false ∧ parties.alive = false

/-- Where the handler is when it cannot come to the session any more. -/
def Stuck (tunnelAddr : SocketAddr) (session : Nat) (parties : Parties) : Prop :=
  parties.established.length ≤ session ∧ session < parties.requests ∧
    match parties.handler with
    | .returns _ => True
    | .continues .acceptBi =>
        parties.established.length < session ∨ parties.fits tunnelAddr session = false ∨
          (parties.conn.streams.length ≤ session ∧ parties.Silent session) ∨ parties.Unheard
    | .continues (.receivePacket _) =>
        parties.established.length < session ∨ parties.fits tunnelAddr session = false ∨
          parties.Unheard
    | .continues (.connecting _ _) =>
        parties.established.length < session ∨ parties.fits tunnelAddr session = false
    | .continues (.session _ _ forwarders) =>
        forwarders.socketToTunnel = .running ∧ forwarders.tunnelToSocket ≠ .panicked

/-- While its session waits for a silent application, the listener does not
move. -/
theorem Inv.listener_waits {parties : Parties} (inv : parties.Inv) {session : Nat}
    (later : parties.established.length ≤ session) (sent : session < parties.requests)
    (alive : parties.alive = true) (unannounced : parties.announced session = false)
    (current : parties.current session = true) (act : ListenerAct) :
    parties.listenerStep act = none := by
  rcases current_iff.mp current with ⟨last, addr, forwarders, at_⟩
  have bound : session < parties.wires.length := by omega
  have found : parties.wires[session]? = some parties.wires[session] :=
    List.getElem?_eq_getElem bound
  have open_ : parties.client.closed = false := by
    simp only [Parties.alive, Bool.and_eq_true, Bool.not_eq_true'] at alive
    exact alive.2
  have unjoined : forwarders.joined = false := by
    cases joined : forwarders.joined with
    | false => rfl
    | true =>
        rcases inv.past_joined at_ joined found sent later with closed | announces
        · rw [open_] at closed
          cases closed
        · rw [announced_of_wire found announces] at unannounced
          cases unannounced
  cases act with
  | detachedEnds =>
      simp only [Parties.listenerStep]
      cases parties.client.step .tcp .detachedEnds <;> rfl
  | forwarderEnds role status =>
      simp only [Parties.listenerStep]
      cases parties.client.step .tcp (.forwarderEnds role status) <;> rfl
  | join => simp [Parties.listenerStep, Connected.step, at_, unjoined]
  | stop => simp [Parties.listenerStep, Connected.step, at_, Listener.selects]
  | _ => simp [Parties.listenerStep, Connected.step, at_]

/-- A forwarder of the client leaves a silent application's stream as it is. -/
theorem Silent.of_forwarder {parties next : Parties} {session : Nat}
    {role : Role} {act : Forward} (silent : parties.Silent session)
    (taken : parties.forwarderStep role act = some next)
    (untimed : act ≠ .timesOut) : next.Silent session := by
  rcases forwarder_frame taken with ⟨conn, _, _, _, closed, _, _⟩
  rcases silent with dead | ⟨unannounced, current, unread⟩
  · refine Or.inl ?_
    simpa only [Parties.alive, conn, closed] using dead
  · rcases current_iff.mp current with ⟨last, _⟩
    rcases forwarder_cases taken with
      ⟨addr, forwarders, app, app', wire, wire', status, at_, _, foundApp, found, moved, same⟩
    have index : parties.wires.length - 1 = session := by omega
    rw [index] at foundApp found same
    have nothing : app.readable = false := by
      rw [foundApp] at unread
      exact unread
    have silentWire : app' = app ∧ wire'.announced = wire.announced := by
      cases role with
      | up =>
          cases act with
          | timesOut => exact absurd rfl untimed
          | relay count | relayFails | ends =>
              simp only [forward] at moved
              split at moved <;> cases moved
              rename_i guard
              have reads : app.readable = true := by
                simp only [App.readable, Bool.and_eq_true, Bool.not_eq_true', Bool.or_eq_true,
                  decide_eq_true_eq]
                refine ⟨by simp [guard], ?_⟩
                first
                  | exact Or.inr guard.2.1
                  | exact Or.inl (by omega)
              rw [nothing] at reads
              cases reads
      | down =>
          cases act with
          | timesOut => exact absurd rfl untimed
          | relay count | relayFails | ends =>
              simp only [forward] at moved
              split at moved <;> cases moved
              exact ⟨rfl, rfl⟩
    rcases silentWire with ⟨sameApp, sameWire⟩
    have kept : next.wires.map Wire.announced = parties.wires.map Wire.announced := by
      subst same
      exact map_set_same found sameWire
    refine Or.inr ⟨(announced_congr session kept).trans unannounced, ?_, ?_⟩
    · subst same
      refine current_iff.mpr ⟨?_, addr, _, rfl⟩
      show session + 1 = (parties.wires.set session wire').length
      rw [List.length_set]
      exact last
    · subst same sameApp
      show ((parties.apps.set session app')[session]?).any App.readable = false
      rw [List.getElem?_set_self (List.getElem?_eq_some_iff.mp foundApp).1]
      exact nothing

/-- What is not there for the host's next session keeps it from coming about. -/
theorem Inv.stuck {tunnelAddr : SocketAddr} {parties : Parties} (inv : parties.Inv)
    {session : Nat} (waits : parties.handler = .continues .acceptBi)
    (sent : session < parties.requests)
    (missing : parties.establishable tunnelAddr session = false) :
    parties.Stuck tunnelAddr session := by
  simp only [establishable, Bool.or_eq_false_iff, decide_eq_false_iff_not, Nat.not_lt] at missing
  refine ⟨missing.1, sent, ?_⟩
  rw [waits]
  show _ ∨ _ ∨ _ ∨ _
  by_cases turn : parties.established.length = session
  · cases fits : parties.fits tunnelAddr session with
    | false => exact Or.inr (Or.inl rfl)
    | true =>
        refine Or.inr (Or.inr ?_)
        have rest := missing.2
        simp only [turn, fits, decide_true, Bool.true_and, Bool.and_eq_false_iff,
          Bool.or_eq_false_iff] at rest
        rcases rest with ⟨unknown, quiet⟩ | unheard
        · refine Or.inl ⟨Nat.le_of_not_lt (of_decide_eq_false unknown), ?_⟩
          cases alive : parties.alive with
          | false => exact Or.inl alive
          | true =>
              simp only [alive, Bool.true_eq_false, false_or, Parties.speaks,
                Bool.or_eq_false_iff, Bool.and_eq_false_iff] at quiet
              have bound : session < parties.wires.length := by
                have position := inv.position
                unfold Position at position
                split at position <;> omega
              have found := List.getElem?_eq_getElem bound
              have current : parties.current session = true := by
                rcases inv.past session _ found sent missing.1 with closed | announces | current
                · simp [Parties.alive, closed] at alive
                · have sends := announced_of_wire found announces
                  rw [quiet.1] at sends
                  cases sends
                · exact current_iff.mpr current
              refine Or.inr ⟨quiet.1, current, ?_⟩
              rcases quiet.2 with past | unread
              · rw [current] at past
                cases past
              · exact unread
        · exact Or.inr unheard
  · exact Or.inl (by omega)

/-- A handler step of a stuck host, without the service. -/
theorem Stuck.of_host {tunnelAddr : SocketAddr} {parties next : Parties} {session : Nat}
    {act : Host.HandlerAct} (inv : parties.Inv) (stuck : parties.Stuck tunnelAddr session)
    (taken : parties.hostStep tunnelAddr act = some next)
    (permitted : Unprompted (.host parties.turn act)) : next.Stuck tunnelAddr session := by
  rcases stuck with ⟨later, sent, stood⟩
  rcases inv.host_moves taken with ⟨frame, move⟩
  have alive : next.alive = parties.alive := by
    simp only [Parties.alive, frame.client, frame.link]
  have fits : next.fits tunnelAddr session = parties.fits tunnelAddr session := by
    simp only [Parties.fits, addr?, frame.apps]
  refine ⟨?_, frame.requests ▸ sent, ?_⟩
  · cases move with
    | connects stream addr waits suits at_ established =>
        simp only [waits] at stood
        have earlier : parties.established.length < session := by
          rcases stood with before | misfit
          · exact before
          · refine Nat.lt_of_le_of_ne later fun turn => ?_
            rw [turn, misfit] at suits
            cases suits
        rw [established, List.length_append, List.length_singleton]
        exact earlier
    | _ => simpa only [‹next.established = parties.established›] using later
  · cases move with
    | accepts waits visible at_ established message =>
        simp only [waits] at stood
        rw [at_]
        simp only [established, fits, Parties.Unheard, message, alive]
        rcases stood with before | misfit | ⟨unknown, _⟩ | unheard
        · exact Or.inl before
        · exact Or.inr (Or.inl misfit)
        · exact Or.inl (by omega)
        · exact Or.inr (Or.inr unheard)
    | receives stream addr waits message at_ established =>
        simp only [waits] at stood
        rw [at_]
        simp only [established, fits]
        rcases stood with before | misfit | ⟨unheard, _⟩
        · exact Or.inl before
        · exact Or.inr misfit
        · rw [message] at unheard
          cases unheard
    | connects stream addr waits suits at_ established =>
        rw [at_]
        exact ⟨rfl, by simp [Forwarders.spawned]⟩
    | forwards stream addr forwarders inbound after role status waits moved at_ established =>
        simp only [waits] at stood
        have down : role = .down ∧ status ≠ .panicked := by
          cases act with
          | relay role' count =>
              cases role' with
              | up => exact permitted.elim
              | down =>
                  simp only [Host.Conn.forward] at moved
                  split at moved <;> cases moved
                  simp
          | ends role' =>
              cases role' with
              | up => exact permitted.elim
              | down =>
                  simp only [Host.Conn.forward] at moved
                  split at moved <;> cases moved
                  simp
          | relayFails role' | timesOut role' | stops role' | service act => exact permitted.elim
          | _ => simp [Host.Conn.forward] at moved
        rw [at_, down.1]
        exact ⟨stood.1, down.2⟩
    | joins stream addr forwarders waits joined at_ established =>
        simp only [waits] at stood
        simp [Forwarders.joined, stood.1, stood.2] at joined
    | returns error at_ established =>
        rw [at_]
        trivial

/-- A step that leaves the host's side alone leaves it stuck, if the stream of the
session stays unannounced. -/
theorem Stuck.of_frame {tunnelAddr : SocketAddr} {parties next : Parties} {session : Nat}
    (stuck : parties.Stuck tunnelAddr session) (conn : next.conn = parties.conn)
    (handler : next.handler = parties.handler) (established : next.established = parties.established)
    (alive : next.alive = parties.alive)
    (fits : next.fits tunnelAddr session = parties.fits tunnelAddr session)
    (more : parties.requests ≤ next.requests)
    (silent : parties.Silent session → next.Silent session) : next.Stuck tunnelAddr session := by
  rcases stuck with ⟨later, sent, at_⟩
  refine ⟨established ▸ later, Nat.lt_of_lt_of_le sent more, ?_⟩
  rw [handler]
  simp only [established, fits, conn, Parties.Unheard, alive] at at_ ⊢
  split at at_
  · trivial
  · exact at_.imp_right (Or.imp_right (Or.imp_left (And.imp_right silent)))
  · exact at_
  · exact at_
  · exact at_

theorem Stuck.of_listener {tunnelAddr : SocketAddr} {parties next : Parties} {session : Nat}
    {act : ListenerAct} (inv : parties.Inv) (stuck : parties.Stuck tunnelAddr session)
    (taken : parties.listenerStep act = some next) : next.Stuck tunnelAddr session := by
  rcases listener_frame taken with ⟨conn, handler, established, apps, closed, more⟩
  have alive : next.alive = parties.alive := by simp only [Parties.alive, conn, closed]
  have fits : next.fits tunnelAddr session = parties.fits tunnelAddr session := by
    simp only [Parties.fits, addr?, apps]
  apply stuck.of_frame conn handler established alive fits more
  rintro (dead | ⟨unannounced, current, unread⟩)
  · exact Or.inl (alive.trans dead)
  · cases live : parties.alive with
    | false => exact Or.inl (alive.trans live)
    | true =>
        have none_ := inv.listener_waits stuck.1 stuck.2.1 live unannounced current act
        rw [none_] at taken
        cases taken

/-- The network brings nothing of a session whose application says nothing. -/
theorem Stuck.of_network {tunnelAddr : SocketAddr} {parties next : Parties} {session : Nat}
    {delivery : Delivery} (inv : parties.Inv) (stuck : parties.Stuck tunnelAddr session)
    (taken : parties.networkStep delivery = some next) : next.Stuck tunnelAddr session := by
  rcases stuck with ⟨later, sent, at_⟩
  have progress := inv.progress
  unfold Progress at progress
  rcases network_frame taken with
    ⟨alive, handler, established, apps, client, requests, _, sends, _, _, streams⟩
  have fits : next.fits tunnelAddr session = parties.fits tunnelAddr session := by
    simp only [Parties.fits, addr?, apps]
  refine ⟨established ▸ later, requests ▸ sent, ?_⟩
  rw [handler]
  have heard : ¬ parties.Unheard := by
    rintro ⟨_, dead⟩
    rw [alive] at dead
    cases dead
  simp only [established, fits] at at_ ⊢
  split at at_
  · trivial
  · rename_i waits
    simp only [waits] at progress
    rcases at_ with before | misfit | ⟨unknown, dead | ⟨unannounced, current, unread⟩⟩ | unheard
    · exact Or.inl before
    · exact Or.inr (Or.inl misfit)
    · rw [alive] at dead
      cases dead
    · by_cases turn : parties.established.length < session
      · exact Or.inl turn
      · have first : parties.conn.streams.length = session := by
          have bound := inv.streams.1
          omega
        have length : next.wires.length = parties.wires.length := by
          have lengths := congrArg List.length sends
          simpa only [List.length_map] using lengths
        refine Or.inr (Or.inr (Or.inl ⟨?_, Or.inr ⟨?_, ?_, ?_⟩⟩))
        · rcases streams with same | announces
          · exact same ▸ unknown
          · rw [first, unannounced] at announces
            cases announces
        · exact (announced_congr session sends).trans unannounced
        · simpa only [Parties.current, client, length] using current
        · rw [apps]
          exact unread
    · exact absurd unheard heard
  · rcases at_ with before | misfit | unheard
    · exact Or.inl before
    · exact Or.inr (Or.inl misfit)
    · exact absurd unheard heard
  · exact at_
  · exact at_

/-- No unprompted step frees a stuck handler. -/
theorem Stuck.of_step {tunnelAddr : SocketAddr} {parties next : Parties} {session : Nat}
    {label : Label} (inv : parties.Inv) (stuck : parties.Stuck tunnelAddr session)
    (taken : step tunnelAddr parties label = some next) (permitted : Unprompted label) :
    next.Stuck tunnelAddr session := by
  cases label with
  | dial addr | app index act | clientLoses | hostLoses => exact permitted.elim
  | listener act => exact stuck.of_listener inv taken
  | forwarder index role act =>
      have taken := forwarder_of_step taken
      rcases forwarder_frame taken with ⟨conn, handler, established, _, closed, requests, addrs⟩
      have alive : next.alive = parties.alive := by simp only [Parties.alive, conn, closed]
      have fits : next.fits tunnelAddr session = parties.fits tunnelAddr session := by
        simp only [Parties.fits, addrs]
      apply stuck.of_frame conn handler established alive fits (Nat.le_of_eq requests.symm)
      exact fun silent => silent.of_forwarder taken permitted
  | network delivery => exact stuck.of_network inv taken
  | host index act => exact Stuck.of_host inv stuck (host_of_step taken) permitted

theorem Stuck.not_canReach {tunnelAddr : SocketAddr} {parties : Parties} {session : Nat}
    (inv : parties.Inv) (stuck : parties.Stuck tunnelAddr session) :
    ¬ (machine tunnelAddr).CanReach Unprompted (Established session) parties := by
  have trap : Machine.Trap (machine tunnelAddr) Unprompted (Established session)
      (fun parties => parties.Inv ∧ parties.Stuck tunnelAddr session) := by
    apply Machine.Trap.of_invariant (inductive_inv tunnelAddr)
    · exact fun parties label next inv stuck permitted taken => stuck.of_step inv taken permitted
    · intro parties inv stuck established
      exact Nat.not_lt.mpr stuck.1 (inv.established_iff.mp established)
  exact trap.not_canReach ⟨inv, stuck⟩

/-- With the handler waiting for a stream, and a request sent, the session of
that request can come about unprompted exactly when it is established already
or nothing of it is left to the application. -/
theorem established_unprompted_iff {tunnelAddr : SocketAddr} {parties : Parties} {session : Nat}
    (reached : (machine tunnelAddr).Reachable parties)
    (waits : parties.handler = .continues .acceptBi) (sent : session < parties.requests) :
    (machine tunnelAddr).CanReach Unprompted (Established session) parties ↔
      parties.establishable tunnelAddr session = true := by
  have inv := (inductive_inv tunnelAddr).of_reachable reached
  constructor
  · intro reaches
    by_contra missing
    exact (inv.stuck waits sent (Bool.not_eq_true _ |>.mp missing)).not_canReach inv reaches
  · exact inv.canEstablish waits sent

/-- An application connects and says nothing; its request is sent. -/
def silentRun : List Label :=
  [.listener .bound, .dial (.v4 1 1000), .listener (.incoming (.v4 1 1000)), .listener .opened,
    .listener .sent]

/-- It says something before the tunnel has looked at it. -/
def spokenRun : List Label := silentRun ++ [.app 0 (.sends 1)]

theorem established_unprompted_iff_spokenRun : ∃ parties,
    (machine (.v4 0 80)).run spokenRun started = some parties ∧
      parties.handler = .continues .acceptBi ∧
      (machine (.v4 0 80)).CanReach Unprompted (Established 0) parties := by
  have ends : ((machine (.v4 0 80)).run spokenRun started).any (fun parties =>
      decide (parties.handler = .continues .acceptBi) && decide (0 < parties.requests) &&
        parties.establishable (.v4 0 80) 0) = true := by
    decide
  rcases (Option.any_eq_true ..).mp ends with ⟨parties, ran, point⟩
  simp only [Bool.and_eq_true, decide_eq_true_eq] at point
  rcases point with ⟨⟨waits, sent⟩, ready⟩
  exact ⟨parties, ran, waits,
    (established_unprompted_iff ⟨started, spokenRun, rfl, ran⟩ waits sent).mpr ready⟩

theorem silentRun_waits :
    ¬ ∀ (parties : Parties) (session : Nat), (machine (.v4 0 80)).Reachable parties →
      parties.handler = .continues .acceptBi → session < parties.requests →
        (machine (.v4 0 80)).CanReach Unprompted (Established session) parties := by
  intro always
  have ends : ((machine (.v4 0 80)).run silentRun started).any (fun parties =>
      decide (parties.handler = .continues .acceptBi) && decide (0 < parties.requests) &&
        !parties.establishable (.v4 0 80) 0) = true := by
    decide
  rcases (Option.any_eq_true ..).mp ends with ⟨parties, ran, point⟩
  simp only [Bool.and_eq_true, Bool.not_eq_true', decide_eq_true_eq] at point
  rcases point with ⟨⟨waits, sent⟩, missing⟩
  have reached : (machine (.v4 0 80)).Reachable parties := ⟨started, silentRun, rfl, ran⟩
  have inv := (inductive_inv (.v4 0 80)).of_reachable reached
  exact (inv.stuck waits sent missing).not_canReach inv (always parties 0 reached waits sent)

end Parties

end Pair
end Lantun
