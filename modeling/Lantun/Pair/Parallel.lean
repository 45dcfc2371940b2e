import Lantun.Pair.Establish

namespace Lantun
namespace Pair

open Client Net

/-!
# When a further local application is served beside the others

The listener waits inside `bi_tcp_stream_client` until the session is over before
it accepts the next application, and the handler waits inside `bi_tcp_stream_host`
before it accepts the next stream.  So a client's local connections follow one
another; while one of them is open and idle, a further application is neither
accepted by the client nor served by the host.

For every state with an application in the accept queue, this module says exactly
whether that application, the two ends and the network can bring its first byte
to the service while nothing happens on any other session.
-/

/-- The handler steps that are a forwarder's, or of the service that it serves. -/
def isForwarder : Host.HandlerAct → Bool
  | .relay _ _ | .relayFails _ | .ends _ | .timesOut _ | .stops _ | .service _ => true
  | _ => false

namespace Parties

/-- Who may move: this application, the listener, the handler, the network, and
the forwarders of this application's own session. -/
def ByPartiesAnd (session : Nat) : Label → Prop
  | .app index _ => index = session
  | .listener _ | .network _ => True
  | .forwarder index _ _ => index = session
  | .host index act => isForwarder act = true → index = session
  | .dial _ | .clientLoses | .hostLoses => False

/-- The application is in the accept queue, and able to send. -/
def WaitingAt (session : Nat) (parties : Parties) : Prop :=
  parties.taken ≤ session ∧ parties.client.listener.isEnded = false ∧
    ∃ app : App, parties.apps[session]? = some app ∧ app.eof = false ∧ app.broken = false

/-- The session is registered on both sides, and its first byte has been
delivered to the service. -/
def DeliveredTo (session : Nat) (parties : Parties) : Prop :=
  ∃ addr, parties.addr? session = some addr ∧ addr ∈ parties.client.localConnections ∧
    parties.registry.lookup (getUnspecified addr.isIpv4) =
      some ⟨addr, getUnspecified addr.isIpv4⟩ ∧
    ∃ wire : Wire, parties.wires[session]? = some wire ∧ 0 < wire.delivered

/-- The listener is in no session, or in one that is over, and nothing has kept
it from accepting. -/
def listenerFree (parties : Parties) : Bool :=
  match parties.client.listener with
  | .binding | .select => true
  | .session _ forwarders => forwarders.joined
  | _ => false

/-- So is the handler. -/
def handlerFree (parties : Parties) : Bool :=
  match parties.handler with
  | .continues .acceptBi => true
  | .continues (.session _ _ forwarders) => forwarders.joined
  | _ => false

/-- Nothing is between this application and the service: it is the first in the
queue, both parties are free and have dealt with every session before, its
address fits and the connection is alive. -/
def wayIsFree (tunnelAddr : SocketAddr) (parties : Parties) (session : Nat) : Bool :=
  decide (parties.taken = session) && parties.listenerFree &&
    decide (parties.established.length = session) && parties.handlerFree &&
    parties.fits tunnelAddr session && parties.alive

/-! ## Otherwise one of the two parties does not get there -/

/-- The listener does not come to open a stream for this application. -/
def ClientBlocked (session : Nat) (parties : Parties) : Prop :=
  parties.wires.length ≤ session ∧
    match parties.client.listener with
    | .ended _ | .deaf => True
    | .binding | .select => parties.taken < session
    | .opening _ | .sending _ => parties.taken ≤ session
    | .session _ forwarders =>
        parties.taken < session ∨ (parties.taken = session ∧ forwarders.joined = false)

/-- The session cannot be connected, or the connection carries nothing of it. -/
def Cut (tunnelAddr : SocketAddr) (session : Nat) (parties : Parties) : Prop :=
  parties.fits tunnelAddr session = false ∨
    (parties.alive = false ∧ parties.conn.streams.length ≤ session)

/-- The handler does not come to connect a socket for this application. -/
def HostBlocked (tunnelAddr : SocketAddr) (session : Nat) (parties : Parties) : Prop :=
  parties.established.length ≤ session ∧
    match parties.handler with
    | .returns _ => True
    | .continues .acceptBi =>
        parties.established.length < session ∨ parties.Cut tunnelAddr session
    | .continues (.receivePacket _) | .continues (.connecting _ _) =>
        parties.established.length < session ∨ parties.fits tunnelAddr session = false
    | .continues (.session _ _ forwarders) =>
        parties.established.length < session ∨ forwarders.joined = false ∨
          parties.Cut tunnelAddr session

def Blocked (tunnelAddr : SocketAddr) (session : Nat) (parties : Parties) : Prop :=
  parties.ClientBlocked session ∨ parties.HostBlocked tunnelAddr session

/-- The host has not got further than the client. -/
theorem Inv.established_le {parties : Parties} (inv : parties.Inv) :
    parties.established.length ≤ parties.conn.accepted ∧
      parties.conn.accepted ≤ parties.wires.length := by
  refine ⟨?_, Nat.le_trans inv.streams.1 inv.streams.2⟩
  have progress := inv.progress
  unfold Progress at progress
  split at progress <;> omega

theorem Inv.not_delivered {parties : Parties} (inv : parties.Inv) {session : Nat}
    (later : parties.established.length ≤ session) : ¬ parties.DeliveredTo session := by
  rintro ⟨_, _, _, _, wire, here, delivered⟩
  have none_ := (inv.unserved session wire here later).2
  omega

theorem ClientBlocked.of_listener {parties next : Parties} (inv : parties.Inv) {session : Nat}
    {act : ListenerAct} (blocked : parties.ClientBlocked session)
    (taken : parties.listenerStep act = some next) : next.ClientBlocked session := by
  rcases blocked with ⟨later, at_⟩
  have position := inv.position
  unfold Position at position
  rcases Option.bind_eq_some_iff.mp taken with ⟨client, moved, rest⟩
  cases act with
  | bound =>
      cases rest
      simp only [Connected.step] at moved
      split at moved <;> cases moved
      rename_i is
      simp only [is] at at_
      exact ⟨later, at_⟩
  | bindFails =>
      cases rest
      simp only [Connected.step] at moved
      split at moved <;> cases moved
      exact ⟨later, trivial⟩
  | stop =>
      simp only [Connected.step, inv.not_ready, Bool.false_eq_true, and_false, if_false] at moved
      cases moved
  | incoming addr =>
      simp only at rest
      split at rest <;> cases rest
      simp only [Connected.step, inv.not_ready] at moved
      split at moved <;> cases moved
      rename_i is
      simp only [is] at at_
      exact ⟨later, at_⟩
  | incomingFails =>
      cases rest
      simp only [Connected.step, inv.not_ready] at moved
      split at moved <;> cases moved
      exact ⟨later, trivial⟩
  | opened =>
      cases rest
      simp only [Connected.step] at moved
      split at moved
      · split at moved <;> cases moved
        rename_i is _
        simp only [is] at at_ position
        refine ⟨?_, at_⟩
        simp only [List.length_append, List.length_singleton]
        omega
      · cases moved
  | openFails =>
      cases rest
      simp only [Connected.step] at moved
      split at moved
      · split at moved <;> cases moved
        exact ⟨later, trivial⟩
      · cases moved
  | sent =>
      cases rest
      simp only [Connected.step] at moved
      split at moved
      · split at moved <;> cases moved
        rename_i is _
        simp only [is] at at_
        refine ⟨later, ?_⟩
        rcases Nat.lt_or_eq_of_le at_ with before | last
        · exact Or.inl before
        · exact Or.inr ⟨last, rfl⟩
      · cases moved
  | sendFails =>
      simp only at rest
      split at rest <;> cases rest
      simp only [Connected.step] at moved
      split at moved <;> cases moved
      exact ⟨later, trivial⟩
  | forwarderEnds role status | detachedEnds => cases rest
  | join =>
      cases rest
      simp only [Connected.step] at moved
      split at moved
      · split at moved <;> cases moved
        rename_i is joined
        simp only [is] at at_
        refine ⟨later, ?_⟩
        rcases at_ with before | ⟨_, unjoined⟩
        · exact before
        · rw [joined] at unjoined
          cases unjoined
      · cases moved

theorem HostBlocked.of_host {tunnelAddr : SocketAddr} {parties next : Parties} {session : Nat}
    {act : Host.HandlerAct} (inv : parties.Inv) (blocked : parties.HostBlocked tunnelAddr session)
    (taken : parties.hostStep tunnelAddr act = some next)
    (permitted : ByPartiesAnd session (.host parties.turn act)) :
    next.HostBlocked tunnelAddr session := by
  rcases blocked with ⟨later, stood⟩
  rcases inv.host_moves taken with ⟨frame, move⟩
  have alive : next.alive = parties.alive := by
    simp only [Parties.alive, frame.client, frame.link]
  have fits : next.fits tunnelAddr session = parties.fits tunnelAddr session := by
    simp only [Parties.fits, addr?, frame.apps]
  have cut : parties.Cut tunnelAddr session → next.Cut tunnelAddr session := by
    intro cut
    simpa only [Parties.Cut, fits, alive, frame.streams] using cut
  cases move with
  | accepts waits visible at_ established message =>
      simp only [waits] at stood
      refine ⟨established ▸ later, ?_⟩
      rw [at_]
      simp only [established, fits]
      rcases stood with before | misfit | ⟨_, unknown⟩
      · exact Or.inl before
      · exact Or.inr misfit
      · exact Or.inl (by omega)
  | receives stream addr waits message at_ established =>
      simp only [waits] at stood
      refine ⟨established ▸ later, ?_⟩
      rw [at_]
      simp only [established, fits]
      exact stood
  | connects stream addr waits suits at_ established =>
      simp only [waits] at stood
      have earlier : parties.established.length < session := by
        rcases stood with before | misfit
        · exact before
        · refine Nat.lt_of_le_of_ne later fun turn => ?_
          rw [turn, misfit] at suits
          cases suits
      refine ⟨?_, ?_⟩
      · rw [established, List.length_append, List.length_singleton]
        exact earlier
      · rw [at_]
        exact Or.inr (Or.inl rfl)
  | forwards stream addr forwarders inbound after role status waits moved at_ established =>
      have progress := inv.progress
      simp only [Progress, waits] at progress
      have isOne : isForwarder act = true := by
        cases act <;> simp [Host.Conn.forward] at moved <;> rfl
      have own : parties.turn = session := permitted isOne
      simp only [Parties.turn, waits, Pair.stream, Option.getD_some] at own
      omega
  | joins stream addr forwarders waits joined at_ established =>
      simp only [waits] at stood
      refine ⟨established ▸ later, ?_⟩
      rw [at_]
      simp only [established]
      rcases stood with before | unjoined | isCut
      · exact Or.inl before
      · rw [joined] at unjoined
        cases unjoined
      · exact Or.inr (cut isCut)
  | returns error at_ established =>
      refine ⟨established ▸ later, ?_⟩
      rw [at_]
      trivial

/-- What the host does not take part in leaves it blocked. -/
theorem HostBlocked.of_frame {tunnelAddr : SocketAddr} {parties next : Parties} {session : Nat}
    (blocked : parties.HostBlocked tunnelAddr session) (handler : next.handler = parties.handler)
    (established : next.established = parties.established)
    (addrs : ∀ index, next.addr? index = parties.addr? index)
    (cut : parties.alive = false → parties.conn.streams.length ≤ session →
      next.alive = false ∧ next.conn.streams.length ≤ session) :
    next.HostBlocked tunnelAddr session := by
  have fits : next.fits tunnelAddr session = parties.fits tunnelAddr session := by
    simp only [Parties.fits, addrs]
  have still : parties.Cut tunnelAddr session → next.Cut tunnelAddr session := by
    rintro (misfit | ⟨dead, unknown⟩)
    · exact Or.inl (fits.trans misfit)
    · exact Or.inr (cut dead unknown)
  rcases blocked with ⟨later, stood⟩
  refine ⟨established ▸ later, ?_⟩
  rw [handler]
  simp only [established, fits]
  split at stood
  · trivial
  · exact stood.imp_right still
  · exact stood
  · exact stood
  · exact stood.imp_right (Or.imp_right still)

theorem app_frame {parties next : Parties} {index : Nat} {act : AppAct}
    (taken : parties.appStep index act = some next) :
    ∃ apps, next = { parties with apps } ∧ ∀ index, next.addr? index = parties.addr? index := by
  rcases Option.bind_eq_some_iff.mp taken with ⟨app, found, rest⟩
  split at rest
  · cases rest
  · cases act <;> cases rest <;> exact ⟨_, rfl, addr?_setApp found rfl⟩

/-- No permitted step clears the way. -/
theorem Blocked.of_step {tunnelAddr : SocketAddr} {parties next : Parties} {session : Nat}
    {label : Label} (inv : parties.Inv) (blocked : parties.Blocked tunnelAddr session)
    (taken : step tunnelAddr parties label = some next) (permitted : ByPartiesAnd session label) :
    next.Blocked tunnelAddr session := by
  cases label with
  | dial addr | clientLoses | hostLoses => exact permitted.elim
  | app index act =>
      rcases app_frame taken with ⟨apps, same, addrs⟩
      rcases blocked with client | host
      · subst same
        exact Or.inl client
      · refine Or.inr (host.of_frame ?_ ?_ addrs ?_) <;> subst same
        · rfl
        · rfl
        · exact fun dead unknown => ⟨dead, unknown⟩
  | listener act =>
      rcases blocked with client | host
      · exact Or.inl (client.of_listener inv taken)
      · rcases listener_frame taken with ⟨conn, handler, established, apps, closed, _⟩
        refine Or.inr (host.of_frame handler established (fun index => ?_) fun dead unknown => ?_)
        · simp only [addr?, apps]
        · simpa only [Parties.alive, conn, closed] using And.intro dead unknown
  | forwarder index role act =>
      rcases blocked with client | host
      · have last : index + 1 = parties.wires.length := by
          simp only [step] at taken
          split at taken
          · assumption
          · cases taken
        have own : index = session := permitted
        have bound := client.1
        omega
      · rcases forwarder_frame (forwarder_of_step taken) with
          ⟨conn, handler, established, _, closed, _, addrs⟩
        refine Or.inr (host.of_frame handler established addrs fun dead unknown => ?_)
        simpa only [Parties.alive, conn, closed] using And.intro dead unknown
  | network delivery =>
      rcases network_frame taken with
        ⟨alive, handler, established, apps, client, requests, accepted, sends, _⟩
      rcases blocked with ⟨unopened, at_⟩ | host
      · have length : next.wires.length = parties.wires.length := by
          have lengths := congrArg List.length sends
          simpa only [List.length_map] using lengths
        refine Or.inl ⟨length ▸ unopened, ?_⟩
        rw [client]
        simpa only [accepted] using at_
      · refine Or.inr (host.of_frame handler established (fun index => ?_) fun dead _ => ?_)
        · simp only [addr?, apps]
        · rw [alive] at dead
          cases dead
  | host index act =>
      have turned : parties.turn = index := by
        simp only [step] at taken
        split at taken
        · assumption
        · cases taken
      have taken := host_of_step taken
      rcases blocked with ⟨unopened, at_⟩ | host
      · refine Or.inl ?_
        rcases inv.host_moves taken with ⟨frame, _⟩
        rcases host_cases taken with ⟨phase, conn, registration, outcome, _, _, is⟩
        have length : next.wires.length = parties.wires.length := by
          rw [is]
          exact length_onStream parties act (stream phase)
        have takenSame : next.taken = parties.taken := by
          rw [is]
          exact onStream_taken ..
        refine ⟨length ▸ unopened, ?_⟩
        rw [frame.client]
        simpa only [takenSame] using at_
      · exact Or.inr (host.of_host inv taken (turned ▸ permitted))

/-- A way that is not free is blocked. -/
theorem Inv.blocked {tunnelAddr : SocketAddr} {parties : Parties} (inv : parties.Inv)
    {session : Nat} (waiting : parties.WaitingAt session)
    (busy : parties.wayIsFree tunnelAddr session = false) :
    parties.Blocked tunnelAddr session := by
  rcases waiting with ⟨queued, listening, _⟩
  have unopened : parties.wires.length ≤ session := by
    have position := inv.position
    unfold Position at position
    split at position <;> omega
  have unserved := inv.established_le
  have progress := inv.progress
  unfold Progress at progress
  simp only [wayIsFree, Bool.and_eq_false_iff, decide_eq_false_iff_not] at busy
  rcases busy with ((((queue | listener) | turn) | handler) | misfit) | dead
  · refine Or.inl ⟨unopened, ?_⟩
    split
    · trivial
    · trivial
    · omega
    · omega
    · exact queued
    · exact queued
    · exact Or.inl (by omega)
  · refine Or.inl ⟨unopened, ?_⟩
    unfold listenerFree at listener
    split
    · trivial
    · trivial
    · rename_i at_
      simp [at_] at listener
    · rename_i at_
      simp [at_] at listener
    · exact queued
    · exact queued
    · rename_i at_
      simp only [at_] at listener
      exact (Nat.lt_or_eq_of_le queued).imp_right fun last => ⟨last, listener⟩
  · refine Or.inr ⟨by omega, ?_⟩
    have before : parties.established.length < session := by omega
    split
    · trivial
    · exact Or.inl before
    · exact Or.inl before
    · exact Or.inl before
    · exact Or.inl before
  · refine Or.inr ⟨by omega, ?_⟩
    unfold handlerFree at handler
    split
    · trivial
    · rename_i at_
      simp [at_] at handler
    · rename_i at_
      simp only [at_] at progress
      exact Or.inl (by omega)
    · rename_i at_
      simp only [at_] at progress
      exact Or.inl (by omega)
    · rename_i at_
      simp only [at_] at handler
      exact Or.inr (Or.inl handler)
  · refine Or.inr ⟨by omega, ?_⟩
    split
    · trivial
    · exact Or.inr (Or.inl misfit)
    · exact Or.inr misfit
    · exact Or.inr misfit
    · exact Or.inr (Or.inr (Or.inl misfit))
  · refine Or.inr ⟨by omega, ?_⟩
    have cut : parties.Cut tunnelAddr session := by
      have visible := inv.streams.2
      exact Or.inr ⟨dead, by omega⟩
    split
    · trivial
    · exact Or.inr cut
    · rename_i at_
      simp only [at_] at progress
      exact Or.inl (by omega)
    · rename_i at_
      simp only [at_] at progress
      exact Or.inl (by omega)
    · exact Or.inr (Or.inr cut)

theorem Blocked.not_canReach {tunnelAddr : SocketAddr} {parties : Parties} {session : Nat}
    (inv : parties.Inv) (blocked : parties.Blocked tunnelAddr session) :
    ¬ (machine tunnelAddr).CanReach (ByPartiesAnd session) (DeliveredTo session) parties := by
  have trap : Machine.Trap (machine tunnelAddr) (ByPartiesAnd session) (DeliveredTo session)
      (fun parties => parties.Inv ∧ parties.Blocked tunnelAddr session) := by
    apply Machine.Trap.of_invariant (inductive_inv tunnelAddr)
    · exact fun parties label next inv blocked permitted taken =>
        blocked.of_step inv taken permitted
    · intro parties inv blocked
      apply inv.not_delivered
      rcases blocked with client | host
      · have bounds := inv.established_le
        have unopened := client.1
        omega
      · exact host.1
  exact trap.not_canReach ⟨inv, blocked⟩

/-! ## On a free way the first byte is delivered -/

variable {tunnelAddr : SocketAddr} {parties : Parties} {session : Nat} {addr : SocketAddr}

/-- What has arrived is written to the service. -/
theorem canWrite (own : parties.addr? session = some addr)
    (at_ : parties.handler = .continues (.session session addr Forwarders.spawned))
    (local_ : addr ∈ parties.client.localConnections)
    (registered : parties.registry.lookup (getUnspecified addr.isIpv4) =
      some ⟨addr, getUnspecified addr.isIpv4⟩)
    {wire : Wire} (found : parties.wires[session]? = some wire) {inbound : Host.Inbound}
    (known : parties.conn.streams[session]? = some inbound) (some_ : 0 < inbound.data)
    (whole : inbound.reset = false) (takes : inbound.refused = false) :
    (machine tunnelAddr).CanReach (ByPartiesAnd session) (DeliveredTo session) parties := by
  have moved : parties.conn.handlerStep .tcp tunnelAddr false
      (.session session addr Forwarders.spawned) (.relay .down 1) =
      some ({ parties.conn with
        streams := parties.conn.streams.set session { inbound with data := inbound.data - 1 } },
        .keep, .continues (.session session addr Forwarders.spawned)) := by
    have spawned : Forwarders.spawned.setStatus .down .running = Forwarders.spawned := rfl
    have running : Forwarders.spawned.status .down = .running := rfl
    have one : 1 ≤ inbound.data := some_
    simp [Host.Conn.handlerStep, Host.Conn.sessionStep, known, Host.Conn.forward,
      Host.Inbound.pending, Host.Inbound.relay, Host.Conn.refuses, whole, takes, running, spawned,
      one]
  have turn : parties.turn = session := by
    simp only [Parties.turn, at_, Pair.stream, Option.getD_some]
  have taken := hostStep_eq tunnelAddr at_ moved
  rw [turn] at taken
  have permitted : ByPartiesAnd session (.host session (.relay .down 1)) := fun _ => rfl
  refine canReach_of_step taken permitted (Machine.CanReach.here ?_)
  refine ⟨addr, own, local_, registered, effect (.relay .down 1) wire, ?_, Nat.succ_pos _⟩
  show (parties.wires.modify session (effect (.relay .down 1)))[session]? = _
  rw [List.getElem?_modify_eq, found]
  rfl

/-- The byte is carried to the host. -/
theorem canDeliver (own : parties.addr? session = some addr)
    (at_ : parties.handler = .continues (.session session addr Forwarders.spawned))
    (local_ : addr ∈ parties.client.localConnections)
    (registered : parties.registry.lookup (getUnspecified addr.isIpv4) =
      some ⟨addr, getUnspecified addr.isIpv4⟩)
    (alive : parties.alive = true) {wire : Wire} (found : parties.wires[session]? = some wire)
    (written : wire.arrived < wire.written) {inbound : Host.Inbound}
    (known : parties.conn.streams[session]? = some inbound) (whole : inbound.reset = false)
    (takes : inbound.refused = false) :
    (machine tunnelAddr).CanReach (ByPartiesAnd session) (DeliveredTo session) parties := by
  have live : parties.conn.link = .live := by
    simp only [Parties.alive, Bool.and_eq_true, decide_eq_true_eq] at alive
    exact alive.1
  have taken : step tunnelAddr parties (.network (.data session 1)) =
      some { parties.setWire session { wire with arrived := wire.arrived + 1 } with
        conn := { parties.conn with
          streams := parties.conn.streams.set session
            { inbound with data := inbound.data + 1 } } } := by
    have fits : wire.arrived + 1 ≤ wire.written := written
    simp only [step, Parties.networkStep, alive, found, if_true, Option.bind_some, if_pos fits,
      Host.Conn.clientStep, live, Host.Conn.onStream, known, Option.map_some]
  have permitted : ByPartiesAnd session (.network (.data session 1)) := trivial
  apply canReach_of_step taken permitted
  have here := List.getElem?_set_self (a := { wire with arrived := wire.arrived + 1 })
    (List.getElem?_eq_some_iff.mp found).1
  have there := List.getElem?_set_self (a := { inbound with data := inbound.data + 1 })
    (List.getElem?_eq_some_iff.mp known).1
  exact canWrite own at_ local_ registered here there (Nat.succ_pos _) whole takes

/-- The host is free for this session, and nothing is in its way. -/
structure HostReady (tunnelAddr : SocketAddr) (session : Nat) (parties : Parties) : Prop where
  inv : parties.Inv
  waits : parties.handler = .continues .acceptBi
  turn : parties.established.length = session
  fits : parties.fits tunnelAddr session = true
  alive : parties.alive = true

/-- Steps of the client and its application leave it so. -/
theorem HostReady.of_frame {next : Parties} (ready : HostReady tunnelAddr session parties)
    (inv : next.Inv) (conn : next.conn = parties.conn) (handler : next.handler = parties.handler)
    (established : next.established = parties.established)
    (closed : next.client.closed = parties.client.closed)
    (addrs : ∀ index, next.addr? index = parties.addr? index) :
    HostReady tunnelAddr session next where
  inv := inv
  waits := handler.trans ready.waits
  turn := established ▸ ready.turn
  fits := by simpa only [Parties.fits, addrs] using ready.fits
  alive := by simpa only [Parties.alive, conn, closed] using ready.alive

/-- The first byte is on the stream. -/
theorem HostReady.canServe (ready : HostReady tunnelAddr session parties)
    (own : parties.addr? session = some addr) (local_ : addr ∈ parties.client.localConnections)
    (sent : session < parties.requests) (last : session + 1 = parties.wires.length)
    (unknown : parties.conn.streams.length ≤ session) {wire : Wire}
    (found : parties.wires[session]? = some wire) (written : wire.arrived < wire.written) :
    (machine tunnelAddr).CanReach (ByPartiesAnd session) (DeliveredTo session) parties := by
  have serves : Serves (ByPartiesAnd session) session :=
    ⟨trivial, trivial, trivial, fun _ => rfl, fun _ => rfl, fun _ => rfl⟩
  have announced : parties.announced session = true := by
    apply announced_of_wire found
    have some_ : 0 < wire.written := by omega
    simp [Wire.announced, some_]
  have opens := (Follows.refl ready.inv session).canReach_of_announced serves ready.waits
    ready.turn announced ready.alive ready.fits sent
  refine opens.andThen fun final opened => ?_
  rcases opened.served with ⟨addr', own', at_, registered⟩
  rw [own] at own'
  cases own'
  have follows := opened.follows
  have progress := follows.inv.progress
  simp only [Progress, at_] at progress
  have visible : session < final.conn.streams.length := by
    have bound := follows.inv.streams.1
    omega
  have known := List.getElem?_eq_getElem visible
  have fresh : final.conn.streams[session] = .opened := follows.inbound unknown _ known
  rw [fresh] at known
  exact canDeliver ((follows.addr? session).trans own) at_
    (follows.client.symm ▸ local_) registered (follows.alive.trans ready.alive)
    (follows.wires.symm ▸ found) written known rfl rfl

/-- The client is in the session of the application, with nothing moved yet. -/
structure Entered (tunnelAddr : SocketAddr) (session : Nat) (addr : SocketAddr)
    (parties : Parties) : Prop where
  ready : HostReady tunnelAddr session parties
  own : parties.addr? session = some addr
  local_ : addr ∈ parties.client.localConnections
  sent : session < parties.requests
  last : session + 1 = parties.wires.length
  at_ : parties.client.listener = .session addr Forwarders.spawned
  found : parties.wires[session]? = some .opened

/-- The forwarder passes on what the application has sent. -/
theorem Entered.canRelay (entered : Entered tunnelAddr session addr parties) {app : App}
    (foundApp : parties.apps[session]? = some app) (some_ : 0 < app.unread)
    (whole : app.broken = false) (unknown : parties.conn.streams.length ≤ session) :
    (machine tunnelAddr).CanReach (ByPartiesAnd session) (DeliveredTo session) parties := by
  have open_ : parties.client.closed = false := by
    have alive := entered.ready.alive
    simp only [Parties.alive, Bool.and_eq_true, Bool.not_eq_true'] at alive
    exact alive.2
  have moved : forward parties.client.closed app .opened .up (.relay 1) =
      some ({ app with unread := app.unread - 1 }, { Wire.opened with written := 1 }, .running) := by
    have fits : 1 ≤ tunnelForwarderBufferSize := by decide
    have one : 1 ≤ app.unread := some_
    simp [forward, open_, whole, fits, one, Wire.opened]
  have taken := forwarderStep_eq tunnelAddr entered.at_ rfl entered.last foundApp
    entered.found moved
  have permitted : ByPartiesAnd session (.forwarder session .up (.relay 1)) := rfl
  apply canReach_of_step taken permitted
  have inv := entered.ready.inv.after taken
  have addrs : ∀ index, (parties.setApp session { app with unread := app.unread - 1 }).addr? index =
      parties.addr? index := addr?_setApp foundApp rfl
  have ready := entered.ready.of_frame inv rfl rfl rfl rfl addrs
  have here := List.getElem?_set_self (a := { Wire.opened with written := 1 })
    (List.getElem?_eq_some_iff.mp entered.found).1
  refine ready.canServe ((addrs session).trans entered.own) entered.local_ entered.sent ?_ unknown
    here Nat.one_pos
  show session + 1 = (parties.wires.set session _).length
  rw [List.length_set]
  exact entered.last

/-- The application sends, unless it has done so already. -/
theorem Entered.canSend (entered : Entered tunnelAddr session addr parties) {app : App}
    (foundApp : parties.apps[session]? = some app) (sends : app.eof = false)
    (whole : app.broken = false) (unknown : parties.conn.streams.length ≤ session) :
    (machine tunnelAddr).CanReach (ByPartiesAnd session) (DeliveredTo session) parties := by
  by_cases some_ : 0 < app.unread
  · exact entered.canRelay foundApp some_ whole unknown
  · have taken : step tunnelAddr parties (.app session (.sends 1)) =
        some (parties.setApp session { app with unread := app.unread + 1 }) := by
      simp [step, appStep, foundApp, sends, whole]
    have permitted : ByPartiesAnd session (.app session (.sends 1)) := rfl
    apply canReach_of_step taken permitted
    have addrs : ∀ index, (parties.setApp session
        { app with unread := app.unread + 1 }).addr? index = parties.addr? index :=
      addr?_setApp foundApp rfl
    have inv := entered.ready.inv.after taken
    have ready := entered.ready.of_frame inv rfl rfl rfl rfl addrs
    have here := List.getElem?_set_self (a := { app with unread := app.unread + 1 })
      (List.getElem?_eq_some_iff.mp foundApp).1
    have after : Entered tunnelAddr session addr
        (parties.setApp session { app with unread := app.unread + 1 }) :=
      { entered with ready := ready, own := (addrs session).trans entered.own }
    exact after.canRelay here (Nat.succ_pos _) whole unknown

/-- The listener takes the application, opens a stream and sends the request. -/
theorem HostReady.canAccept (ready : HostReady tunnelAddr session parties)
    (at_ : parties.client.listener = .select) (first : parties.taken = session) {app : App}
    (foundApp : parties.apps[session]? = some app) (sends : app.eof = false)
    (whole : app.broken = false) :
    (machine tunnelAddr).CanReach (ByPartiesAnd session) (DeliveredTo session) parties := by
  have position := ready.inv.position
  simp only [Position, at_] at position
  have own : parties.addr? session = some app.addr := congrArg (Option.map App.addr) foundApp
  have open_ : parties.client.closed = false := by
    have alive := ready.alive
    simp only [Parties.alive, Bool.and_eq_true, Bool.not_eq_true'] at alive
    exact alive.2
  have unknown : parties.conn.streams.length ≤ session := by
    have bound := ready.inv.streams.2
    omega
  have mine : ∀ act, ByPartiesAnd session (.listener act) := fun _ => trivial
  have incoming : step tunnelAddr parties (.listener (.incoming app.addr)) =
      some { parties with
        client := { parties.client with listener := .opening app.addr }
        taken := parties.taken + 1 } := by
    simp only [step, Parties.listenerStep, Connected.step, at_, ready.inv.not_ready,
      Bool.false_eq_true, if_false, Connected.afterIncoming, Option.bind_some, first, own, if_true]
  apply canReach_of_step incoming (mine _)
  have opened : step tunnelAddr { parties with
        client := { parties.client with listener := .opening app.addr }
        taken := parties.taken + 1 } (.listener .opened) =
      some { parties with
        client := { parties.client with listener := .sending app.addr }
        taken := parties.taken + 1
        wires := parties.wires ++ [.opened] } := by
    simp only [step, Parties.listenerStep, Connected.step, open_, Bool.false_eq_true, if_false,
      Option.bind_some]
  apply canReach_of_step opened (mine _)
  have sent : step tunnelAddr { parties with
        client := { parties.client with listener := .sending app.addr }
        taken := parties.taken + 1
        wires := parties.wires ++ [.opened] } (.listener .sent) =
      some { parties with
        client := { parties.client with
          localConnections := parties.client.localConnections.insert app.addr
            (Connected.localConnection app.addr)
          listener := .session app.addr Forwarders.spawned }
        taken := parties.taken + 1
        wires := parties.wires ++ [.opened]
        requests := parties.requests + 1 } := by
    simp only [step, Parties.listenerStep, Connected.step, open_, Bool.false_eq_true, if_false,
      Option.bind_some]
  apply canReach_of_step sent (mine _)
  have inv := ((ready.inv.after incoming).after opened).after sent
  have length : parties.wires.length = session := position.1.symm.trans first
  have entered : Entered tunnelAddr session app.addr { parties with
      client := { parties.client with
        localConnections := parties.client.localConnections.insert app.addr
          (Connected.localConnection app.addr)
        listener := .session app.addr Forwarders.spawned }
      taken := parties.taken + 1
      wires := parties.wires ++ [.opened]
      requests := parties.requests + 1 } :=
    { ready := ready.of_frame inv rfl rfl rfl rfl fun _ => rfl
      own := own
      local_ := (AList.mem_insert _).mpr (Or.inl rfl)
      sent := by
        show session < parties.requests + 1
        omega
      last := by
        rw [List.length_append, List.length_singleton, length]
      at_ := rfl
      found := by
        rw [← length]
        exact List.getElem?_concat_length }
  exact entered.canSend foundApp sends whole unknown

/-- A listener that is free comes to its selection. -/
theorem HostReady.canListen (ready : HostReady tunnelAddr session parties)
    (free : parties.listenerFree = true) (first : parties.taken = session) {app : App}
    (foundApp : parties.apps[session]? = some app) (sends : app.eof = false)
    (whole : app.broken = false) :
    (machine tunnelAddr).CanReach (ByPartiesAnd session) (DeliveredTo session) parties := by
  have mine : ∀ act, ByPartiesAnd session (.listener act) := fun _ => trivial
  have through : ∀ (act : ListenerAct) (client : Connected),
      step tunnelAddr parties (.listener act) = some { parties with client } →
      client.closed = parties.client.closed → client.listener = .select →
      (machine tunnelAddr).CanReach (ByPartiesAnd session) (DeliveredTo session) parties := by
    intro act client taken closed at_
    apply canReach_of_step taken (mine act)
    exact (ready.of_frame (ready.inv.after taken) rfl rfl rfl closed fun _ => rfl).canAccept at_
      first foundApp sends whole
  cases at_ : parties.client.listener with
  | select => exact ready.canAccept at_ first foundApp sends whole
  | binding =>
      refine through .bound { parties.client with listener := .select } ?_ rfl rfl
      simp only [step, Parties.listenerStep, Connected.step, at_, Option.bind_some]
  | session addr forwarders =>
      have joined : forwarders.joined = true := by simpa only [listenerFree, at_] using free
      refine through .join { parties.client with
        localConnections := parties.client.localConnections.erase addr
        detached := parties.client.detached + forwarders.left
        listener := .select } ?_ rfl rfl
      simp only [step, Parties.listenerStep, Connected.step, at_, joined, if_true, Option.bind_some]
  | deaf | opening addr | sending addr | ended result => simp [listenerFree, at_] at free

/-- A handler that is free comes to wait for the next stream. -/
theorem Inv.canProceed (inv : parties.Inv) (free : parties.wayIsFree tunnelAddr session = true)
    {app : App} (foundApp : parties.apps[session]? = some app) (sends : app.eof = false)
    (whole : app.broken = false) :
    (machine tunnelAddr).CanReach (ByPartiesAnd session) (DeliveredTo session) parties := by
  simp only [wayIsFree, Bool.and_eq_true, decide_eq_true_eq] at free
  rcases free with ⟨⟨⟨⟨⟨first, listener⟩, turn⟩, handler⟩, fits⟩, alive⟩
  unfold handlerFree at handler
  split at handler
  · rename_i at_
    exact (HostReady.mk inv at_ turn fits alive).canListen listener first foundApp sends whole
  · rename_i stream addr forwarders at_
    have moved : parties.conn.handlerStep .tcp tunnelAddr false (.session stream addr forwarders)
        .join = some (parties.conn, .remove (getUnspecified addr.isIpv4),
          .continues .acceptBi) := by
      simp only [Host.Conn.handlerStep, Host.Conn.sessionStep, handler, if_true]
    have taken := hostStep_eq tunnelAddr at_ moved
    have permitted : ByPartiesAnd session (.host parties.turn .join) := fun not => by cases not
    apply canReach_of_step taken permitted
    have ready : HostReady tunnelAddr session _ :=
      { inv := inv.after taken
        waits := rfl
        turn := (congrArg List.length (List.append_nil _)).trans turn
        fits := by simpa only [Parties.fits, addr?, onStream_apps] using fits
        alive := by simpa only [Parties.alive, onStream_client] using alive }
    refine ready.canListen ?_ ((onStream_taken ..).trans first) ?_ sends whole
    · simpa only [Parties.listenerFree, onStream_client] using listener
    · rw [onStream_apps]
      exact foundApp
  · cases handler

/-- An application waiting in the accept queue can be registered on both sides
and have its first byte delivered, with nothing happening on any other session,
exactly when the way to the service is free. -/
theorem delivered_independently_iff
    (reached : (machine tunnelAddr).Reachable parties) (waiting : parties.WaitingAt session) :
    (machine tunnelAddr).CanReach (ByPartiesAnd session) (DeliveredTo session) parties ↔
      parties.wayIsFree tunnelAddr session = true := by
  have inv := (inductive_inv tunnelAddr).of_reachable reached
  constructor
  · intro reaches
    by_contra busy
    exact (inv.blocked waiting (Bool.not_eq_true _ |>.mp busy)).not_canReach inv reaches
  · intro free
    rcases waiting with ⟨_, _, app, foundApp, sends, whole⟩
    exact inv.canProceed free foundApp sends whole

/-- An application connects to a tunnel that has none. -/
def firstRun : List Label := [.listener .bound, .dial (.v4 1 1000)]

/-- It is in its session when a second one connects. -/
def secondRun : List Label :=
  firstRun ++ [.listener (.incoming (.v4 1 1000)), .listener .opened, .listener .sent,
    .app 0 (.sends 1), .forwarder 0 .up (.relay 1), .dial (.v4 1 1001)]

theorem delivered_independently_iff_firstRun : ∃ parties,
    (machine (.v4 0 80)).run firstRun started = some parties ∧ parties.WaitingAt 0 ∧
      (machine (.v4 0 80)).CanReach (ByPartiesAnd 0) (DeliveredTo 0) parties := by
  have ends : ((machine (.v4 0 80)).run firstRun started).any (fun parties =>
      decide (parties.taken ≤ 0) && !parties.client.listener.isEnded &&
        decide (parties.apps[0]? = some ⟨.v4 1 1000, 0, false, false⟩) &&
        parties.wayIsFree (.v4 0 80) 0) = true := by
    decide
  rcases (Option.any_eq_true ..).mp ends with ⟨parties, ran, point⟩
  simp only [Bool.and_eq_true, Bool.not_eq_true', decide_eq_true_eq] at point
  rcases point with ⟨⟨⟨queued, listening⟩, here⟩, free⟩
  have waiting : parties.WaitingAt 0 := ⟨queued, listening, _, here, rfl, rfl⟩
  exact ⟨parties, ran, waiting,
    (delivered_independently_iff ⟨started, firstRun, rfl, ran⟩ waiting).mpr free⟩

theorem secondRun_blocks :
    ¬ ∀ (parties : Parties) (session : Nat), (machine (.v4 0 80)).Reachable parties →
      parties.WaitingAt session →
        (machine (.v4 0 80)).CanReach (ByPartiesAnd session) (DeliveredTo session) parties := by
  intro always
  have ends : ((machine (.v4 0 80)).run secondRun started).any (fun parties =>
      decide (parties.taken ≤ 1) && !parties.client.listener.isEnded &&
        decide (parties.apps[1]? = some ⟨.v4 1 1001, 0, false, false⟩) &&
        !parties.wayIsFree (.v4 0 80) 1) = true := by
    decide
  rcases (Option.any_eq_true ..).mp ends with ⟨parties, ran, point⟩
  simp only [Bool.and_eq_true, Bool.not_eq_true', decide_eq_true_eq] at point
  rcases point with ⟨⟨⟨queued, listening⟩, here⟩, busy⟩
  have reached : (machine (.v4 0 80)).Reachable parties := ⟨started, secondRun, rfl, ran⟩
  have inv := (inductive_inv (.v4 0 80)).of_reachable reached
  have waiting : parties.WaitingAt 1 := ⟨queued, listening, _, here, rfl, rfl⟩
  exact (inv.blocked waiting busy).not_canReach inv (always parties 1 reached waiting)

end Parties

end Pair
end Lantun
