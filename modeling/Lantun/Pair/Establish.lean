import Lantun.Host.Clearance
import Lantun.Pair.Invariant

namespace Lantun
namespace Pair

open Client Net

/-!
# How a session comes about on the host

Once something has been sent on the stream of a session, the network and the
host need nothing more of the client: the stream is announced and accepted, the
request arrives and is received, and the socket is connected.  The steps are
followed here one by one, for any choice of who else may move, and with a record
of everything they leave as it was.
-/

namespace Parties

/-! ## Vocabulary -/

/-- The host can connect a virtual socket for the application of this session. -/
def fits (tunnelAddr : SocketAddr) (parties : Parties) (session : Nat) : Bool :=
  (parties.addr? session).any fun addr => Host.compatible .tcp tunnelAddr addr

/-- The host knows of the session's stream. -/
def known (parties : Parties) (session : Nat) : Bool :=
  decide (session < parties.conn.streams.length)

/-- The client's listener waits for the forwarders of this session. -/
def current (parties : Parties) (session : Nat) : Bool :=
  match parties.client.listener with
  | .session _ _ => decide (session + 1 = parties.wires.length)
  | _ => false

/-- Something has been sent on the session's stream or a later one. -/
def announced (parties : Parties) (session : Nat) : Bool :=
  (parties.wires.drop session).any Wire.announced

theorem current_iff {parties : Parties} {session : Nat} :
    parties.current session = true ↔
      session + 1 = parties.wires.length ∧
        ∃ addr forwarders, parties.client.listener = .session addr forwarders := by
  unfold current
  cases parties.client.listener <;> simp

theorem announced_of_wire {parties : Parties} {session : Nat} {wire : Wire}
    (here : parties.wires[session]? = some wire) (sent : wire.announced = true) :
    parties.announced session = true := by
  refine List.any_eq_true.mpr ⟨wire, ?_, sent⟩
  have first : (parties.wires.drop session)[0]? = some wire := by
    rw [List.getElem?_drop]
    exact here
  exact List.mem_of_getElem? first

/-! ## What each step leaves alone -/

/-- The listener has no part in what the host or the applications are doing. -/
theorem listener_frame {parties next : Parties} {act : ListenerAct}
    (taken : parties.listenerStep act = some next) :
    next.conn = parties.conn ∧ next.handler = parties.handler ∧
      next.established = parties.established ∧ next.apps = parties.apps ∧
      next.client.closed = parties.client.closed ∧ parties.requests ≤ next.requests := by
  rcases Option.bind_eq_some_iff.mp taken with ⟨client, moved, rest⟩
  have closed := (Connected.step_frame moved).2
  cases act with
  | bound | bindFails | stop | incomingFails | opened | openFails | sent | join =>
      cases rest
      exact ⟨rfl, rfl, rfl, rfl, closed, by simp⟩
  | incoming addr =>
      simp only at rest
      split at rest <;> cases rest
      exact ⟨rfl, rfl, rfl, rfl, closed, Nat.le_refl _⟩
  | sendFails =>
      simp only at rest
      split at rest <;> cases rest
      exact ⟨rfl, rfl, rfl, rfl, closed, Nat.le_refl _⟩
  | forwarderEnds role status | detachedEnds => cases rest

/-- Nor has a forwarder of the client. -/
theorem forwarder_frame {parties next : Parties} {role : Role} {act : Forward}
    (taken : parties.forwarderStep role act = some next) :
    next.conn = parties.conn ∧ next.handler = parties.handler ∧
      next.established = parties.established ∧ next.wires.length = parties.wires.length ∧
      next.client.closed = parties.client.closed ∧ next.requests = parties.requests ∧
      ∀ index, next.addr? index = parties.addr? index := by
  rcases forwarder_cases taken with
    ⟨addr, forwarders, app, app', wire, wire', status, _, _, foundApp, _, moved, same⟩
  subst same
  exact ⟨rfl, rfl, rfl, List.length_set, rfl, rfl,
    addr?_setApp foundApp (forward_frame moved).1⟩

theorem forwarder_of_step {tunnelAddr : SocketAddr} {parties next : Parties} {session : Nat}
    {role : Role} {act : Forward}
    (taken : step tunnelAddr parties (.forwarder session role act) = some next) :
    parties.forwarderStep role act = some next := by
  simp only [step] at taken
  split at taken
  · exact taken
  · cases taken

theorem host_of_step {tunnelAddr : SocketAddr} {parties next : Parties} {session : Nat}
    {act : Host.HandlerAct} (taken : step tunnelAddr parties (.host session act) = some next) :
    parties.hostStep tunnelAddr act = some next := by
  simp only [step] at taken
  split at taken
  · exact taken
  · cases taken

/-- The network changes what the host has of the connection, and nothing else
that either party decides on. -/
theorem network_frame {parties next : Parties} {delivery : Delivery}
    (taken : parties.networkStep delivery = some next) :
    parties.alive = true ∧ next.handler = parties.handler ∧
      next.established = parties.established ∧ next.apps = parties.apps ∧
      next.client = parties.client ∧ next.requests = parties.requests ∧
      next.taken = parties.taken ∧
      next.wires.map Wire.announced = parties.wires.map Wire.announced ∧
      next.conn.accepted = parties.conn.accepted ∧ next.conn.received = parties.conn.received ∧
      (next.conn.streams.length = parties.conn.streams.length ∨
        parties.announced parties.conn.streams.length = true) := by
  unfold Parties.networkStep at taken
  split at taken
  · rename_i alive
    refine ⟨alive, ?_⟩
    cases delivery with
    | announce =>
        simp only at taken
        split at taken
        · rename_i more
          rcases Option.map_eq_some_iff.mp taken with ⟨conn, moved, same⟩
          subst same
          rcases Host.Conn.clientStep_frame moved with ⟨_, _, accepted, received, _⟩
          exact ⟨rfl, rfl, rfl, rfl, rfl, rfl, rfl, accepted, received, Or.inr more⟩
        · cases taken
    | data index count =>
        rcases Option.bind_eq_some_iff.mp taken with ⟨wire, found, rest⟩
        split at rest
        · rcases Option.map_eq_some_iff.mp rest with ⟨conn, moved, same⟩
          subst same
          rcases Host.Conn.clientStep_frame moved with ⟨_, _, accepted, received, _⟩
          have is := moved
          simp only [Host.Conn.clientStep] at is
          split at is
          · exact ⟨rfl, rfl, rfl, rfl, rfl, rfl, map_set_same found rfl, accepted, received,
              Or.inl (onStream_frame is).1⟩
          · cases is
        · cases rest
    | finish index | stopReading index =>
        rcases Option.bind_eq_some_iff.mp taken with ⟨wire, found, rest⟩
        split at rest
        · rcases Option.map_eq_some_iff.mp rest with ⟨conn, moved, same⟩
          subst same
          rcases Host.Conn.clientStep_frame moved with ⟨_, _, accepted, received, _⟩
          have is := moved
          simp only [Host.Conn.clientStep] at is
          split at is
          · exact ⟨rfl, rfl, rfl, rfl, rfl, rfl, rfl, accepted, received,
              Or.inl (onStream_frame is).1⟩
          · cases is
        · cases rest
    | openUni =>
        simp only at taken
        split at taken
        · rcases Option.map_eq_some_iff.mp taken with ⟨conn, moved, same⟩
          subst same
          rcases Host.Conn.clientStep_frame moved with ⟨_, _, accepted, received, _⟩
          simp only [Host.Conn.clientStep] at moved
          split at moved <;> cases moved
          exact ⟨rfl, rfl, rfl, rfl, rfl, rfl, rfl, accepted, received, Or.inl rfl⟩
        · cases taken
    | request index =>
        simp only at taken
        split at taken
        · rcases Option.bind_eq_some_iff.mp taken with ⟨addr, known, rest⟩
          rcases Option.map_eq_some_iff.mp rest with ⟨conn, moved, same⟩
          subst same
          rcases Host.Conn.clientStep_frame moved with ⟨_, _, accepted, received, _⟩
          simp only [Host.Conn.clientStep] at moved
          split at moved
          · split at moved <;> cases moved
            exact ⟨rfl, rfl, rfl, rfl, rfl, rfl, rfl, accepted, received, Or.inl rfl⟩
          · cases moved
        · cases taken
    | refuse index =>
        rcases Option.bind_eq_some_iff.mp taken with ⟨wire, found, rest⟩
        split at rest <;> cases rest
        exact ⟨rfl, rfl, rfl, rfl, rfl, rfl, map_set_same found rfl, rfl, rfl, Or.inl rfl⟩
  · cases taken

/-- Whether something was sent from a session on, read off the wires. -/
theorem announced_congr {parties next : Parties} (session : Nat)
    (same : next.wires.map Wire.announced = parties.wires.map Wire.announced) :
    next.announced session = parties.announced session := by
  have through : ∀ parties : Parties, parties.announced session =
      ((parties.wires.map Wire.announced).drop session).any id := by
    intro parties
    rw [← List.map_drop, List.any_map]
    rfl
  rw [through, through, same]

@[simp] theorem onStream_client (parties : Parties) (act : Host.HandlerAct) (index : Option Nat) :
    (parties.onStream act index).client = parties.client := by cases index <;> rfl

@[simp] theorem onStream_apps (parties : Parties) (act : Host.HandlerAct) (index : Option Nat) :
    (parties.onStream act index).apps = parties.apps := by cases index <;> rfl

@[simp] theorem onStream_requests (parties : Parties) (act : Host.HandlerAct)
    (index : Option Nat) : (parties.onStream act index).requests = parties.requests := by
  cases index <;> rfl

@[simp] theorem onStream_taken (parties : Parties) (act : Host.HandlerAct) (index : Option Nat) :
    (parties.onStream act index).taken = parties.taken := by cases index <;> rfl

/-- Steps of the handler that touch no stream. -/
theorem onStream_quiet (parties : Parties) {act : Host.HandlerAct} (index : Option Nat)
    (quiet : ∀ wire, effect act wire = wire) : (parties.onStream act index).wires = parties.wires := by
  cases index with
  | none => rfl
  | some index =>
      have identity : effect act = id := funext quiet
      show parties.wires.modify index (effect act) = parties.wires
      rw [identity, List.modify_id]

theorem hostStep_eq (tunnelAddr : SocketAddr) {parties : Parties} {phase : Host.Phase}
    {act : Host.HandlerAct} {conn : Host.Conn Unit} {registration : Host.Registration}
    {outcome : Host.Outcome} (at_ : parties.handler = .continues phase)
    (moved : parties.conn.handlerStep .tcp tunnelAddr false phase act =
      some (conn, registration, outcome)) :
    step tunnelAddr parties (.host parties.turn act) = some { parties.onStream act (stream phase) with
      conn
      handler := outcome
      registry := register parties.registry registration
      established := parties.established ++ (connects phase act).toList } := by
  simp only [step, if_true, hostStep, at_, moved, Option.map_some]

theorem settle_eq {client : Connected} {role : Role} {status : TaskStatus} {addr : SocketAddr}
    {forwarders : Forwarders} (at_ : client.listener = .session addr forwarders)
    (running : forwarders.status role = .running) :
    settle client role status =
      some { client with listener := .session addr (forwarders.setStatus role status) } := by
  have some_ : ∃ next, settle client role status = some next := by
    cases status with
    | running => exact ⟨client, rfl⟩
    | finished | panicked =>
        simp only [settle, Connected.step, at_, running]
        exact ⟨_, rfl⟩
  rcases some_ with ⟨next, settled⟩
  rw [settled, settle_cases at_ running settled]

theorem forwarderStep_eq (tunnelAddr : SocketAddr) {parties : Parties} {addr : SocketAddr}
    {forwarders : Forwarders} {role : Role} {act : Forward} {index : Nat} {app app' : App}
    {wire wire' : Wire} {status : TaskStatus}
    (at_ : parties.client.listener = .session addr forwarders)
    (running : forwarders.status role = .running) (last : index + 1 = parties.wires.length)
    (foundApp : parties.apps[index]? = some app) (found : parties.wires[index]? = some wire)
    (moved : forward parties.client.closed app wire role act = some (app', wire', status)) :
    step tunnelAddr parties (.forwarder index role act) =
      some { (parties.setApp index app').setWire index wire' with
        client := { parties.client with
          listener := .session addr (forwarders.setStatus role status) } } := by
  have is : parties.wires.length - 1 = index := by omega
  simp only [step, last, forwarderStep, at_, running, if_true, is, foundApp, found, Option.bind_some,
    moved, settle_eq at_ running, Option.map_some]

theorem Inv.after {tunnelAddr : SocketAddr} {parties next : Parties} {label : Label}
    (inv : parties.Inv) (taken : step tunnelAddr parties label = some next) : next.Inv :=
  (inductive_inv tunnelAddr).step parties label next inv taken

/-! ## What the handler can do -/

/-- What a step of the handler leaves alone. -/
structure HostFrame (parties next : Parties) : Prop where
  client : next.client = parties.client
  apps : next.apps = parties.apps
  requests : next.requests = parties.requests
  link : next.conn.link = parties.conn.link
  streams : next.conn.streams.length = parties.conn.streams.length

/-- The moves of the handler, with what each of them needs. -/
inductive HostMove (tunnelAddr : SocketAddr) (parties next : Parties) (act : Host.HandlerAct) :
    Prop where
  | accepts (waits : parties.handler = .continues .acceptBi)
      (visible : parties.established.length < parties.conn.streams.length)
      (at_ : next.handler = .continues (.receivePacket parties.established.length))
      (established : next.established = parties.established)
      (message : next.conn.hasMessage = parties.conn.hasMessage)
  | receives (stream : Nat) (addr : SocketAddr)
      (waits : parties.handler = .continues (.receivePacket stream))
      (message : parties.conn.hasMessage = true)
      (at_ : next.handler = .continues (.connecting stream addr))
      (established : next.established = parties.established)
  | connects (stream : Nat) (addr : SocketAddr)
      (waits : parties.handler = .continues (.connecting stream addr))
      (fits : parties.fits tunnelAddr parties.established.length = true)
      (at_ : next.handler = .continues (.session stream addr Forwarders.spawned))
      (established : next.established = parties.established ++ [addr])
  | forwards (stream : Nat) (addr : SocketAddr) (forwarders : Forwarders)
      (inbound after : Host.Inbound) (role : Role) (status : TaskStatus)
      (waits : parties.handler = .continues (.session stream addr forwarders))
      (moved : parties.conn.forward false inbound act = some (role, after, status))
      (at_ : next.handler =
        .continues (.session stream addr (forwarders.setStatus role status)))
      (established : next.established = parties.established)
  | joins (stream : Nat) (addr : SocketAddr) (forwarders : Forwarders)
      (waits : parties.handler = .continues (.session stream addr forwarders))
      (joined : forwarders.joined = true) (at_ : next.handler = .continues .acceptBi)
      (established : next.established = parties.established)
  | returns (error : Host.HostError) (at_ : next.handler = .returns error)
      (established : next.established = parties.established)

/-- Everything a handler step can do. -/
theorem Inv.host_moves {tunnelAddr : SocketAddr} {parties next : Parties} {act : Host.HandlerAct}
    (inv : parties.Inv) (taken : parties.hostStep tunnelAddr act = some next) :
    HostFrame parties next ∧ HostMove tunnelAddr parties next act := by
  have progress := inv.progress
  unfold Progress at progress
  rcases host_cases taken with ⟨phase, conn, registration, outcome, waits, moved, is⟩
  have same := Host.Conn.handlerStep_sameOwner moved
  constructor
  · rw [is]
    exact ⟨onStream_client .., onStream_apps .., onStream_requests .., same.link, same.streams⟩
  · cases phase with
    | acceptBi =>
        simp only [waits] at progress
        cases act <;> simp only [Host.Conn.handlerStep, Host.Conn.acceptStep] at moved <;>
          try cases moved
        · split at moved <;> cases moved
          rename_i visible
          rw [progress.1] at visible
          rw [is]
          refine .accepts waits visible ?_ (List.append_nil _) rfl
          exact congrArg (fun stream => Host.Outcome.continues (.receivePacket stream)) progress.1
        · split at moved <;> cases moved
          rw [is]
          exact .returns _ rfl (List.append_nil _)
    | receivePacket stream =>
        cases act <;> simp only [Host.Conn.handlerStep, Host.Conn.receiveStep] at moved <;>
          try cases moved
        · split at moved <;> cases moved
          rename_i localAddr found
          rw [is]
          refine .receives stream localAddr waits ?_ rfl (List.append_nil _)
          simp [Host.Conn.hasMessage, found]
        · have returned : ∃ error, outcome = .returns error := by
            split at moved
            · cases moved
            · cases moved
              exact ⟨_, rfl⟩
            · cases moved
              exact ⟨_, rfl⟩
            · split at moved <;> cases moved
              exact ⟨_, rfl⟩
            · split at moved <;> cases moved
              exact ⟨_, rfl⟩
          rcases returned with ⟨error, ends⟩
          rw [is]
          exact .returns error ends (List.append_nil _)
    | connecting stream localAddr =>
        simp only [waits] at progress
        cases act <;> simp only [Host.Conn.handlerStep, Host.Conn.connectStep] at moved <;>
          try cases moved
        · split at moved <;> cases moved
          rename_i compatible
          rw [is]
          refine .connects stream localAddr waits ?_ rfl rfl
          rw [← progress.1]
          simp only [Parties.fits, progress.2.2.2, Option.any_some, compatible]
        all_goals
          split at moved <;> cases moved
          rw [is]
          exact .returns _ rfl (List.append_nil _)
    | session stream localAddr forwarders =>
        simp only [Host.Conn.handlerStep, Host.Conn.sessionStep] at moved
        split at moved
        · split at moved <;> cases moved
          rename_i joined
          rw [is]
          exact .joins stream localAddr forwarders waits joined rfl (List.append_nil _)
        · rcases Option.bind_eq_some_iff.mp moved with ⟨inbound, _, rest⟩
          rcases Option.bind_eq_some_iff.mp rest with ⟨⟨role, after, status⟩, forwarded, last⟩
          simp only at last
          split at last <;> cases last
          rw [is]
          exact .forwards stream localAddr forwarders inbound after role status waits forwarded rfl
            (List.append_nil _)

/-! ## The way to a session on the host -/

/-- What the steps of the host and the network keep of the state they started
in.  The stream of the session may become known meanwhile, with nothing on it. -/
structure Follows (start : Parties) (session : Nat) (parties : Parties) : Prop where
  inv : parties.Inv
  client : parties.client = start.client
  apps : parties.apps = start.apps
  wires : parties.wires = start.wires
  requests : parties.requests = start.requests
  link : parties.conn.link = start.conn.link
  inbound : start.conn.streams.length ≤ session → ∀ inbound : Host.Inbound,
    parties.conn.streams[session]? = some inbound → inbound = .opened

theorem Follows.refl {parties : Parties} (inv : parties.Inv) (session : Nat) :
    Follows parties session parties := by
  refine ⟨inv, rfl, rfl, rfl, rfl, rfl, fun unknown inbound here => ?_⟩
  rw [List.getElem?_eq_none unknown] at here
  cases here

theorem Follows.addr? {start parties : Parties} {session : Nat}
    (follows : Follows start session parties) (index : Nat) :
    parties.addr? index = start.addr? index := by
  unfold Parties.addr?
  rw [follows.apps]

theorem Follows.alive {start parties : Parties} {session : Nat}
    (follows : Follows start session parties) :
    parties.alive = start.alive := by
  unfold Parties.alive
  rw [follows.link, follows.client]

/-- The host is in the session, with its forwarders just spawned. -/
structure Opened (start : Parties) (session : Nat) (parties : Parties) : Prop where
  follows : Follows start session parties
  served : ∃ addr, start.addr? session = some addr ∧
    parties.handler = .continues (.session session addr Forwarders.spawned) ∧
    parties.registry.lookup (getUnspecified addr.isIpv4) =
      some ⟨addr, getUnspecified addr.isIpv4⟩

/-- The steps of the host and the network that bring a request to its session. -/
structure Serves (allowed : Label → Prop) (session : Nat) : Prop where
  announce : allowed (.network .announce)
  openUni : allowed (.network .openUni)
  request : allowed (.network (.request session))
  acceptBi : allowed (.host session .acceptBi)
  receivePacket : allowed (.host session .receivePacket)
  connect : allowed (.host session .connect)

variable {tunnelAddr : SocketAddr} {allowed : Label → Prop} {start parties : Parties}
  {session : Nat}

theorem Follows.step {next : Parties} {label : Label} (follows : Follows start session parties)
    (taken : Parties.step tunnelAddr parties label = some next)
    (client : next.client = parties.client) (apps : next.apps = parties.apps)
    (wires : next.wires = parties.wires) (requests : next.requests = parties.requests)
    (link : next.conn.link = parties.conn.link)
    (streams : next.conn.streams = parties.conn.streams) : Follows start session next where
  inv := follows.inv.after taken
  client := client.trans follows.client
  apps := apps.trans follows.apps
  wires := wires.trans follows.wires
  requests := requests.trans follows.requests
  link := link.trans follows.link
  inbound := streams ▸ follows.inbound

theorem canReach_of_step {goal : Parties → Prop} {next : Parties} {label : Label}
    (taken : Parties.step tunnelAddr parties label = some next) (permitted : allowed label)
    (rest : (machine tunnelAddr).CanReach allowed goal next) :
    (machine tunnelAddr).CanReach allowed goal parties :=
  Machine.CanReach.step (M := machine tunnelAddr) taken permitted rest

/-- The request is registered and the socket connects. -/
theorem Follows.canReach_of_connecting (serves : Serves allowed session)
    (follows : Follows start session parties) {addr : SocketAddr}
    (at_ : parties.handler = .continues (.connecting session addr))
    (fits : start.fits tunnelAddr session = true)
    (registered : parties.registry.lookup (getUnspecified addr.isIpv4) =
      some ⟨addr, getUnspecified addr.isIpv4⟩) :
    (machine tunnelAddr).CanReach allowed (Opened start session) parties := by
  have progress := follows.inv.progress
  simp only [Progress, at_] at progress
  have own : start.addr? session = some addr :=
    (follows.addr? session).symm.trans progress.2.2.2
  have compatible : Host.compatible .tcp tunnelAddr addr = true := by
    simpa [Parties.fits, own] using fits
  have moved : parties.conn.handlerStep .tcp tunnelAddr false (.connecting session addr) .connect =
      some ({ parties.conn with
          streams := parties.conn.streams.modify session .connected
          answered := true },
        .keep, .continues (.session session addr Forwarders.spawned)) := by
    simp only [Host.Conn.handlerStep, Host.Conn.connectStep, compatible, if_true]
  have turn : parties.turn = session := by simp only [Parties.turn, at_, stream, Option.getD_some]
  have taken := hostStep_eq tunnelAddr at_ moved
  rw [turn] at taken
  refine canReach_of_step taken serves.connect
    (Machine.CanReach.here ⟨?_, ⟨addr, own, rfl, registered⟩⟩)
  exact
    { inv := follows.inv.after taken
      client := (onStream_client ..).trans follows.client
      apps := (onStream_apps ..).trans follows.apps
      wires := (onStream_quiet _ _ fun _ => rfl).trans follows.wires
      requests := (onStream_requests ..).trans follows.requests
      link := follows.link
      inbound := by
        intro unknown inbound here
        rw [List.getElem?_modify_eq] at here
        rcases Option.map_eq_some_iff.mp here with ⟨before, there, same⟩
        rw [← same, follows.inbound unknown before there]
        rfl }

/-- The request has arrived. -/
theorem Follows.canReach_of_request (serves : Serves allowed session)
    (follows : Follows start session parties)
    (at_ : parties.handler = .continues (.receivePacket session))
    (fits : start.fits tunnelAddr session = true) (addr : SocketAddr)
    (arrived : parties.conn.nextControl = some (.packet (.connReq addr))) :
    (machine tunnelAddr).CanReach allowed (Opened start session) parties := by
  have moved : parties.conn.handlerStep .tcp tunnelAddr false (.receivePacket session)
      .receivePacket = some ({ parties.conn with received := parties.conn.received + 1 },
        .insert (getUnspecified addr.isIpv4) ⟨addr, getUnspecified addr.isIpv4⟩,
        .continues (.connecting session addr)) := by
    simp only [Host.Conn.handlerStep, Host.Conn.receiveStep, arrived]
  have turn : parties.turn = session := by simp only [Parties.turn, at_, stream, Option.getD_some]
  have taken := hostStep_eq tunnelAddr at_ moved
  rw [turn] at taken
  apply canReach_of_step taken serves.receivePacket
  have after : Follows start session _ := follows.step taken (onStream_client ..) (onStream_apps ..)
    (onStream_quiet _ _ fun _ => rfl) (onStream_requests ..) rfl rfl
  exact after.canReach_of_connecting serves rfl fits (AList.lookup_insert _)

/-- The request's stream is known to the host, but not all of it has arrived. -/
theorem Follows.canReach_of_arriving (serves : Serves allowed session)
    (follows : Follows start session parties)
    (at_ : parties.handler = .continues (.receivePacket session))
    (fits : start.fits tunnelAddr session = true) (sent : session < start.requests)
    (alive : parties.alive = true) (arriving : parties.conn.controls[session]? = some .arriving) :
    (machine tunnelAddr).CanReach allowed (Opened start session) parties := by
  rcases Option.any_eq_true .. |>.mp fits with ⟨addr, known, _⟩
  have own : parties.addr? session = some addr := (follows.addr? session).trans known
  have live : parties.conn.link = .live := by
    simp only [Parties.alive, Bool.and_eq_true, decide_eq_true_eq] at alive
    exact alive.1
  have here : session < parties.requests := follows.requests.symm ▸ sent
  have taken : Parties.step tunnelAddr parties (.network (.request session)) =
      some { parties with conn := { parties.conn with
        controls := parties.conn.controls.set session (.packet (.connReq addr)) } } := by
    simp [Parties.step, networkStep, alive, here, own, Host.Conn.clientStep, live, arriving]
  apply canReach_of_step taken serves.request
  have after : Follows start session _ := follows.step taken rfl rfl rfl rfl rfl rfl
  refine after.canReach_of_request serves at_ fits addr ?_
  have progress := follows.inv.progress
  simp only [Progress, at_] at progress
  have bound := (List.getElem?_eq_some_iff.mp arriving).1
  simp [Host.Conn.nextControl, progress.2.2, bound]

/-- Nothing of the request has arrived. -/
theorem Follows.canReach_of_silence (serves : Serves allowed session)
    (follows : Follows start session parties)
    (at_ : parties.handler = .continues (.receivePacket session))
    (fits : start.fits tunnelAddr session = true) (sent : session < start.requests)
    (alive : parties.alive = true) (silent : parties.conn.controls[session]? = none) :
    (machine tunnelAddr).CanReach allowed (Opened start session) parties := by
  have progress := follows.inv.progress
  simp only [Progress, at_] at progress
  have live : parties.conn.link = .live := by
    simp only [Parties.alive, Bool.and_eq_true, decide_eq_true_eq] at alive
    exact alive.1
  have beyond := List.getElem?_eq_none_iff.mp silent
  have exactly : parties.conn.controls.length = session := by
    have bound := follows.inv.controls.1
    omega
  have room : parties.conn.controls.length < parties.wires.length := by
    have streams := follows.inv.streams
    omega
  have taken : Parties.step tunnelAddr parties (.network .openUni) =
      some { parties with conn := { parties.conn with
        controls := parties.conn.controls ++ [.arriving] } } := by
    simp [Parties.step, networkStep, alive, room, Host.Conn.clientStep, live]
  apply canReach_of_step taken serves.openUni
  have after : Follows start session _ := follows.step taken rfl rfl rfl rfl rfl rfl
  refine after.canReach_of_arriving serves at_ fits sent alive ?_
  rw [← exactly]
  exact List.getElem?_concat_length

/-- The request has arrived or is on its way. -/
theorem Follows.canReach_of_receiving (serves : Serves allowed session)
    (follows : Follows start session parties)
    (at_ : parties.handler = .continues (.receivePacket session))
    (fits : start.fits tunnelAddr session = true) (sent : session < start.requests)
    (message : parties.conn.hasMessage = true ∨ start.alive = true) :
    (machine tunnelAddr).CanReach allowed (Opened start session) parties := by
  have progress := follows.inv.progress
  simp only [Progress, at_] at progress
  have next : parties.conn.nextControl = parties.conn.controls[session]? := by
    unfold Host.Conn.nextControl
    rw [progress.2.2]
  cases here : parties.conn.nextControl with
  | none =>
      have live : parties.alive = true := by
        rw [follows.alive]
        exact message.resolve_left (by simp [Host.Conn.hasMessage, here])
      exact follows.canReach_of_silence serves at_ fits sent live (next ▸ here)
  | some control =>
      rcases follows.inv.requested session control (next ▸ here) with arriving | ⟨addr, _, is⟩
      · subst arriving
        have live : parties.alive = true := by
          rw [follows.alive]
          exact message.resolve_left (by simp [Host.Conn.hasMessage, here])
        exact follows.canReach_of_arriving serves at_ fits sent live (next ▸ here)
      · subst is
        exact follows.canReach_of_request serves at_ fits addr here

/-- The host waits for the stream, and knows of it. -/
theorem Follows.canReach_of_known (serves : Serves allowed session)
    (follows : Follows start session parties) (at_ : parties.handler = .continues .acceptBi)
    (turn : parties.established.length = session) (known : parties.known session = true)
    (fits : start.fits tunnelAddr session = true) (sent : session < start.requests)
    (message : parties.conn.hasMessage = true ∨ start.alive = true) :
    (machine tunnelAddr).CanReach allowed (Opened start session) parties := by
  have progress := follows.inv.progress
  simp only [Progress, at_] at progress
  have accepted : parties.conn.accepted = session := progress.1.trans turn
  have visible : parties.conn.accepted < parties.conn.streams.length := by
    rw [accepted]
    exact of_decide_eq_true known
  have moved : parties.conn.handlerStep .tcp tunnelAddr false .acceptBi .acceptBi =
      some ({ parties.conn with accepted := parties.conn.accepted + 1 }, .keep,
        .continues (.receivePacket parties.conn.accepted)) := by
    simp only [Host.Conn.handlerStep, Host.Conn.acceptStep, visible, if_true]
  rw [accepted] at moved
  have first : parties.turn = session := by
    simp only [Parties.turn, at_, stream, Option.getD_none, accepted]
  have taken := hostStep_eq tunnelAddr at_ moved
  rw [first] at taken
  apply canReach_of_step taken serves.acceptBi
  have after : Follows start session _ := follows.step taken rfl rfl rfl rfl rfl rfl
  exact after.canReach_of_receiving serves rfl fits sent message

/-- The host waits for the stream, and something has been sent on it or a later
one. -/
theorem Follows.canReach_of_announced (serves : Serves allowed session)
    (follows : Follows start session parties) (at_ : parties.handler = .continues .acceptBi)
    (turn : parties.established.length = session) (announced : parties.announced session = true)
    (alive : start.alive = true) (fits : start.fits tunnelAddr session = true)
    (sent : session < start.requests) :
    (machine tunnelAddr).CanReach allowed (Opened start session) parties := by
  cases known : parties.known session with
  | true => exact follows.canReach_of_known serves at_ turn known fits sent (Or.inr alive)
  | false =>
      have progress := follows.inv.progress
      simp only [Progress, at_] at progress
      have unknown := of_decide_eq_false known
      have exactly : parties.conn.streams.length = session := by
        have bound := follows.inv.streams.1
        omega
      have here : parties.alive = true := follows.alive.trans alive
      have live : parties.conn.link = .live := by
        simp only [Parties.alive, Bool.and_eq_true, decide_eq_true_eq] at here
        exact here.1
      have taken : Parties.step tunnelAddr parties (.network .announce) =
          some { parties with conn := { parties.conn with
            streams := parties.conn.streams ++ [.opened] } } := by
        simp only [Parties.step, networkStep, here, if_true, exactly]
        have ready : (parties.wires.drop session).any Wire.announced = true := announced
        rw [if_pos ready]
        simp [Host.Conn.clientStep, live]
      apply canReach_of_step taken serves.announce
      have after : Follows start session _ :=
        { follows with
          inv := follows.inv.after taken
          inbound := by
            intro _ inbound there
            rw [← exactly, List.getElem?_concat_length] at there
            exact (Option.some.inj there).symm }
      refine after.canReach_of_known serves at_ turn ?_ fits sent (Or.inr alive)
      simp [Parties.known, exactly]

end Parties

end Pair
end Lantun
