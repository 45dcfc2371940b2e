import Lantun.Data.Values
import Lantun.Host.Invariant

namespace Lantun
namespace Host

open Net

/-!
# How many clients and sessions a host tunnel reports

`num_clients` counts the registry, and `num_active_connections` adds up the
local connections of every client in it.  The loop serves one connection at a
time, and a client is admitted only once, so a registered client belongs to one
connection and has one entry at most.

An entry is made when a request has been read and taken out behind the session.
Where the socket cannot be bound or connected in between, `handle_connection`
returns with the entry in place, and nobody comes back for it.
-/

/-- The entry a handler has made for its current request. -/
def Phase.entry : Phase → Option SocketAddr
  | .acceptBi | .receivePacket _ => none
  | .connecting _ localAddr | .session _ localAddr _ => some (getUnspecified localAddr.isIpv4)

def Loop.entry : Loop → Option SocketAddr
  | .handling _ phase => phase.entry
  | _ => none

/-- The connection has been given up between the registration of a session and
its end. -/
def Life.abandoned : Life → Bool
  | .returned .ioError => true
  | _ => false

/-- The entry that is left where the handler had one before the step. -/
def Outcome.entry (before : Option SocketAddr) : Outcome → Option SocketAddr
  | .continues phase => phase.entry
  | .returns _ => before

/-- `len` of the local connections. -/
def ConnectedClient.len (client : ConnectedClient) : Nat := client.localConnections.keys.length

variable {Key : Type} [DecidableEq Key]

namespace HostTunnel

/-- `num_active_connections`, with the registry locked throughout. -/
def numActiveConnections (host : HostTunnel Key) : Nat :=
  if host.runningProps then
    (values host.tunnelClients).foldl (fun count client => count + client.len) 0
  else 0

end HostTunnel

/-! ## The entries one handler makes and removes -/

/-- All a handler step may do to the entries of its client: which entry the
handler had, what it asks of the registry, and where it is left. -/
inductive Books : Option SocketAddr → Registration → Outcome → Prop where
  | keeps {entry : Option SocketAddr} {phase : Phase} :
      phase.entry = entry → Books entry .keep (.continues phase)
  | enters {addr : SocketAddr} {connection : LocalClientConnection} {phase : Phase} :
      phase.entry = some addr → Books none (.insert addr connection) (.continues phase)
  | removes {addr : SocketAddr} {phase : Phase} :
      phase.entry = none → Books (some addr) (.remove addr) (.continues phase)
  | returns {entry : Option SocketAddr} {error : HostError} :
      (Life.returned error).abandoned = entry.isSome → Books entry .keep (.returns error)

theorem Books.returned {entry : Option SocketAddr} {registration : Registration}
    {error : HostError} (books : Books entry registration (.returns error)) :
    registration = .keep ∧ (Life.returned error).abandoned = entry.isSome := by
  cases books with
  | returns left => exact ⟨rfl, left⟩

omit [DecidableEq Key] in
theorem Conn.books_of_handlerStep {protocol : TunnelProtocol} {tunnelAddr : SocketAddr}
    {stopSent : Bool} {conn next : Conn Key} {phase : Phase} {act : HandlerAct}
    {registration : Registration} {outcome : Outcome}
    (taken : conn.handlerStep protocol tunnelAddr stopSent phase act =
      some (next, registration, outcome)) : Books phase.entry registration outcome := by
  cases phase with
  | acceptBi =>
      cases act <;> simp only [handlerStep, acceptStep] at taken <;> try cases taken
      · split at taken <;> cases taken
        exact .keeps rfl
      · split at taken <;> cases taken
        exact .returns rfl
  | receivePacket stream =>
      cases act <;> simp only [handlerStep, receiveStep] at taken <;> try cases taken
      · split at taken <;> cases taken
        exact .enters rfl
      · split at taken
        · cases taken
        · cases taken
          exact .returns rfl
        · cases taken
          exact .returns rfl
        · split at taken <;> cases taken
          exact .returns rfl
        · split at taken <;> cases taken
          exact .returns rfl
  | connecting stream localAddr =>
      cases act <;> simp only [handlerStep, connectStep] at taken <;> try cases taken
      · split at taken <;> cases taken
        exact .keeps rfl
      all_goals
        split at taken <;> cases taken
        exact .returns rfl
  | session stream localAddr forwarders =>
      simp only [handlerStep, sessionStep] at taken
      split at taken
      · split at taken <;> cases taken
        exact .removes rfl
      · rcases Option.bind_eq_some_iff.mp taken with ⟨inbound, _, rest⟩
        rcases Option.bind_eq_some_iff.mp rest with ⟨⟨role, after, status⟩, _, last⟩
        simp only at last
        split at last <;> cases last
        exact .keeps rfl

/-- Carrying out what the handler asks for changes the entry of its client from
the one it had to the one it has now, and leaves the other clients alone. -/
theorem Books.register {clients next : ConnectedClients Key} {key : Key}
    {client : ConnectedClient} {entry : Option SocketAddr} {registration : Registration}
    {outcome : Outcome} (books : Books entry registration outcome)
    (found : clients.lookup key = some client)
    (has : client.localConnections.keys = entry.toList)
    (changed : clients.register key registration = some next) :
    next.keys.length = clients.keys.length ∧
      ∃ after : ConnectedClient, next.lookup key = some after ∧
        total ConnectedClient.len next + client.len = total ConnectedClient.len clients + after.len ∧
        after.localConnections.keys = (outcome.entry entry).toList := by
  have present : key ∈ clients := mem_of_lookup found
  have written : ∀ after : ConnectedClient,
      (clients.insert key after).keys.length = clients.keys.length := by
    intro after
    rw [AList.keys_insert, List.length_cons, List.length_erase_of_mem (AList.mem_keys.mp present)]
    exact Nat.sub_add_cancel (List.length_pos_of_mem (AList.mem_keys.mp present))
  cases books with
  | keeps same =>
      cases changed
      exact ⟨rfl, client, found, rfl, by rw [has, Outcome.entry, same]⟩
  | enters same =>
      simp only [ConnectedClients.register, found, Option.map_some, Option.some.injEq] at changed
      subst changed
      refine ⟨written _, _, AList.lookup_insert _, total_insert found _, ?_⟩
      rw [AList.keys_insert, has, Outcome.entry, same]
      rfl
  | removes same =>
      simp only [ConnectedClients.register, found, Option.some.injEq] at changed
      subst changed
      refine ⟨written _, _, AList.lookup_insert _, total_insert found _, ?_⟩
      rw [AList.keys_erase, has, Outcome.entry, same]
      simp
  | returns _ =>
      cases changed
      exact ⟨rfl, client, found, rfl, has⟩

namespace HostTunnel

/-! ## The books of a tunnel -/

/-- The registry against the connections that have reached the endpoint. -/
structure Booked (host : HostTunnel Key) : Prop where
  current : ∀ (index : Nat) (phase : Phase) (conn : Conn Key), host.loop = .handling index phase →
    host.conns[index]? = some conn → ∃ client : ConnectedClient,
      host.tunnelClients.lookup conn.client = some client ∧
        client.localConnections.keys = phase.entry.toList
  entries : total ConnectedClient.len host.tunnelClients =
    host.loop.entry.toList.length + host.conns.countP (fun conn => conn.life.abandoned)
  clients : host.tunnelClients.keys.length = host.conns.countP (fun conn => conn.life.admitted)

/-- A step that touches neither the registry nor the lives of the connections,
and does not bring the handler anywhere. -/
theorem Booked.of_same {host next : HostTunnel Key} (booked : host.Booked)
    (clients : next.tunnelClients = host.tunnelClients)
    (owners : next.conns.map Conn.client = host.conns.map Conn.client)
    (lives : next.conns.map Conn.life = host.conns.map Conn.life)
    (loop : next.loop = host.loop) : next.Booked := by
  have counts : ∀ counted : Life → Bool, next.conns.countP (fun conn => counted conn.life) =
      host.conns.countP (fun conn => counted conn.life) := by
    intro counted
    have lifted : ∀ conns : List (Conn Key), conns.countP (fun conn => counted conn.life) =
        (conns.map Conn.life).countP counted := fun conns => List.countP_map.symm
    rw [lifted, lifted, lives]
  constructor
  · intro index phase conn at_ here
    have owner : (host.conns[index]?).map Conn.client = some conn.client := by
      rw [← List.getElem?_map, ← owners, List.getElem?_map, here, Option.map_some]
    rcases Option.map_eq_some_iff.mp owner with ⟨before, found, same⟩
    rw [clients, ← same]
    exact booked.current index phase before (loop ▸ at_) found
  · rw [clients, loop, counts]
    exact booked.entries
  · rw [clients, counts]
    exact booked.clients

/-- One connection moves on, and the registry and the loop with it. -/
theorem Booked.of_set {host next : HostTunnel Key} {index : Nat} {before : Conn Key}
    (booked : host.Booked) (found : host.conns[index]? = some before) (after : Conn Key)
    (conns : next.conns = host.conns.set index after)
    (clients : next.tunnelClients.keys.length + (if before.life.admitted then 1 else 0) =
      host.tunnelClients.keys.length + (if after.life.admitted then 1 else 0))
    (entries : total ConnectedClient.len next.tunnelClients + host.loop.entry.toList.length +
        (if before.life.abandoned then 1 else 0) =
      total ConnectedClient.len host.tunnelClients + next.loop.entry.toList.length +
        (if after.life.abandoned then 1 else 0))
    (current : ∀ phase, next.loop = .handling index phase → ∃ client : ConnectedClient,
      next.tunnelClients.lookup after.client = some client ∧
        client.localConnections.keys = phase.entry.toList)
    (alone : ∀ other phase, next.loop = .handling other phase → other = index) :
    next.Booked := by
  have admitted := countP_set (fun conn : Conn Key => conn.life.admitted) found after
  have abandoned := countP_set (fun conn : Conn Key => conn.life.abandoned) found after
  constructor
  · intro other phase conn at_ here
    cases alone other phase at_
    have is : next.conns[index]? = some after := by
      rw [conns]
      exact List.getElem?_set_self (List.getElem?_eq_some_iff.mp found).1
    cases is.symm.trans here
    exact current phase at_
  · have before := booked.entries
    rw [conns]
    omega
  · have before := booked.clients
    rw [conns]
    omega

/-- A handler step keeps the books. -/
theorem Booked.handler {protocol : TunnelProtocol} {tunnelAddr : SocketAddr}
    {host next : HostTunnel Key} {key : Key} {act : HandlerAct} (booked : host.Booked)
    (inv : host.Inv) (taken : step protocol tunnelAddr host (.handler key act) = some next) :
    next.Booked := by
  rcases handler_cases taken with
    ⟨index, phase, before, after, registration, outcome, handling, found, _, moved, same⟩
  have owner := Conn.handlerStep_sameOwner moved
  have books := Conn.books_of_handlerStep moved
  rcases inv.handling index phase handling with ⟨_, conn, there, serving⟩
  cases found.symm.trans there
  have life : after.life = .serving := owner.life.trans serving
  rcases booked.current index phase before handling found with ⟨client, listed, has⟩
  have present := inv.mem_of_serving found serving
  rw [← owner.client] at listed present
  rcases ConnectedClients.register_isSome present registration with ⟨clients, changed⟩
  rcases books.register listed has changed with ⟨count, client', listed', sum, has'⟩
  have size : client.len = phase.entry.toList.length := congrArg List.length has
  have size' : client'.len = (outcome.entry phase.entry).toList.length := congrArg List.length has'
  rw [same, HostTunnel.handled, changed]
  cases outcome with
  | continues phase' =>
      simp only [Outcome.entry] at has' size'
      refine booked.of_set found after rfl ?_ ?_ ?_ ?_
      · simp only [serving, life]
        omega
      · simp only [serving, life, handling, Loop.entry, Life.abandoned]
        omega
      · intro phase'' at_
        cases at_
        exact ⟨client', listed', has'⟩
      · intro other phase'' at_
        cases at_
        rfl
  | returns error =>
      rcases books.returned with ⟨rfl, left⟩
      cases changed
      refine booked.of_set found { after with life := .returned error } rfl ?_ ?_ ?_ ?_
      · simp [serving, Life.admitted]
      · have idle : Life.serving.abandoned = false := rfl
        simp only [serving, handling, Loop.entry, idle, left]
        cases phase.entry <;> simp
      · intro phase' at_
        cases at_
      · intro other phase' at_
        cases at_

theorem inductive_booked (protocol : TunnelProtocol) (tunnelAddr : SocketAddr) :
    (machine protocol tunnelAddr : Machine (HostTunnel Key) (Label Key)).Inductive
      fun host => host.Inv ∧ host.Booked := by
  refine (inductive_inv protocol tunnelAddr).and_of ?_ ?_
  · intro host first
    rw [show host = started from first]
    exact ⟨fun index phase conn at_ => by (cases at_), rfl, rfl⟩
  · intro host label next inv booked taken
    cases label with
    | dial key =>
        simp only [machine, step] at taken
        split at taken <;> cases taken
        constructor
        · intro index phase conn at_ here
          rcases inv.handling index phase at_ with ⟨_, conn', there, _⟩
          cases (getElem?_append_of_found there [Conn.incoming key]).symm.trans here
          exact booked.current index phase conn at_ there
        · simpa [Conn.incoming, Life.abandoned] using booked.entries
        · simpa [Conn.incoming, Life.admitted] using booked.clients
    | client key index act =>
        rcases Option.bind_eq_some_iff.mp taken with ⟨before, found, rest⟩
        split at rest
        · rcases Option.map_eq_some_iff.mp rest with ⟨after, moved, same⟩
          subst same
          rcases Conn.clientStep_frame moved with ⟨client, life, _⟩
          exact booked.of_same rfl (map_set_same found client) (map_set_same found life) rfl
        · cases rest
    | accept =>
        simp only [machine, step] at taken
        split at taken
        · rename_i idle
          split at taken
          · cases taken
            refine ⟨fun index phase conn at_ => by (cases at_), ?_, booked.clients⟩
            simpa [idle, Loop.entry] using booked.entries
          · split at taken <;> cases taken
            exact booked
        · cases taken
    | handshakeEnds =>
        simp only [machine, step] at taken
        split at taken
        · rename_i index at_
          rcases Option.bind_eq_some_iff.mp taken with ⟨before, found, admitted⟩
          have fresh := inv.queued index before found (Or.inr at_)
          rcases afterHandshake_cases admitted with ⟨_, rfl⟩ | ⟨_, ⟨_, rfl⟩ | ⟨absent, rfl⟩⟩
          · refine ⟨fun index phase conn here => by (cases here), ?_, booked.clients⟩
            simpa [at_, Loop.entry] using booked.entries
          · refine booked.of_set found { before with life := .ignored, link := .closed } rfl ?_ ?_ ?_ ?_
            · simp [ignore, setConn, fresh, Life.admitted]
            · simp [ignore, setConn, fresh, at_, Loop.entry, Life.abandoned]
            · intro phase here
              cases here
            · intro other phase here
              cases here
          · refine booked.of_set found { before with life := .serving } rfl ?_ ?_ ?_ ?_
            · have new : before.client ∉ host.tunnelClients.keys := absent
              simp [enter, setConn, fresh, Life.admitted, AList.keys_insert, List.erase_of_not_mem new]
            · simp [enter, setConn, fresh, at_, Loop.entry, Phase.entry, Life.abandoned,
                total_insert_new absent, ConnectedClient.len]
            · intro phase here
              cases here
              exact ⟨_, AList.lookup_insert _, rfl⟩
            · intro other phase here
              cases here
              rfl
        · cases taken
    | handler key act => exact booked.handler inv taken
    | stop =>
        simp only [machine, step] at taken
        split at taken
        · split at taken <;> cases taken
          exact booked.of_same rfl rfl rfl rfl
        · cases taken
          exact booked
    | closeEndpoint =>
        simp only [machine, step] at taken
        split at taken <;> cases taken
        refine booked.of_same rfl ?_ ?_ rfl
        · rw [List.map_map]
          rfl
        · rw [List.map_map]
          rfl

/-- The registered clients are the owners of the admitted connections, one by
one. -/
theorem Booked.keys_perm {host : HostTunnel Key} (booked : host.Booked) (inv : host.Inv) :
    host.tunnelClients.keys.Perm
      ((host.conns.filter fun conn => conn.life.admitted).map Conn.client) := by
  have within : host.tunnelClients.keys ⊆
      (host.conns.filter fun conn => conn.life.admitted).map Conn.client := by
    intro key listed
    rcases (inv.registered key).mp listed with ⟨index, conn, here, is, admitted⟩
    exact List.mem_map.mpr ⟨conn,
      List.mem_filter.mpr ⟨List.mem_of_getElem? here, admitted⟩, is⟩
  have few : ((host.conns.filter fun conn => conn.life.admitted).map Conn.client).length =
      host.tunnelClients.keys.length := by
    rw [List.length_map, ← List.countP_eq_length_filter, booked.clients]
  exact (List.subperm_of_subset host.tunnelClients.keys_nodup within).perm_of_length_le (Nat.le_of_eq few)

theorem Booked.numActiveConnections_eq {host : HostTunnel Key} (booked : host.Booked)
    (running : host.runningProps = true) :
    host.numActiveConnections = host.loop.entry.toList.length +
      host.conns.countP (fun conn => conn.life.abandoned) := by
  rw [numActiveConnections, if_pos running, ← total, booked.entries]

/-- In every reachable state of a running tunnel the registered clients are the
owners of the admitted connections, each of which has a client of its own, and
the reported local connections are the one the loop is busy with, if there is
one, and one more for each connection that was given up between the registration
of a session and its end. -/
theorem reports_exactly {protocol : TunnelProtocol} {tunnelAddr : SocketAddr}
    {host : HostTunnel Key} (reached : (machine protocol tunnelAddr).Reachable host)
    (running : host.runningProps = true) :
    host.tunnelClients.keys.Perm
        ((host.conns.filter fun conn => conn.life.admitted).map Conn.client) ∧
      host.numClients = host.conns.countP (fun conn => conn.life.admitted) ∧
      host.numActiveConnections = host.loop.entry.toList.length +
        host.conns.countP (fun conn => conn.life.abandoned) := by
  rcases (inductive_booked protocol tunnelAddr).of_reachable reached with ⟨inv, booked⟩
  refine ⟨booked.keys_perm inv, ?_, booked.numActiveConnections_eq running⟩
  rw [numClients, if_pos running, booked.clients]

/-- The service refuses client 7, whose connection is given up, and then takes
client 8. -/
def refusedRun : List (Label Nat) :=
  [.dial 7, .dial 8] ++
    [.accept, .client 7 0 (.handshake true), .client 7 0 .announceBi, .client 7 0 .openUni,
      .client 7 0 (.control 0 (.packet (.connReq (.v4 0 5000)))), .handshakeEnds,
      .handler 7 .acceptBi, .handler 7 .receivePacket, .handler 7 .connectFails] ++
    [.accept, .client 8 1 (.handshake true), .client 8 1 .announceBi, .client 8 1 .openUni,
      .client 8 1 (.control 0 (.packet (.connReq (.v4 0 6000)))), .handshakeEnds,
      .handler 8 .acceptBi, .handler 8 .receivePacket, .handler 8 .connect]

theorem reports_exactly_refusedRun : ∃ host : HostTunnel Nat,
    (machine .tcp (.v4 0 80)).run refusedRun started = some host ∧
      host.loop.entry = some (.v4 0 0) ∧ host.numActiveConnections =
        host.loop.entry.toList.length + host.conns.countP (fun conn => conn.life.abandoned) := by
  have ends : ((machine .tcp (.v4 0 80)).run refusedRun started).any (fun host =>
      host.runningProps && decide (host.loop.entry = some (.v4 0 0))) = true := by decide
  rcases (Option.any_eq_true ..).mp ends with ⟨host, ran, point⟩
  simp only [Bool.and_eq_true, decide_eq_true_eq] at point
  exact ⟨host, ran, point.2, (reports_exactly ⟨started, refusedRun, rfl, ran⟩ point.1).2.2⟩

/-- One entry is of the session, the other is left of client 7. -/
example : ((machine .tcp (.v4 0 80)).run refusedRun started).map (fun host : HostTunnel Nat =>
    (host.numClients, host.numActiveConnections)) = some (2, 2) := by decide

end HostTunnel

end Host
end Lantun
