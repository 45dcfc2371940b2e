import Lantun.Machine.Progress
import Lantun.Host.Invariant

namespace Lantun
namespace Host

open Net

/-!
# What a failed session setup leaves behind

Between the registration of a local connection and the start of its forwarders
every fallible call leaves `handle_connection` through a `?`.  The accept loop
logs the error and goes on to the next connection.  The client stays in
`tunnel_clients`, its connection is kept open by the clone stored there, and
nobody accepts a stream on it any more.  A new connection of the same client is
ignored as a duplicate.

So the client is not removed, and from the failure on it is never served again,
whatever anybody does.
-/

variable {Key : Type} [DecidableEq Key]

namespace HostTunnel

/-- A session of this client is running. -/
def InSession (host : HostTunnel Key) (key : Key) : Prop :=
  ∃ index stream localAddr forwarders conn,
    host.loop = .handling index (.session stream localAddr forwarders) ∧
      host.conns[index]? = some conn ∧ conn.client = key

/-- The registry of the client's local connections. -/
def localConnections (host : HostTunnel Key) (key : Key) : Option LocalConnections :=
  (host.tunnelClients.lookup key).map fun client => client.localConnections

/-- The handler of connection `index` waits for a request at `before`, and the
setup of just that request fails in the step to `after`. -/
def FailedSetup (protocol : TunnelProtocol) (tunnelAddr : SocketAddr)
    (before after : HostTunnel Key) (index : Nat) (key : Key) : Prop :=
  ∃ labels failing phase conn act, before.loop = .handling index .acceptBi ∧
    before.conns[index]? = some conn ∧ conn.client = key ∧
    (machine protocol tunnelAddr).run labels before = some failing ∧
    failing.loop = .handling index phase ∧ phase.request = some conn.accepted ∧
    act.setupFails = true ∧
    (machine protocol tunnelAddr).step failing (.handler key act) = some after

/-- The failure is contained: the local connections are what they were, and
either a later request of the client can still be served, or the client is
removed and its connection closed. -/
structure Contained (protocol : TunnelProtocol) (tunnelAddr : SocketAddr)
    (before after : HostTunnel Key) (index : Nat) (key : Key) : Prop where
  restored : ∀ connections, after.localConnections key = some connections →
    before.localConnections key = some connections
  served : (machine protocol tunnelAddr).CanReach (fun _ => True) (InSession · key) after ∨
    (key ∉ after.tunnelClients ∧
      ∃ conn : Conn Key, after.conns[index]? = some conn ∧ conn.link = .closed)

/-! ## The client nobody serves -/

/-- The client is registered, and the loop is not occupied with it. -/
def Abandoned (key : Key) (host : HostTunnel Key) : Prop :=
  key ∈ host.tunnelClients ∧
    ∀ index phase, host.loop = .handling index phase → host.owner index ≠ some key

/-- No step of anybody makes the loop turn to an abandoned client. -/
theorem Abandoned.of_step {protocol : TunnelProtocol} {tunnelAddr : SocketAddr} {key : Key}
    {host next : HostTunnel Key} {label : Label Key} (inv : host.Inv)
    (abandoned : host.Abandoned key) (taken : step protocol tunnelAddr host label = some next) :
    next.Abandoned key := by
  rcases inv.registry_of_step taken with ⟨stays, turns⟩
  refine ⟨stays key abandoned.1, fun index phase at_ owns => ?_⟩
  rcases turns index phase at_ with ⟨phase', before⟩ | ⟨other, owner, absent⟩
  · rcases inv.handling index phase' before with ⟨_, conn, found, _⟩
    have owner : host.owner index = some conn.client := congrArg (Option.map Conn.client) found
    have same := (inv.owner_of_step taken owner).symm.trans owns
    exact abandoned.2 index phase' before (owner.trans same)
  · have same := (inv.owner_of_step taken owner).symm.trans owns
    cases same
    exact absent abandoned.1

/-- An abandoned client is never in a session again. -/
theorem Abandoned.not_canReach {protocol : TunnelProtocol} {tunnelAddr : SocketAddr} {key : Key}
    {host : HostTunnel Key} (inv : host.Inv) (abandoned : host.Abandoned key)
    (allowed : Label Key → Prop) :
    ¬ (machine protocol tunnelAddr).CanReach allowed (InSession · key) host := by
  have trap : Machine.Trap (machine protocol tunnelAddr) allowed (InSession · key)
      (fun host => host.Inv ∧ host.Abandoned key) := by
    apply Machine.Trap.of_invariant (inductive_inv protocol tunnelAddr)
    · exact fun host label next inv abandoned _ taken => abandoned.of_step inv taken
    · rintro host _ abandoned ⟨index, stream, localAddr, forwarders, conn, at_, found, client⟩
      exact abandoned.2 index _ at_ (by rw [owner, found]; exact congrArg some client)
  exact trap.not_canReach ⟨inv, abandoned⟩

/-- A step in which a setup fails abandons the client. -/
theorem Inv.abandons {protocol : TunnelProtocol} {tunnelAddr : SocketAddr}
    {host next : HostTunnel Key} {key : Key} {act : HandlerAct} (inv : host.Inv)
    (taken : step protocol tunnelAddr host (.handler key act) = some next)
    (fails : act.setupFails = true) : next.Abandoned key := by
  rcases handler_cases taken with
    ⟨index, phase, before, after, registration, outcome, handling, found, owner, moved, same⟩
  have client := (Conn.handlerStep_sameOwner moved).client
  rcases inv.handled_eq handling found client registration outcome with ⟨clients, members, is⟩
  rcases inv.handling index phase handling with ⟨_, conn, there, serving⟩
  rw [found] at there
  cases there
  have returns : act.fails = true := by
    cases act <;> simp [HandlerAct.setupFails] at fails <;> rfl
  rcases (Conn.returns_iff_fails moved).mpr returns with ⟨error, is'⟩
  rw [same, is, is']
  refine ⟨(members key).mpr (owner ▸ inv.mem_of_serving found serving), ?_⟩
  intro index phase at_
  cases at_

/-- A failed setup abandons its client. -/
theorem FailedSetup.abandoned {protocol : TunnelProtocol} {tunnelAddr : SocketAddr}
    {before after : HostTunnel Key} {index : Nat} {key : Key}
    (reached : (machine protocol tunnelAddr).Reachable before)
    (failed : FailedSetup protocol tunnelAddr before after index key) :
    after.Inv ∧ after.Abandoned key := by
  rcases failed with ⟨labels, failing, phase, conn, act, _, _, _, ran, _, _, fails, taken⟩
  have inv := (inductive_inv protocol tunnelAddr).of_reachable (reached.run ran)
  have moved : step protocol tunnelAddr failing (.handler key act) = some after := taken
  exact ⟨inv.after moved, inv.abandons moved fails⟩

theorem Abandoned.not_contained {protocol : TunnelProtocol} {tunnelAddr : SocketAddr}
    {before after : HostTunnel Key} {index : Nat} {key : Key} (inv : after.Inv)
    (abandoned : after.Abandoned key) :
    ¬ Contained protocol tunnelAddr before after index key := by
  intro contained
  rcases contained.served with served | ⟨removed, _⟩
  · exact abandoned.not_canReach inv _ served
  · exact removed abandoned.1

/-- No failed session setup is ever contained. -/
theorem failedSetup_not_contained {protocol : TunnelProtocol} {tunnelAddr : SocketAddr}
    {before after : HostTunnel Key} {index : Nat} {key : Key}
    (reached : (machine protocol tunnelAddr).Reachable before)
    (failed : FailedSetup protocol tunnelAddr before after index key) :
    ¬ Contained protocol tunnelAddr before after index key := by
  rcases failed.abandoned reached with ⟨inv, abandoned⟩
  exact abandoned.not_contained inv

/-- A client connects and is admitted. -/
def admittedRun : List (Label Nat) :=
  [.dial 7, .accept, .client 7 0 (.handshake true), .handshakeEnds]

/-- It asks for a session with a control message that cannot be decoded. -/
def garbledRun : List (Label Nat) :=
  [.client 7 0 .announceBi, .handler 7 .acceptBi, .client 7 0 .openUni,
    .client 7 0 (.control 0 .undecodable)]

theorem exists_failedSetup : ∃ before after,
    (machine .tcp (.v4 0 80)).Reachable before ∧
      FailedSetup .tcp (.v4 0 80) before after 0 (7 : Nat) := by
  have ends : (((machine .tcp (.v4 0 80)).run admittedRun started).bind fun before =>
      ((machine .tcp (.v4 0 80)).run garbledRun before).bind fun failing =>
        ((machine .tcp (.v4 0 80)).step failing (.handler 7 .receiveFails)).map fun _ =>
          (before.loop, before.conns[0]?.map fun conn => (conn.client, conn.accepted),
            failing.loop)) =
      some (.handling 0 .acceptBi, some (7, 0), .handling 0 (.receivePacket 0)) := by decide
  rcases Option.bind_eq_some_iff.mp ends with ⟨before, admitted, rest⟩
  rcases Option.bind_eq_some_iff.mp rest with ⟨failing, garbled, last⟩
  rcases Option.map_eq_some_iff.mp last with ⟨after, taken, point⟩
  simp only [Prod.mk.injEq, Option.map_eq_some_iff] at point
  rcases point with ⟨waiting, ⟨conn, found, client, first⟩, at_⟩
  refine ⟨before, after, ⟨started, admittedRun, rfl, admitted⟩, garbledRun, failing, _, conn,
    .receiveFails, waiting, found, client, garbled, at_, ?_, rfl, taken⟩
  rw [first]
  rfl

theorem failedSetup_not_contained_garbledRun : ∃ before after : HostTunnel Nat,
    FailedSetup .tcp (.v4 0 80) before after 0 7 ∧
      ¬ Contained .tcp (.v4 0 80) before after 0 7 := by
  rcases exists_failedSetup with ⟨before, after, reached, failed⟩
  exact ⟨before, after, failed, failedSetup_not_contained reached failed⟩

theorem garbledRun_abandons :
    ¬ ∀ before after : HostTunnel Nat, (machine .tcp (.v4 0 80)).Reachable before →
      FailedSetup .tcp (.v4 0 80) before after 0 7 →
        Contained .tcp (.v4 0 80) before after 0 7 := by
  intro always
  rcases exists_failedSetup with ⟨before, after, reached, failed⟩
  rcases failed.abandoned reached with ⟨inv, abandoned⟩
  exact abandoned.not_contained inv (always before after reached failed)

end HostTunnel

end Host
end Lantun
