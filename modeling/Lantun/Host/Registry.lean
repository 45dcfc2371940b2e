import Lantun.Host.Invariant

namespace Lantun
namespace Host

open Net

/-!
# When the client registry is exact

The accept loop inserts a client when it admits a connection.  Neither arm
behind `handle_connection` removes it, and `handle_connection` itself only ever
changes the local connections of a client.  So the registry holds every client
that was ever admitted, and it is the list of the clients being served for as
long as no `handle_connection` has returned.
-/

variable {Key : Type} [DecidableEq Key]

namespace HostTunnel

/-- The loop has accepted a connection of this client, and its
`handle_connection` has not returned. -/
def Served (host : HostTunnel Key) (key : Key) : Prop :=
  ∃ (index : Nat) (conn : Conn Key), host.conns[index]? = some conn ∧ conn.client = key ∧
    conn.life = .serving

structure Exact (protocol : TunnelProtocol) (tunnelAddr : SocketAddr) (host : HostTunnel Key) :
    Prop where
  keys : ∀ key, key ∈ host.tunnelClients ↔ host.Served key
  count : ∃ served : List Key, served.Nodup ∧ (∀ key, key ∈ served ↔ host.Served key) ∧
    host.numClients = served.length
  /-- A client that is not being served is admitted. -/
  again : ∀ (index : Nat) (conn : Conn Key), host.loop = .handshake index →
    host.conns[index]? = some conn → conn.link.shaken = true → ¬ host.Served conn.client →
    ∃ next, step protocol tunnelAddr host .handshakeEnds = some next ∧ next.Served conn.client

/-- While the tunnel is running, its registry is exact. -/
def ExactWhileRunning (protocol : TunnelProtocol) (tunnelAddr : SocketAddr)
    (host : HostTunnel Key) : Prop :=
  host.runningProps = true → host.Exact protocol tunnelAddr

/-- While the tunnel is running, no `?` of `handle_connection` fails. -/
def NothingFails (before : HostTunnel Key) (label : Label Key) (_after : HostTunnel Key) : Prop :=
  before.runningProps = true → ∀ key act, label = .handler key act → act.fails = false

/-- No `handle_connection` has returned so far. -/
def NoneReturned (host : HostTunnel Key) : Prop :=
  ∀ (index : Nat) (conn : Conn Key) error, host.conns[index]? = some conn →
    conn.life ≠ .returned error

theorem Inv.exact {protocol : TunnelProtocol} {tunnelAddr : SocketAddr} {host : HostTunnel Key}
    (inv : host.Inv) (running : host.runningProps = true) (none_ : host.NoneReturned) :
    host.Exact protocol tunnelAddr := by
  have keys : ∀ key, key ∈ host.tunnelClients ↔ host.Served key := by
    intro key
    rw [inv.registered key]
    constructor
    · rintro ⟨index, conn, here, is, admitted⟩
      refine ⟨index, conn, here, is, ?_⟩
      cases life : conn.life with
      | serving => rfl
      | returned error => exact absurd life (none_ index conn error here)
      | incoming | ignored =>
          rw [life] at admitted
          cases admitted
    · rintro ⟨index, conn, here, is, serving⟩
      exact ⟨index, conn, here, is, by rw [serving]; rfl⟩
  refine ⟨keys, ⟨host.tunnelClients.keys, host.tunnelClients.keys_nodup, keys, ?_⟩, ?_⟩
  · simp [numClients, running]
  · intro index conn at_ here shaken idle
    have absent : conn.client ∉ host.tunnelClients := fun present => idle ((keys _).mp present)
    have admits : step protocol tunnelAddr host .handshakeEnds = some (host.enter index conn) := by
      cases link : conn.link <;> simp [link, Link.shaken] at shaken <;>
        simp [step, at_, here, HostTunnel.afterHandshake, link, absent]
    refine ⟨_, admits, index, { conn with life := .serving }, ?_, rfl, rfl⟩
    exact (getElem?_setConn here _ index).trans (if_pos rfl)

/-- What has returned after a step had returned before it, or a `?` has just
failed. -/
theorem returned_of_step {protocol : TunnelProtocol} {tunnelAddr : SocketAddr}
    {host next : HostTunnel Key} {label : Label Key} (inv : host.Inv)
    (taken : step protocol tunnelAddr host label = some next) {index : Nat} {conn : Conn Key}
    {error : HostError} (here : next.conns[index]? = some conn)
    (returned : conn.life = .returned error) :
    (∃ old : Conn Key, host.conns[index]? = some old ∧ old.life = .returned error) ∨
      ∃ key act, label = .handler key act ∧ act.fails = true := by
  have kept : ∀ {at_ : Nat} {before after : Conn Key}, host.conns[at_]? = some before →
      (after.life = .returned error → before.life = .returned error) →
      (host.setConn at_ after).conns[index]? = some conn →
      ∃ old : Conn Key, host.conns[index]? = some old ∧ old.life = .returned error := by
    intro at_ before after found back there
    rw [getElem?_setConn found after index] at there
    split at there
    · rename_i same
      cases there
      exact ⟨before, same ▸ found, back returned⟩
    · exact ⟨conn, there, returned⟩
  cases label with
  | dial key =>
      simp only [step] at taken
      split at taken <;> cases taken
      refine Or.inl ⟨conn, ?_, returned⟩
      rw [List.getElem?_append] at here
      split at here
      · exact here
      · rw [List.getElem?_singleton] at here
        split at here <;> cases here
        cases returned
  | client key at_ act =>
      rcases Option.bind_eq_some_iff.mp taken with ⟨before, found, rest⟩
      split at rest
      · rcases Option.map_eq_some_iff.mp rest with ⟨after, moved, same⟩
        subst same
        refine Or.inl (kept found (fun is => ?_) here)
        rw [← (Conn.clientStep_frame moved).2.1]
        exact is
      · cases rest
  | accept =>
      simp only [step] at taken
      split at taken
      · split at taken
        · cases taken
          exact Or.inl ⟨conn, here, returned⟩
        · split at taken <;> cases taken
          exact Or.inl ⟨conn, here, returned⟩
      · cases taken
  | handshakeEnds =>
      simp only [step] at taken
      split at taken
      · rcases Option.bind_eq_some_iff.mp taken with ⟨before, found, admitted⟩
        rcases afterHandshake_cases admitted with ⟨_, rfl⟩ | ⟨_, ⟨_, rfl⟩ | ⟨_, rfl⟩⟩
        · exact Or.inl ⟨conn, here, returned⟩
        · exact Or.inl (kept found (fun is => by cases is) here)
        · exact Or.inl (kept found (fun is => by cases is) here)
      · cases taken
  | handler key act =>
      rcases handler_cases taken with
        ⟨at_, phase, before, after, registration, outcome, handling, found, _, moved, same⟩
      have owner := Conn.handlerStep_sameOwner moved
      rcases inv.handled_eq handling found owner.client registration outcome with ⟨clients, _, is⟩
      rw [same, is] at here
      cases outcome with
      | continues phase' =>
          exact Or.inl (kept found (fun back => owner.life ▸ back) here)
      | returns error' =>
          exact Or.inr ⟨key, act, rfl, (Conn.returns_iff_fails moved).mp ⟨error', rfl⟩⟩
  | stop =>
      simp only [step] at taken
      split at taken
      · split at taken <;> cases taken
        exact Or.inl ⟨conn, here, returned⟩
      · cases taken
        exact Or.inl ⟨conn, here, returned⟩
  | closeEndpoint =>
      simp only [step] at taken
      split at taken <;> cases taken
      rcases Option.map_eq_some_iff.mp ((List.getElem?_map ..).symm.trans here) with
        ⟨old, there, same⟩
      subst same
      exact Or.inl ⟨old, there, returned⟩

/-- Where a `?` of the handler fails, the client stays registered and is served
no longer. -/
theorem Inv.not_exact {protocol : TunnelProtocol} {tunnelAddr : SocketAddr}
    {host next : HostTunnel Key} (inv : host.Inv) {key : Key} {act : HandlerAct}
    (taken : step protocol tunnelAddr host (.handler key act) = some next)
    (fails : act.fails = true) :
    next.runningProps = host.runningProps ∧ ¬ next.Exact protocol tunnelAddr := by
  have kept := inv.after taken
  rcases handler_cases taken with
    ⟨index, phase, before, after, registration, outcome, handling, found, _, moved, same⟩
  have owner := Conn.handlerStep_sameOwner moved
  rcases (Conn.returns_iff_fails moved).mpr fails with ⟨error, returns⟩
  rcases inv.handled_eq handling found owner.client registration outcome with ⟨clients, members, is⟩
  rcases inv.handling index phase handling with ⟨_, conn, there, serving⟩
  rw [found] at there
  cases there
  rw [returns] at is
  have is : next = { host.setConn index { after with life := .returned error } with
      tunnelClients := clients
      loop := .accept } := by rw [same, returns, is]
  refine ⟨by rw [is]; rfl, fun exact_ => ?_⟩
  have present : before.client ∈ next.tunnelClients := by
    rw [is]
    exact (members _).mpr (inv.mem_of_serving found serving)
  rcases (exact_.keys _).mp present with ⟨other, conn, here, _, busy⟩
  rcases kept.serving other conn here busy with ⟨phase', at_⟩
  rw [is] at at_
  cases at_

/-- Only `stop` takes the properties, and nothing gives them back. -/
theorem runningProps_of_step {protocol : TunnelProtocol} {tunnelAddr : SocketAddr}
    {host next : HostTunnel Key} {label : Label Key}
    (taken : step protocol tunnelAddr host label = some next)
    (running : next.runningProps = true) : host.runningProps = true := by
  by_cases stops : label = .stop
  · subst stops
    simp only [step] at taken
    split at taken
    · split at taken <;> cases taken
      cases running
    · cases taken
      exact running
  · by_cases closes : label = .closeEndpoint
    · subst closes
      simp only [step] at taken
      split at taken <;> cases taken
      exact running
    · exact (step_frame taken stops closes).2.1 ▸ running

/-- In every run the registry is exact in every state of the running tunnel if
and only if no fallible step of `handle_connection` fails while it runs. -/
theorem registry_exact_iff (protocol : TunnelProtocol) (tunnelAddr : SocketAddr)
    (labels : List (Label Key)) :
    (machine protocol tunnelAddr).EveryState (ExactWhileRunning protocol tunnelAddr) labels
        started ↔
      (machine protocol tunnelAddr).EveryStep NothingFails labels started := by
  have first : (started : HostTunnel Key).Inv :=
    (inductive_inv protocol tunnelAddr).start started rfl
  have none_ : (started : HostTunnel Key).NoneReturned := by
    intro index conn error here
    simp [started] at here
  have carried : ∀ (host : HostTunnel Key) label next, (host.Inv ∧ (host.runningProps = true → host.NoneReturned)) →
      step protocol tunnelAddr host label = some next → NothingFails host label next →
      next.runningProps = true → next.NoneReturned := by
    intro host label next held taken nothing running index conn error here returned
    have ran := runningProps_of_step taken running
    rcases returned_of_step held.1 taken here returned with ⟨old, there, before⟩ | ⟨key, act, is, fails⟩
    · exact held.2 ran index old error there before
    · rw [nothing ran key act is] at fails
      cases fails
  have agree : ∀ (host : HostTunnel Key) label next, (host.Inv ∧ (host.runningProps = true → host.NoneReturned)) →
      step protocol tunnelAddr host label = some next →
      (ExactWhileRunning protocol tunnelAddr next ↔ NothingFails host label next) := by
    intro host label next held taken
    have kept := held.1.after taken
    constructor
    · intro exact_ running key act is
      subst is
      by_contra fails
      rcases held.1.not_exact taken (by simpa using fails) with ⟨same, inexact⟩
      exact inexact (exact_ (same.trans running))
    · intro nothing running
      exact kept.exact running (carried host label next held taken nothing running)
  refine Machine.everyState_iff_everyStep ?_ (fun host label next held _ taken =>
    agree host label next held taken) labels ⟨first, fun _ => none_⟩ (fun running =>
      first.exact running none_)
  intro host label next held taken exact_
  exact ⟨held.1.after taken,
    carried host label next held taken ((agree host label next held taken).mp exact_)⟩

/-- A client connects, is admitted, and closes its connection. -/
def closingRun : List (Label Nat) :=
  [.dial 7, .accept, .client 7 0 (.handshake true), .handshakeEnds, .client 7 0 .close,
    .handler 7 .acceptBiFails]

theorem registry_keeps :
    ¬ ∀ labels : List (Label Nat),
      (machine .tcp (.v4 0 80)).EveryState (ExactWhileRunning .tcp (.v4 0 80)) labels started := by
  intro always
  have ends : (((machine .tcp (.v4 0 80)).run closingRun started).map fun host =>
      (host.runningProps, host.tunnelClients.keys, host.loop)) =
        some (true, [7], .accept) := by decide
  rcases Option.map_eq_some_iff.mp ends with ⟨host, ran, point⟩
  simp only [Prod.mk.injEq] at point
  rcases point with ⟨running, keys, idle⟩
  have exact_ := (always closingRun).of_run ran running
  have inv : host.Inv := (inductive_inv .tcp (.v4 0 80)).of_reachable ⟨started, closingRun, rfl, ran⟩
  have present : 7 ∈ host.tunnelClients := by
    rw [AList.mem_keys, keys]
    exact List.mem_singleton_self 7
  rcases (exact_.keys 7).mp present with ⟨index, conn, here, _, serving⟩
  rcases inv.serving index conn here serving with ⟨phase, at_⟩
  rw [idle] at at_
  cases at_

end HostTunnel

end Host
end Lantun
