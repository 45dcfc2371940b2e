import Lantun.Machine.Run
import Lantun.Host.Connection

namespace Lantun
namespace Host

open Net

/-!
# A started host tunnel

`HostTunnel::start` spawns one task with the accept loop.  For each incoming
connection the task waits for the handshake, ignores the connection if its
client is registered, and otherwise registers the client and awaits
`handle_connection` before it looks at the next one.  Nothing takes an entry
out of `tunnel_clients` again.

The machine covers one period from `start` to `stop` and beyond: a later `start`
has an endpoint, a registry and a task of its own and shares nothing with this
one.  Connections are numbered in the order in which they reach the endpoint.
What clients do carries their key, so that a question about progress can say
who is allowed to move.
-/

variable (Key : Type) [DecidableEq Key]

/-- `ConnectedClient`; the connection is the handle that `tunnel_clients`
keeps. -/
structure ConnectedClient where
  localConnections : LocalConnections
  connection : Nat
  deriving DecidableEq

/-- `ConnectedClients`. -/
abbrev ConnectedClients := AList fun _ : Key => ConnectedClient

/-- Where the accept loop stands. -/
inductive Loop where
  /-- Waiting in `endpoint.accept`. -/
  | accept
  | handshake (index : Nat)
  | handling (index : Nat) (phase : Phase)
  | panicked
  deriving DecidableEq, Repr

structure HostTunnel where
  isOpen : Bool
  /-- Whether `running_props` is `Some`. -/
  runningProps : Bool
  stopSent : Bool
  endpointClosed : Bool
  tunnelClients : ConnectedClients Key
  /-- Every connection that has reached the endpoint. -/
  conns : List (Conn Key)
  /-- How many of them the loop has taken. -/
  taken : Nat
  loop : Loop
  deriving DecidableEq

inductive Label where
  | dial (key : Key)
  | client (key : Key) (index : Nat) (act : ClientAct)
  | accept
  | handshakeEnds
  | handler (key : Key) (act : HandlerAct)
  | stop
  | closeEndpoint
  deriving DecidableEq

variable {Key}

/-- Applying a change to the registry; `none` where the `unwrap` of the lookup
would panic. -/
def ConnectedClients.register (clients : ConnectedClients Key) (key : Key) :
    Registration → Option (ConnectedClients Key)
  | .keep => some clients
  | .insert virtualAddr connection =>
      (clients.lookup key).map fun client =>
        clients.insert key { client with
          localConnections := client.localConnections.insert virtualAddr connection }
  | .remove virtualAddr =>
      match clients.lookup key with
      | some client =>
          some (clients.insert key { client with
            localConnections := client.localConnections.erase virtualAddr })
      | none => some clients

namespace HostTunnel

/-- Right after `start`. -/
def started : HostTunnel Key where
  isOpen := true
  runningProps := true
  stopSent := false
  endpointClosed := false
  tunnelClients := ∅
  conns := []
  taken := 0
  loop := .accept

/-- `num_clients`. -/
def numClients (host : HostTunnel Key) : Nat :=
  if host.runningProps then host.tunnelClients.keys.length else 0

def setConn (host : HostTunnel Key) (index : Nat) (conn : Conn Key) : HostTunnel Key :=
  { host with conns := host.conns.set index conn }

/-- A client that is not registered: it is, and its handler starts. -/
def enter (host : HostTunnel Key) (index : Nat) (conn : Conn Key) : HostTunnel Key :=
  { host.setConn index { conn with life := .serving } with
    tunnelClients := host.tunnelClients.insert conn.client ⟨∅, index⟩
    loop := .handling index .acceptBi }

/-- A client that is registered: the connection is ignored, and its last handle
goes with the iteration. -/
def ignore (host : HostTunnel Key) (index : Nat) (conn : Conn Key) : HostTunnel Key :=
  { host.setConn index { conn with life := .ignored, link := .closed } with
    loop := .accept }

/-- Behind `conn.await`. -/
def afterHandshake (host : HostTunnel Key) (index : Nat) (conn : Conn Key) : Option (HostTunnel Key) :=
  match conn.link with
  | .pending => none
  | .failed => some { host with loop := .accept }
  | .live | .closed =>
      if conn.client ∈ host.tunnelClients then some (host.ignore index conn)
      else some (host.enter index conn)

/-- The endpoint lets a client do this to its connection now.  The handshake goes on
while the loop awaits it, and not in the queue. -/
def lets (host : HostTunnel Key) (index : Nat) : ClientAct → Bool
  | .handshake _ => decide (host.loop = .handshake index)
  | _ => true

/-- A step of the handler, written back. -/
def handled (host : HostTunnel Key) (index : Nat) (conn : Conn Key)
    (registration : Registration) (outcome : Outcome) : HostTunnel Key :=
  match host.tunnelClients.register conn.client registration with
  | none => { host with loop := .panicked }
  | some clients =>
      match outcome with
      | .continues phase =>
          { host.setConn index conn with
            tunnelClients := clients
            loop := .handling index phase }
      | .returns error =>
          { host.setConn index { conn with life := .returned error } with
            tunnelClients := clients
            loop := .accept }

/-- One step. -/
def step (protocol : TunnelProtocol) (tunnelAddr : SocketAddr) (host : HostTunnel Key) :
    Label Key → Option (HostTunnel Key)
  | .dial key =>
      if host.endpointClosed then none
      else some { host with conns := host.conns ++ [.incoming key] }
  | .client key index act =>
      (host.conns[index]?).bind fun conn =>
        if conn.client = key ∧ host.lets index act = true then
          (conn.clientStep act).map (host.setConn index)
        else none
  | .accept =>
      if host.loop = .accept then
        if host.taken < host.conns.length then
          some { host with
            loop := .handshake host.taken
            taken := host.taken + 1 }
        else if host.endpointClosed then some host
        else none
      else none
  | .handshakeEnds =>
      match host.loop with
      | .handshake index => (host.conns[index]?).bind (host.afterHandshake index)
      | _ => none
  | .handler key act =>
      match host.loop with
      | .handling index phase =>
          (host.conns[index]?).bind fun conn =>
            if conn.client = key then
              (conn.handlerStep protocol tunnelAddr host.stopSent phase act).map
                fun (conn, registration, outcome) => host.handled index conn registration outcome
            else none
      | _ => none
  | .stop =>
      if host.isOpen then
        if host.runningProps then some { host with runningProps := false, stopSent := true } else none
      else some host
  | .closeEndpoint =>
      if host.isOpen = true ∧ host.runningProps = false then
        some { host with
          isOpen := false
          endpointClosed := true
          conns := host.conns.map Conn.shut }
      else none

def machine (protocol : TunnelProtocol) (tunnelAddr : SocketAddr) :
    Machine (HostTunnel Key) (Label Key) where
  initial host := host = started
  step := step protocol tunnelAddr

/-! ## What the two larger steps come down to -/

theorem afterHandshake_cases {host next : HostTunnel Key} {index : Nat} {conn : Conn Key}
    (admitted : host.afterHandshake index conn = some next) :
    (conn.link = .failed ∧ next = { host with loop := .accept }) ∨
      (conn.link.shaken = true ∧
        ((conn.client ∈ host.tunnelClients ∧ next = host.ignore index conn) ∨
          (conn.client ∉ host.tunnelClients ∧ next = host.enter index conn))) := by
  cases link : conn.link with
  | pending => simp [afterHandshake, link] at admitted
  | failed =>
      simp only [afterHandshake, link] at admitted
      exact Or.inl ⟨rfl, (Option.some.inj admitted).symm⟩
  | live | closed =>
      simp only [afterHandshake, link] at admitted
      refine Or.inr ⟨rfl, ?_⟩
      split at admitted
      · rename_i present
        exact Or.inl ⟨present, (Option.some.inj admitted).symm⟩
      · rename_i absent
        exact Or.inr ⟨absent, (Option.some.inj admitted).symm⟩

/-- What a handler step is, seen from outside. -/
theorem handler_cases {protocol : TunnelProtocol} {tunnelAddr : SocketAddr}
    {host next : HostTunnel Key} {key : Key} {act : HandlerAct}
    (taken : step protocol tunnelAddr host (.handler key act) = some next) :
    ∃ index phase before after registration outcome, host.loop = .handling index phase ∧
      host.conns[index]? = some before ∧ before.client = key ∧
      before.handlerStep protocol tunnelAddr host.stopSent phase act =
        some (after, registration, outcome) ∧
      next = host.handled index after registration outcome := by
  simp only [step] at taken
  split at taken
  · rename_i index phase at_
    rcases Option.bind_eq_some_iff.mp taken with ⟨before, found, rest⟩
    split at rest
    · rename_i owner
      rcases Option.map_eq_some_iff.mp rest with ⟨⟨after, registration, outcome⟩, moved, same⟩
      exact ⟨index, phase, before, after, registration, outcome, at_, found, owner, moved,
        same.symm⟩
    · cases rest
  · cases taken

/-- Only `stop` and the closing of the endpoint change what the owner of the
tunnel holds. -/
theorem step_frame {protocol : TunnelProtocol} {tunnelAddr : SocketAddr}
    {host next : HostTunnel Key} {label : Label Key}
    (taken : step protocol tunnelAddr host label = some next) (noStop : label ≠ .stop)
    (noClose : label ≠ .closeEndpoint) :
    next.isOpen = host.isOpen ∧ next.runningProps = host.runningProps ∧
      next.stopSent = host.stopSent ∧ next.endpointClosed = host.endpointClosed := by
  cases label with
  | dial key =>
      simp only [step] at taken
      split at taken <;> cases taken
      exact ⟨rfl, rfl, rfl, rfl⟩
  | client key index act =>
      rcases Option.bind_eq_some_iff.mp taken with ⟨before, found, rest⟩
      split at rest
      · rcases Option.map_eq_some_iff.mp rest with ⟨after, moved, same⟩
        subst same
        exact ⟨rfl, rfl, rfl, rfl⟩
      · cases rest
  | accept =>
      simp only [step] at taken
      split at taken
      · split at taken
        · cases taken
          exact ⟨rfl, rfl, rfl, rfl⟩
        · split at taken <;> cases taken
          exact ⟨rfl, rfl, rfl, rfl⟩
      · cases taken
  | handshakeEnds =>
      simp only [step] at taken
      split at taken
      · rcases Option.bind_eq_some_iff.mp taken with ⟨before, found, admitted⟩
        rcases afterHandshake_cases admitted with ⟨_, rfl⟩ | ⟨_, ⟨_, rfl⟩ | ⟨_, rfl⟩⟩ <;>
          exact ⟨rfl, rfl, rfl, rfl⟩
      · cases taken
  | handler key act =>
      rcases handler_cases taken with
        ⟨index, phase, before, after, registration, outcome, _, _, _, _, same⟩
      rw [same]
      unfold handled
      split
      · exact ⟨rfl, rfl, rfl, rfl⟩
      · split <;> exact ⟨rfl, rfl, rfl, rfl⟩
  | stop => exact absurd rfl noStop
  | closeEndpoint => exact absurd rfl noClose

end HostTunnel

end Host
end Lantun
