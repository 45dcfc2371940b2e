import Lantun.Client.Tunnel
import Lantun.State.HostState

namespace Lantun
namespace State

open Client

/-!
# The client tunnels of an application

`ClientState` keeps its tunnels under the local address and protocol they are
bound to, and refuses to create a second one there.  The secret it is given
comes from outside and has to be a public key: `PublicKey::from_bytes` decides
that, and `create_tunnel` unwraps its answer.

The key types belong to the network library.  What the tunnels rely on is that a
public key is the bytes it was made from.
-/

/-- The key types, as far as the tunnels use them. -/
structure Keys (PublicKey : Type) where
  /-- `PublicKey::from_bytes`. -/
  fromBytes : Secret → Option PublicKey
  /-- `PublicKey::as_bytes`. -/
  asBytes : PublicKey → Secret
  /-- `SecretKey::public`. -/
  publicOf : Secret → PublicKey
  asBytes_fromBytes : ∀ bytes key, fromBytes bytes = some key → asBytes key = bytes

/-- How a call that can unwind fails. -/
inductive Failure (Reason : Type) where
  | error (reason : Reason)
  | panicked
  deriving DecidableEq, Repr

/-- `ClientTunnel`.  What `connect` and `disconnect` change is in `tunnel`. -/
structure ClientTunnel (PublicKey : Type) where
  name : String
  secret : PublicKey
  tunnelAddr : SocketAddr
  protocol : TunnelProtocol
  tunnel : Client.ClientTunnel

/-- `ClientState`. -/
abbrev ClientState (PublicKey : Type) :=
  AList fun _ : SocketAddr × TunnelProtocol => ClientTunnel PublicKey

variable {PublicKey : Type}

/-- As `create_tunnel` makes it. -/
def ClientTunnel.created (localAddr : SocketAddr) (name : String) (secret : PublicKey)
    (protocol : TunnelProtocol) : ClientTunnel PublicKey where
  name := name
  secret := secret
  tunnelAddr := localAddr
  protocol := protocol
  tunnel := .created

namespace ClientState

/-- `ClientState::create_tunnel`. -/
def createTunnel (keys : Keys PublicKey) (state : ClientState PublicKey) (localAddr : SocketAddr)
    (name : String) (secret : Secret) (protocol : TunnelProtocol) :
    Except (Failure ClientError) (ClientState PublicKey) :=
  if (localAddr, protocol) ∈ state then
    .error (.error (.tunnelAlreadyExists localAddr protocol))
  else
    match keys.fromBytes secret with
    | none => .error .panicked
    | some key =>
        .ok (state.insert (localAddr, protocol)
          (ClientTunnel.created localAddr name key protocol))

/-- All that a successful `create_tunnel` does. -/
theorem createTunnel_eq_ok {keys : Keys PublicKey} {state next : ClientState PublicKey}
    {localAddr : SocketAddr} {name : String} {secret : Secret} {protocol : TunnelProtocol} :
    createTunnel keys state localAddr name secret protocol = .ok next ↔
      (localAddr, protocol) ∉ state ∧ ∃ key, keys.fromBytes secret = some key ∧
        next = state.insert (localAddr, protocol)
          (ClientTunnel.created localAddr name key protocol) := by
  unfold createTunnel
  split
  · rename_i present
    simp [present]
  · rename_i absent
    cases valid : keys.fromBytes secret with
    | none => simp
    | some key => simp [absent, eq_comm]

/-- A tunnel that exists is kept as it is. -/
theorem createTunnel_lookup {keys : Keys PublicKey} {state next : ClientState PublicKey}
    {localAddr : SocketAddr} {name : String} {secret : Secret} {protocol : TunnelProtocol}
    (created : createTunnel keys state localAddr name secret protocol = .ok next)
    {key : SocketAddr × TunnelProtocol} (present : key ∈ state) :
    next.lookup key = state.lookup key := by
  rcases createTunnel_eq_ok.mp created with ⟨absent, _, _, same⟩
  subst same
  exact AList.lookup_insert_ne fun is => absent (is ▸ present)

end ClientState

/-- `LanTun`. -/
structure LanTun (PublicKey : Type) where
  host : Hosting
  client : ClientState PublicKey

/-- `LanTun::new`. -/
def LanTun.new : LanTun PublicKey := ⟨Hosting.new, ∅⟩

end State
end Lantun
