import Mathlib.Data.List.AList

namespace Lantun

/-!
# Addresses, protocols and the control message

The types both ends of a tunnel share.  A socket address keeps its family,
because two places of the host branch on it: the virtual client socket is bound
in the family of the application's address, while the TCP socket itself is made
in the family of the service's address.

A registry of local connections is an association list without duplicate keys.
The record of one connection holds the two addresses.  Its `last_active` cell
is read by the forwarders only, and is modelled with them.
-/

/-- `std::net::SocketAddr`. -/
inductive SocketAddr where
  | v4 (ip : BitVec 32) (port : UInt16)
  | v6 (ip : BitVec 128) (port : UInt16) (flowinfo scopeId : UInt32)
  deriving DecidableEq, Repr

def SocketAddr.isIpv4 : SocketAddr → Bool
  | .v4 _ _ => true
  | .v6 _ _ _ _ => false

/-- `get_unspecified`. -/
def getUnspecified (ip4 : Bool) : SocketAddr :=
  if ip4 then .v4 0 0 else .v6 0 0 0 0

inductive TunnelProtocol where
  | tcp
  | udp
  deriving DecidableEq, Repr

/-- `LocalClientConnection`, without the shared `last_active` cell. -/
structure LocalClientConnection where
  clientLocalAddr : SocketAddr
  clientVirtualAddr : SocketAddr
  deriving DecidableEq, Repr

abbrev LocalConnections := AList fun _ : SocketAddr => LocalClientConnection

/-- `Client2HostControlMsg`. -/
inductive Client2HostControlMsg where
  | connReq (localAddr : SocketAddr)
  deriving DecidableEq, Repr

end Lantun
