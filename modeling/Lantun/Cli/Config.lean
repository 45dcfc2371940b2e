import Lantun.State.ClientState

namespace Lantun
namespace Cli

open State

/-!
# The config file and the state made from it

The config lists the tunnels of the user, each with a secret as a hexadecimal
string.  `create_state` goes through both lists, decodes the secrets, and
creates a tunnel for every entry.  It fails at the first secret that does not
decode to 32 bytes and at the first client tunnel that is refused, and it panics
where a client's secret is not a public key.

It never looks at `enabled`.
-/

/-- The `hex` crate, as far as it is used. -/
structure Hex where
  encode : List UInt8 → String
  decode : String → Option (List UInt8)
  decode_encode : ∀ bytes, decode (encode bytes) = some bytes

structure HostTunnelEntry where
  name : String
  localAddr : SocketAddr
  protocol : TunnelProtocol
  privateSecret : String
  /-- The secret that the client will use to connect to the tunnel. -/
  publicSecret : String
  enabled : Bool
  deriving DecidableEq

structure ClientTunnelEntry where
  name : String
  localAddr : SocketAddr
  protocol : TunnelProtocol
  /-- The public secret of the host tunnel. -/
  secret : String
  enabled : Bool
  deriving DecidableEq

structure LanTunConfig where
  hostTunnels : List HostTunnelEntry
  clientTunnels : List ClientTunnelEntry
  deriving DecidableEq

/-- `LanTunConfig::default`. -/
def LanTunConfig.default : LanTunConfig := ⟨[], []⟩

/-- What `create_state` reports. -/
inductive Report where
  | fromHex
  | message (text : String)
  | client (reason : Client.ClientError)
  deriving DecidableEq, Repr

/-- The 32 bytes a string stands for. -/
def Hex.secret? (hex : Hex) (text : String) : Option Secret :=
  (hex.decode text).bind fun bytes =>
    if length : bytes.length = 32 then some ⟨bytes, length⟩ else none

/-- `hex::decode(..)?.try_into()`, with the text for a wrong length. -/
def Hex.decodeSecret (hex : Hex) (text message : String) : Except (Failure Report) Secret :=
  match hex.decode text with
  | none => .error (.error .fromHex)
  | some bytes =>
      if length : bytes.length = 32 then .ok ⟨bytes, length⟩
      else .error (.error (.message message))

theorem Hex.decodeSecret_eq_ok {hex : Hex} {text message : String} {secret : Secret} :
    hex.decodeSecret text message = .ok secret ↔ hex.secret? text = some secret := by
  unfold decodeSecret secret?
  cases hex.decode text with
  | none => simp
  | some bytes =>
      by_cases length : bytes.length = 32
      · simp only [length, dite_true, Option.bind_some]
        constructor <;> (intro same; cases same; rfl)
      · simp [length]

theorem Hex.secret?_encode (hex : Hex) (secret : Secret) :
    hex.secret? (hex.encode secret.toList) = some secret := by
  rw [secret?, hex.decode_encode]
  simp

section CreateState

variable {PublicKey : Type} (hex : Hex) (keys : Keys PublicKey)

/-- The loop of `create_state` over the host tunnels. -/
def createHostTunnels : List HostTunnelEntry → Hosting → Except (Failure Report) Hosting
  | [], host => .ok host
  | tunnel :: tunnels, host =>
      match hex.decodeSecret tunnel.privateSecret "Invalid private secret length" with
      | .error failure => .error failure
      | .ok secret =>
          createHostTunnels tunnels
            (host.createTunnel tunnel.localAddr tunnel.name secret tunnel.protocol)

/-- Turning the error of `ClientState::create_tunnel` into a report. -/
def reported : Failure Client.ClientError → Failure Report
  | .error reason => .error (.client reason)
  | .panicked => .panicked

/-- The loop of `create_state` over the client tunnels. -/
def createClientTunnels :
    List ClientTunnelEntry → ClientState PublicKey → Except (Failure Report) (ClientState PublicKey)
  | [], client => .ok client
  | tunnel :: tunnels, client =>
      match hex.decodeSecret tunnel.secret "Invalid public secret length" with
      | .error failure => .error failure
      | .ok secret =>
          match client.createTunnel keys tunnel.localAddr tunnel.name secret tunnel.protocol with
          | .error failure => .error (reported failure)
          | .ok client => createClientTunnels tunnels client

/-- `LanTunConfig::create_state`. -/
def createState (config : LanTunConfig) : Except (Failure Report) (LanTun PublicKey) :=
  match createHostTunnels hex config.hostTunnels Hosting.new with
  | .error failure => .error failure
  | .ok host =>
      match createClientTunnels hex keys config.clientTunnels ∅ with
      | .error failure => .error failure
      | .ok client => .ok ⟨host, client⟩

/-! ## What it takes to succeed -/

def HostTunnelEntry.Loads (tunnel : HostTunnelEntry) : Prop :=
  ∃ secret, hex.secret? tunnel.privateSecret = some secret

def ClientTunnelEntry.Loads (tunnel : ClientTunnelEntry) : Prop :=
  ∃ secret key, hex.secret? tunnel.secret = some secret ∧ keys.fromBytes secret = some key

/-- Where a client tunnel is bound. -/
def ClientTunnelEntry.slot (tunnel : ClientTunnelEntry) : SocketAddr × TunnelProtocol :=
  (tunnel.localAddr, tunnel.protocol)

/-- Where a host tunnel forwards to. -/
def HostTunnelEntry.slot (tunnel : HostTunnelEntry) : SocketAddr × TunnelProtocol :=
  (tunnel.localAddr, tunnel.protocol)

variable {hex keys}

theorem createHostTunnels_cons_eq_ok {tunnel : HostTunnelEntry} {tunnels : List HostTunnelEntry}
    {host next : Hosting} :
    createHostTunnels hex (tunnel :: tunnels) host = .ok next ↔
      ∃ secret, hex.secret? tunnel.privateSecret = some secret ∧
        createHostTunnels hex tunnels
          (host.createTunnel tunnel.localAddr tunnel.name secret tunnel.protocol) = .ok next := by
  rw [createHostTunnels]
  cases decoded : hex.decodeSecret tunnel.privateSecret "Invalid private secret length" with
  | error failure =>
      have none_ : ∀ secret, hex.secret? tunnel.privateSecret ≠ some secret := by
        intro secret is
        rw [Hex.decodeSecret_eq_ok.mpr is] at decoded
        cases decoded
      simp [none_]
  | ok secret =>
      rw [Hex.decodeSecret_eq_ok.mp decoded]
      simp

theorem createClientTunnels_cons_eq_ok {tunnel : ClientTunnelEntry}
    {tunnels : List ClientTunnelEntry} {client next : ClientState PublicKey} :
    createClientTunnels hex keys (tunnel :: tunnels) client = .ok next ↔
      tunnel.slot ∉ client ∧ ∃ secret key, hex.secret? tunnel.secret = some secret ∧
        keys.fromBytes secret = some key ∧
        createClientTunnels hex keys tunnels
          (client.insert tunnel.slot
            (ClientTunnel.created tunnel.localAddr tunnel.name key tunnel.protocol)) = .ok next := by
  rw [createClientTunnels]
  cases decoded : hex.decodeSecret tunnel.secret "Invalid public secret length" with
  | error failure =>
      have none_ : ∀ secret, hex.secret? tunnel.secret ≠ some secret := by
        intro secret is
        rw [Hex.decodeSecret_eq_ok.mpr is] at decoded
        cases decoded
      simp [none_]
  | ok secret =>
      rw [Hex.decodeSecret_eq_ok.mp decoded]
      dsimp only
      cases made : client.createTunnel keys tunnel.localAddr tunnel.name secret tunnel.protocol with
      | error failure =>
          constructor
          · intro ends
            cases ends
          · rintro ⟨absent, same, key, is, valid, _⟩
            cases is
            rw [ClientState.createTunnel_eq_ok.mpr ⟨absent, key, valid, rfl⟩] at made
            cases made
      | ok client' =>
          rcases ClientState.createTunnel_eq_ok.mp made with ⟨absent, key, valid, rfl⟩
          constructor
          · exact fun ends => ⟨absent, secret, key, rfl, valid, ends⟩
          · rintro ⟨_, same, key', is, valid', ends⟩
            cases is
            cases valid.symm.trans valid'
            exact ends

theorem exists_createHostTunnels {tunnels : List HostTunnelEntry} {host : Hosting} :
    (∃ next, createHostTunnels hex tunnels host = .ok next) ↔
      ∀ tunnel ∈ tunnels, tunnel.Loads hex := by
  induction tunnels generalizing host with
  | nil => simp [createHostTunnels]
  | cons tunnel tunnels ih =>
      simp only [createHostTunnels_cons_eq_ok, List.mem_cons, forall_eq_or_imp,
        HostTunnelEntry.Loads]
      constructor
      · rintro ⟨next, secret, is, rest⟩
        exact ⟨⟨secret, is⟩, ih.mp ⟨next, rest⟩⟩
      · rintro ⟨⟨secret, is⟩, others⟩
        rcases ih.mpr others with ⟨next, rest⟩
        exact ⟨next, secret, is, rest⟩

theorem exists_createClientTunnels {tunnels : List ClientTunnelEntry}
    {client : ClientState PublicKey} :
    (∃ next, createClientTunnels hex keys tunnels client = .ok next) ↔
      (∀ tunnel ∈ tunnels, tunnel.Loads hex keys) ∧ (tunnels.map ClientTunnelEntry.slot).Nodup ∧
        ∀ tunnel ∈ tunnels, tunnel.slot ∉ client := by
  induction tunnels generalizing client with
  | nil => simp [createClientTunnels]
  | cons tunnel tunnels ih =>
      simp only [createClientTunnels_cons_eq_ok, List.mem_cons, forall_eq_or_imp, List.map_cons,
        List.nodup_cons, List.mem_map, not_exists, not_and, ClientTunnelEntry.Loads]
      constructor
      · rintro ⟨next, absent, secret, key, is, valid, rest⟩
        rcases ih.mp ⟨next, rest⟩ with ⟨load, nodup, free⟩
        simp only [AList.mem_insert, not_or] at free
        exact ⟨⟨⟨secret, key, is, valid⟩, load⟩,
          ⟨fun other member same => (free other member).1 same, nodup⟩, absent,
          fun other member => (free other member).2⟩
      · rintro ⟨⟨⟨secret, key, is, valid⟩, load⟩, ⟨once, nodup⟩, absent, free⟩
        have rest : ∀ other ∈ tunnels, other.slot ∉ client.insert tunnel.slot
            (ClientTunnel.created tunnel.localAddr tunnel.name key tunnel.protocol) := by
          intro other member
          rw [AList.mem_insert, not_or]
          exact ⟨once other member, free other member⟩
        rcases ih.mpr ⟨load, nodup, rest⟩ with ⟨next, ends⟩
        exact ⟨next, absent, secret, key, is, valid, ends⟩

theorem createState_eq_ok {config : LanTunConfig} {state : LanTun PublicKey} :
    createState hex keys config = .ok state ↔
      createHostTunnels hex config.hostTunnels Hosting.new = .ok state.host ∧
        createClientTunnels hex keys config.clientTunnels ∅ = .ok state.client := by
  unfold createState
  cases createHostTunnels hex config.hostTunnels Hosting.new with
  | error failure => simp
  | ok host =>
      cases createClientTunnels hex keys config.clientTunnels ∅ with
      | error failure => simp
      | ok client =>
          cases state
          simp

/-- `create_state` succeeds on a config exactly when all secrets load and no two
client entries share an address and protocol. -/
theorem exists_createState {config : LanTunConfig} :
    (∃ state, createState hex keys config = .ok state) ↔
      (∀ tunnel ∈ config.hostTunnels, tunnel.Loads hex) ∧
        (∀ tunnel ∈ config.clientTunnels, tunnel.Loads hex keys) ∧
        (config.clientTunnels.map ClientTunnelEntry.slot).Nodup := by
  constructor
  · rintro ⟨state, made⟩
    rcases createState_eq_ok.mp made with ⟨host, client⟩
    rcases exists_createClientTunnels.mp ⟨_, client⟩ with ⟨load, nodup, _⟩
    exact ⟨exists_createHostTunnels.mp ⟨_, host⟩, load, nodup⟩
  · rintro ⟨hosts, clients, nodup⟩
    rcases exists_createHostTunnels.mpr hosts with ⟨host, hostMade⟩
    rcases exists_createClientTunnels.mpr
      ⟨clients, nodup, fun tunnel _ => AList.notMem_empty tunnel.slot⟩ with ⟨client, clientMade⟩
    exact ⟨⟨host, client⟩, createState_eq_ok.mpr ⟨hostMade, clientMade⟩⟩

end CreateState

/-! ## A codec and a key check to run the model with -/

namespace Base16

def digit (value : Nat) : Char :=
  if value < 10 then Char.ofNat (48 + value) else Char.ofNat (87 + value)

/-- Digits are read in either case. -/
def value? (char : Char) : Option Nat :=
  if '0' ≤ char ∧ char ≤ '9' then some (char.toNat - 48)
  else if 'a' ≤ char ∧ char ≤ 'f' then some (char.toNat - 87)
  else if 'A' ≤ char ∧ char ≤ 'F' then some (char.toNat - 55)
  else none

def encodeChars (bytes : List UInt8) : List Char :=
  bytes.flatMap fun byte => [digit (byte.toNat / 16), digit (byte.toNat % 16)]

def decodeChars : List Char → Option (List UInt8)
  | [] => some []
  | [_] => none
  | high :: low :: rest =>
      match value? high, value? low, decodeChars rest with
      | some high, some low, some bytes => some (UInt8.ofNat (16 * high + low) :: bytes)
      | _, _, _ => none

theorem value?_digit : ∀ value : Fin 16, value? (digit value) = some value.val := by decide

theorem decodeChars_encodeChars (bytes : List UInt8) :
    decodeChars (encodeChars bytes) = some bytes := by
  induction bytes with
  | nil => rfl
  | cons byte bytes ih =>
      have bound := byte.toNat_lt
      have high := value?_digit ⟨byte.toNat / 16, by omega⟩
      have low := value?_digit ⟨byte.toNat % 16, by omega⟩
      have whole : 16 * (byte.toNat / 16) + byte.toNat % 16 = byte.toNat := by omega
      dsimp only at high low
      rw [encodeChars, List.flatMap_cons, ← encodeChars]
      simp only [List.cons_append, List.nil_append, decodeChars, high, low, ih, whole,
        UInt8.ofNat_toNat]

end Base16

/-- Two digits a byte, written in lower case. -/
def base16 : Hex where
  encode bytes := String.ofList (Base16.encodeChars bytes)
  decode text := Base16.decodeChars text.toList
  decode_encode bytes := by rw [String.toList_ofList, Base16.decodeChars_encodeChars]

/-- The Ed25519 public key of the secret that is 32 times the byte 1. -/
def onesPublic : Secret :=
  ⟨[0x8a, 0x88, 0xe3, 0xdd, 0x74, 0x09, 0xf1, 0x95, 0xfd, 0x52, 0xdb,
    0x2d, 0x3c, 0xba, 0x5d, 0x72, 0xca, 0x67, 0x09, 0xbf, 0x1d, 0x94,
    0x12, 0x1b, 0xf3, 0x74, 0x88, 0x01, 0xb4, 0x0f, 0x6f, 0x5c], rfl⟩

/-- That of the secret that is 32 times the byte 3. -/
def threesPublic : Secret :=
  ⟨[0xed, 0x49, 0x28, 0xc6, 0x28, 0xd1, 0xc2, 0xc6, 0xea, 0xe9, 0x03,
    0x38, 0x90, 0x59, 0x95, 0x61, 0x29, 0x59, 0x27, 0x3a, 0x5c, 0x63,
    0xf9, 0x36, 0x36, 0xc1, 0x46, 0x14, 0xac, 0x87, 0x37, 0xd1], rfl⟩

/-- Keys that are their bytes, with the key pairs of two secrets; 32 times the byte 2 is
no point of the curve. -/
def someKeys : Keys Secret where
  fromBytes bytes := if bytes = List.Vector.replicate 32 2 then none else some bytes
  asBytes key := key
  publicOf secret :=
    if secret = List.Vector.replicate 32 1 then onesPublic
    else if secret = List.Vector.replicate 32 3 then threesPublic
    else secret
  asBytes_fromBytes bytes key valid := by
    split at valid
    · cases valid
    · exact (Option.some.inj valid).symm

end Cli
end Lantun
