import Lantun.Cli.Commands

namespace Lantun
namespace Cli

open SortedList State

/-!
# Which saved configs can be started

`add-client` asks of a secret that it is hexadecimal, `create_state` that it is
32 bytes, and `ClientState::create_tunnel` that these are a public key.  An entry
that only the first accepts is saved, and from then on no tunnel of the config
can be started until the entry is removed.

Nothing else goes wrong.  The private secrets of hosts are written by `add-host`
itself, and the lists hold each address and protocol once.
-/

variable {Text PublicKey : Type} {toml : Toml Text} {hex : Hex} {keys : Keys PublicKey}

/-- The 32 bytes are a public key. -/
def ValidSecret (keys : Keys PublicKey) (bytes : List UInt8) : Prop :=
  ∃ secret key, bytes = List.Vector.toList secret ∧ keys.fromBytes secret = some key

/-- `create_state` on the saved config returns `Ok`. -/
def Startable (toml : Toml Text) (hex : Hex) (keys : Keys PublicKey) (file : Option Text) : Prop :=
  ∃ config state, saved toml file = some config ∧ createState hex keys config = .ok state

/-- If the action is an `add-client` that is accepted, its secret is a public
key. -/
def AddsValid (toml : Toml Text) (hex : Hex) (keys : Keys PublicKey) (before : Option Text)
    (action : Action) (_after : Option Text) : Prop :=
  ∀ secret localAddr protocol name bytes config,
    action = .addClientTunnel secret localAddr protocol name →
    hex.decode secret = some bytes → saved toml before = some config →
    (∀ tunnel ∈ config.clientTunnels, tunnel.slot ≠ (localAddr, protocol)) →
    ValidSecret keys bytes

/-- The config is tidy and its hosts load. -/
def HostsLoad (toml : Toml Text) (hex : Hex) (file : Option Text) : Prop :=
  ∃ config, saved toml file = some config ∧ Tidy config ∧
    ∀ tunnel ∈ config.hostTunnels, tunnel.Loads hex

/-- An entry that `add-client` writes loads if its secret is a public key. -/
theorem clientEntry_loads {bytes : List UInt8} {localAddr : SocketAddr}
    {protocol : TunnelProtocol} {name : String} :
    (clientEntry hex bytes localAddr protocol name).Loads hex keys ↔ ValidSecret keys bytes := by
  unfold ClientTunnelEntry.Loads ValidSecret clientEntry Hex.secret?
  rw [hex.decode_encode]
  simp only [Option.bind_some]
  constructor
  · rintro ⟨secret, key, is, valid⟩
    split at is
    · cases is
      exact ⟨_, key, rfl, valid⟩
    · cases is
  · rintro ⟨secret, key, rfl, valid⟩
    refine ⟨secret, key, ?_, valid⟩
    simp

theorem hostEntry_loads (localAddr : SocketAddr) (protocol : TunnelProtocol) (name : String)
    (generated : Secret) : (hostEntry hex keys localAddr protocol name generated).Loads hex :=
  ⟨generated, hex.secret?_encode generated⟩

/-- Where the hosts load, only the clients can be in the way. -/
theorem startable_iff {file : Option Text} {config : LanTunConfig}
    (is : saved toml file = some config) (tidy : Tidy config)
    (hosts : ∀ tunnel ∈ config.hostTunnels, tunnel.Loads hex) :
    Startable toml hex keys file ↔ ∀ tunnel ∈ config.clientTunnels, tunnel.Loads hex keys := by
  constructor
  · rintro ⟨other, state, same, made⟩
    cases is.symm.trans same
    exact (exists_createState.mp ⟨state, made⟩).2.1
  · intro clients
    have nodup : (config.clientTunnels.map ClientTunnelEntry.slot).Nodup :=
      List.pairwise_map.mpr tidy.clientsDistinct
    rcases exists_createState.mpr ⟨hosts, clients, nodup⟩ with ⟨state, made⟩
    exact ⟨config, state, is, made⟩

/-- Every action leaves hosts that load. -/
theorem Effect.hosts_load {before after : LanTunConfig} {action : Action} {reply : Reply}
    (effect : Effect hex keys before after action reply)
    (hosts : ∀ tunnel ∈ before.hostTunnels, tunnel.Loads hex) :
    ∀ tunnel ∈ after.hostTunnels, tunnel.Loads hex := by
  unfold Effect at effect
  split at effect
  · rename_i localAddr protocol name generated _ _ _ _
    intro tunnel member
    rcases List.mem_cons.mp (effect.2.1.mem_iff.mp member) with rfl | old
    · exact hostEntry_loads localAddr protocol name generated
    · exact hosts tunnel old
  · rw [effect.1]
    exact hosts
  · exact effect ▸ hosts
  · exact effect ▸ hosts
  · exact effect ▸ hosts
  · rcases effect.2 with ⟨entry, _, loses⟩
    exact fun tunnel member => hosts tunnel (loses.sublist.subset member)
  · rw [effect.1]
    exact hosts
  · exact effect.1 ▸ hosts
  · exact effect.elim

/-- An action other than `add-client` leaves no client entry that was not there. -/
theorem Effect.clients_subset {before after : LanTunConfig} {action : Action} {reply : Reply}
    (effect : Effect hex keys before after action reply)
    (other : ∀ secret localAddr protocol name,
      action ≠ .addClientTunnel secret localAddr protocol name) :
    after.clientTunnels ⊆ before.clientTunnels := by
  unfold Effect at effect
  split at effect
  · rw [effect.1]
    exact List.Subset.refl _
  · exact absurd rfl (other _ _ _ _)
  · exact effect ▸ List.Subset.refl _
  · exact effect ▸ List.Subset.refl _
  · exact effect ▸ List.Subset.refl _
  · rw [effect.1]
    exact List.Subset.refl _
  · rcases effect.2 with ⟨entry, _, loses⟩
    exact loses.sublist.subset
  · exact effect.1 ▸ List.Subset.refl _
  · exact effect.elim

/-- An `add-client` with a hexadecimal secret and a free slot pushes its entry. -/
theorem perform_addClient {config : LanTunConfig} {secret : String} {bytes : List UInt8}
    (decoded : hex.decode secret = some bytes) {localAddr : SocketAddr} {protocol : TunnelProtocol}
    (free : ∀ tunnel ∈ config.clientTunnels, tunnel.slot ≠ (localAddr, protocol)) (name : String) :
    (perform hex keys config (.addClientTunnel secret localAddr protocol name)).2 =
      some { config with
        clientTunnels :=
          pushSorted ClientTunnelEntry.name config.clientTunnels
            (clientEntry hex bytes localAddr protocol name) } := by
  simp only [perform, decoded]
  rw [if_neg]
  intro clash
  rcases List.any_eq_true.mp clash with ⟨tunnel, member, same⟩
  exact free tunnel member (Prod.ext_iff.mpr (of_decide_eq_true same))

/-- Any other `add-client` saves nothing. -/
theorem perform_addClient_refused {config : LanTunConfig} {secret : String}
    {localAddr : SocketAddr} {protocol : TunnelProtocol} {name : String}
    (refused : ¬ ∃ bytes, hex.decode secret = some bytes ∧
      ∀ tunnel ∈ config.clientTunnels, tunnel.slot ≠ (localAddr, protocol)) :
    (perform hex keys config (.addClientTunnel secret localAddr protocol name)).2 = none := by
  simp only [perform]
  cases decoded : hex.decode secret with
  | none => rfl
  | some bytes =>
      dsimp only
      split
      · rfl
      · rename_i none_
        exact absurd ⟨bytes, decoded, slot_free ClientTunnelEntry.slot none_⟩ refused

theorem inductive_hostsLoad : (machine toml hex keys).Inductive (HostsLoad toml hex) where
  start file first := ⟨_, first, Tidy.default, fun _ member => nomatch member⟩
  step file action next holds taken := by
    cases taken
    rcases holds with ⟨config, is, tidy, hosts⟩
    have spec := perform_spec hex keys tidy action
    exact ⟨_, (main_eq hex keys is action).2, spec.1, spec.2.hosts_load hosts⟩

/-- From a config that can be started, an action leads to one exactly if it does
not add a client whose secret is no public key. -/
theorem startable_step_iff {before after : Option Text} {action : Action}
    (holds : HostsLoad toml hex before) (startable : Startable toml hex keys before)
    (taken : (machine toml hex keys).step before action = some after) :
    Startable toml hex keys after ↔ AddsValid toml hex keys before action after := by
  cases taken
  rcases holds with ⟨config, is, tidy, hosts⟩
  have spec := perform_spec hex keys tidy action
  have ran := (main_eq hex keys is action).2
  have loaded := (startable_iff is tidy hosts).mp startable
  rw [startable_iff ran spec.1 (spec.2.hosts_load hosts)]
  by_cases adds : ∃ secret localAddr protocol name bytes,
      action = .addClientTunnel secret localAddr protocol name ∧
      hex.decode secret = some bytes ∧
      ∀ tunnel ∈ config.clientTunnels, tunnel.slot ≠ (localAddr, protocol)
  · rcases adds with ⟨secret, localAddr, protocol, name, bytes, rfl, decoded, free⟩
    rw [perform_addClient decoded free name]
    constructor
    · rintro every _ _ _ _ _ _ ⟨⟩ decoded' is' _
      cases decoded.symm.trans decoded'
      exact clientEntry_loads.mp (every _ (mem_pushSorted.mpr (Or.inl rfl)))
    · intro valid tunnel member
      rcases mem_pushSorted.mp member with rfl | old
      · exact clientEntry_loads.mpr
          (valid secret localAddr protocol name bytes config rfl decoded is free)
      · exact loaded tunnel old
  · refine iff_of_true (fun tunnel member => loaded tunnel ?_) ?_
    · by_cases client : ∃ secret localAddr protocol name,
          action = .addClientTunnel secret localAddr protocol name
      · rcases client with ⟨secret, localAddr, protocol, name, rfl⟩
        rw [perform_addClient_refused (fun accepted => adds ?_)] at member
        · exact member
        · rcases accepted with ⟨bytes, decoded, free⟩
          exact ⟨secret, localAddr, protocol, name, bytes, rfl, decoded, free⟩
      · exact spec.2.clients_subset (fun secret localAddr protocol name same =>
          client ⟨secret, localAddr, protocol, name, same⟩) member
    · intro secret localAddr protocol name bytes other same decoded is' free
      cases is.symm.trans is'
      exact absurd ⟨secret, localAddr, protocol, name, bytes, same, decoded, free⟩ adds

/-- Along any sequence of actions from the default config every saved config can
be started if and only if every accepted `add-client` was given 32 bytes that
are a public key.  A `remove` of the faulty entry comes too late for the configs
saved before it. -/
theorem startable_iff_addsValid (actions : List Action) {file : Option Text}
    (first : saved toml file = some LanTunConfig.default) :
    (machine toml hex keys).EveryState (Startable toml hex keys) actions file ↔
      (machine toml hex keys).EveryStep (AddsValid toml hex keys) actions file := by
  have holds : HostsLoad toml hex file :=
    ⟨_, first, Tidy.default, fun _ member => nomatch member⟩
  have startable : Startable toml hex keys file :=
    (startable_iff first Tidy.default fun _ member => nomatch member).mpr
      fun _ member => nomatch member
  exact Machine.everyState_iff_everyStep
    (fun before action after holds taken _ => inductive_hostsLoad.step before action after holds taken)
    (fun before action after holds startable taken => startable_step_iff holds startable taken)
    actions holds startable

/-- A client is added whose secret is one byte. -/
def shortSecret : Action := .addClientTunnel "00" (.v4 0 80) .tcp "client tunnel"

theorem startable_iff_addsValid_shortSecret :
    (machine plainToml base16 someKeys).EveryState (Startable plainToml base16 someKeys)
        [shortSecret] none ↔
      (machine plainToml base16 someKeys).EveryStep (AddsValid plainToml base16 someKeys)
        [shortSecret] none :=
  startable_iff_addsValid [shortSecret] rfl

/-- The command accepts it, and the saved config cannot be started. -/
theorem shortSecret_blocks : ¬ ∀ actions : List Action,
    (machine plainToml base16 someKeys).EveryState (Startable plainToml base16 someKeys)
      actions none := by
  intro always
  rcases (always [shortSecret]).2 _ rfl with ⟨config, state, is, made⟩
  have ends : saved plainToml (main plainToml base16 someKeys shortSecret none).2 =
      some ⟨[], [clientEntry base16 [0] (.v4 0 80) .tcp "client tunnel"]⟩ := by decide
  cases ends.symm.trans is
  have loads := (exists_createState.mp ⟨state, made⟩).2.1 _ List.mem_cons_self
  rcases clientEntry_loads.mp loads with ⟨secret, key, same, _⟩
  exact absurd (congrArg List.length same) (by rw [secret.toList_length]; decide)

end Cli
end Lantun
