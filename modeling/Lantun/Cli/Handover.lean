import Lantun.Cli.Enabled
import Lantun.Cli.Startable

namespace Lantun
namespace Cli

open SortedList State

/-!
# From `add-host` on one machine to `add-client` on another

`add-host` prints the public half of the secret it has generated, and whoever
runs the other side passes that text to `add-client`.  Between the two commands
and the start of the program both users go on editing their configs.

A saved entry survives every command but a `remove` of its name.  The host tunnel
made from it is stored under the generated secret, where a later entry would
replace it only if it had been given the same secret.
-/

/-- The secret that a command generates. -/
def Action.generates : Action → Option Secret
  | .createHostTunnel _ _ _ generated => some generated
  | _ => none

/-- A config file that was made from the default one by commands, of which this
one was replied to in this way; its entry has not been removed by its name since. -/
structure Ran {Text PublicKey : Type} (toml : Toml Text) (hex : Hex) (keys : Keys PublicKey)
    (before : List Action) (action : Action) (reply : Reply) (later : List Action)
    (name : String) (file : Option Text) : Prop where
  kept : .removeTunnel name ∉ later
  ran : ∃ first middle, saved toml first = some LanTunConfig.default ∧
    (machine toml hex keys).run before first = some middle ∧
    (main toml hex keys action middle).1 = reply ∧
    (machine toml hex keys).run later (main toml hex keys action middle).2 = some file

variable {Text PublicKey : Type} {toml : Toml Text} {hex : Hex} {keys : Keys PublicKey}

/-! ## What one command leaves of an entry -/

theorem mem_of_loses {α : Type} {gone element : α} {before after : List α}
    (loses : Loses gone before after) (here : element ∈ before) :
    element = gone ∨ element ∈ after := by
  rcases loses with ⟨front, back, rfl, rfl⟩
  simp only [List.mem_append, List.mem_cons] at here ⊢
  rcases here with inFront | same | inBack
  · exact Or.inr (Or.inl inFront)
  · exact Or.inl same
  · exact Or.inr (Or.inr inBack)

/-- Only a `remove` of its name takes an entry away. -/
theorem Effect.kept {before after : LanTunConfig} {action : Action} {reply : Reply} {name : String}
    (effect : Effect hex keys before after action reply) (kept : action ≠ .removeTunnel name) :
    (∀ entry ∈ before.hostTunnels, entry.name = name → entry ∈ after.hostTunnels) ∧
      ∀ entry ∈ before.clientTunnels, entry.name = name → entry ∈ after.clientTunnels := by
  unfold Effect at effect
  split at effect
  · refine ⟨fun entry here _ => ?_, fun entry here _ => effect.1 ▸ here⟩
    exact effect.2.1.mem_iff.mpr (List.mem_cons_of_mem _ here)
  · rcases effect.2 with ⟨bytes, _, gains⟩
    refine ⟨fun entry here _ => effect.1 ▸ here, fun entry here _ => ?_⟩
    exact gains.1.mem_iff.mpr (List.mem_cons_of_mem _ here)
  · exact ⟨fun entry here _ => effect ▸ here, fun entry here _ => effect ▸ here⟩
  · exact ⟨fun entry here _ => effect ▸ here, fun entry here _ => effect ▸ here⟩
  · exact ⟨fun entry here _ => effect ▸ here, fun entry here _ => effect ▸ here⟩
  · rcases effect.2 with ⟨gone, named, loses⟩
    refine ⟨fun entry here is => ?_, fun entry here _ => effect.1 ▸ here⟩
    refine (mem_of_loses loses here).resolve_left fun same => kept ?_
    rw [← is, same, named]
  · rcases effect.2 with ⟨gone, named, loses⟩
    refine ⟨fun entry here _ => effect.1 ▸ here, fun entry here is => ?_⟩
    refine (mem_of_loses loses here).resolve_left fun same => kept ?_
    rw [← is, same, named]
  · exact ⟨fun entry here _ => effect.1 ▸ here, fun entry here _ => effect.1 ▸ here⟩
  · exact effect.elim

/-- The host entries with this private secret are among these. -/
def Sole (hex : Hex) (generated : Secret) (expected : Option HostTunnelEntry)
    (config : LanTunConfig) : Prop :=
  ∀ entry ∈ config.hostTunnels, hex.secret? entry.privateSecret = some generated →
    expected = some entry

theorem Effect.sole {before after : LanTunConfig} {action : Action} {reply : Reply}
    (effect : Effect hex keys before after action reply) {generated : Secret}
    {expected : Option HostTunnelEntry} (sole : Sole hex generated expected before)
    (other : action.generates ≠ some generated) : Sole hex generated expected after := by
  unfold Effect at effect
  split at effect
  · intro entry member is
    rcases List.mem_cons.mp (effect.2.1.mem_iff.mp member) with rfl | old
    · have same := (hex.secret?_encode _).symm.trans is
      exact absurd same other
    · exact sole entry old is
  · exact fun entry member => sole entry (effect.1 ▸ member)
  · exact effect ▸ sole
  · exact effect ▸ sole
  · exact effect ▸ sole
  · rcases effect.2 with ⟨gone, _, loses⟩
    exact fun entry member => sole entry (loses.sublist.subset member)
  · exact fun entry member => sole entry (effect.1 ▸ member)
  · exact effect.1 ▸ sole
  · exact effect.elim

/-! ## What a run of commands leaves of it -/

/-- A tidy config of which more is known. -/
def Holds (toml : Toml Text) (P : LanTunConfig → Prop) (file : Option Text) : Prop :=
  ∃ config, saved toml file = some config ∧ Tidy config ∧ P config

/-- What survives the effect of each of the commands holds of the config they
leave. -/
theorem Holds.run {P : LanTunConfig → Prop} {actions : List Action}
    (survives : ∀ action ∈ actions, ∀ before after reply, P before →
      Effect hex keys before after action reply → P after) {file after : Option Text}
    (holds : Holds toml P file) (ran : (machine toml hex keys).run actions file = some after) :
    Holds toml P after := by
  have every : (machine toml hex keys).EveryState (Holds toml P) actions file := by
    apply Machine.everyState_of_steps _ holds
    rintro action listed before next ⟨config, is, tidy, known⟩ taken
    cases taken
    have spec := perform_spec hex keys tidy action
    exact ⟨_, (main_eq hex keys is action).2, spec.1,
      survives action listed _ _ _ known spec.2⟩
  exact every.of_run ran

/-- What is known of the config a reported command has left. -/
theorem Ran.holds {P Q : LanTunConfig → Prop} {before later : List Action} {action : Action}
    {reply : Reply} {name : String} {file : Option Text}
    (ran : Ran toml hex keys before action reply later name file) (first : P LanTunConfig.default)
    (earlier : ∀ action ∈ before, ∀ old new reply, P old → Effect hex keys old new action reply →
      P new)
    (now : ∀ old new, P old → Effect hex keys old new action reply → Q new)
    (since : ∀ action ∈ later, action ≠ .removeTunnel name → ∀ old new reply, Q old →
      Effect hex keys old new action reply → Q new) : Holds toml Q file := by
  rcases ran.ran with ⟨start, middle, is, front, replied, back⟩
  have held : Holds toml P middle := Holds.run earlier ⟨_, is, Tidy.default, first⟩ front
  rcases held with ⟨config, found, tidy, known⟩
  have spec := perform_spec hex keys tidy action
  have did := main_eq hex keys found action
  rw [← did.1, replied] at spec
  refine Holds.run ?_ ⟨_, did.2, spec.1, now _ _ known spec.2⟩ back
  intro other listed
  exact since other listed fun same => ran.kept (same ▸ listed)

/-! ## The tunnels made from the entries -/

/-- Where a slot is taken it stays as it is. -/
theorem createClientTunnels_frame {entries : List ClientTunnelEntry}
    {client next : ClientState PublicKey}
    (made : createClientTunnels hex keys entries client = .ok next)
    {slot : SocketAddr × TunnelProtocol} (taken : slot ∈ client) :
    next.lookup slot = client.lookup slot := by
  induction entries generalizing client with
  | nil =>
      cases made
      rfl
  | cons entry entries ih =>
      rcases createClientTunnels_cons_eq_ok.mp made with ⟨absent, secret, key, _, _, rest⟩
      rw [ih rest ((AList.mem_insert _).mpr (Or.inr taken))]
      exact AList.lookup_insert_ne fun same => absent (same ▸ taken)

/-- Every client entry has its tunnel at its slot. -/
theorem createClientTunnels_lookup {entries : List ClientTunnelEntry}
    {client next : ClientState PublicKey}
    (made : createClientTunnels hex keys entries client = .ok next) {entry : ClientTunnelEntry}
    (member : entry ∈ entries) :
    ∃ secret key, hex.secret? entry.secret = some secret ∧ keys.fromBytes secret = some key ∧
      next.lookup entry.slot =
        some (ClientTunnel.created entry.localAddr entry.name key entry.protocol) := by
  induction entries generalizing client with
  | nil => cases member
  | cons first entries ih =>
      rcases createClientTunnels_cons_eq_ok.mp made with ⟨_, secret, key, is, valid, rest⟩
      rcases List.mem_cons.mp member with rfl | later
      · refine ⟨secret, key, is, valid, ?_⟩
        rw [createClientTunnels_frame rest ((AList.mem_insert _).mpr (Or.inl rfl))]
        exact AList.lookup_insert _
      · exact ih rest later

/-- A host entry whose secret no other entry has is the one its tunnel is made
from. -/
theorem createHostTunnels_sole {config : LanTunConfig} {next : Hosting} {generated : Secret}
    {entry : HostTunnelEntry} (made : createHostTunnels hex config.hostTunnels Hosting.new = .ok next)
    (member : entry ∈ config.hostTunnels)
    (is : hex.secret? entry.privateSecret = some generated)
    (sole : Sole hex generated (some entry) config) :
    ∃ tunnel, next.tunnels.lookup generated = some tunnel ∧ entry.Matches hex tunnel := by
  rcases exists_final ⟨entry, member, is⟩ with ⟨last, final, same⟩
  cases sole last final.mem same
  rcases createHostTunnels_final made final with ⟨tunnel, found, fits⟩
  have at_ : tunnel.secret = generated := Option.some.inj (fits.2.2.2.symm.trans is)
  exact ⟨tunnel, at_ ▸ found, fits⟩

/-! ## Both ends -/

/-- What `add-host` prints is the public half of what it has generated. -/
theorem printed_of_perform {config : LanTunConfig} {localAddr : SocketAddr}
    {protocol : TunnelProtocol} {name printed : String} {generated : Secret}
    (replied : (perform hex keys config (.createHostTunnel localAddr protocol name generated)).1 =
      .hostCreated name localAddr protocol printed) :
    printed = hex.encode (keys.asBytes (keys.publicOf generated)).toList := by
  simp only [perform] at replied
  split at replied
  · cases replied
  · cases replied
    rfl

/-- The entry of the host, whatever has been done to the config since. -/
theorem Ran.host_entry {before later : List Action} {localAddr : SocketAddr}
    {protocol : TunnelProtocol} {name printed : String} {generated : Secret} {file : Option Text}
    (ran : Ran toml hex keys before (.createHostTunnel localAddr protocol name generated)
      (.hostCreated name localAddr protocol printed) later name file)
    (fresh : ∀ action ∈ before ++ later, action.generates ≠ some generated) :
    Holds toml (fun config => hostEntry hex keys localAddr protocol name generated ∈
      config.hostTunnels ∧ Sole hex generated
        (some (hostEntry hex keys localAddr protocol name generated)) config) file := by
  apply ran.holds (P := Sole hex generated none)
  · exact fun entry member => nomatch member
  · exact fun action listed old new reply sole effect =>
      effect.sole sole (fresh action (List.mem_append_left later listed))
  · intro old new sole effect
    have gains := effect.2
    refine ⟨gains.1.mem_iff.mpr List.mem_cons_self, fun entry member is => ?_⟩
    rcases List.mem_cons.mp (gains.1.mem_iff.mp member) with same | older
    · exact congrArg some same.symm
    · cases sole entry older is
  · rintro action listed kept old new reply ⟨member, sole⟩ effect
    exact ⟨(effect.kept kept).1 _ member rfl,
      effect.sole sole (fresh action (List.mem_append_right before listed))⟩

/-- The entry of the client, whatever has been done to the config since. -/
theorem Ran.client_entry {before later : List Action} {localAddr : SocketAddr}
    {protocol : TunnelProtocol} {name secret : String} {bytes : List UInt8} {file : Option Text}
    (ran : Ran toml hex keys before (.addClientTunnel secret localAddr protocol name)
      (.clientCreated name localAddr protocol) later name file)
    (decoded : hex.decode secret = some bytes) :
    Holds toml (fun config => clientEntry hex bytes localAddr protocol name ∈
      config.clientTunnels) file := by
  apply ran.holds (P := fun _ => True) trivial
  · exact fun _ _ _ _ _ _ _ => trivial
  · rintro old new - ⟨_, same, is, gains⟩
    cases decoded.symm.trans is
    exact gains.1.mem_iff.mpr List.mem_cons_self
  · exact fun action _ kept old new reply member effect => (effect.kept kept).2 _ member rfl

/-- Whatever both users do to their configs before and after, short of removing
the two tunnels by name and of generating the same secret twice: if `add-host` has
accepted a tunnel on one machine, and `add-client` on another the secret it has
printed, then once both configs are started the client tunnel at its slot dials
the very key that the host tunnel listens under, and that tunnel forwards to the
address it was added with. -/
theorem handed_over_meets {hostBefore hostLater clientBefore clientLater : List Action}
    {hostAddr clientAddr : SocketAddr} {hostProtocol clientProtocol : TunnelProtocol}
    {hostName clientName printed : String} {generated : Secret} {hostFile clientFile : Option Text}
    {hostConfig clientConfig : LanTunConfig} {hosting joining : LanTun PublicKey}
    (added : Ran toml hex keys hostBefore
      (.createHostTunnel hostAddr hostProtocol hostName generated)
      (.hostCreated hostName hostAddr hostProtocol printed) hostLater hostName hostFile)
    (fresh : ∀ action ∈ hostBefore ++ hostLater, action.generates ≠ some generated)
    (joined : Ran toml hex keys clientBefore
      (.addClientTunnel printed clientAddr clientProtocol clientName)
      (.clientCreated clientName clientAddr clientProtocol) clientLater clientName clientFile)
    (readable : keys.fromBytes (keys.asBytes (keys.publicOf generated)) =
      some (keys.publicOf generated))
    (hostSaved : saved toml hostFile = some hostConfig)
    (hostStarted : createState hex keys hostConfig = .ok hosting)
    (clientSaved : saved toml clientFile = some clientConfig)
    (clientStarted : createState hex keys clientConfig = .ok joining) :
    ∃ host client, hosting.host.tunnels.lookup generated = some host ∧
      host.secret = generated ∧ host.name = hostName ∧ host.hostAddr = hostAddr ∧
      host.protocol = hostProtocol ∧
      joining.client.lookup (clientAddr, clientProtocol) = some client ∧
      client.secret = keys.publicOf host.secret ∧ client.name = clientName ∧
      client.tunnelAddr = clientAddr ∧ client.protocol = clientProtocol := by
  have text : printed = hex.encode (keys.asBytes (keys.publicOf generated)).toList := by
    rcases added.ran with ⟨first, middle, is, front, replied, _⟩
    rcases (inductive_holdsTidy.run ⟨_, is, Tidy.default⟩ front) with ⟨config, found, _⟩
    exact printed_of_perform ((main_eq hex keys found _).1.symm.trans replied)
  rcases added.host_entry fresh with ⟨config, found, _, member, sole⟩
  cases found.symm.trans hostSaved
  rcases createHostTunnels_sole (createState_eq_ok.mp hostStarted).1 member
    (hex.secret?_encode generated) sole with ⟨host, listed, fits⟩
  have own : host.secret = generated :=
    Option.some.inj (fits.2.2.2.symm.trans (hex.secret?_encode generated))
  have decoded : hex.decode printed = some (keys.asBytes (keys.publicOf generated)).toList := by
    rw [text, hex.decode_encode]
  rcases joined.client_entry decoded with ⟨config, found, _, member⟩
  cases found.symm.trans clientSaved
  rcases createClientTunnels_lookup (createState_eq_ok.mp clientStarted).2 member with
    ⟨secret, key, is, valid, there⟩
  cases (hex.secret?_encode _).symm.trans is
  cases readable.symm.trans valid
  exact ⟨host, _, listed, own, fits.1, fits.2.1, fits.2.2.1, there, by rw [own]; rfl, rfl, rfl, rfl⟩

/-- The server of one user. -/
def mcServer : HostTunnelEntry :=
  hostEntry base16 someKeys (.v4 0 25565) .tcp "mc-server" (List.Vector.replicate 32 1)

/-- The tunnel of the other user to it. -/
def mcClient : ClientTunnelEntry :=
  clientEntry base16 onesPublic.toList (.v4 0 25566) .tcp "mc"

/-- One user adds the server and lists the tunnels, the other one adds the client. -/
theorem handed_over_meets_mcServer : ∃ (hosting joining : LanTun Secret) (host : HostTunnel)
    (client : ClientTunnel Secret), createState base16 someKeys ⟨[mcServer], []⟩ = .ok hosting ∧
      createState base16 someKeys ⟨[], [mcClient]⟩ = .ok joining ∧
      host ∈ hosting.host.tunnels.lookup (List.Vector.replicate 32 1) ∧
      client ∈ joining.client.lookup (.v4 0 25566, .tcp) ∧
      host.hostAddr = .v4 0 25565 ∧ client.secret = onesPublic := by
  have serves : ∃ state, createState base16 someKeys ⟨[mcServer], []⟩ = .ok state := by
    refine exists_createState.mpr ⟨?_, (fun _ member => nomatch member), by decide⟩
    simp only [List.mem_singleton, forall_eq]
    exact hostEntry_loads _ _ _ _
  have joins : ∃ state, createState base16 someKeys ⟨[], [mcClient]⟩ = .ok state := by
    refine exists_createState.mpr ⟨(fun _ member => nomatch member), ?_, by decide⟩
    simp only [List.mem_singleton, forall_eq]
    exact clientEntry_loads.mpr ⟨onesPublic, _, rfl, rfl⟩
  rcases serves with ⟨hosting, hostStarted⟩
  rcases joins with ⟨joining, clientStarted⟩
  have added : Ran plainToml base16 someKeys []
      (.createHostTunnel (.v4 0 25565) .tcp "mc-server" (List.Vector.replicate 32 1))
      (.hostCreated "mc-server" (.v4 0 25565) .tcp mcServer.publicSecret) [.listTunnels] "mc-server"
      (some ⟨[mcServer], []⟩) :=
    ⟨by simp, none, none, rfl, rfl, rfl, rfl⟩
  have joined : Ran plainToml base16 someKeys []
      (.addClientTunnel mcServer.publicSecret (.v4 0 25566) .tcp "mc")
      (.clientCreated "mc" (.v4 0 25566) .tcp) [] "mc" (some ⟨[], [mcClient]⟩) := by
    have decoded : base16.decode mcServer.publicSecret = some onesPublic.toList :=
      base16.decode_encode _
    refine ⟨by simp, none, none, rfl, rfl, ?_, ?_⟩ <;>
      simp [main, loadConfig, LanTunConfig.default, perform, decoded, plainToml, pushSorted, mcClient]
  rcases handed_over_meets added (by simp [Action.generates]) joined rfl rfl hostStarted rfl
    clientStarted with ⟨host, client, listed, own, _, addr, _, there, same, _⟩
  have dials : client.secret = onesPublic := by
    rw [same, own]
    rfl
  exact ⟨hosting, joining, host, client, hostStarted, clientStarted, listed, there, addr, dials⟩

end Cli
end Lantun
