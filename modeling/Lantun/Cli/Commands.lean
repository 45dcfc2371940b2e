import Mathlib.Data.String.Basic
import Lantun.Machine.Run
import Lantun.Data.SortedList
import Lantun.Cli.Config

namespace Lantun
namespace Cli

open SortedList State

/-!
# The commands that edit the config

Each command is one run of the program.  It loads the config file, works on the
two lists in memory, and saves them if it has changed something.  A missing file
counts as the default config, which the load also writes.

An entry is added by pushing it and sorting the list by name, and removed at the
first position with its name, in the list of hosts before the list of clients.
The machine has the file as its state, so what a command prints can be compared
with what it has written.
-/

/-- The text format of the config file. -/
structure Toml (Text : Type) where
  /-- `toml::ser::to_string`. -/
  serToString : LanTunConfig → Text
  /-- `toml::de::from_str`. -/
  deFromStr : Text → Option LanTunConfig
  deFromStr_serToString : ∀ config, deFromStr (serToString config) = some config

/-- `Action`.  A key is generated where the program would call `gen_secret`. -/
inductive Action where
  | createHostTunnel (localAddr : SocketAddr) (protocol : TunnelProtocol) (name : String)
      (generated : Secret)
  | addClientTunnel (secret : String) (localAddr : SocketAddr) (protocol : TunnelProtocol)
      (name : String)
  | listTunnels
  | removeTunnel (name : String)

/-- What the program prints, or reports as its error. -/
inductive Reply where
  | hostCreated (name : String) (localAddr : SocketAddr) (protocol : TunnelProtocol)
      (publicSecret : String)
  | clientCreated (name : String) (localAddr : SocketAddr) (protocol : TunnelProtocol)
  | rejected (text : String)
  | listed (hosts : List (String × SocketAddr × TunnelProtocol × String))
      (clients : List (String × SocketAddr × String))
  | hostRemoved (name : String)
  | clientRemoved (name : String)
  | notFound (name : String)
  /-- The config file cannot be read. -/
  | unreadable
  deriving DecidableEq

variable {Text PublicKey : Type} (toml : Toml Text) (hex : Hex) (keys : Keys PublicKey)

/-- `load_config`, as the config and the text that is then in the file. -/
def loadConfig : Option Text → Option (LanTunConfig × Text)
  | none => some (LanTunConfig.default, toml.serToString LanTunConfig.default)
  | some text => (toml.deFromStr text).map fun config => (config, text)

/-- The config a command would find. -/
def saved (file : Option Text) : Option LanTunConfig := (loadConfig toml file).map Prod.fst

def alreadyExists : String := "Tunnel with this local address and protocol already exists"

def invalidSecret : String := "Invalid secret format. It should be a hex string."

/-- The entry `add-host` makes. -/
def hostEntry (localAddr : SocketAddr) (protocol : TunnelProtocol) (name : String)
    (generated : Secret) : HostTunnelEntry where
  name := name
  localAddr := localAddr
  protocol := protocol
  privateSecret := hex.encode generated.toList
  publicSecret := hex.encode (keys.asBytes (keys.publicOf generated)).toList
  enabled := true

/-- The entry `add-client` makes. -/
def clientEntry (bytes : List UInt8) (localAddr : SocketAddr) (protocol : TunnelProtocol)
    (name : String) : ClientTunnelEntry where
  name := name
  localAddr := localAddr
  protocol := protocol
  secret := hex.encode bytes
  enabled := true

/-- The arms of `main` behind the load: the reply, and the config if it is
saved. -/
def perform (config : LanTunConfig) : Action → Reply × Option LanTunConfig
  | .createHostTunnel localAddr protocol name generated =>
      let newTunnel := hostEntry hex keys localAddr protocol name generated
      if config.hostTunnels.any fun tunnel =>
          tunnel.localAddr = localAddr ∧ tunnel.protocol = protocol then
        (.rejected alreadyExists, none)
      else
        (.hostCreated name localAddr protocol newTunnel.publicSecret,
          some { config with
            hostTunnels := pushSorted HostTunnelEntry.name config.hostTunnels newTunnel })
  | .addClientTunnel secret localAddr protocol name =>
      match hex.decode secret with
      | none => (.rejected invalidSecret, none)
      | some bytes =>
          if config.clientTunnels.any fun tunnel =>
              tunnel.localAddr = localAddr ∧ tunnel.protocol = protocol then
            (.rejected alreadyExists, none)
          else
            (.clientCreated name localAddr protocol,
              some { config with
                clientTunnels :=
                  pushSorted ClientTunnelEntry.name config.clientTunnels
                    (clientEntry hex bytes localAddr protocol name) })
  | .listTunnels =>
      (.listed
        (config.hostTunnels.map fun tunnel =>
          (tunnel.name, tunnel.localAddr, tunnel.protocol, tunnel.publicSecret))
        (config.clientTunnels.map fun tunnel =>
          (tunnel.name, tunnel.localAddr, tunnel.secret)), none)
  | .removeTunnel name =>
      match removeFirst (fun tunnel => decide (tunnel.name = name)) config.hostTunnels with
      | some hostTunnels => (.hostRemoved name, some { config with hostTunnels })
      | none =>
          match removeFirst (fun tunnel => decide (tunnel.name = name)) config.clientTunnels with
          | some clientTunnels => (.clientRemoved name, some { config with clientTunnels })
          | none => (.notFound name, none)

/-- One run of the program with an action. -/
def main (action : Action) (file : Option Text) : Reply × Option Text :=
  match loadConfig toml file with
  | none => (.unreadable, file)
  | some (config, text) =>
      match perform hex keys config action with
      | (reply, none) => (reply, some text)
      | (reply, some config) => (reply, some (toml.serToString config))

def machine : Machine (Option Text) Action where
  initial file := saved toml file = some LanTunConfig.default
  step file action := some (main toml hex keys action file).2

/-! ## What is claimed of every config and of every command -/

/-- Both lists are sorted by name and hold each address and protocol once. -/
structure Tidy (config : LanTunConfig) : Prop where
  hostsSorted : Sorted HostTunnelEntry.name config.hostTunnels
  clientsSorted : Sorted ClientTunnelEntry.name config.clientTunnels
  hostsDistinct : Distinct HostTunnelEntry.slot config.hostTunnels
  clientsDistinct : Distinct ClientTunnelEntry.slot config.clientTunnels

/-- How the saved config may differ after an action, given what was replied: by
one entry more, by one entry less, or not at all. -/
def Effect (before after : LanTunConfig) : Action → Reply → Prop
  | .createHostTunnel localAddr protocol name generated, .hostCreated _ _ _ _ =>
      after.clientTunnels = before.clientTunnels ∧
        Gains (hostEntry hex keys localAddr protocol name generated) before.hostTunnels
          after.hostTunnels
  | .addClientTunnel secret localAddr protocol name, .clientCreated _ _ _ =>
      after.hostTunnels = before.hostTunnels ∧ ∃ bytes, hex.decode secret = some bytes ∧
        Gains (clientEntry hex bytes localAddr protocol name) before.clientTunnels
          after.clientTunnels
  | .createHostTunnel _ _ _ _, .rejected _ => after = before
  | .addClientTunnel _ _ _ _, .rejected _ => after = before
  | .listTunnels, .listed _ _ => after = before
  | .removeTunnel name, .hostRemoved _ =>
      after.clientTunnels = before.clientTunnels ∧
        ∃ entry, entry.name = name ∧ Loses entry before.hostTunnels after.hostTunnels
  | .removeTunnel name, .clientRemoved _ =>
      after.hostTunnels = before.hostTunnels ∧
        ∃ entry, entry.name = name ∧ Loses entry before.clientTunnels after.clientTunnels
  | .removeTunnel name, .notFound _ =>
      after = before ∧ (∀ entry ∈ before.hostTunnels, entry.name ≠ name) ∧
        ∀ entry ∈ before.clientTunnels, entry.name ≠ name
  | _, _ => False

/-- An action changes the saved config as its reply tells. -/
def Framed (before : Option Text) (action : Action) (after : Option Text) : Prop :=
  ∃ old new, saved toml before = some old ∧ saved toml after = some new ∧
    Effect hex keys old new action (main toml hex keys action before).1

/-- The file holds a tidy config. -/
def HoldsTidy (file : Option Text) : Prop := ∃ config, saved toml file = some config ∧ Tidy config

/-! ## What one action does -/

variable {toml hex keys}

@[simp] theorem saved_serToString (config : LanTunConfig) :
    saved toml (some (toml.serToString config)) = some config := by
  simp [saved, loadConfig, toml.deFromStr_serToString]

/-- A load leaves a file with the config it returns. -/
theorem saved_of_loadConfig {file : Option Text} {config : LanTunConfig} {text : Text}
    (loaded : loadConfig toml file = some (config, text)) : saved toml (some text) = some config := by
  cases file with
  | none =>
      cases loaded
      exact saved_serToString _
  | some before =>
      rcases Option.map_eq_some_iff.mp loaded with ⟨found, is, same⟩
      cases same
      simp [saved, loadConfig, is]

variable (hex keys) in
/-- A run of the program acts on the saved config. -/
theorem main_eq {file : Option Text} {config : LanTunConfig}
    (is : saved toml file = some config) (action : Action) :
    (main toml hex keys action file).1 = (perform hex keys config action).1 ∧
      saved toml (main toml hex keys action file).2 =
        some ((perform hex keys config action).2.getD config) := by
  rcases Option.map_eq_some_iff.mp is with ⟨⟨found, text⟩, loaded, same⟩
  cases same
  unfold main
  rw [loaded]
  dsimp only
  cases performed : perform hex keys found action with
  | mk reply changed =>
      cases changed with
      | none => exact ⟨rfl, saved_of_loadConfig loaded⟩
      | some config => exact ⟨rfl, saved_serToString config⟩

theorem Tidy.default : Tidy LanTunConfig.default :=
  ⟨List.Pairwise.nil, List.Pairwise.nil, List.Pairwise.nil, List.Pairwise.nil⟩

/-- Where the search for a clash finds none, the new slot is free. -/
theorem slot_free {α : Type} (slot : α → SocketAddr × TunnelProtocol) {list : List α}
    {localAddr : SocketAddr} {protocol : TunnelProtocol}
    (none_ : ¬ (list.any fun other => (slot other).1 = localAddr ∧ (slot other).2 = protocol) = true) :
    ∀ other ∈ list, slot other ≠ (localAddr, protocol) := by
  intro other member same
  apply none_
  rw [List.any_eq_true]
  refine ⟨other, member, ?_⟩
  simp [same]

variable (hex keys) in
/-- Each action keeps the lists tidy and has the effect its reply tells. -/
theorem perform_spec {config : LanTunConfig} (tidy : Tidy config) (action : Action) :
    Tidy ((perform hex keys config action).2.getD config) ∧
      Effect hex keys config ((perform hex keys config action).2.getD config) action
        (perform hex keys config action).1 := by
  cases action with
  | createHostTunnel localAddr protocol name generated =>
      simp only [perform]
      split
      · exact ⟨tidy, rfl⟩
      · rename_i none_
        have free := slot_free HostTunnelEntry.slot none_
        refine ⟨⟨sorted_pushSorted _ _ _, tidy.clientsSorted, ?_, tidy.clientsDistinct⟩, rfl, ?_⟩
        · exact tidy.hostsDistinct.pushSorted _ free
        · exact gains_pushSorted tidy.hostsSorted _
  | addClientTunnel secret localAddr protocol name =>
      simp only [perform]
      cases decoded : hex.decode secret with
      | none => exact ⟨tidy, rfl⟩
      | some bytes =>
          dsimp only
          split
          · exact ⟨tidy, rfl⟩
          · rename_i none_
            have free := slot_free ClientTunnelEntry.slot none_
            refine ⟨⟨tidy.hostsSorted, sorted_pushSorted _ _ _, tidy.hostsDistinct, ?_⟩, rfl,
              bytes, decoded, ?_⟩
            · exact tidy.clientsDistinct.pushSorted _ free
            · exact gains_pushSorted tidy.clientsSorted _
  | listTunnels => exact ⟨tidy, rfl⟩
  | removeTunnel name =>
      simp only [perform]
      cases inHosts : removeFirst (fun tunnel => decide (tunnel.name = name)) config.hostTunnels with
      | some hostTunnels =>
          rcases loses_of_removeFirst inHosts with ⟨entry, named, loses⟩
          refine ⟨⟨?_, tidy.clientsSorted, ?_, tidy.clientsDistinct⟩, rfl, entry,
            of_decide_eq_true named, loses⟩
          · exact tidy.hostsSorted.sublist loses.sublist
          · exact tidy.hostsDistinct.sublist loses.sublist
      | none =>
          have noHost : ∀ entry ∈ config.hostTunnels, entry.name ≠ name := fun entry member =>
            of_decide_eq_false (removeFirst_eq_none.mp inHosts entry member)
          cases inClients :
            removeFirst (fun tunnel => decide (tunnel.name = name)) config.clientTunnels with
          | some clientTunnels =>
              rcases loses_of_removeFirst inClients with ⟨entry, named, loses⟩
              refine ⟨⟨tidy.hostsSorted, ?_, tidy.hostsDistinct, ?_⟩, rfl, entry,
                of_decide_eq_true named, loses⟩
              · exact tidy.clientsSorted.sublist loses.sublist
              · exact tidy.clientsDistinct.sublist loses.sublist
          | none =>
              exact ⟨tidy, rfl, noHost, fun entry member =>
                of_decide_eq_false (removeFirst_eq_none.mp inClients entry member)⟩

theorem inductive_holdsTidy : (machine toml hex keys).Inductive (HoldsTidy toml) where
  start file first := ⟨_, first, Tidy.default⟩
  step file action next holds taken := by
    cases taken
    rcases holds with ⟨config, is, tidy⟩
    exact ⟨_, (main_eq hex keys is action).2, (perform_spec hex keys tidy action).1⟩

/-- However many actions are run from the default config, the saved lists stay
sorted by name and free of clashes, and every action changes them as it
reports. -/
theorem config_kept (actions : List Action) {file : Option Text}
    (first : saved toml file = some LanTunConfig.default) :
    (machine toml hex keys).EveryState (HoldsTidy toml) actions file ∧
      (machine toml hex keys).EveryStep (Framed toml hex keys) actions file := by
  have start : HoldsTidy toml file := ⟨_, first, Tidy.default⟩
  refine ⟨inductive_holdsTidy.everyState actions start,
    inductive_holdsTidy.everyStep ?_ actions start⟩
  rintro before action after ⟨config, is, tidy⟩ taken
  cases taken
  have ran := main_eq hex keys is action
  refine ⟨config, _, is, ran.2, ?_⟩
  rw [ran.1]
  exact (perform_spec hex keys tidy action).2

/-- A format that keeps the config as it is. -/
def plainToml : Toml LanTunConfig where
  serToString config := config
  deFromStr := some
  deFromStr_serToString _ := rfl

/-- A host tunnel is added, refused a second time, and removed. -/
def addAndRemove : List Action :=
  [.createHostTunnel (.v4 0 80) .tcp "web" (List.Vector.replicate 32 1),
    .createHostTunnel (.v4 0 80) .tcp "again" (List.Vector.replicate 32 3), .listTunnels,
    .removeTunnel "again", .removeTunnel "web"]

theorem config_kept_addAndRemove :
    (machine plainToml base16 someKeys).EveryState (HoldsTidy plainToml) addAndRemove none ∧
      (machine plainToml base16 someKeys).EveryStep (Framed plainToml base16 someKeys)
        addAndRemove none :=
  config_kept addAndRemove rfl

end Cli
end Lantun
