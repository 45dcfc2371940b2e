import Lantun.Cli.Commands

namespace Lantun
namespace Cli

open SortedList State

/-!
# Taking back the last addition

`remove` goes by the name alone.  The help text of its argument speaks of the
secret of the tunnel, and an addition is refused for its address and protocol
only, so several entries may have one name; those added without a name all do.
The lists are sorted stably, so a new entry stands behind the older ones of its
name, and the first of them is the one that goes.
-/

/-- The name of a tunnel that is added as a host without one. -/
def hostTunnelName : String := "host tunnel"

/-- The name of a tunnel that is added as a client without one. -/
def clientTunnelName : String := "client tunnel"

/-- The name under which an action files a new entry. -/
def Action.adds : Action → Option String
  | .createHostTunnel _ _ name _ => some name
  | .addClientTunnel _ _ _ name => some name
  | .listTunnels | .removeTunnel _ => none

/-- The action has been carried out. -/
def Reply.created : Reply → Bool
  | .hostCreated .. | .clientCreated .. => true
  | _ => false

/-- Nothing that `remove` comes across before the new entry has its name. -/
def NameFree (config : LanTunConfig) : Action → Prop
  | .createHostTunnel _ _ name _ => ∀ tunnel ∈ config.hostTunnels, tunnel.name ≠ name
  | .addClientTunnel _ _ _ name =>
      (∀ tunnel ∈ config.hostTunnels, tunnel.name ≠ name) ∧
        ∀ tunnel ∈ config.clientTunnels, tunnel.name ≠ name
  | .listTunnels | .removeTunnel _ => True

section Undo

variable {PublicKey : Type} {hex : Hex} {keys : Keys PublicKey} {config : LanTunConfig}

/-- An entry in a slot that has been found free is new. -/
theorem not_mem_of_free {α σ : Type} {slot : α → σ} {list : List α} {element : α}
    (free : ∀ other ∈ list, slot other ≠ slot element) : element ∉ list :=
  fun member => free element member rfl

/-- The config that a `remove` leaves behind, for a host of that name. -/
theorem perform_remove_host {name : String} {hostTunnels : List HostTunnelEntry}
    (removed : removeFirst (fun tunnel => decide (tunnel.name = name)) config.hostTunnels =
      some hostTunnels) :
    (perform hex keys config (.removeTunnel name)).2 = some { config with hostTunnels } := by
  simp only [perform, removed]

theorem perform_remove_client {name : String} {clientTunnels : List ClientTunnelEntry}
    (noHost : removeFirst (fun tunnel => decide (tunnel.name = name)) config.hostTunnels = none)
    (removed : removeFirst (fun tunnel => decide (tunnel.name = name)) config.clientTunnels =
      some clientTunnels) :
    (perform hex keys config (.removeTunnel name)).2 = some { config with clientTunnels } := by
  simp only [perform, noHost, removed]

variable (hex keys) in
/-- A host entry is taken back exactly if no other host had its name. -/
theorem undo_host (tidy : Tidy config) (entry : HostTunnelEntry)
    (free : ∀ tunnel ∈ config.hostTunnels, tunnel.slot ≠ entry.slot) :
    ∃ after, (perform hex keys { config with
        hostTunnels := pushSorted HostTunnelEntry.name config.hostTunnels entry }
          (.removeTunnel entry.name)).2 = some after ∧
      (after = config ↔ ∀ tunnel ∈ config.hostTunnels, tunnel.name ≠ entry.name) := by
  rcases exists_removeFirst_pushSorted HostTunnelEntry.name config.hostTunnels entry with
    ⟨hostTunnels, removed⟩
  refine ⟨_, perform_remove_host removed, ?_⟩
  rw [← removeFirst_pushSorted_iff tidy.hostsSorted (not_mem_of_free free), removed,
    Option.some.injEq]
  constructor
  · exact fun same => congrArg LanTunConfig.hostTunnels same
  · intro same
    rw [same]

variable (hex keys) in
/-- A client entry is taken back exactly if no host and no other client had its
name. -/
theorem undo_client (tidy : Tidy config) (entry : ClientTunnelEntry)
    (free : ∀ tunnel ∈ config.clientTunnels, tunnel.slot ≠ entry.slot) :
    ∃ after, (perform hex keys { config with
        clientTunnels := pushSorted ClientTunnelEntry.name config.clientTunnels entry }
          (.removeTunnel entry.name)).2 = some after ∧
      (after = config ↔ (∀ tunnel ∈ config.hostTunnels, tunnel.name ≠ entry.name) ∧
        ∀ tunnel ∈ config.clientTunnels, tunnel.name ≠ entry.name) := by
  cases inHosts : removeFirst (fun tunnel : HostTunnelEntry => decide (tunnel.name = entry.name))
      config.hostTunnels with
  | some hostTunnels =>
      refine ⟨_, perform_remove_host inHosts, ?_⟩
      rcases loses_of_removeFirst inHosts with ⟨host, named, loses⟩
      have member : host ∈ config.hostTunnels := by
        rcases loses with ⟨front, back, whole, _⟩
        rw [whole]
        exact List.mem_append_right front List.mem_cons_self
      constructor
      · intro same
        have clients : pushSorted ClientTunnelEntry.name config.clientTunnels entry =
            config.clientTunnels := congrArg LanTunConfig.clientTunnels same
        have lengths := (perm_pushSorted ClientTunnelEntry.name config.clientTunnels entry).length_eq
        rw [clients] at lengths
        simp at lengths
      · exact fun unnamed => absurd (of_decide_eq_true named) (unnamed.1 host member)
  | none =>
      rcases exists_removeFirst_pushSorted ClientTunnelEntry.name config.clientTunnels entry with
        ⟨clientTunnels, removed⟩
      refine ⟨_, perform_remove_client inHosts removed, ?_⟩
      have noHost : ∀ tunnel ∈ config.hostTunnels, tunnel.name ≠ entry.name :=
        fun tunnel member => of_decide_eq_false (removeFirst_eq_none.mp inHosts tunnel member)
      rw [← removeFirst_pushSorted_iff tidy.clientsSorted (not_mem_of_free free), removed,
        Option.some.injEq]
      constructor
      · exact fun same => ⟨noHost, congrArg LanTunConfig.clientTunnels same⟩
      · rintro ⟨_, same⟩
        rw [same]

variable (hex keys) in
/-- Behind an addition that has been carried out, `remove` with its name restores
the config exactly if the name was free. -/
theorem perform_undo (tidy : Tidy config) {action : Action} {name : String}
    (adds : action.adds = some name) (created : (perform hex keys config action).1.created = true) :
    ∃ added after, (perform hex keys config action).2 = some added ∧
      (perform hex keys added (.removeTunnel name)).2 = some after ∧
      (after = config ↔ NameFree config action) := by
  cases action with
  | createHostTunnel localAddr protocol name generated =>
      cases adds
      simp only [perform] at created ⊢
      split at created
      · cases created
      · rename_i none_
        rw [if_neg none_]
        have free := slot_free HostTunnelEntry.slot none_
        rcases undo_host hex keys tidy (hostEntry hex keys localAddr protocol name generated) free
          with ⟨after, removed, same⟩
        exact ⟨_, after, rfl, removed, same⟩
  | addClientTunnel secret localAddr protocol name =>
      cases adds
      cases decoded : hex.decode secret with
      | none =>
          simp only [perform, decoded] at created
          cases created
      | some bytes =>
          simp only [perform, decoded] at created ⊢
          split at created
          · cases created
          · rename_i none_
            rw [if_neg none_]
            have free := slot_free ClientTunnelEntry.slot none_
            rcases undo_client hex keys tidy (clientEntry hex bytes localAddr protocol name) free
              with ⟨after, removed, same⟩
            exact ⟨_, after, rfl, removed, same⟩
  | listTunnels | removeTunnel _ => cases adds

end Undo

/-! ## One run of the program after another -/

section Runs

variable {Text PublicKey : Type} {toml : Toml Text} {hex : Hex} {keys : Keys PublicKey}

/-- On every config that the program can have written, an addition that is
accepted is taken back by `remove` with its name if and only if nothing that
`remove` searches before the new entry has that name. -/
theorem remove_undoes_iff (actions : List Action) {first file : Option Text}
    (start : saved toml first = some LanTunConfig.default)
    (ran : (machine toml hex keys).run actions first = some file) {config : LanTunConfig}
    (is : saved toml file = some config) {add : Action} {name : String}
    (adds : add.adds = some name) (created : (main toml hex keys add file).1.created = true) :
    saved toml (main toml hex keys (.removeTunnel name) (main toml hex keys add file).2).2 =
      some config ↔ NameFree config add := by
  have tidy : Tidy config := by
    rcases inductive_holdsTidy.run ⟨_, start, Tidy.default⟩ ran with ⟨found, there, tidy⟩
    cases is.symm.trans there
    exact tidy
  rcases main_eq hex keys is add with ⟨reply, afterAdd⟩
  rw [reply] at created
  rcases perform_undo hex keys tidy adds created with ⟨added, after, performed, removed, same⟩
  rw [performed, Option.getD_some] at afterAdd
  rw [(main_eq hex keys afterAdd (.removeTunnel name)).2, removed, Option.getD_some,
    Option.some.injEq]
  exact same

/-- A host tunnel without a name of its own. -/
def unnamedHost (port : UInt16) (generated : Secret) : Action :=
  .createHostTunnel (.v4 0 port) .tcp hostTunnelName generated

/-- The config file with one such tunnel. -/
def oneHost : Option LanTunConfig :=
  (main plainToml base16 someKeys (unnamedHost 80 (List.Vector.replicate 32 1)) none).2

theorem remove_undoes_iff_unnamedClient :
    saved plainToml (main plainToml base16 someKeys (.removeTunnel clientTunnelName)
      (main plainToml base16 someKeys
        (.addClientTunnel "00" (.v4 0 80) .tcp clientTunnelName) oneHost).2).2 =
      saved plainToml oneHost := by
  have start : saved plainToml none = some LanTunConfig.default := rfl
  apply (remove_undoes_iff [unnamedHost 80 (List.Vector.replicate 32 1)] start rfl rfl rfl
    (by decide)).mpr
  exact ⟨by decide, by decide⟩

/-- Of two host tunnels without names of their own the older goes. -/
theorem unnamedHost_lost : ¬ ∀ (actions : List Action) (file : Option LanTunConfig) (add : Action)
    (name : String), (machine plainToml base16 someKeys).run actions none = some file →
      add.adds = some name → (main plainToml base16 someKeys add file).1.created = true →
        saved plainToml (main plainToml base16 someKeys (.removeTunnel name)
          (main plainToml base16 someKeys add file).2).2 = saved plainToml file := by
  intro undoes
  have restored := undoes [unnamedHost 80 (List.Vector.replicate 32 1)] oneHost
    (unnamedHost 81 (List.Vector.replicate 32 3)) hostTunnelName rfl rfl (by decide)
  revert restored
  decide

end Runs

end Cli
end Lantun
