import Lantun.Cli.Undo

namespace Lantun
namespace Cli

open SortedList State

/-!
# Adding several tunnels

Every addition sorts its list again.  The config that several of them leave is
therefore the same for all orders in which they can be run, except that entries
of one name stay in the order in which they were added.
-/

section Batches

variable {Text PublicKey : Type} (toml : Toml Text) (hex : Hex) (keys : Keys PublicKey)

/-- The host entry an action adds, if it is carried out. -/
def hostAdded : Action → Option HostTunnelEntry
  | .createHostTunnel localAddr protocol name generated =>
      some (hostEntry hex keys localAddr protocol name generated)
  | _ => none

/-- The client entry an action adds, if it is carried out. -/
def clientAdded : Action → Option ClientTunnelEntry
  | .addClientTunnel secret localAddr protocol name =>
      (hex.decode secret).map fun bytes => clientEntry hex bytes localAddr protocol name
  | _ => none

/-- The action is an addition that is carried out. -/
def Created (before : Option Text) (action : Action) (_after : Option Text) : Prop :=
  (main toml hex keys action before).1.created = true

/-- A config into which these actions have put their entries. -/
def LanTunConfig.adding (config : LanTunConfig) (actions : List Action) : LanTunConfig where
  hostTunnels :=
    (actions.filterMap (hostAdded hex keys)).foldl (pushSorted HostTunnelEntry.name)
      config.hostTunnels
  clientTunnels :=
    (actions.filterMap (clientAdded hex)).foldl (pushSorted ClientTunnelEntry.name)
      config.clientTunnels

variable {toml hex keys}

theorem perform_of_created {config : LanTunConfig} {action : Action}
    (created : (perform hex keys config action).1.created = true) :
    (perform hex keys config action).2.getD config = config.adding hex keys [action] := by
  cases action with
  | createHostTunnel localAddr protocol name generated =>
      simp only [perform] at created ⊢
      split at created
      · cases created
      · rename_i free
        rw [if_neg free]
        rfl
  | addClientTunnel secret localAddr protocol name =>
      simp only [perform] at created ⊢
      cases decoded : hex.decode secret with
      | none =>
          rw [decoded] at created
          cases created
      | some bytes =>
          rw [decoded] at created
          simp only at created ⊢
          split at created
          · cases created
          · rename_i free
            rw [if_neg free]
            simp [LanTunConfig.adding, hostAdded, clientAdded, decoded, List.filterMap_cons]
  | listTunnels => cases created
  | removeTunnel name =>
      simp only [perform] at created
      split at created
      · cases created
      · split at created <;> cases created

theorem LanTunConfig.adding_cons (config : LanTunConfig) (action : Action) (actions : List Action) :
    config.adding hex keys (action :: actions) =
      (config.adding hex keys [action]).adding hex keys actions := by
  unfold LanTunConfig.adding
  rw [← List.singleton_append, List.filterMap_append, List.filterMap_append, List.foldl_append,
    List.foldl_append]

/-- What a run of additions leaves. -/
theorem saved_of_created {actions : List Action} {file after : Option Text} {config : LanTunConfig}
    (is : saved toml file = some config)
    (created : (machine toml hex keys).EveryStep (Created toml hex keys) actions file)
    (ran : (machine toml hex keys).run actions file = some after) :
    saved toml after = some (config.adding hex keys actions) := by
  induction actions generalizing file config with
  | nil =>
      cases ran
      exact is
  | cons action actions ih =>
      rcases (Machine.run_cons_eq_some _).mp ran with ⟨middle, taken, rest⟩
      rcases created middle taken with ⟨now, later⟩
      cases taken
      have did := main_eq hex keys is action
      rw [LanTunConfig.adding_cons]
      refine ih (did.2.trans (congrArg some (perform_of_created ?_))) later rest
      rw [← did.1]
      exact now

/-- Two runs of additions that are all carried out leave the same config exactly
if, host by host name and client by client name, they have added the same entries
in the same order. -/
theorem additions_agree_iff {file first second : Option Text} (tidy : HoldsTidy toml file)
    {actions others : List Action}
    (created : (machine toml hex keys).EveryStep (Created toml hex keys) actions file)
    (created' : (machine toml hex keys).EveryStep (Created toml hex keys) others file)
    (ran : (machine toml hex keys).run actions file = some first)
    (ran' : (machine toml hex keys).run others file = some second) :
    saved toml first = saved toml second ↔ ∀ name,
      under HostTunnelEntry.name name (actions.filterMap (hostAdded hex keys)) =
          under HostTunnelEntry.name name (others.filterMap (hostAdded hex keys)) ∧
        under ClientTunnelEntry.name name (actions.filterMap (clientAdded hex)) =
          under ClientTunnelEntry.name name (others.filterMap (clientAdded hex)) := by
  rcases tidy with ⟨config, is, tidy⟩
  rw [saved_of_created is created ran, saved_of_created is created' ran', Option.some.injEq]
  have hosts := foldl_pushSorted_eq_iff tidy.hostsSorted
    (actions.filterMap (hostAdded hex keys)) (others.filterMap (hostAdded hex keys))
  have clients := foldl_pushSorted_eq_iff tidy.clientsSorted
    (actions.filterMap (clientAdded hex)) (others.filterMap (clientAdded hex))
  rw [forall_and, ← hosts, ← clients]
  constructor
  · intro same
    exact ⟨congrArg LanTunConfig.hostTunnels same, congrArg LanTunConfig.clientTunnels same⟩
  · rintro ⟨hosts, clients⟩
    unfold LanTunConfig.adding
    rw [hosts, clients]

/-- Two hosts of one name, and a client. -/
def twoWebs : List Action :=
  [.createHostTunnel (.v4 0 80) .tcp "web" (List.Vector.replicate 32 1),
    .createHostTunnel (.v4 0 81) .tcp "web" (List.Vector.replicate 32 3),
    .addClientTunnel "" (.v4 0 82) .tcp "game"]

/-- The same, with the client added first. -/
def gameFirst : List Action :=
  [.addClientTunnel "" (.v4 0 82) .tcp "game",
    .createHostTunnel (.v4 0 80) .tcp "web" (List.Vector.replicate 32 1),
    .createHostTunnel (.v4 0 81) .tcp "web" (List.Vector.replicate 32 3)]

theorem additions_agree_iff_twoWebs : ∃ first second : Option LanTunConfig,
    (machine plainToml base16 someKeys).run twoWebs none = some first ∧
      (machine plainToml base16 someKeys).run gameFirst none = some second ∧
      saved plainToml first = saved plainToml second := by
  have created : (machine plainToml base16 someKeys).EveryStep
      (Created plainToml base16 someKeys) twoWebs none := by
    rintro _ ⟨⟩
    refine ⟨rfl, ?_⟩
    rintro _ ⟨⟩
    refine ⟨rfl, ?_⟩
    rintro _ ⟨⟩
    exact ⟨rfl, trivial⟩
  have created' : (machine plainToml base16 someKeys).EveryStep
      (Created plainToml base16 someKeys) gameFirst none := by
    rintro _ ⟨⟩
    refine ⟨rfl, ?_⟩
    rintro _ ⟨⟩
    refine ⟨rfl, ?_⟩
    rintro _ ⟨⟩
    exact ⟨rfl, trivial⟩
  refine ⟨_, _, rfl, rfl, (additions_agree_iff ⟨_, rfl, Tidy.default⟩ created created' rfl rfl).mpr
    fun name => ⟨rfl, rfl⟩⟩

end Batches

end Cli
end Lantun
