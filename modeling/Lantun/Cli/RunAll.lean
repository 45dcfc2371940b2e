import Lantun.Machine.Family
import Lantun.Machine.Progress
import Lantun.Data.Values
import Lantun.Client.Occupancy
import Lantun.Host.Lifetime
import Lantun.Cli.Commands
import Lantun.Cli.Enabled

namespace Lantun
namespace Cli

open Client State

/-!
# The program without an action

Without an action `main` makes the state of the saved config, starts all host
tunnels, connects all client tunnels, one after the other in the order in which the
two maps happen to iterate, and then waits for the handles of all the tasks it has
got.  The first error anywhere ends it, and the process with it; so does the first
handle that yields an error.  Tunnels that are up serve while the next ones are
being started.

The accept loop of a host never returns, so its handle yields something only if the
task panics.  A listener returns, with an error or with `Ok`.
-/

/-- What main does before it starts anything. -/
inductive Launch (PublicKey : Type) where
  | unreadable
  /-- "No tunnels found." -/
  | noTunnels
  | failed (failure : Failure Report)
  | launched (state : LanTun PublicKey)

/-- How the program fails once it has its state. -/
inductive RunError where
  | start (reason : State.HostError)
  | connect (reason : ClientError)
  /-- A task has panicked. -/
  | joinError
  /-- The error a task has returned. -/
  | tunnel (reason : ClientError)
  deriving DecidableEq

/-- What can happen to the listener of a client from outside its tunnel's calls. -/
inductive ListenerEvent where
  | act (act : ListenerAct)
  /-- The host closes the connection, or it is lost. -/
  | closedByPeer
  deriving DecidableEq, Repr

/-- Which of the handles decides `try_join_all`. -/
inductive Joined where
  | host (index : Nat)
  | client (index : Nat)
  | all
  deriving DecidableEq, Repr

inductive RunLabel (Key : Type) where
  | startHost (bound : Except String Unit)
  | connectClient (outcome : ConnectOutcome)
  | host (index : Nat) (label : Host.Label Key)
  | client (index : Nat) (event : ListenerEvent)
  | join (joined : Joined)

structure Run (PublicKey Key : Type) where
  hostsLeft : List State.HostTunnel
  clientsLeft : List (State.ClientTunnel PublicKey)
  /-- The tunnels that are started, each with its task. -/
  hosts : List (State.HostTunnel × Host.HostTunnel Key)
  clients : List (State.ClientTunnel PublicKey × Connected)
  /-- What main has returned. -/
  exit : Option (Except RunError Unit)

section

variable {Text PublicKey Key : Type} [DecidableEq Key]

/-- The arm of `main` for no action, up to the state. -/
def launch (toml : Toml Text) (hex : Hex) (keys : Keys PublicKey) (file : Option Text) :
    Launch PublicKey :=
  match loadConfig toml file with
  | none => .unreadable
  | some (config, _) =>
      if config.hostTunnels.isEmpty && config.clientTunnels.isEmpty then .noTunnels
      else
        match createState hex keys config with
        | .error failure => .failed failure
        | .ok state => .launched state

/-- The task that `ClientTunnel::connect` has spawned, while nobody disconnects. -/
def listener (tunnel : State.ClientTunnel PublicKey) : Machine Connected ListenerEvent where
  initial connected := connected = Connected.spawned
  step connected
    | .act act => connected.step tunnel.protocol act
    | .closedByPeer => some { connected with closed := true }

/-- What the handle of a host yields. -/
def hostHandle (task : Host.HostTunnel Key) : Option (Except RunError Unit) :=
  match task.loop with
  | .panicked => some (.error .joinError)
  | _ => none

/-- What the handle of a client yields. -/
def clientHandle (task : Connected) : Option (Except RunError Unit) :=
  match task.listener with
  | .ended .ok => some (.ok ())
  | .ended (.error reason) => some (.error (.tunnel reason))
  | _ => none

namespace Run

/-- Right behind `create_state`. -/
def Starts (state : LanTun PublicKey) (run : Run PublicKey Key) : Prop :=
  run.hostsLeft.Perm (values state.host.tunnels) ∧ run.clientsLeft.Perm (values state.client) ∧
    run.hosts = [] ∧ run.clients = [] ∧ run.exit = none

/-- `host_tunnel.start().await?` for the next host. -/
def startHost (run : Run PublicKey Key) (bound : Except String Unit) : Option (Run PublicKey Key) :=
  match run.hostsLeft with
  | [] => none
  | tunnel :: left =>
      match tunnel.start run.hosts.length bound with
      | .error reason => some { run with exit := some (.error (.start reason)) }
      | .ok tunnel => some { run with
          hostsLeft := left
          hosts := run.hosts ++ [(tunnel, Host.HostTunnel.started)] }

/-- `client_tunnel.connect().await?` for the next client, behind all hosts. -/
def connectClient (run : Run PublicKey Key) (outcome : ConnectOutcome) :
    Option (Run PublicKey Key) :=
  match run.hostsLeft, run.clientsLeft with
  | [], tunnel :: left =>
      match (tunnel.tunnel.connect outcome).returned with
      | some (.connect (.error reason)) => some { run with exit := some (.error (.connect reason)) }
      | some (.connect .ok) => some { run with
          clientsLeft := left
          clients := run.clients ++ [(tunnel, Connected.spawned)] }
      | _ => none
  | _, _ => none

/-- What a handle yields. -/
def handle (run : Run PublicKey Key) : Joined → Option (Except RunError Unit)
  | .host index => (run.hosts[index]?).bind fun host => hostHandle host.2
  | .client index => (run.clients[index]?).bind fun client => clientHandle client.2
  | .all =>
      if (run.hosts.all fun host => hostHandle host.2 = some (.ok ())) &&
          (run.clients.all fun client => clientHandle client.2 = some (.ok ())) then some (.ok ())
      else none

/-- `try_join_all(handles).await?`: an error of one handle, or success of all.

An error of any handle is returned at once, as the function is documented.  It is
implemented so for up to 30 handles; more are collected in their order, where an
error waits for the handles in front of it.  A panic unwinds into the handle of its
task; in a release build it aborts the process. -/
def join (run : Run PublicKey Key) (joined : Joined) : Option (Run PublicKey Key) :=
  if run.hostsLeft.isEmpty && run.clientsLeft.isEmpty then
    match joined, run.handle joined with
    | .all, some result => some { run with exit := some result }
    | _, some (.error error) => some { run with exit := some (.error error) }
    | _, _ => none
  else none

/-- One step.  A process that has exited takes none. -/
def step (run : Run PublicKey Key) (label : RunLabel Key) : Option (Run PublicKey Key) :=
  if run.exit.isSome then none
  else
    match label with
    | .startHost bound => run.startHost bound
    | .connectClient outcome => run.connectClient outcome
    | .host index label =>
        -- nobody calls `stop`
        if label = .stop ∨ label = .closeEndpoint then none
        else
          (run.hosts[index]?).bind fun (tunnel, task) =>
            ((Host.acceptLoop tunnel).step task label).map fun task =>
              { run with hosts := run.hosts.set index (tunnel, task) }
    | .client index event =>
        (run.clients[index]?).bind fun (tunnel, task) =>
          ((listener tunnel).step task event).map fun task =>
            { run with clients := run.clients.set index (tunnel, task) }
    | .join joined => run.join joined

/-- The program without an action, on this config file. -/
def machine (toml : Toml Text) (hex : Hex) (keys : Keys PublicKey) (file : Option Text) :
    Machine (Run PublicKey Key) (RunLabel Key) where
  initial run := ∃ state, launch toml hex keys file = .launched state ∧ run.Starts state
  step := step

end Run

/-! ## A listener that nobody stops -/

/-- Nothing has been sent to the listener, and it has not ended with `Ok`. -/
structure Unstopped (connected : Connected) : Prop where
  quiet : connected.stop.ready connected.seen = false
  notOk : connected.listener ≠ .ended .ok

theorem unstopped_spawned : Unstopped Connected.spawned :=
  ⟨by decide, by simp [Connected.spawned]⟩

/-- `Ok` is what a listener returns that was stopped. -/
theorem notOk_of_step {protocol : TunnelProtocol} {connected next : Connected} {act : ListenerAct}
    (quiet : connected.stop.ready connected.seen = false)
    (before : connected.listener ≠ .ended .ok)
    (taken : connected.step protocol act = some next) : next.listener ≠ .ended .ok := by
  cases act with
  | detachedEnds =>
      simp only [Connected.step] at taken
      split at taken <;> cases taken
      exact before
  | bound | bindFails | sendFails =>
      simp only [Connected.step] at taken
      split at taken <;> cases taken
      simp
  | incoming addr =>
      simp only [Connected.step] at taken
      split at taken
      · split at taken <;> cases taken
        unfold Connected.afterIncoming
        split
        · simp
        · split
          · exact before
          · simp
      · cases taken
  | stop =>
      simp only [Connected.step, quiet, Bool.false_eq_true, and_false, if_false] at taken
      cases taken
  | incomingFails | opened | openFails | sent | forwarderEnds role status | join =>
      simp only [Connected.step] at taken
      split at taken
      · split at taken <;> cases taken
        simp
      · cases taken

theorem inductive_unstopped (tunnel : State.ClientTunnel PublicKey) :
    (listener tunnel).Inductive Unstopped where
  start connected first := by
    rw [show connected = Connected.spawned from first]
    exact unstopped_spawned
  step connected event next holds taken := by
    cases event with
    | closedByPeer =>
        cases taken
        exact ⟨holds.quiet, holds.notOk⟩
    | act act =>
        have taken : connected.step tunnel.protocol act = some next := taken
        refine ⟨?_, notOk_of_step holds.quiet holds.notOk taken⟩
        rw [(Connected.step_frame taken).1, (Connected.step_quiet holds.quiet taken).1]
        exact holds.quiet

/-- A listener whose accepting branch an error has disabled is left so: only the stop
channel would be heard. -/
theorem deaf_of_step {tunnel : State.ClientTunnel PublicKey} {connected next : Connected}
    {event : ListenerEvent} (unstopped : Unstopped connected) (deaf : connected.listener = .deaf)
    (taken : (listener tunnel).step connected event = some next) : next.listener = .deaf := by
  cases event with
  | closedByPeer =>
      cases taken
      exact deaf
  | act act =>
      have taken : connected.step tunnel.protocol act = some next := taken
      cases act with
      | stop =>
          simp only [Connected.step, unstopped.quiet, Bool.false_eq_true, and_false,
            if_false] at taken
          cases taken
      | detachedEnds =>
          simp only [Connected.step] at taken
          split at taken <;> cases taken
          exact deaf
      | _ =>
          simp only [Connected.step, deaf] at taken
          cases taken

/-- How far a listener that accepts is from an end that the world outside can bring
about. -/
def remaining : Listener → Nat
  | .ended _ | .deaf => 0
  | .binding | .opening _ | .sending _ => 1
  | .select => 2
  | .session _ forwarders => 3 + forwarders.left

/-- Nobody stops the listener, and its accepting branch is enabled. -/
structure Accepting (connected : Connected) : Prop extends Unstopped connected where
  enabled : connected.listener ≠ .deaf

/-- As long as its accepting branch is enabled, the peer, the socket and the forwarders
of a listener can bring it to an error.  The protocol is TCP: each forwarder of a
session ends when its end of the application or of the stream does. -/
theorem can_fail {tunnel : State.ClientTunnel PublicKey} {connected : Connected}
    (tcp : tunnel.protocol = .tcp) (accepting : Accepting connected) :
    (listener tunnel).CanReach (fun _ => True)
      (fun next => ∃ reason, next.listener = .ended (.error reason)) connected := by
  refine Machine.CanReach.descend (fun next : Connected => remaining next.listener) ?_ accepting
  intro now holds
  have on_ : ∀ {event : ListenerEvent} {next : Connected},
      (listener tunnel).step now event = some next → next.listener ≠ .deaf →
        remaining next.listener < remaining now.listener →
        ∃ event next, True ∧ (listener tunnel).step now event = some next ∧
          Accepting next ∧ remaining next.listener < remaining now.listener :=
    fun taken enabled less => ⟨_, _, trivial, taken,
      ⟨(inductive_unstopped tunnel).step _ _ _ holds.toUnstopped taken, enabled⟩, less⟩
  cases at_ : now.listener with
  | deaf => exact absurd at_ holds.enabled
  | ended result =>
      cases result with
      | ok => exact absurd at_ holds.notOk
      | error reason => exact Or.inl (.here ⟨reason, at_⟩)
  | binding =>
      rw [← at_]
      have taken : (listener tunnel).step now (.act .bindFails) =
          some { now with listener := .ended (.error .ioError) } := by
        simp [listener, Connected.step, at_]
      exact Or.inr (on_ taken (by simp) (by simp [at_, remaining]))
  | sending addr =>
      rw [← at_]
      have taken : (listener tunnel).step now (.act .sendFails) =
          some { now with listener := .ended (.error .ioError) } := by
        simp [listener, Connected.step, at_]
      exact Or.inr (on_ taken (by simp) (by simp [at_, remaining]))
  | opening addr =>
      have closes : (listener tunnel).step now .closedByPeer = some { now with closed := true } := rfl
      have fails : (listener tunnel).step { now with closed := true } (.act .openFails) =
          some { now with closed := true, listener := .ended (.error .connectionError) } := by
        simp [listener, Connected.step, at_]
      exact Or.inl (.step closes trivial (.step fails trivial (.here ⟨_, rfl⟩)))
  | select =>
      rw [← at_]
      have taken : (listener tunnel).step now (.act (.incoming (.v4 0 0))) =
          some { now with listener := .opening (.v4 0 0) } := by
        simp [listener, Connected.step, at_, holds.quiet, tcp, Connected.afterIncoming]
      exact Or.inr (on_ taken (by simp) (by simp [at_, remaining]))
  | session addr forwarders =>
      rw [← at_]
      by_cases joined : forwarders.joined = true
      · have taken : ∃ next, (listener tunnel).step now (.act .join) = some next ∧
            next.listener = .select := by
          simp [listener, Connected.step, at_, joined]
        rcases taken with ⟨next, taken, back⟩
        refine Or.inr (on_ taken (by simp [back]) ?_)
        rw [at_, back]
        exact Nat.lt_of_lt_of_le (by decide : 2 < 3) (Nat.le_add_right 3 _)
      · have running : ∃ role, forwarders.status role = .running := by
          by_contra none_
          exact joined (Net.Forwarders.joined_of_ended fun role is => none_ ⟨role, is⟩)
        rcases running with ⟨role, running⟩
        have taken : (listener tunnel).step now (.act (.forwarderEnds role .finished)) =
            some { now with listener := .session addr (forwarders.setStatus role .finished) } := by
          simp [listener, Connected.step, at_, running]
        refine Or.inr (on_ taken (by simp) ?_)
        rw [at_]
        exact Nat.add_lt_add_left
          (Net.Forwarders.left_setStatus_lt running Net.TaskStatus.noConfusion) 3

/-! ## The whole program -/

namespace Run

variable {run next : Run PublicKey Key}

/-- How many tunnels there are, started or not. -/
def tunnels (run : Run PublicKey Key) : Nat :=
  run.hostsLeft.length + run.hosts.length + (run.clientsLeft.length + run.clients.length)

/-- What one step does to the tunnels and to the outcome. -/
structure Moves (before after : Run PublicKey Key) : Prop where
  hosts : Machine.Family Host.acceptLoop before.hosts after.hosts
  clients : Machine.Family listener before.clients after.clients
  tunnels : after.tunnels = before.tunnels
  exit : after.exit = before.exit ∨ (∃ error, after.exit = some (.error error)) ∨
    before.join .all = some after

theorem moves_of_startHost {bound : Except String Unit} (taken : run.startHost bound = some next) :
    run.Moves next := by
  unfold startHost at taken
  split at taken
  · cases taken
  · rename_i left
    split at taken <;> cases taken
    · exact ⟨.stays rfl, .stays rfl, rfl, Or.inr (Or.inl ⟨_, rfl⟩)⟩
    · refine ⟨.grows rfl rfl, .stays rfl, ?_, Or.inl rfl⟩
      simp only [tunnels, left, List.length_cons, List.length_append, List.length_nil]
      omega

theorem moves_of_connectClient {outcome : ConnectOutcome}
    (taken : run.connectClient outcome = some next) : run.Moves next := by
  unfold connectClient at taken
  split at taken
  · rename_i left
    split at taken <;> cases taken
    · exact ⟨.stays rfl, .stays rfl, rfl, Or.inr (Or.inl ⟨_, rfl⟩)⟩
    · refine ⟨.stays rfl, .grows rfl rfl, ?_, Or.inl rfl⟩
      simp only [tunnels, left, List.length_cons, List.length_append, List.length_nil]
      omega
  · cases taken

theorem moves_of_join {joined : Joined} (taken : run.join joined = some next) : run.Moves next := by
  have whole := taken
  unfold join at taken
  split at taken
  · split at taken
    · rename_i result _
      cases taken
      exact ⟨.stays rfl, .stays rfl, rfl, Or.inr (Or.inr whole)⟩
    · cases taken
      exact ⟨.stays rfl, .stays rfl, rfl, Or.inr (Or.inl ⟨_, rfl⟩)⟩
    · cases taken
  · cases taken

theorem moves_of_step {label : RunLabel Key} (taken : run.step label = some next) :
    run.Moves next := by
  unfold step at taken
  split at taken
  · cases taken
  · cases label with
    | startHost bound => exact moves_of_startHost taken
    | connectClient outcome => exact moves_of_connectClient taken
    | join joined => exact moves_of_join taken
    | host index label =>
        simp only at taken
        split at taken
        · cases taken
        · rcases Option.bind_eq_some_iff.mp taken with ⟨⟨tunnel, task⟩, found, rest⟩
          rcases Option.map_eq_some_iff.mp rest with ⟨after, moved, rfl⟩
          exact ⟨.moves found moved rfl, .stays rfl, by simp [tunnels], Or.inl rfl⟩
    | client index event =>
        rcases Option.bind_eq_some_iff.mp taken with ⟨⟨tunnel, task⟩, found, rest⟩
        rcases Option.map_eq_some_iff.mp rest with ⟨after, moved, rfl⟩
        exact ⟨.stays rfl, .moves found moved rfl, by simp [tunnels], Or.inl rfl⟩

/-- The invariant of the program. -/
structure Inv (run : Run PublicKey Key) : Prop where
  hosts : Machine.Apart Host.acceptLoop run.hosts
  clients : Machine.Apart listener run.clients
  some_ : 0 < run.tunnels
  failed : run.exit ≠ some (.ok ())

/-- The handle of an accept loop never yields anything. -/
theorem Inv.hostHandle (inv : run.Inv) {host : State.HostTunnel × Host.HostTunnel Key}
    (member : host ∈ run.hosts) : hostHandle host.2 = none := by
  have loop := ((Host.HostTunnel.inductive_inv _ _).of_reachable (inv.hosts host member)).notPanicked
  unfold Cli.hostHandle
  split
  · rename_i at_
    exact absurd at_ loop
  · rfl

/-- That of a listener yields an error once it has ended. -/
theorem Inv.clientHandle (inv : run.Inv) {client : State.ClientTunnel PublicKey × Connected}
    (member : client ∈ run.clients) :
    if client.2.listener.isEnded then ∃ reason, clientHandle client.2 = some (.error (.tunnel reason))
    else clientHandle client.2 = none := by
  have unstopped := (inductive_unstopped client.1).of_reachable (inv.clients client member)
  unfold Cli.clientHandle
  cases at_ : client.2.listener with
  | ended result =>
      cases result with
      | ok => exact absurd at_ unstopped.notOk
      | error reason => exact ⟨reason, rfl⟩
  | _ => rfl

/-- Success of all would be success of none. -/
theorem Inv.join_all (inv : run.Inv) : run.join .all = none := by
  unfold join
  split
  · rename_i up
    rw [Bool.and_eq_true, List.isEmpty_iff, List.isEmpty_iff] at up
    have pending : run.handle .all = none := by
      unfold handle
      rw [if_neg]
      rw [Bool.and_eq_true, List.all_eq_true, List.all_eq_true]
      rintro ⟨hosts, clients⟩
      have noHost : run.hosts = [] := by
        apply List.eq_nil_iff_forall_not_mem.mpr
        intro host member
        have done := of_decide_eq_true (hosts host member)
        rw [inv.hostHandle member] at done
        cases done
      have noClient : run.clients = [] := by
        apply List.eq_nil_iff_forall_not_mem.mpr
        intro client member
        have done := of_decide_eq_true (clients client member)
        have yields := inv.clientHandle member
        split at yields
        · rcases yields with ⟨reason, failed⟩
          rw [done] at failed
          cases failed
        · rw [done] at yields
          cases yields
      have count := inv.some_
      simp [tunnels, up.1, up.2, noHost, noClient] at count
    rw [pending]
  · rfl

theorem Inv.step {label : RunLabel Key} (inv : run.Inv) (taken : run.step label = some next) :
    next.Inv := by
  have moves := moves_of_step taken
  refine ⟨moves.hosts.apart inv.hosts, moves.clients.apart inv.clients, ?_, ?_⟩
  · rw [moves.tunnels]
    exact inv.some_
  · rcases moves.exit with same | ⟨error, is⟩ | all
    · rw [same]
      exact inv.failed
    · simp [is]
    · rw [inv.join_all] at all
      cases all

end Run

/-! ## What the program starts with -/

theorem launch_eq_launched {toml : Toml Text} {hex : Hex} {keys : Keys PublicKey} {file : Option Text}
    {state : LanTun PublicKey} (launched : launch toml hex keys file = .launched state) :
    ∃ config, createState hex keys config = .ok state ∧
      (config.hostTunnels ≠ [] ∨ config.clientTunnels ≠ []) := by
  unfold launch at launched
  split at launched
  · cases launched
  · rename_i config _ _
    split at launched
    · cases launched
    · rename_i some_
      split at launched <;> cases launched
      rename_i made
      refine ⟨config, made, ?_⟩
      by_contra none_
      rw [not_or, not_not, not_not] at none_
      simp [none_.1, none_.2] at some_

/-- A config with an entry makes a tunnel. -/
theorem exists_tunnel {hex : Hex} {keys : Keys PublicKey} {config : LanTunConfig}
    {state : LanTun PublicKey} (made : createState hex keys config = .ok state)
    (some_ : config.hostTunnels ≠ [] ∨ config.clientTunnels ≠ []) :
    0 < (values state.host.tunnels).length + (values state.client).length := by
  rcases createState_eq_ok.mp made with ⟨hosts, clients⟩
  rcases some_ with host | client
  · rcases List.exists_mem_of_ne_nil _ host with ⟨entry, member⟩
    rcases exists_final ⟨entry, member, rfl⟩ with ⟨last, is, _⟩
    rcases createHostTunnels_final hosts is with ⟨tunnel, found, _⟩
    have inside := List.length_pos_of_mem (mem_values.mpr ⟨_, found⟩)
    omega
  · rcases createClientTunnels_values clients with ⟨tunnels, fit, perm⟩
    have long := List.length_pos_of_ne_nil client
    rw [values_empty, List.append_nil] at perm
    rw [perm.length_eq, ← fit.length_eq]
    omega

namespace Run

variable {run next : Run PublicKey Key} {toml : Toml Text} {hex : Hex} {keys : Keys PublicKey}
  {file : Option Text}

theorem inductive_inv : (machine toml hex keys file).Inductive (Inv : Run PublicKey Key → Prop) where
  start run first := by
    rcases first with ⟨state, launched, hosts, clients, noHosts, noClients, running⟩
    rcases launch_eq_launched launched with ⟨config, made, some_⟩
    have count := exists_tunnel made some_
    refine ⟨?_, ?_, ?_, ?_⟩
    · rw [noHosts]
      exact Machine.apart_nil
    · rw [noClients]
      exact Machine.apart_nil
    · rw [tunnels, noHosts, noClients, hosts.length_eq, clients.length_eq]
      exact count
    · simp [running]
  step run label next inv taken := inv.step taken

/-- The program is over exactly when, with everything started, a listener is. -/
theorem Inv.join_iff (inv : run.Inv) (running : run.exit = none) :
    (∃ joined next, run.step (.join joined) = some next) ↔
      run.hostsLeft = [] ∧ run.clientsLeft = [] ∧
        ∃ client ∈ run.clients, client.2.listener.isEnded = true := by
  have is : ∀ joined, run.step (.join joined) = run.join joined := by
    intro joined
    unfold Run.step
    rw [running]
    rfl
  simp only [is]
  constructor
  · rintro ⟨joined, next, taken⟩
    cases joined with
    | all =>
        rw [inv.join_all] at taken
        cases taken
    | host index =>
        have none_ : run.handle (.host index) = none := by
          cases found : run.hosts[index]? with
          | none => simp [handle, found]
          | some host => simpa [handle, found] using inv.hostHandle (List.mem_of_getElem? found)
        unfold join at taken
        rw [none_] at taken
        split at taken <;> cases taken
    | client index =>
        unfold join at taken
        split at taken
        · rename_i up
          rw [Bool.and_eq_true, List.isEmpty_iff, List.isEmpty_iff] at up
          refine ⟨up.1, up.2, ?_⟩
          cases found : run.clients[index]? with
          | none => simp [handle, found] at taken
          | some client =>
              have member := List.mem_of_getElem? found
              refine ⟨client, member, ?_⟩
              by_contra alive
              have yields := inv.clientHandle member
              rw [if_neg alive] at yields
              simp [handle, found, yields] at taken
        · cases taken
  · rintro ⟨noHosts, noClients, client, member, ended⟩
    rcases List.getElem?_of_mem member with ⟨index, found⟩
    have yields := inv.clientHandle member
    rw [if_pos ended] at yields
    rcases yields with ⟨reason, failed⟩
    refine ⟨.client index, { run with exit := some (.error (.tunnel reason)) }, ?_⟩
    simp [join, handle, noHosts, noClients, found, failed]

/-- A config with a tunnel in it is served until something fails: the program never
exits with success, and once everything is started it exits exactly when the listener
of some client has ended, which is always with an error. -/
theorem ends_in_failure_only (reached : (machine toml hex keys file).Reachable run) :
    run.exit ≠ some (.ok ()) ∧ (run.exit = none →
      ((∃ joined next, (machine toml hex keys file).step run (.join joined) = some next) ↔
        run.hostsLeft = [] ∧ run.clientsLeft = [] ∧
          ∃ client ∈ run.clients, client.2.listener.isEnded = true)) := by
  have inv : run.Inv := inductive_inv.of_reachable reached
  exact ⟨inv.failed, inv.join_iff⟩

/-- One tunnel to host, and one to somewhere else. -/
def oneOfEach : LanTunConfig where
  hostTunnels :=
    [⟨"web", .v4 0 80, .tcp, base16.encode (List.replicate 32 1),
      base16.encode onesPublic.toList, true⟩]
  clientTunnels := [⟨"game", .v4 0 81, .tcp, base16.encode (List.replicate 32 3), true⟩]

/-- The state of the two. -/
def bothTunnels : LanTun Secret where
  host := Hosting.new.createTunnel (.v4 0 80) "web" (List.Vector.replicate 32 1) .tcp
  client := (∅ : ClientState Secret).insert (.v4 0 81, .tcp)
    (State.ClientTunnel.created (.v4 0 81) "game" (List.Vector.replicate 32 3) .tcp)

theorem launch_oneOfEach : launch plainToml base16 someKeys (some oneOfEach) = .launched bothTunnels := by
  have hosts : createHostTunnels base16 oneOfEach.hostTunnels Hosting.new = .ok bothTunnels.host := by
    refine createHostTunnels_cons_eq_ok.mpr ⟨List.Vector.replicate 32 1, ?_, rfl⟩
    exact base16.secret?_encode (List.Vector.replicate 32 1)
  have clients : createClientTunnels base16 someKeys oneOfEach.clientTunnels ∅ =
      .ok bothTunnels.client := by
    refine createClientTunnels_cons_eq_ok.mpr ⟨AList.notMem_empty _, List.Vector.replicate 32 3,
      List.Vector.replicate 32 3, ?_, by decide, rfl⟩
    exact base16.secret?_encode (List.Vector.replicate 32 3)
  have made : createState base16 someKeys oneOfEach = .ok bothTunnels :=
    createState_eq_ok.mpr ⟨hosts, clients⟩
  change (match createState base16 someKeys oneOfEach with
    | .error failure => Launch.failed failure
    | .ok state => Launch.launched state) = _
  rw [made]

/-- Right behind `create_state`, in the order in which the maps are here. -/
def launchedBoth : Run Secret Nat where
  hostsLeft := values bothTunnels.host.tunnels
  clientsLeft := values bothTunnels.client
  hosts := []
  clients := []
  exit := none

/-- Both are started, and the listener cannot bind its socket. -/
def portTaken : List (RunLabel Nat) :=
  [.startHost (.ok ()), .connectClient .connected, .client 0 (.act .bindFails), .join (.client 0)]

theorem reachable_of_launchedBoth (labels : List (RunLabel Nat)) {run : Run Secret Nat}
    (ran : (machine plainToml base16 someKeys (some oneOfEach)).run labels launchedBoth = some run) :
    (machine plainToml base16 someKeys (some oneOfEach)).Reachable run :=
  ⟨launchedBoth, labels, ⟨bothTunnels, launch_oneOfEach, .refl _, .refl _, rfl, rfl, rfl⟩, ran⟩

theorem ends_in_failure_only_portTaken :
    ∃ run : Run Secret Nat,
      (machine plainToml base16 someKeys (some oneOfEach)).run portTaken launchedBoth = some run ∧
        run.exit = some (.error (.tunnel .ioError)) ∧ run.exit ≠ some (.ok ()) := by
  refine ⟨_, rfl, rfl, ?_⟩
  exact (ends_in_failure_only (reachable_of_launchedBoth portTaken rfl)).1

/-- What its own machine can do to the listener of a client can happen in the program. -/
theorem can_reach_client {index : Nat} {tunnel : State.ClientTunnel PublicKey} {task : Connected}
    {goal : Connected → Prop} (running : run.exit = none)
    (found : run.clients[index]? = some (tunnel, task))
    (reach : (listener tunnel).CanReach (fun _ => True) goal task) :
    (machine toml hex keys file).CanReach (fun label => ∃ event, label = .client index event)
      (fun next => ∃ task, goal task ∧
        next = { run with clients := run.clients.set index (tunnel, task) }) run := by
  rcases reach with ⟨events, final, -, ran, done⟩
  induction events generalizing run task with
  | nil =>
      cases ran
      refine .here ⟨final, done, ?_⟩
      rcases List.getElem?_eq_some_iff.mp found with ⟨bound, is⟩
      rw [← is, List.set_getElem_self]
  | cons event events ih =>
      rcases (listener tunnel).run_cons_eq_some.mp ran with ⟨after, first, rest⟩
      have taken : (machine toml hex keys file).step run (.client index event) =
          some { run with clients := run.clients.set index (tunnel, after) } := by
        change run.step (.client index event) = _
        simp [step, running, found, first]
      have bound := (List.getElem?_eq_some_iff.mp found).1
      have there : { run with clients := run.clients.set index (tunnel, after) }.clients[index]? =
          some (tunnel, after) := by simp [bound]
      have still : { run with clients := run.clients.set index (tunnel, after) }.exit = none := running
      refine .step taken ⟨event, rfl⟩ ((ih still there rest).mono ?_)
      rintro next ⟨task, done, same⟩
      refine ⟨task, done, ?_⟩
      rw [same]
      simp

/-- A listener that hears nobody keeps the program up. -/
theorem trap_deaf {index : Nat} {tunnel : State.ClientTunnel PublicKey} :
    Machine.Trap (machine toml hex keys file : Machine (Run PublicKey Key) (RunLabel Key))
      (fun label => label = .join (.client index) ∨ ∃ event, label = .client index event)
      (fun next => ∃ reason, next.exit = some (.error (.tunnel reason)))
      (fun next => next.exit = none ∧ ∃ task, next.clients[index]? = some (tunnel, task) ∧
        Unstopped task ∧ task.listener = .deaf) where
  closed := by
    rintro now label next ⟨running, task, found, unstopped, deaf⟩ permitted taken
    have taken : now.step label = some next := taken
    rcases permitted with rfl | ⟨event, rfl⟩
    · have pending : now.handle (.client index) = none := by
        simp [handle, found, Cli.clientHandle, deaf]
      simp [Run.step, join, running, pending] at taken
    · have bound := (List.getElem?_eq_some_iff.mp found).1
      simp only [Run.step, running, Option.isSome_none, Bool.false_eq_true, if_false, found,
        Option.bind_some] at taken
      rcases Option.map_eq_some_iff.mp taken with ⟨after, moved, rfl⟩
      refine ⟨rfl, after, by simp [bound], ?_, deaf_of_step unstopped deaf moved⟩
      exact (inductive_unstopped tunnel).step _ _ _ unstopped moved
  avoids := by
    rintro now ⟨running, _⟩ ⟨reason, failed⟩
    rw [running] at failed
    cases failed

/-- No tunnel is isolated from the failure of another.  Whatever state a running
program is in, what happens at any one of its TCP client tunnels alone can bring it to
its exit, and every other tunnel with it, as long as an error has not disabled the
accepting branch of that tunnel's listener. -/
theorem one_client_ends_all (reached : (machine toml hex keys file).Reachable run)
    (running : run.exit = none) (noHosts : run.hostsLeft = []) (noClients : run.clientsLeft = [])
    {index : Nat} {tunnel : State.ClientTunnel PublicKey} {task : Connected}
    (here : run.clients[index]? = some (tunnel, task)) (tcp : tunnel.protocol = .tcp) :
    (machine toml hex keys file).CanReach
      (fun label => label = .join (.client index) ∨ ∃ event, label = .client index event)
      (fun next => ∃ reason, next.exit = some (.error (.tunnel reason))) run ↔
      task.listener ≠ .deaf := by
  have inv : run.Inv := inductive_inv.of_reachable reached
  have unstopped := (inductive_unstopped tunnel).of_reachable
    (inv.clients _ (List.mem_of_getElem? here))
  constructor
  · intro ends deaf
    exact trap_deaf.not_canReach ⟨running, task, here, unstopped, deaf⟩ ends
  intro enabled
  have present := (List.getElem?_eq_some_iff.mp here).1
  have down : (machine toml hex keys file).CanReach (fun label => ∃ event, label = .client index event)
      (fun next => ∃ task, (∃ reason, task.listener = .ended (.error reason)) ∧
        next = { run with clients := run.clients.set index (tunnel, task) }) run :=
    can_reach_client running here (can_fail tcp ⟨unstopped, enabled⟩)
  refine (down.widen fun label own => Or.inr own).andThen ?_
  rintro next ⟨task, ⟨reason, ended⟩, same⟩
  have there : run.clients.set index (tunnel, task) = next.clients := by rw [same]
  have yields : next.handle (.client index) = some (.error (.tunnel reason)) := by
    simp [handle, ← there, present, Cli.clientHandle, ended]
  have taken : (machine toml hex keys file).step next (.join (.client index)) =
      some { next with exit := some (.error (.tunnel reason)) } := by
    have going : next.exit = none := by rw [same, running]
    have noHosts' : next.hostsLeft = [] := by rw [same, noHosts]
    have noClients' : next.clientsLeft = [] := by rw [same, noClients]
    change next.step (.join (.client index)) = _
    simp [step, join, going, noHosts', noClients', yields]
  exact .step taken (Or.inl rfl) (.here ⟨reason, rfl⟩)

/-- With both tunnels up, and the listener of the client not yet bound. -/
theorem one_client_ends_all_bothUp :
    ∃ run : Run Secret Nat,
      (machine plainToml base16 someKeys (some oneOfEach)).run
          [.startHost (.ok ()), .connectClient .connected] launchedBoth = some run ∧
        (machine plainToml base16 someKeys (some oneOfEach)).CanReach
          (fun label => label = .join (.client 0) ∨ ∃ event, label = .client 0 event)
          (fun next => ∃ reason, next.exit = some (.error (.tunnel reason))) run := by
  refine ⟨_, rfl, ?_⟩
  have reached := reachable_of_launchedBoth [.startHost (.ok ()), .connectClient .connected] rfl
  exact (one_client_ends_all reached rfl rfl rfl rfl rfl).mpr (by decide)

end Run

end

end Cli
end Lantun
