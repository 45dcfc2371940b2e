import Mathlib.Data.Vector.Basic
import Lantun.Machine.Run
import Lantun.Async.Watch
import Lantun.Common

namespace Lantun
namespace State

open Async

/-!
# The host tunnels of an application

`HostState` keeps its tunnels in a map under their secrets.  A running tunnel
owns the sender of a stop channel whose receivers are held by the task that
`start` has spawned, so a tunnel that is thrown out of the map while it runs
closes that channel without having sent anything on it.  The channels are kept
beside the map here, because they outlive the tunnels.

`create_tunnel` does not look whether the secret is taken.  Every tunnel gets an
`is_open` cell of its own, and that cell tells a tunnel from its replacement even
where all the other fields agree.
-/

/-- `[u8; 32]`. -/
abbrev Secret := List.Vector UInt8 32

/-- The variants of `HostError` with which `start` returns. -/
inductive HostError where
  | tunnelAlreadyOpen
  | failedToCreateEndpoint (message : String)
  deriving DecidableEq, Repr

/-- `HostTunnel`.  Any 32 bytes are a `SecretKey`. -/
structure HostTunnel where
  name : String
  secret : Secret
  hostAddr : SocketAddr
  protocol : TunnelProtocol
  /-- Which cell `is_open` points to. -/
  cell : Nat
  isOpen : Bool
  /-- Which stop channel the running properties hold the sender of. -/
  runningProps : Option Nat
  deriving DecidableEq

/-- `HostState`. -/
abbrev HostState := AList fun _ : Secret => HostTunnel

/-- The state and what its tunnels have allocated. -/
structure Hosting where
  tunnels : HostState
  /-- The `is_open` cells made so far. -/
  cells : Nat
  /-- The stop channels made so far. -/
  stops : List Watch
  deriving DecidableEq

inductive Call where
  | createTunnel (localAddr : SocketAddr) (name : String) (secret : Secret)
      (protocol : TunnelProtocol)
  /-- `start` on the tunnel with this secret, and what binding the endpoint
  yields. -/
  | start (secret : Secret) (bound : Except String Unit)
  /-- `stop` on the tunnel with this secret, and whether a receiver is left. -/
  | stop (secret : Secret) (received : Bool)

/-- The secret a `create_tunnel` is called with. -/
def Call.creates : Call → Option Secret
  | .createTunnel _ _ secret _ => some secret
  | _ => none

/-- The tunnel a `start` or a `stop` is called on. -/
def Call.drives : Call → Option Secret
  | .createTunnel _ _ _ _ => none
  | .start secret _ | .stop secret _ => some secret

namespace HostTunnel

/-- As `create_tunnel` makes it. -/
def created (localAddr : SocketAddr) (name : String) (secret : Secret)
    (protocol : TunnelProtocol) (cell : Nat) : HostTunnel where
  name := name
  secret := secret
  hostAddr := localAddr
  protocol := protocol
  cell := cell
  isOpen := false
  runningProps := none

def isRunning (tunnel : HostTunnel) : Bool := tunnel.isOpen

/-- `start`, given the stop channel it would make. -/
def start (tunnel : HostTunnel) (channel : Nat) (bound : Except String Unit) :
    Except HostError HostTunnel :=
  if tunnel.isRunning then .error .tunnelAlreadyOpen
  else
    match bound with
    | .error message => .error (.failedToCreateEndpoint message)
    | .ok _ => .ok { tunnel with
        runningProps := some channel
        isOpen := true }

/-- `stop`: the tunnel it leaves.  Where nobody receives the stop, the `unwrap`
of the send unwinds the call before the flag is cleared. -/
def stop (tunnel : HostTunnel) (received : Bool) : HostTunnel :=
  if tunnel.isRunning then
    { tunnel with
      runningProps := none
      isOpen := if tunnel.runningProps.isSome && !received then true else false }
  else tunnel

/-- The fields that no call on a tunnel changes. -/
def identity (tunnel : HostTunnel) : Nat × String × Secret × SocketAddr × TunnelProtocol :=
  (tunnel.cell, tunnel.name, tunnel.secret, tunnel.hostAddr, tunnel.protocol)

def runningState (tunnel : HostTunnel) : Bool × Option Nat := (tunnel.isOpen, tunnel.runningProps)

theorem start_identity {tunnel next : HostTunnel} {channel : Nat} {bound : Except String Unit}
    (started : tunnel.start channel bound = .ok next) : next.identity = tunnel.identity := by
  unfold start at started
  split at started
  · cases started
  · cases bound with
    | error message => cases started
    | ok _ =>
        cases started
        rfl

@[simp] theorem stop_identity (tunnel : HostTunnel) (received : Bool) :
    (tunnel.stop received).identity = tunnel.identity := by
  unfold stop
  split <;> rfl

end HostTunnel

namespace Hosting

/-- `HostState::new`. -/
def new : Hosting := ⟨∅, 0, []⟩

/-- What becomes of the stop channel a tunnel owns. -/
def endStop (stops : List Watch) (tunnel : HostTunnel) (sends : Bool) : List Watch :=
  match tunnel.runningProps with
  | none => stops
  | some channel =>
      stops.modify channel fun watch =>
        if sends then (watch.send true).dropSender else watch.dropSender

/-- `HostState::create_tunnel`.  A tunnel that the insertion replaces is
dropped. -/
def createTunnel (hosting : Hosting) (localAddr : SocketAddr) (name : String) (secret : Secret)
    (protocol : TunnelProtocol) : Hosting where
  tunnels :=
    hosting.tunnels.insert secret
      (HostTunnel.created localAddr name secret protocol hosting.cells)
  cells := hosting.cells + 1
  stops :=
    match hosting.tunnels.lookup secret with
    | none => hosting.stops
    | some replaced => endStop hosting.stops replaced false

/-- `start` on a tunnel of the state. -/
def start (hosting : Hosting) (secret : Secret) (bound : Except String Unit) : Hosting :=
  match hosting.tunnels.lookup secret with
  | none => hosting
  | some tunnel =>
      match tunnel.start hosting.stops.length bound with
      | .error _ => hosting
      | .ok next => { hosting with
          tunnels := hosting.tunnels.insert secret next
          stops := hosting.stops ++ [Watch.channel false] }

/-- `stop` on a tunnel of the state. -/
def stop (hosting : Hosting) (secret : Secret) (received : Bool) : Hosting :=
  match hosting.tunnels.lookup secret with
  | none => hosting
  | some tunnel => { hosting with
      tunnels := hosting.tunnels.insert secret (tunnel.stop received)
      stops := if tunnel.isRunning then endStop hosting.stops tunnel received else hosting.stops }

/-- One call. -/
def call (hosting : Hosting) : Call → Hosting
  | .createTunnel localAddr name secret protocol =>
      hosting.createTunnel localAddr name secret protocol
  | .start secret bound => hosting.start secret bound
  | .stop secret received => hosting.stop secret received

def machine : Machine Hosting Call where
  initial hosting := hosting = new
  step hosting call := some (hosting.call call)

/-- Every tunnel of the state is still there after the call, and its running
state is left to its own `start` and `stop`. -/
def Protects (before : Hosting) (call : Call) (after : Hosting) : Prop :=
  ∀ secret tunnel, before.tunnels.lookup secret = some tunnel →
    ∃ next, after.tunnels.lookup secret = some next ∧ next.identity = tunnel.identity ∧
      (call.drives ≠ some secret → next.runningState = tunnel.runningState)

/-- The call does not create a tunnel under a secret that is taken. -/
def Fresh (before : Hosting) (call : Call) (_after : Hosting) : Prop :=
  ∀ secret, call.creates = some secret → secret ∉ before.tunnels

/-- Cells are handed out once. -/
def CellsUsed (hosting : Hosting) : Prop :=
  ∀ secret tunnel, hosting.tunnels.lookup secret = some tunnel → tunnel.cell < hosting.cells

/-! ## What one call does to the map -/

/-- Writing a tunnel back under the secret it was found at. -/
theorem lookup_insert_cases {tunnels : HostState} {at_ secret : Secret} {tunnel next : HostTunnel}
    (found : (tunnels.insert at_ next).lookup secret = some tunnel) :
    (secret = at_ ∧ tunnel = next) ∨ (secret ≠ at_ ∧ tunnels.lookup secret = some tunnel) := by
  by_cases same : secret = at_
  · subst same
    rw [AList.lookup_insert] at found
    exact Or.inl ⟨rfl, (Option.some.inj found).symm⟩
  · rw [AList.lookup_insert_ne same] at found
    exact Or.inr ⟨same, found⟩

/-- A call on one tunnel changes at most its running state. -/
theorem protects_of_written {hosting : Hosting} {at_ : Secret} {tunnel next : HostTunnel}
    {call : Call} {stops : List Watch} (found : hosting.tunnels.lookup at_ = some tunnel)
    (same : next.identity = tunnel.identity) (drives : call.drives = some at_) :
    Protects hosting call { hosting with
      tunnels := hosting.tunnels.insert at_ next
      stops := stops } := by
  intro secret other here
  by_cases is : secret = at_
  · subst is
    cases found.symm.trans here
    exact ⟨next, AList.lookup_insert _, same, fun elsewhere => absurd drives elsewhere⟩
  · exact ⟨other, (AList.lookup_insert_ne is).trans here, rfl, fun _ => rfl⟩

theorem protects_refl (hosting : Hosting) (call : Call) : Protects hosting call hosting :=
  fun _ tunnel here => ⟨tunnel, here, rfl, fun _ => rfl⟩

/-- `start` and `stop` protect every tunnel. -/
theorem protects_of_drives {hosting : Hosting} {call : Call} {secret : Secret}
    (drives : call.drives = some secret) : Protects hosting call (hosting.call call) := by
  cases call with
  | createTunnel localAddr name secret protocol => cases drives
  | start at_ bound =>
      simp only [Hosting.call, Hosting.start]
      split
      · exact protects_refl _ _
      · rename_i tunnel found
        split
        · exact protects_refl _ _
        · rename_i next started
          exact protects_of_written found (HostTunnel.start_identity started) rfl
  | stop at_ received =>
      simp only [Hosting.call, Hosting.stop]
      split
      · exact protects_refl _ _
      · rename_i tunnel found
        exact protects_of_written found (tunnel.stop_identity received) rfl

/-- A call protects the tunnels of the state exactly when it does not create one
under a secret that is taken. -/
theorem protects_iff_fresh {hosting : Hosting} (used : hosting.CellsUsed) (call : Call) :
    Protects hosting call (hosting.call call) ↔ Fresh hosting call (hosting.call call) := by
  cases call with
  | createTunnel localAddr name at_ protocol =>
      constructor
      · intro protects secret creates present
        cases creates
        rcases Option.isSome_iff_exists.mp (AList.lookup_isSome.mpr present) with ⟨tunnel, found⟩
        rcases protects at_ tunnel found with ⟨next, here, same, _⟩
        simp only [Hosting.call, createTunnel, AList.lookup_insert, Option.some.injEq] at here
        have cell : next.cell = tunnel.cell := congrArg Prod.fst same
        rw [← here] at cell
        exact absurd cell (Nat.ne_of_gt (used at_ tunnel found))
      · intro fresh secret tunnel found
        have absent : at_ ∉ hosting.tunnels := fresh at_ rfl
        have different : secret ≠ at_ := by
          intro same
          subst same
          exact absent (AList.lookup_isSome.mp (by rw [found]; rfl))
        exact ⟨tunnel, (AList.lookup_insert_ne different).trans found, rfl, fun _ => rfl⟩
  | start secret bound | stop secret received =>
      refine iff_of_true (protects_of_drives rfl) ?_
      intro secret creates
      cases creates

theorem inductive_cellsUsed : machine.Inductive CellsUsed where
  start hosting first secret tunnel found := by
    rw [show hosting = new from first] at found
    cases found
  step hosting call next used taken := by
    cases taken
    intro secret tunnel found
    cases call with
    | createTunnel localAddr name at_ protocol =>
        rcases lookup_insert_cases found with ⟨_, rfl⟩ | ⟨_, before⟩
        · exact Nat.lt_succ_self _
        · exact Nat.lt_succ_of_lt (used secret tunnel before)
    | start at_ bound =>
        simp only [Hosting.call, Hosting.start] at found ⊢
        split at found
        · exact used secret tunnel found
        · rename_i old here
          split at found
          · exact used secret tunnel found
          · rename_i next started
            rcases lookup_insert_cases found with ⟨_, rfl⟩ | ⟨_, before⟩
            · have cell : tunnel.cell = old.cell :=
                congrArg Prod.fst (HostTunnel.start_identity started)
              exact Nat.lt_of_le_of_lt (Nat.le_of_eq cell) (used at_ old here)
            · exact used secret tunnel before
    | stop at_ received =>
        simp only [Hosting.call, Hosting.stop] at found ⊢
        split at found
        · exact used secret tunnel found
        · rename_i old here
          rcases lookup_insert_cases found with ⟨_, rfl⟩ | ⟨_, before⟩
          · have cell : (old.stop received).cell = old.cell :=
              congrArg Prod.fst (old.stop_identity received)
            exact Nat.lt_of_le_of_lt (Nat.le_of_eq cell) (used at_ old here)
          · exact used secret tunnel before

/-- The secrets in use after a call. -/
theorem mem_call {hosting : Hosting} {call : Call} {secret : Secret} :
    secret ∈ (hosting.call call).tunnels ↔
      secret ∈ hosting.tunnels ∨ call.creates = some secret := by
  have written : ∀ {at_ : Secret} {tunnel next : HostTunnel},
      hosting.tunnels.lookup at_ = some tunnel →
      (secret ∈ hosting.tunnels.insert at_ next ↔ secret ∈ hosting.tunnels) := by
    intro at_ tunnel next found
    have present : at_ ∈ hosting.tunnels := AList.lookup_isSome.mp (by rw [found]; rfl)
    rw [AList.mem_insert]
    exact or_iff_right_of_imp fun same => same ▸ present
  cases call with
  | createTunnel localAddr name at_ protocol =>
      simp only [Hosting.call, createTunnel, AList.mem_insert, Call.creates, Option.some.injEq]
      rw [or_comm, eq_comm]
  | start at_ bound =>
      simp only [Hosting.call, Hosting.start, Call.creates, reduceCtorEq, or_false]
      split
      · exact Iff.rfl
      · rename_i tunnel found
        split
        · exact Iff.rfl
        · exact written found
  | stop at_ received =>
      simp only [Hosting.call, Hosting.stop, Call.creates, reduceCtorEq, or_false]
      split
      · exact Iff.rfl
      · rename_i tunnel found
        exact written found

/-- Along a run every creation is fresh exactly when the secrets it creates
tunnels under are pairwise different and were not in use at its start. -/
theorem everyStep_fresh_iff (calls : List Call) (hosting : Hosting) :
    machine.EveryStep Fresh calls hosting ↔
      (calls.filterMap Call.creates).Nodup ∧
        ∀ secret ∈ calls.filterMap Call.creates, secret ∉ hosting.tunnels := by
  induction calls generalizing hosting with
  | nil => simp [Machine.EveryStep]
  | cons call calls ih =>
      have unfolded : machine.EveryStep Fresh (call :: calls) hosting ↔
          Fresh hosting call (hosting.call call) ∧
            machine.EveryStep Fresh calls (hosting.call call) := by
        simp [Machine.EveryStep, machine]
      rw [unfolded, ih, List.filterMap_cons]
      simp only [mem_call, not_or]
      cases creates : call.creates with
      | none => simp [Fresh, creates]
      | some secret =>
          simp only [Fresh, creates, Option.some.injEq, forall_eq', List.nodup_cons,
            List.mem_cons, forall_eq_or_imp]
          constructor
          · rintro ⟨fresh, nodup, others⟩
            exact ⟨⟨fun again => (others secret again).2 rfl, nodup⟩, fresh,
              fun other later => (others other later).1⟩
          · rintro ⟨⟨once, nodup⟩, fresh, others⟩
            exact ⟨fresh, nodup, fun other later =>
              ⟨others other later, fun same => once (same ▸ later)⟩⟩

theorem everyStep_protects_iff_fresh (calls : List Call) :
    machine.EveryStep Protects calls new ↔ machine.EveryStep Fresh calls new := by
  apply Machine.everyStep_congr inductive_cellsUsed
  · intro hosting call next used taken
    cases taken
    exact protects_iff_fresh used call
  · exact inductive_cellsUsed.start new rfl

/-- In every sequence of calls all tunnels are protected from each other if and
only if no two `create_tunnel` calls are given the same secret. -/
theorem protected_iff_secrets_distinct (calls : List Call) :
    machine.EveryStep Protects calls new ↔ (calls.filterMap Call.creates).Nodup := by
  rw [everyStep_protects_iff_fresh, everyStep_fresh_iff]
  exact and_iff_left fun secret _ => AList.notMem_empty secret

/-- A tunnel is created and started, and another is created under its secret. -/
def takenSecret : List Call :=
  [.createTunnel (.v4 0 80) "web" (List.Vector.replicate 32 1) .tcp,
    .start (List.Vector.replicate 32 1) (.ok ()),
    .createTunnel (.v4 0 53) "dns" (List.Vector.replicate 32 1) .udp]

theorem takenSecret_replaces : ¬ ∀ calls, machine.EveryStep Protects calls new := by
  intro always
  have fresh := (everyStep_protects_iff_fresh takenSecret).mp (always takenSecret)
  exact absurd ((everyStep_fresh_iff takenSecret new).mp fresh).1 (by decide)

/-- The replaced tunnel was running; its stop channel is closed and has carried
nothing. -/
example : (machine.run takenSecret new).map (fun hosting => hosting.stops) =
    some [⟨false, 0, true⟩] := by decide

end Hosting

end State
end Lantun
