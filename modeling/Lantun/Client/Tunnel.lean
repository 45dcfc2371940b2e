import Lantun.Machine.Run
import Lantun.Client.Listener

namespace Lantun
namespace Client

open Async

/-!
# The client tunnel between its calls

A `ClientTunnel` is held by one owner, who calls `connect` and `disconnect`
through a `&mut` borrow, so calls follow one another; the tasks spawned by
earlier calls run beside them.  `connect` changes the tunnel only after its last
wait and is one label here.  `disconnect` is taken apart at the points between
which other tasks can be seen to move: it takes the properties, sends on the
stop channel and unwraps, closes the connection, waits for the endpoint to
close, and clears the flag.

The send fails exactly when no receiver is left.  The unwrap then unwinds the
call with the properties taken and the flag still set.
-/

/-- What the network makes of a `connect`. -/
inductive ConnectOutcome where
  | endpointFails (message : String)
  | connectFails (message : String)
  | connected
  deriving DecidableEq, Repr

/-- How far a call of `disconnect` has come; the number tells which
`connect` set up the properties it holds. -/
inductive Call where
  | idle
  | taken (index : Nat)
  | signalled (index : Nat)
  | closing (index : Nat)
  deriving DecidableEq, Repr

/-- The `connect` whose properties the call holds. -/
def Call.holds : Call → Option Nat
  | .idle => none
  | .taken index | .signalled index | .closing index => some index

/-- How the most recent call returned. -/
inductive Returned where
  | connect (result : Ended)
  | disconnect (result : Ended)
  | panicked
  deriving DecidableEq, Repr

structure ClientTunnel where
  isConnected : Bool
  /-- Which successful `connect` the properties belong to. -/
  runningProps : Option Nat
  call : Call
  /-- Everything the successful `connect` calls have set up, in order. -/
  connects : List Connected
  returned : Option Returned
  deriving DecidableEq

inductive Label where
  | connect (outcome : ConnectOutcome)
  | disconnect
  | sendStop
  | closeConnection
  | endpointClosed
  /-- The host closes the connection, or it is lost. -/
  | closedByPeer (index : Nat)
  | listener (index : Nat) (act : ListenerAct)
  deriving DecidableEq, Repr

namespace ClientTunnel

/-- As `ClientState::create_tunnel` makes it. -/
def created : ClientTunnel where
  isConnected := false
  runningProps := none
  call := .idle
  connects := []
  returned := none

def isRunning (tunnel : ClientTunnel) : Bool := tunnel.isConnected

/-- `ClientTunnel::connect`. -/
def connect (tunnel : ClientTunnel) (outcome : ConnectOutcome) : ClientTunnel :=
  if tunnel.isRunning then
    { tunnel with returned := some (.connect (.error .alreadyConnected)) }
  else
    match outcome with
    | .endpointFails message =>
        { tunnel with returned := some (.connect (.error (.failedToCreateEndpoint message))) }
    | .connectFails message =>
        { tunnel with returned := some (.connect (.error (.failedToConnect message))) }
    | .connected =>
        { tunnel with
          runningProps := some tunnel.connects.length
          isConnected := true
          connects := tunnel.connects ++ [Connected.spawned]
          returned := some (.connect .ok) }

/-- `ClientTunnel::disconnect` up to its `stop_tx.send`. -/
def disconnect (tunnel : ClientTunnel) : ClientTunnel :=
  if tunnel.isRunning then
    match tunnel.runningProps with
    | some index => { tunnel with runningProps := none, call := .taken index }
    | none => { tunnel with isConnected := false, returned := some (.disconnect .ok) }
  else { tunnel with returned := some (.disconnect (.error .notConnected)) }

/-- Replace what one `connect` has set up. -/
def setConnect (tunnel : ClientTunnel) (index : Nat) (connected : Connected) : ClientTunnel :=
  { tunnel with connects := tunnel.connects.set index connected }

/-- One step. -/
def step (protocol : TunnelProtocol) (tunnel : ClientTunnel) : Label → Option ClientTunnel
  | .connect outcome =>
      if tunnel.call = .idle then some (tunnel.connect outcome) else none
  | .disconnect =>
      if tunnel.call = .idle then some tunnel.disconnect else none
  | .sendStop =>
      match tunnel.call with
      | .taken index =>
          (tunnel.connects[index]?).map fun connected =>
            if connected.receivers = 0 then
              { tunnel.setConnect index { connected with stop := connected.stop.dropSender } with
                call := .idle
                returned := some .panicked }
            else
              { tunnel.setConnect index { connected with stop := connected.stop.send true } with
                call := .signalled index }
      | _ => none
  | .closeConnection =>
      match tunnel.call with
      | .signalled index =>
          (tunnel.connects[index]?).map fun connected =>
            { tunnel.setConnect index { connected with closed := true } with
              call := .closing index }
      | _ => none
  | .endpointClosed =>
      match tunnel.call with
      | .closing index =>
          (tunnel.connects[index]?).map fun connected =>
            { tunnel.setConnect index { connected with stop := connected.stop.dropSender } with
              isConnected := false
              call := .idle
              returned := some (.disconnect .ok) }
      | _ => none
  | .closedByPeer index =>
      (tunnel.connects[index]?).map fun connected =>
        tunnel.setConnect index { connected with closed := true }
  | .listener index act =>
      (tunnel.connects[index]?).bind fun connected =>
        (connected.step protocol act).map (tunnel.setConnect index)

def machine (protocol : TunnelProtocol) : Machine ClientTunnel Label where
  initial tunnel := tunnel = created
  step := step protocol

/-! ## What every reachable state satisfies -/

/-- The flag and the properties agree except inside a `disconnect` and after
one that panicked; the stop channel behind the properties is untouched. -/
structure Inv (tunnel : ClientTunnel) : Prop where
  held : ∀ index, tunnel.call.holds = some index → index < tunnel.connects.length
  stopped : tunnel.isConnected = false → tunnel.runningProps = none ∧ tunnel.call = .idle
  calling : tunnel.call ≠ .idle → tunnel.runningProps = none
  latest : ∀ index, tunnel.runningProps = some index → index + 1 = tunnel.connects.length
  quiet : ∀ index connected, tunnel.runningProps = some index →
    tunnel.connects[index]? = some connected → connected.stop.ready connected.seen = false

/-- Inside a `disconnect` the flag is still set. -/
theorem Inv.on_of_busy {tunnel : ClientTunnel} (inv : tunnel.Inv) (busy : tunnel.call ≠ .idle) :
    tunnel.isConnected = true := by
  cases flag : tunnel.isConnected with
  | true => rfl
  | false => exact absurd (inv.stopped flag).2 busy

/-- Changing something that the properties do not point to, or that leaves the
stop channel quiet. -/
theorem Inv.setConnect {tunnel : ClientTunnel} (inv : tunnel.Inv) {index : Nat}
    {before after : Connected} (found : tunnel.connects[index]? = some before)
    (quiet : tunnel.runningProps = some index →
      before.stop.ready before.seen = false → after.stop.ready after.seen = false) :
    (tunnel.setConnect index after).Inv where
  held at_ inside := by
    simp only [ClientTunnel.setConnect, List.length_set]
    exact inv.held at_ inside
  stopped := inv.stopped
  calling := inv.calling
  latest at_ props := by
    simp only [ClientTunnel.setConnect, List.length_set]
    exact inv.latest at_ props
  quiet at_ connected props here := by
    simp only [ClientTunnel.setConnect] at here props
    by_cases same : index = at_
    · subst at_
      rw [List.getElem?_set_self (List.getElem?_eq_some_iff.mp found).1] at here
      cases here
      exact quiet props (inv.quiet index before props found)
    · rw [List.getElem?_set_ne same] at here
      exact inv.quiet at_ connected props here

/-- Inside a `disconnect` there are no properties, so the flag, the call and
what is behind the properties may change. -/
theorem Inv.of_taken {tunnel next : ClientTunnel} (inv : tunnel.Inv)
    (inside : tunnel.call ≠ .idle) (props : next.runningProps = tunnel.runningProps)
    (held : next.call = .idle ∨ next.call.holds = tunnel.call.holds)
    (length : next.connects.length = tunnel.connects.length)
    (stopped : next.isConnected = false → next.call = .idle) : next.Inv := by
  have none_ : next.runningProps = none := props.trans (inv.calling inside)
  have holds : ∀ index, next.call.holds = some index → index < next.connects.length := by
    intro index at_
    rcases held with idle | same
    · simp [idle, Call.holds] at at_
    · rw [length]
      exact inv.held index (same ▸ at_)
  refine ⟨holds, fun off => ⟨none_, stopped off⟩, fun _ => none_, ?_, ?_⟩
  · intro index some_
    rw [none_] at some_
    cases some_
  · intro index connected some_
    rw [none_] at some_
    cases some_

theorem Inv.connect {tunnel : ClientTunnel} (inv : tunnel.Inv) (outcome : ConnectOutcome) :
    (tunnel.connect outcome).Inv := by
  unfold ClientTunnel.connect
  split
  · exact ⟨inv.held, inv.stopped, inv.calling, inv.latest, inv.quiet⟩
  · rename_i stopped
    have idle := inv.stopped (by simpa [isRunning] using stopped)
    cases outcome with
    | endpointFails _ | connectFails _ =>
        exact ⟨inv.held, inv.stopped, inv.calling, inv.latest, inv.quiet⟩
    | connected =>
        refine ⟨fun at_ inside => ?_, fun off => (by cases off),
          fun inside => absurd idle.2 inside, ?_, ?_⟩
        · exact Nat.lt_of_lt_of_le (inv.held at_ inside) (by simp)
        · intro index props
          cases props
          simp
        · intro index connected props here
          cases props
          rw [List.getElem?_concat_length] at here
          cases here
          decide

theorem Inv.disconnect {tunnel : ClientTunnel} (inv : tunnel.Inv) (idle : tunnel.call = .idle) :
    tunnel.disconnect.Inv := by
  unfold ClientTunnel.disconnect
  split
  · rename_i running
    split
    · rename_i index props
      refine ⟨fun at_ inside => ?_, fun off => ?_, fun _ => rfl, fun _ props => ?_,
        fun _ _ props => ?_⟩
      · cases inside
        exact Nat.lt_of_succ_le (Nat.le_of_eq (inv.latest index props))
      · rw [isRunning] at running
        rw [running] at off
        cases off
      · cases props
      · cases props
    · rename_i none_
      refine ⟨inv.held, fun _ => ⟨none_, idle⟩, fun _ => none_, fun _ props => ?_, fun _ _ props => ?_⟩
      · rw [none_] at props
        cases props
      · rw [none_] at props
        cases props
  · exact ⟨inv.held, inv.stopped, inv.calling, inv.latest, inv.quiet⟩

theorem inductive_inv (protocol : TunnelProtocol) : (machine protocol).Inductive Inv where
  start tunnel first := by
    rw [show tunnel = created from first]
    exact ⟨fun _ inside => (by cases inside), fun _ => ⟨rfl, rfl⟩, fun _ => rfl,
      fun _ props => (by cases props), fun _ _ props => (by cases props)⟩
  step tunnel label next inv taken := by
    cases label with
    | connect outcome =>
        simp only [machine, step] at taken
        split at taken <;> cases taken
        exact inv.connect outcome
    | disconnect =>
        simp only [machine, step] at taken
        split at taken
        · rename_i idle
          cases taken
          exact inv.disconnect idle
        · cases taken
    | sendStop =>
        simp only [machine, step] at taken
        split at taken
        · rename_i index inside
          rcases Option.map_eq_some_iff.mp taken with ⟨connected, _, same⟩
          have busy : tunnel.call ≠ .idle := by simp [inside]
          have on := inv.on_of_busy busy
          subst same
          split
          · exact inv.of_taken busy rfl (Or.inl rfl) (by simp [setConnect]) (fun _ => rfl)
          · refine inv.of_taken busy rfl (Or.inr ?_) (by simp [setConnect]) (fun off => ?_)
            · rw [inside]
              rfl
            · simp [setConnect, on] at off
        · cases taken
    | closeConnection =>
        simp only [machine, step] at taken
        split at taken
        · rename_i index inside
          rcases Option.map_eq_some_iff.mp taken with ⟨connected, _, same⟩
          have busy : tunnel.call ≠ .idle := by simp [inside]
          subst same
          refine inv.of_taken busy rfl (Or.inr ?_) (by simp [setConnect]) (fun off => ?_)
          · rw [inside]
            rfl
          · exact absurd (inv.stopped off).2 busy
        · cases taken
    | endpointClosed =>
        simp only [machine, step] at taken
        split at taken
        · rename_i index inside
          rcases Option.map_eq_some_iff.mp taken with ⟨connected, _, same⟩
          have busy : tunnel.call ≠ .idle := by simp [inside]
          subst same
          exact inv.of_taken busy rfl (Or.inl rfl) (by simp [setConnect]) (fun _ => rfl)
        · cases taken
    | closedByPeer index =>
        rcases Option.map_eq_some_iff.mp taken with ⟨connected, found, same⟩
        subst same
        exact inv.setConnect found (fun _ quiet => quiet)
    | listener index act =>
        rcases Option.bind_eq_some_iff.mp taken with ⟨before, found, moved⟩
        rcases Option.map_eq_some_iff.mp moved with ⟨after, acted, same⟩
        subst same
        refine inv.setConnect found (fun _ quiet => ?_)
        rw [(Connected.step_frame acted).1, (Connected.step_quiet quiet acted).1]
        exact quiet

end ClientTunnel

end Client
end Lantun
