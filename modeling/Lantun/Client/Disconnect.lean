import Lantun.Machine.Progress
import Lantun.Client.Tunnel

namespace Lantun
namespace Client

/-!
# When `disconnect` leaves the tunnel stopped

`disconnect` sends on the stop channel and unwraps the result.  The listener
task may have ended long before, because its socket could not be bound or
because the host closed the connection, and nothing clears the flag then.  So
the send can find the channel without receivers: the call unwinds, the
properties are gone and the flag stays set.

Only a forwarder that outlived its session can save such a send.  The theorem
compares, over every sequence of calls and task steps, what the calls leave
behind with the state in which their sends are made.
-/

namespace ClientTunnel

/-- The steps of a `disconnect` call. -/
def ofDisconnect : Label → Bool
  | .disconnect | .sendStop | .closeConnection | .endpointClosed => true
  | _ => false

/-- A new `connect` would be refused with `AlreadyConnected`. -/
def ConnectRefused (protocol : TunnelProtocol) (tunnel : ClientTunnel) : Prop :=
  ∃ outcome next, step protocol tunnel (.connect outcome) = some next ∧
    next.returned = some (.connect (.error .alreadyConnected))

theorem connectRefused_iff {protocol : TunnelProtocol} {tunnel : ClientTunnel} :
    tunnel.ConnectRefused protocol ↔ tunnel.call = .idle ∧ tunnel.isConnected = true := by
  constructor
  · rintro ⟨outcome, next, taken, refused⟩
    simp only [step] at taken
    split at taken
    · rename_i idle
      cases taken
      refine ⟨idle, ?_⟩
      by_contra off
      cases outcome <;> simp [connect, isRunning, off] at refused
    · cases taken
  · rintro ⟨idle, on⟩
    refine ⟨.connected, tunnel.connect .connected, by simp [step, idle], ?_⟩
    simp [connect, isRunning, on]

/-- What the owner may expect when a `disconnect` is over. -/
structure Stopped (protocol : TunnelProtocol) (tunnel : ClientTunnel) : Prop where
  returned : tunnel.returned = some (.disconnect .ok) ∨
    tunnel.returned = some (.disconnect (.error .notConnected))
  notRunning : tunnel.isRunning = false
  noProps : tunnel.runningProps = none
  accepted : ¬ tunnel.ConnectRefused protocol

/-- If this step belongs to a `disconnect`, the call can run to its end by its
own steps, and if it has ended, by returning or by unwinding, the tunnel is
stopped. -/
def LeavesStopped (protocol : TunnelProtocol) (_before : ClientTunnel) (label : Label)
    (after : ClientTunnel) : Prop :=
  ofDisconnect label = true →
    (machine protocol).CanReach (ofDisconnect · = true) (·.call = .idle) after ∧
      (after.call = .idle → after.Stopped protocol)

/-- If this step sends on the stop channel, the listener is alive or a
forwarder has outlived its session. -/
def Heard (before : ClientTunnel) (label : Label) (_after : ClientTunnel) : Prop :=
  label = .sendStop → ∀ index connected, before.call = .taken index →
    before.connects[index]? = some connected → ¬ connected.Deserted

theorem Inv.stopped_of_off {protocol : TunnelProtocol} {tunnel : ClientTunnel} (inv : tunnel.Inv)
    (off : tunnel.isConnected = false)
    (returned : tunnel.returned = some (.disconnect .ok) ∨
      tunnel.returned = some (.disconnect (.error .notConnected))) : tunnel.Stopped protocol where
  returned := returned
  notRunning := off
  noProps := (inv.stopped off).1
  accepted refused := by
    rw [connectRefused_iff, off] at refused
    cases refused.2

/-- The waits a call of `disconnect` still has before it. -/
def stretches : Call → Nat
  | .idle => 0
  | .closing _ => 1
  | .signalled _ => 2
  | .taken _ => 3

/-- A call that has not ended has a step of its own, and fewer to go after it. -/
theorem Inv.goes_on (protocol : TunnelProtocol) {tunnel : ClientTunnel} (inv : tunnel.Inv)
    (busy : tunnel.call ≠ .idle) :
    ∃ label next, ofDisconnect label = true ∧ (machine protocol).step tunnel label = some next ∧
      stretches next.call < stretches tunnel.call := by
  have found : ∀ index, tunnel.call.holds = some index →
      ∃ connected, tunnel.connects[index]? = some connected :=
    fun index inside => ⟨_, List.getElem?_eq_getElem (inv.held index inside)⟩
  cases inside : tunnel.call with
  | idle => exact absurd inside busy
  | taken index =>
      rcases found index (by rw [inside]; rfl) with ⟨connected, here⟩
      refine ⟨.sendStop, _, rfl, by simp only [machine, step, inside, here, Option.map_some]; rfl, ?_⟩
      split <;> simp [stretches]
  | signalled index =>
      rcases found index (by rw [inside]; rfl) with ⟨connected, here⟩
      refine ⟨.closeConnection, _, rfl, by simp only [machine, step, inside, here]; rfl, ?_⟩
      simp [stretches]
  | closing index =>
      rcases found index (by rw [inside]; rfl) with ⟨connected, here⟩
      refine ⟨.endpointClosed, _, rfl, by simp only [machine, step, inside, here]; rfl, ?_⟩
      simp [stretches]

/-- Nothing but the call itself is needed to bring it to its end. -/
theorem Inv.canReturn (protocol : TunnelProtocol) {tunnel : ClientTunnel} (inv : tunnel.Inv) :
    (machine protocol).CanReach (ofDisconnect · = true) (·.call = .idle) tunnel := by
  apply Machine.CanReach.descend (fun tunnel : ClientTunnel => stretches tunnel.call) ?_ inv
  intro tunnel inv
  by_cases idle : tunnel.call = .idle
  · exact Or.inl (Machine.CanReach.here idle)
  · rcases inv.goes_on protocol idle with ⟨label, next, own, taken, fewer⟩
    exact Or.inr ⟨label, next, own, taken, (inductive_inv protocol).step _ _ _ inv taken, fewer⟩

/-- The first stretch of a `disconnect`: it takes the properties and goes on,
or returns with the flag cleared. -/
theorem disconnect_cases (tunnel : ClientTunnel) :
    (∃ index, tunnel.disconnect.call = .taken index) ∨
      (tunnel.disconnect.isConnected = false ∧
        (tunnel.disconnect.returned = some (.disconnect .ok) ∨
          tunnel.disconnect.returned = some (.disconnect (.error .notConnected)))) := by
  unfold disconnect
  split
  · split
    · rename_i index _
      exact Or.inl ⟨index, rfl⟩
    · exact Or.inr ⟨rfl, Or.inl rfl⟩
  · rename_i off
    exact Or.inr ⟨by simpa [isRunning] using off, Or.inr rfl⟩

/-- The send itself: it unwinds exactly where the tunnel is deserted, and
otherwise the call goes on. -/
theorem sendStop_cases {protocol : TunnelProtocol} {before after : ClientTunnel}
    (taken : step protocol before .sendStop = some after) :
    ∃ index connected, before.call = .taken index ∧
      before.connects[index]? = some connected ∧
      ((connected.Deserted ∧ after.call = .idle ∧ after.returned = some .panicked ∧
          after.isConnected = before.isConnected ∧ after.runningProps = before.runningProps) ∨
        (¬ connected.Deserted ∧ after.call = .signalled index)) := by
  simp only [step] at taken
  split at taken
  · rename_i index inside
    rcases Option.map_eq_some_iff.mp taken with ⟨connected, found, same⟩
    refine ⟨index, connected, inside, found, ?_⟩
    subst same
    split
    · rename_i none_
      exact Or.inl ⟨Connected.receivers_eq_zero.mp none_, rfl, rfl, rfl, rfl⟩
    · rename_i some_
      exact Or.inr ⟨fun deserted => some_ (Connected.receivers_eq_zero.mpr deserted), rfl⟩
  · cases taken

theorem heard_iff {protocol : TunnelProtocol} {before after : ClientTunnel}
    (taken : step protocol before .sendStop = some after) :
    Heard before .sendStop after ↔ after.call ≠ .idle := by
  rcases sendStop_cases taken with ⟨index, connected, inside, found, outcome⟩
  constructor
  · intro heard
    rcases outcome with ⟨deserted, _⟩ | ⟨_, going⟩
    · exact absurd deserted (heard rfl index connected inside found)
    · simp [going]
  · intro going _ other found' inside' found''
    rcases outcome with ⟨_, idle, _⟩ | ⟨alive, _⟩
    · exact absurd idle going
    · rw [inside] at inside'
      cases inside'
      rw [found] at found''
      cases found''
      exact alive

/-- In every run every `disconnect` returns `Ok` or `NotConnected` and leaves
the tunnel stopped if and only if no stop is ever sent to a tunnel whose
listener has ended and whose forwarders are all gone. -/
theorem disconnect_stops_iff (protocol : TunnelProtocol) (labels : List Label) :
    (machine protocol).EveryStep (LeavesStopped protocol) labels created ↔
      (machine protocol).EveryStep Heard labels created := by
  refine Machine.everyStep_congr (inductive_inv protocol) ?_ labels
    ((inductive_inv protocol).start created rfl)
  intro before label after inv taken
  have kept := (inductive_inv protocol).step before label after inv taken
  cases label with
  | connect _ | closedByPeer _ | listener _ _ =>
      simp [LeavesStopped, Heard, ofDisconnect]
  | closeConnection =>
      refine iff_of_true (fun _ => ⟨kept.canReturn protocol, fun idle => ?_⟩) (fun same => by cases same)
      simp only [machine, step] at taken
      split at taken
      · rcases Option.map_eq_some_iff.mp taken with ⟨_, _, same⟩
        subst same
        cases idle
      · cases taken
  | disconnect =>
      refine iff_of_true (fun _ => ⟨kept.canReturn protocol, fun idle => ?_⟩) (fun same => by cases same)
      simp only [machine, step] at taken
      split at taken
      · cases taken
        rcases disconnect_cases before with ⟨index, going⟩ | ⟨off, returned⟩
        · rw [going] at idle
          cases idle
        · exact kept.stopped_of_off off returned
      · cases taken
  | sendStop =>
      have sent : step protocol before .sendStop = some after := taken
      rw [heard_iff sent]
      constructor
      · intro stops idle
        have stopped := (stops rfl).2 idle
        rcases sendStop_cases sent with ⟨_, _, _, _, outcome⟩
        rcases outcome with ⟨_, _, panicked, _⟩ | ⟨_, going⟩
        · rcases stopped.returned with returned | returned <;>
            simp [panicked] at returned
        · rw [going] at idle
          cases idle
      · intro going _
        exact ⟨kept.canReturn protocol, fun idle => absurd idle going⟩
  | endpointClosed =>
      refine iff_of_true (fun _ => ⟨kept.canReturn protocol, fun _ => ?_⟩) (fun same => by cases same)
      simp only [machine, step] at taken
      split at taken
      · rcases Option.map_eq_some_iff.mp taken with ⟨_, _, same⟩
        subst same
        exact kept.stopped_of_off rfl (Or.inl rfl)
      · cases taken

/-- The tunnel's address is in use, so the listener ends at its `bind`, and the
owner disconnects. -/
def desertedRun : List Label := [.connect .connected, .listener 0 .bindFails, .disconnect]

theorem disconnect_panics :
    ¬ ∀ labels, (machine .tcp).EveryStep (LeavesStopped .tcp) labels created := by
  intro always
  have sends : (((machine .tcp).run desertedRun created).bind fun tunnel =>
      ((machine .tcp).step tunnel .sendStop).map fun next => (next.call, next.returned)) =
        some (.idle, some .panicked) := by decide
  rcases Option.bind_eq_some_iff.mp sends with ⟨before, ran, rest⟩
  rcases Option.map_eq_some_iff.mp rest with ⟨after, taken, point⟩
  have every := always (desertedRun ++ [.sendStop])
  have stopped := (every.of_run ran taken rfl).2 (congrArg Prod.fst point)
  have panicked : after.returned = some .panicked := congrArg Prod.snd point
  rcases stopped.returned with returned | returned <;> simp [panicked] at returned

end ClientTunnel

end Client
end Lantun
