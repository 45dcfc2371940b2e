import Lantun.Client.Disconnect

namespace Lantun
namespace Client

/-!
# When `is_running` tells the truth

Three things stand for one fact: the flag, the optional properties, and the
spawned task.  The calls keep the first two together.  The task has no access to
either, so when one of its `?` fails the flag stays set over a tunnel nobody
listens on, and a new `connect` is refused.  The other way to lose the agreement
is a `disconnect` that unwinds.

The owner can look at the tunnel only while no call is in progress, so that is
where the agreement is asked for.
-/

namespace ClientTunnel

/-- The task started by the last successful `connect` has not ended. -/
def Listening (tunnel : ClientTunnel) : Prop :=
  ∃ connected, tunnel.connects.getLast? = some connected ∧ connected.listener.isEnded = false

structure Truthful (protocol : TunnelProtocol) (tunnel : ClientTunnel) : Prop where
  running_iff : tunnel.isRunning = true ↔ tunnel.runningProps.isSome = true ∧ tunnel.Listening
  /-- Once the listener has ended, `connect` starts the tunnel anew. -/
  anew : ¬ tunnel.Listening → ¬ tunnel.ConnectRefused protocol

/-- What the owner finds whenever it looks. -/
def TruthfulBetweenCalls (protocol : TunnelProtocol) (tunnel : ClientTunnel) : Prop :=
  tunnel.call = .idle → tunnel.Truthful protocol

/-- The step is not the failure of a `?` in the listener of a connected tunnel,
and not a send on a stop channel that everybody has left. -/
def Undisturbed (before : ClientTunnel) (label : Label) (after : ClientTunnel) : Prop :=
  (∀ index act, label = .listener index act → before.runningProps = some index →
    act.fails = false) ∧ Heard before label after

/-- With the properties in place, the last `connect` is the one they belong
to. -/
theorem Inv.listening_iff {tunnel : ClientTunnel} (inv : tunnel.Inv) {index : Nat}
    {connected : Connected} (props : tunnel.runningProps = some index)
    (found : tunnel.connects[index]? = some connected) :
    tunnel.Listening ↔ connected.listener.isEnded = false := by
  have last : tunnel.connects.getLast? = some connected := by
    rw [List.getLast?_eq_getElem?, ← inv.latest index props]
    exact found
  constructor
  · rintro ⟨other, last', alive⟩
    rw [last] at last'
    cases last'
    exact alive
  · intro alive
    exact ⟨connected, last, alive⟩

/-- The properties always point at something. -/
theorem Inv.found {tunnel : ClientTunnel} (inv : tunnel.Inv) {index : Nat}
    (props : tunnel.runningProps = some index) :
    ∃ connected, tunnel.connects[index]? = some connected :=
  ⟨_, List.getElem?_eq_getElem (Nat.lt_of_succ_le (Nat.le_of_eq (inv.latest index props)))⟩

/-- Of the two directions only one can fail between calls: the flag may be set
over a tunnel that does not listen. -/
theorem Inv.truthful_iff {protocol : TunnelProtocol} {tunnel : ClientTunnel} (inv : tunnel.Inv) :
    tunnel.Truthful protocol ↔
      (tunnel.isConnected = true → tunnel.runningProps.isSome = true ∧ tunnel.Listening) := by
  constructor
  · intro truthful on
    exact truthful.running_iff.mp on
  · intro listens
    refine ⟨⟨listens, fun there => ?_⟩, fun ended refused => ?_⟩
    · cases flag : tunnel.isConnected with
      | true => exact flag
      | false =>
          rw [(inv.stopped flag).1] at there
          cases there.1
    · exact ended (listens (connectRefused_iff.mp refused).2).2

/-- Truthfulness depends on the flag, the properties and what they point to. -/
theorem Inv.truthful_of_found {protocol : TunnelProtocol} {tunnel : ClientTunnel}
    (inv : tunnel.Inv) {index : Nat} {connected : Connected}
    (props : tunnel.runningProps = some index)
    (found : tunnel.connects[index]? = some connected) :
    tunnel.Truthful protocol ↔ connected.listener.isEnded = false := by
  rw [inv.truthful_iff, inv.listening_iff props found, props]
  have on : tunnel.isConnected = true := by
    cases flag : tunnel.isConnected with
    | true => rfl
    | false =>
        rw [(inv.stopped flag).1] at props
        cases props
  simp [on]

theorem Inv.truthful_of_none {protocol : TunnelProtocol} {tunnel : ClientTunnel}
    (inv : tunnel.Inv) (props : tunnel.runningProps = none) :
    tunnel.Truthful protocol ↔ tunnel.isConnected = false := by
  rw [inv.truthful_iff, props]
  simp

/-- Changing one of the entries keeps the truth unless it is the one the
properties point to. -/
theorem truthful_setConnect {protocol : TunnelProtocol} {tunnel : ClientTunnel} {index : Nat}
    {before after : Connected} (inv : tunnel.Inv) (kept : (tunnel.setConnect index after).Inv)
    (found : tunnel.connects[index]? = some before) (truthful : tunnel.Truthful protocol) :
    (tunnel.setConnect index after).Truthful protocol ↔
      (tunnel.runningProps = some index → after.listener.isEnded = false) := by
  have bound := (List.getElem?_eq_some_iff.mp found).1
  cases props : tunnel.runningProps with
  | none =>
      rw [kept.truthful_of_none props]
      refine iff_of_true ?_ (fun some_ => by cases some_)
      exact (inv.truthful_of_none props).mp truthful
  | some at_ =>
      by_cases same : index = at_
      · subst at_
        have here : (tunnel.setConnect index after).connects[index]? = some after :=
          List.getElem?_set_self bound
        rw [kept.truthful_of_found props here]
        exact ⟨fun alive _ => alive, fun alive => alive rfl⟩
      · rcases inv.found props with ⟨connected, there⟩
        have here : (tunnel.setConnect index after).connects[at_]? = some connected :=
          (List.getElem?_set_ne same).trans there
        rw [kept.truthful_of_found props here]
        refine iff_of_true ((inv.truthful_of_found props there).mp truthful) (fun some_ => ?_)
        exact absurd (Option.some.inj some_).symm same

theorem Inv.truthful_connect {protocol : TunnelProtocol} {tunnel : ClientTunnel}
    (inv : tunnel.Inv) (outcome : ConnectOutcome) (truthful : tunnel.Truthful protocol) :
    (tunnel.connect outcome).Truthful protocol := by
  rw [(inv.connect outcome).truthful_iff]
  rw [inv.truthful_iff] at truthful
  unfold ClientTunnel.connect
  split
  · exact truthful
  · cases outcome with
    | endpointFails _ | connectFails _ => exact truthful
    | connected =>
        intro _
        exact ⟨rfl, Connected.spawned, List.getLast?_concat, rfl⟩

theorem undisturbed_of_quiet {before after : ClientTunnel} {label : Label}
    (notListener : ∀ index act, label ≠ .listener index act) (notSend : label ≠ .sendStop) :
    Undisturbed before label after :=
  ⟨fun index act same => absurd same (notListener index act), fun same => absurd same notSend⟩

section Step

variable {protocol : TunnelProtocol} {before after : ClientTunnel}

/-! ## One label each -/

theorem Inv.truthful_of_connect (inv : before.Inv)
    (truthful : TruthfulBetweenCalls protocol before) {outcome : ConnectOutcome}
    (taken : step protocol before (.connect outcome) = some after) :
    TruthfulBetweenCalls protocol after := by
  simp only [step] at taken
  split at taken
  · rename_i idle
    cases taken
    exact fun _ => inv.truthful_connect outcome (truthful idle)
  · cases taken

theorem Inv.truthful_of_disconnect (kept : after.Inv)
    (taken : step protocol before .disconnect = some after) :
    TruthfulBetweenCalls protocol after := by
  simp only [step] at taken
  split at taken
  · cases taken
    intro idle
    rcases disconnect_cases before with ⟨index, going⟩ | ⟨off, _⟩
    · rw [going] at idle
      cases idle
    · exact (kept.truthful_of_none (kept.stopped off).1).mpr off
  · cases taken

/-- A `send` on a deserted channel takes the properties and leaves the flag. -/
theorem Inv.truthful_sendStop_iff (inv : before.Inv) (kept : after.Inv)
    (sent : step protocol before .sendStop = some after) :
    TruthfulBetweenCalls protocol after ↔ Undisturbed before .sendStop after := by
  have same : Undisturbed before .sendStop after ↔ after.call ≠ .idle := by
    rw [← heard_iff sent]
    exact and_iff_right (fun _ _ same => by cases same)
  rw [same]
  constructor
  · intro still idle
    rcases sendStop_cases sent with ⟨index, _, inside, _, ⟨_, _, _, on, props⟩ | ⟨_, going⟩⟩
    · have busy : before.call ≠ .idle := by simp [inside]
      have none_ : after.runningProps = none := props.trans (inv.calling busy)
      have off := (kept.truthful_of_none none_).mp (still idle)
      rw [on, inv.on_of_busy busy] at off
      cases off
    · rw [going] at idle
      cases idle
  · exact fun going idle => absurd idle going

theorem truthful_of_closeConnection
    (taken : step protocol before .closeConnection = some after) :
    TruthfulBetweenCalls protocol after := by
  simp only [step] at taken
  split at taken
  · rcases Option.map_eq_some_iff.mp taken with ⟨_, _, same⟩
    subst same
    intro idle
    cases idle
  · cases taken

theorem Inv.truthful_of_endpointClosed (kept : after.Inv)
    (taken : step protocol before .endpointClosed = some after) :
    TruthfulBetweenCalls protocol after := by
  simp only [step] at taken
  split at taken
  · rcases Option.map_eq_some_iff.mp taken with ⟨_, _, same⟩
    subst same
    exact fun _ => (kept.truthful_of_none (kept.stopped rfl).1).mpr rfl
  · cases taken

theorem Inv.truthful_of_closedByPeer (inv : before.Inv) (kept : after.Inv)
    (truthful : TruthfulBetweenCalls protocol before) {index : Nat}
    (taken : step protocol before (.closedByPeer index) = some after) :
    TruthfulBetweenCalls protocol after := by
  rcases Option.map_eq_some_iff.mp taken with ⟨connected, found, same⟩
  subst same
  intro idle
  refine (truthful_setConnect inv kept found (truthful idle)).mpr (fun props => ?_)
  exact (inv.truthful_of_found props found).mp (truthful idle)

/-- The listener of the connected tunnel ends by a failing `?` and not otherwise. -/
theorem Inv.truthful_listener_iff (inv : before.Inv) (kept : after.Inv)
    (truthful : TruthfulBetweenCalls protocol before) {index : Nat} {act : ListenerAct}
    (taken : step protocol before (.listener index act) = some after) :
    TruthfulBetweenCalls protocol after ↔ Undisturbed before (.listener index act) after := by
  rcases Option.bind_eq_some_iff.mp taken with ⟨connected, found, moved⟩
  rcases Option.map_eq_some_iff.mp moved with ⟨next, acted, same⟩
  subst same
  have condition : Undisturbed before (.listener index act) (before.setConnect index next) ↔
      (before.runningProps = some index → act.fails = false) := by
    constructor
    · exact fun undisturbed => undisturbed.1 index act rfl
    · intro safe
      refine ⟨fun at_ other same props => ?_, fun same => by cases same⟩
      cases same
      exact safe props
  rw [condition]
  by_cases idle : before.call = .idle
  · have held := truthful idle
    have between : TruthfulBetweenCalls protocol (before.setConnect index next) ↔
        (before.setConnect index next).Truthful protocol :=
      ⟨fun between => between idle, fun now _ => now⟩
    rw [between, truthful_setConnect inv kept found held]
    refine forall_congr' fun props => ?_
    have alive := (inv.truthful_of_found props found).mp held
    have ends := (Connected.step_quiet (inv.quiet index connected props found) acted).2
    rw [alive] at ends
    rw [← Bool.not_eq_true, ← Bool.not_eq_true]
    simpa using not_congr ends
  · refine iff_of_true (fun idle' => absurd idle' idle) (fun props => ?_)
    rw [inv.calling idle] at props
    cases props

/-- Where the flag is truthful, a step leaves it so exactly when it is undisturbed. -/
theorem Inv.truthful_step_iff (inv : before.Inv)
    (truthful : TruthfulBetweenCalls protocol before) {label : Label}
    (taken : (machine protocol).step before label = some after) :
    TruthfulBetweenCalls protocol after ↔ Undisturbed before label after := by
  have kept := (inductive_inv protocol).step before label after inv taken
  cases label with
  | connect outcome =>
      exact iff_of_true (inv.truthful_of_connect truthful taken)
        (undisturbed_of_quiet (by simp) (by simp))
  | disconnect =>
      exact iff_of_true (kept.truthful_of_disconnect taken)
        (undisturbed_of_quiet (by simp) (by simp))
  | sendStop => exact inv.truthful_sendStop_iff kept taken
  | closeConnection =>
      exact iff_of_true (truthful_of_closeConnection taken)
        (undisturbed_of_quiet (by simp) (by simp))
  | endpointClosed =>
      exact iff_of_true (kept.truthful_of_endpointClosed taken)
        (undisturbed_of_quiet (by simp) (by simp))
  | closedByPeer index =>
      exact iff_of_true (inv.truthful_of_closedByPeer kept truthful taken)
        (undisturbed_of_quiet (by simp) (by simp))
  | listener index act => exact inv.truthful_listener_iff kept truthful taken

end Step

/-- In every run the flag is truthful in every state between calls if and only
if no `?` of the listener fails while its tunnel is connected and no stop is
sent into a deserted channel. -/
theorem isRunning_truthful_iff (protocol : TunnelProtocol) (labels : List Label) :
    (machine protocol).EveryState (TruthfulBetweenCalls protocol) labels created ↔
      (machine protocol).EveryStep Undisturbed labels created := by
  have first := (inductive_inv protocol).start created rfl
  exact Machine.everyState_iff_everyStep
    (fun before label after inv taken _ => (inductive_inv protocol).step _ _ _ inv taken)
    (fun before label after inv truthful taken => inv.truthful_step_iff truthful taken) labels
    first (fun _ => (first.truthful_of_none rfl).mpr rfl)

/-- The tunnel's address is in use: the listener has ended, the flag is set. -/
theorem isRunning_lies :
    ¬ ∀ labels, (machine .tcp).EveryState (TruthfulBetweenCalls .tcp) labels created := by
  intro always
  have ends : (((machine .tcp).run [.connect .connected, .listener 0 .bindFails] created).map
      fun tunnel => (tunnel.call, tunnel.isRunning,
        tunnel.connects.getLast?.map fun connected => connected.listener.isEnded)) =
          some (.idle, true, some true) := by decide
  rcases Option.map_eq_some_iff.mp ends with ⟨tunnel, ran, point⟩
  simp only [Prod.mk.injEq, Option.map_eq_some_iff] at point
  rcases point with ⟨idle, running, connected, last, ended⟩
  have truthful := (always _).of_run ran idle
  rcases (truthful.running_iff.mp running).2 with ⟨other, last', alive⟩
  rw [last] at last'
  cases last'
  rw [ended] at alive
  cases alive

end ClientTunnel

end Client
end Lantun
