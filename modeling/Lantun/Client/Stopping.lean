import Lantun.Net.Leaving
import Lantun.Client.Listener

namespace Lantun
namespace Client

open Async Net

/-!
# All loops that listen on a stop channel

Besides the eight forwarders these are the two listener loops of `connect`.  A
listener is looked at here in any surroundings: the owner of the tunnel may send
on the stop channel or let go of its sender at any time, and the connection may
be closed.

The sender lives in the running properties of the tunnel.  `stop` and
`disconnect` send `true` before they drop it.  A tunnel that is dropped while it
runs, or replaced in `HostState`, drops it without that.
-/

/-- What can happen to a listener. -/
inductive ListenerEvent where
  | act (act : ListenerAct)
  | sendStop
  | dropStop
  | close
  deriving DecidableEq, Repr

/-- The act completes a selection. -/
def ListenerAct.selects : ListenerAct → Bool
  | .stop | .incoming _ => true
  | _ => false

/-- The act is a step of the listener, or of a forwarder it waits for. -/
def ListenerAct.own : ListenerAct → Bool
  | .detachedEnds => false
  | _ => true

/-- The listener uses the connection. -/
def Listener.opens : Listener → Bool
  | .opening _ | .sending _ => true
  | _ => false

/-- How many steps the listener takes at most that does not select anything but the
stop channel any more. -/
def Listener.remaining : Listener → Nat
  | .ended _ => 0
  | .select | .deaf => 1
  | .binding => 2
  | .session _ forwarders => forwarders.left + 2
  | .sending _ => 5
  | .opening _ => 6

namespace Connected

def surroundedStep (protocol : TunnelProtocol) (connected : Connected) :
    ListenerEvent → Option Connected
  | .act act => connected.step protocol act
  | .sendStop =>
      if connected.stop.closed then none
      else some { connected with stop := connected.stop.send true }
  | .dropStop => some { connected with stop := connected.stop.dropSender }
  | .close => some { connected with closed := true }

def surrounded (protocol : TunnelProtocol) : Machine Connected ListenerEvent where
  initial connected := connected = spawned
  step := surroundedStep protocol

/-- On an abandoned channel the listener does not come back to its selection: it has
ended, or it uses a connection that is gone. -/
def Departs (connected : Connected) : Prop :=
  connected.listener.isEnded = true ∨ (connected.closed = true ∧ connected.listener.opens = true)

instance (connected : Connected) : Decidable connected.Departs :=
  inferInstanceAs (Decidable (_ ∨ _))

/-- The loop of a listener. -/
def stopLoop (protocol : TunnelProtocol) : StopLoop where
  State := Connected
  Label := ListenerEvent
  machine := surrounded protocol
  stop connected := connected.stop
  seen connected := connected.seen
  own
    | .act act => act.own
    | _ => false
  round
    | .act act => act.selects
    | _ => false
  waiting connected := connected.listener.selects = true
  broken connected := connected.listener.isEnded = true
  departs := Departs
  rank connected := connected.listener.remaining

/-- What an act of the task does to the part of it that concerns the stop
channel. -/
structure Heeds (act : ListenerAct) (before after : Connected) : Prop where
  channel : after.stop = before.stop
  waits : act.selects = true → before.listener.selects = true
  seen : act ≠ .stop → after.seen = before.seen
  ended : before.listener.isEnded = true → act.own = false ∧ after.listener.isEnded = true
  prior : act.selects = true → before.stop.ready before.seen = true → act = .stop
  stop : act = .stop → before.stop.ready before.seen = true ∧
    after.seen = before.stop.seenAfter before.seen ∧
    (before.stop.value = true → after.listener.isEnded = true)

theorem step_heeds {protocol : TunnelProtocol} {connected next : Connected} {act : ListenerAct}
    (taken : connected.step protocol act = some next) : Heeds act connected next := by
  -- a step of the running task that is no selection
  have quiet : ∀ {act : ListenerAct}, act.selects = false → act ≠ .stop →
      next.stop = connected.stop → next.seen = connected.seen →
        connected.listener.isEnded = false → Heeds act connected next := by
    intro act other away channel seen running
    refine ⟨channel, ?_, fun _ => seen, fun ended => ?_, ?_, fun is => absurd is away⟩
    · intro selects
      rw [other] at selects
      cases selects
    · rw [running] at ended
      cases ended
    · intro selects
      rw [other] at selects
      cases selects
  cases act with
  | detachedEnds =>
      simp only [step] at taken
      split at taken <;> cases taken
      exact ⟨rfl, fun selects => (by cases selects), fun _ => rfl, fun ended => ⟨rfl, ended⟩,
        fun selects => (by cases selects), fun is => (by cases is)⟩
  | bound | bindFails | sendFails =>
      simp only [step] at taken
      split at taken <;> cases taken
      rename_i at_
      exact quiet rfl (by simp) rfl rfl (by rw [at_]; rfl)
  | incomingFails | opened | openFails | sent | forwarderEnds role status | join =>
      simp only [step] at taken
      split at taken
      · rename_i at_
        split at taken <;> cases taken
        exact quiet rfl (by simp) rfl rfl (by rw [at_]; rfl)
      · cases taken
  | stop =>
      simp only [step] at taken
      split at taken <;> cases taken
      rename_i told
      refine ⟨rfl, fun _ => told.1, fun other => absurd rfl other, fun ended => ?_, fun _ _ => rfl,
        fun _ => ⟨told.2, rfl, fun value => ?_⟩⟩
      · rw [Listener.running_of_selects told.1] at ended
        cases ended
      · simp only [value, if_true, Listener.isEnded]
  | incoming addr =>
      have channel := (step_frame taken).1
      simp only [step] at taken
      split at taken
      · rename_i at_
        split at taken
        · cases taken
        · rename_i idle
          cases taken
          refine ⟨channel, fun _ => by rw [at_]; rfl, fun _ => ?_, fun ended => ?_,
            fun _ ready => absurd ready idle, fun is => by cases is⟩
          · unfold afterIncoming
            split
            · rfl
            · split <;> rfl
          · rw [at_] at ended
            cases ended
      · cases taken

/-- A step of the listener is one of those that remain, if it is not past its
selection or about to leave it for good. -/
theorem step_remaining_lt {protocol : TunnelProtocol} {connected next : Connected}
    {act : ListenerAct} (taken : connected.step protocol act = some next) (own : act.own = true)
    (leaves : connected.listener.selects = true →
      connected.stop.ready connected.seen = true ∧ connected.stop.value = true) :
    next.listener.remaining < connected.listener.remaining := by
  cases act with
  | detachedEnds => cases own
  | bound | bindFails | sendFails =>
      simp only [step] at taken
      split at taken <;> cases taken
      rename_i at_
      simp [at_, Listener.remaining]
  | opened | openFails | sent =>
      simp only [step] at taken
      split at taken
      · rename_i at_
        split at taken <;> cases taken
        simp [at_, Listener.remaining, Forwarders.spawned, Forwarders.left]
      · cases taken
  | join =>
      simp only [step] at taken
      split at taken
      · rename_i at_
        split at taken <;> cases taken
        simp only [at_, Listener.remaining]
        omega
      · cases taken
  | forwarderEnds role status =>
      simp only [step] at taken
      split at taken
      · rename_i at_
        split at taken <;> cases taken
        rename_i ends
        have less := Forwarders.left_setStatus_lt ends.1 ends.2
        simp only [at_, Listener.remaining]
        omega
      · cases taken
  | stop =>
      simp only [step] at taken
      split at taken <;> cases taken
      rename_i told
      simp only [(leaves told.1).2, if_true]
      rcases Listener.selects_cases told.1 with at_ | at_ <;> rw [at_] <;> decide
  | incoming _ | incomingFails =>
      simp only [step] at taken
      split at taken
      · rename_i at_
        rw [if_pos (leaves (by rw [at_]; rfl)).1] at taken
        cases taken
      · cases taken

/-- A listener that uses a connection that is gone ends with its next step. -/
theorem step_departs {protocol : TunnelProtocol} {connected next : Connected} {act : ListenerAct}
    (departs : connected.Departs) (taken : connected.step protocol act = some next) :
    next.Departs := by
  rcases departs with ended | ⟨closed, opens⟩
  · exact Or.inl ((step_heeds taken).ended ended).2
  · cases act with
    | detachedEnds =>
        simp only [step] at taken
        split at taken <;> cases taken
        exact Or.inr ⟨closed, opens⟩
    | openFails =>
        simp only [step, closed, if_true] at taken
        split at taken <;> cases taken
        exact Or.inl rfl
    | sendFails =>
        simp only [step] at taken
        split at taken <;> cases taken
        exact Or.inl rfl
    | opened | sent =>
        simp only [step, closed, if_true] at taken
        split at taken <;> cases taken
    | bound | bindFails =>
        simp only [step] at taken
        split at taken <;> cases taken
        rename_i at_
        rw [at_] at opens
        cases opens
    | stop =>
        simp only [step] at taken
        split at taken <;> cases taken
        rename_i told
        rcases Listener.selects_cases told.1 with at_ | at_ <;> rw [at_] at opens <;> cases opens
    | incoming _ | incomingFails | forwarderEnds _ _ | join =>
        simp only [step] at taken
        split at taken
        · rename_i at_
          rw [at_] at opens
          cases opens
        · cases taken

/-- A listener that has not ended, and is not to wait for the stop channel, can take
a step; where the connection is needed and is there, it goes on with it. -/
theorem exists_step (protocol : TunnelProtocol) {connected : Connected}
    (running : connected.listener.isEnded = false)
    (ready : connected.listener.selects = true → connected.stop.ready connected.seen = true) :
    ∃ act next, act.own = true ∧ connected.step protocol act = some next ∧
      (¬ connected.Departs → connected.listener.selects = false → ¬ next.Departs) := by
  cases at_ : connected.listener with
  | ended result =>
      rw [at_] at running
      cases running
  | binding =>
      refine ⟨.bound, { connected with listener := .select }, rfl, ?_, fun _ _ => ?_⟩
      · simp only [step, at_]
      · simp [Departs, Listener.isEnded, Listener.opens]
  | select | deaf =>
      have told := ready (by rw [at_]; rfl)
      refine ⟨.stop, { connected with
        seen := connected.stop.seenAfter connected.seen
        listener := if connected.stop.value then .ended .ok else .select }, rfl, ?_,
          fun _ away => by cases away⟩
      simp only [step, at_, Listener.selects, told, and_self, if_true]
  | opening addr =>
      cases closed : connected.closed with
      | true =>
          refine ⟨.openFails, { connected with listener := .ended (.error .connectionError) }, rfl,
            ?_, fun stays _ => ?_⟩
          · simp only [step, at_, closed, if_true]
          · exact absurd (Or.inr ⟨closed, by rw [at_]; rfl⟩) stays
      | false =>
          refine ⟨.opened, { connected with listener := .sending addr }, rfl, ?_, fun _ _ => ?_⟩
          · simp only [step, at_, closed, Bool.false_eq_true, if_false]
          · simp [Departs, Listener.isEnded, closed]
  | sending addr =>
      cases closed : connected.closed with
      | true =>
          refine ⟨.sendFails, { connected with listener := .ended (.error .ioError) }, rfl, ?_,
            fun stays _ => ?_⟩
          · simp only [step, at_]
          · exact absurd (Or.inr ⟨closed, by rw [at_]; rfl⟩) stays
      | false =>
          refine ⟨.sent, { connected with
            localConnections := connected.localConnections.insert addr (localConnection addr)
            listener := .session addr Forwarders.spawned }, rfl, ?_, fun _ _ => ?_⟩
          · simp only [step, at_, closed, Bool.false_eq_true, if_false]
          · simp [Departs, Listener.isEnded, closed]
  | session addr forwarders =>
      by_cases ended : ∀ role, forwarders.status role ≠ .running
      · refine ⟨.join, { connected with
          localConnections := connected.localConnections.erase addr
          detached := connected.detached + forwarders.left
          listener := .select }, rfl, ?_, fun _ _ => ?_⟩
        · simp only [step, at_, Forwarders.joined_of_ended ended, if_true]
        · simp [Departs, Listener.isEnded, Listener.opens]
      · rcases not_forall.mp ended with ⟨role, still⟩
        have runs := not_not.mp still
        refine ⟨.forwarderEnds role .finished, { connected with
          listener := .session addr (forwarders.setStatus role .finished) }, rfl, ?_, fun _ _ => ?_⟩
        · simp [step, at_, runs]
        · simp [Departs, Listener.isEnded, Listener.opens]

theorem stop_moves {protocol : TunnelProtocol} {connected next : Connected} {event : ListenerEvent}
    (taken : (surrounded protocol).step connected event = some next) :
    connected.stop.Moves next.stop := by
  cases event with
  | act act =>
      rw [(step_heeds taken).channel]
      exact .stays
  | sendStop =>
      simp only [surrounded, surroundedStep] at taken
      split at taken <;> cases taken
      rename_i open_
      exact .sent (by simpa using open_)
  | dropStop =>
      cases taken
      exact .dropped
  | close =>
      cases taken
      exact .stays

/-- What happens around the listener leaves it where it is. -/
theorem around_frame {protocol : TunnelProtocol} {connected next : Connected}
    {event : ListenerEvent} (around : ∀ act, event ≠ .act act)
    (taken : (surrounded protocol).step connected event = some next) :
    next.listener = connected.listener ∧ next.seen = connected.seen ∧
      (connected.closed = true → next.closed = true) := by
  cases event with
  | act act => exact absurd rfl (around act)
  | sendStop =>
      simp only [surrounded, surroundedStep] at taken
      split at taken <;> cases taken
      exact ⟨rfl, rfl, id⟩
  | dropStop =>
      cases taken
      exact ⟨rfl, rfl, id⟩
  | close =>
      cases taken
      exact ⟨rfl, rfl, fun _ => rfl⟩

/-- A step of the loop is an act of the task. -/
theorem act_of_own {protocol : TunnelProtocol} {event : ListenerEvent}
    (own : (stopLoop protocol).own event = true) : ∃ act, event = .act act := by
  cases event with
  | act act => exact ⟨act, rfl⟩
  | _ => cases own

/-- The value `true` is in sight of a receiver that has not seen it. -/
theorem ready_of_told {protocol : TunnelProtocol} {connected : Connected}
    (attentive : (stopLoop protocol).Attentive connected) (value : connected.stop.value = true) :
    connected.stop.ready connected.seen = true :=
  Watch.ready_of_ne (attentive.2 value)

/-- Back at its selection, where it finds the channel abandoned, the listener goes
around. -/
theorem step_around (protocol : TunnelProtocol) {connected : Connected}
    (waiting : connected.listener.selects = true)
    (abandoned : (stopLoop protocol).Abandoned connected) :
    (surrounded protocol).step connected (.act .stop) = some { connected with
      seen := connected.stop.seenAfter connected.seen
      listener := .select } := by
  rcases abandoned with ⟨closed, value⟩
  simp only [stopLoop] at closed value
  simp only [surrounded, surroundedStep, step, waiting,
    Watch.ready_of_closed closed connected.seen, value, and_self, if_true, Bool.false_eq_true,
    if_false]

section Loop

variable {protocol : TunnelProtocol} {connected next : Connected} {event : ListenerEvent}

/-- A listener that sees `true` is left. -/
theorem attentive_of_step (attentive : (stopLoop protocol).Attentive connected)
    (taken : (surrounded protocol).step connected event = some next) :
    (stopLoop protocol).Attentive next ∨ next.listener.isEnded = true := by
  have moves := stop_moves taken
  by_cases acts : ∃ act, event = .act act
  · rcases acts with ⟨act, rfl⟩
    have heeds := step_heeds taken
    by_cases looks : act = .stop
    · rcases heeds.stop looks with ⟨_, seen, ended⟩
      cases value : connected.stop.value with
      | true => exact Or.inr (ended value)
      | false =>
          refine Or.inl ⟨?_, fun told => ?_⟩
          · simp only [stopLoop, seen, heeds.channel]
            exact Watch.seenAfter_le attentive.1
          · simp only [stopLoop, heeds.channel, value] at told
            cases told
    · exact Or.inl (attentive.of_moves (heeds.seen looks) moves)
  · have seen := (around_frame (not_exists.mp acts) taken).2.1
    exact Or.inl (attentive.of_moves seen moves)

theorem ended_of_step (ended : connected.listener.isEnded = true)
    (taken : (surrounded protocol).step connected event = some next) :
    (stopLoop protocol).own event = false ∧ next.listener.isEnded = true := by
  by_cases acts : ∃ act, event = .act act
  · rcases acts with ⟨act, rfl⟩
    exact (step_heeds taken).ended ended
  · have frame := around_frame (not_exists.mp acts) taken
    refine ⟨?_, by rw [frame.1]; exact ended⟩
    rw [← Bool.not_eq_true]
    exact fun own => acts (act_of_own own)

/-- Only steps of the listener change how many it has left. -/
theorem remaining_of_aside (other : (stopLoop protocol).own event = false)
    (taken : (surrounded protocol).step connected event = some next) :
    next.listener.remaining ≤ connected.listener.remaining := by
  by_cases acts : ∃ act, event = .act act
  · rcases acts with ⟨act, rfl⟩
    cases act with
    | detachedEnds =>
        simp only [surrounded, surroundedStep, step] at taken
        split at taken <;> cases taken
        exact Nat.le_refl _
    | _ => cases other
  · rw [(around_frame (not_exists.mp acts) taken).1]

theorem departs_of_step (departs : connected.Departs)
    (taken : (surrounded protocol).step connected event = some next) :
    next.Departs ∧ ((stopLoop protocol).own event = true →
      next.listener.remaining < connected.listener.remaining) := by
  by_cases acts : ∃ act, event = .act act
  · rcases acts with ⟨act, rfl⟩
    refine ⟨step_departs departs taken, fun own => step_remaining_lt taken own ?_⟩
    intro waiting
    rcases departs with ended | ⟨_, opens⟩
    · rw [Listener.running_of_selects waiting] at ended
      cases ended
    · rcases Listener.selects_cases waiting with at_ | at_ <;> rw [at_] at opens <;> cases opens
  · rcases around_frame (not_exists.mp acts) taken with ⟨still, _, closed⟩
    refine ⟨?_, fun own => absurd (act_of_own own) acts⟩
    unfold Departs at departs ⊢
    rw [still]
    exact departs.imp_right fun gone => ⟨closed gone.1, gone.2⟩

theorem exists_own_of_departs (departs : connected.Departs)
    (running : ¬ connected.listener.isEnded = true) :
    ∃ event next, (stopLoop protocol).own event = true ∧
      (surrounded protocol).step connected event = some next := by
  have opens := (departs.resolve_left running).2
  have past : connected.listener.selects ≠ true := by
    intro waiting
    rcases Listener.selects_cases waiting with at_ | at_ <;> rw [at_] at opens <;> cases opens
  rcases exists_step protocol (eq_false_of_ne_true running) (fun waiting => absurd waiting past)
    with ⟨act, next, own, taken, _⟩
  exact ⟨.act act, next, own, taken⟩

/-- A listener that does not depart can come to its selection. -/
theorem can_wait (stays : ¬ connected.Departs) :
    (surrounded protocol).CanReach (fun _ => True) (stopLoop protocol).waiting connected := by
  have nearer : ∀ connected : Connected, ¬ connected.Departs →
      (surrounded protocol).CanReach (fun _ => True) (stopLoop protocol).waiting connected ∨
        ∃ event next, True ∧ (surrounded protocol).step connected event = some next ∧
          ¬ next.Departs ∧ next.listener.remaining < connected.listener.remaining := by
    intro connected stays
    cases waiting : connected.listener.selects with
    | true => exact Or.inl (.here waiting)
    | false =>
        have running : connected.listener.isEnded = false := by
          simpa using fun ended => stays (Or.inl ended)
        rcases exists_step protocol running (fun here => by rw [waiting] at here; cases here) with
          ⟨act, next, own, taken, kept⟩
        refine Or.inr ⟨.act act, next, trivial, taken, kept stays waiting, ?_⟩
        exact step_remaining_lt taken own fun here => by rw [waiting] at here; cases here
  exact Machine.CanReach.descend (fun connected => connected.listener.remaining) nearer stays

end Loop

theorem lawful_stopLoop (protocol : TunnelProtocol) :
    (stopLoop protocol).Lawful (fun _ => True) where
  valid := ⟨fun _ _ => trivial, fun _ _ _ _ _ => trivial⟩
  round_own event round := by
    cases event with
    | act act => cases act <;> first | rfl | cases round
    | _ => cases round
  attentive_step connected event next attentive taken := attentive_of_step attentive taken
  value_step connected event next value taken := (stop_moves taken).value value
  abandoned_step connected event next abandoned taken := abandoned.of_moves (stop_moves taken)
  broken_step connected event next broken taken := ended_of_step broken taken
  broken_departs connected broken := Or.inl broken
  aside_step connected event next other taken := remaining_of_aside other taken
  told_step connected event next attentive value taken own := by
    rcases act_of_own own with ⟨act, rfl⟩
    exact step_remaining_lt taken own fun _ => ⟨ready_of_told attentive value, value⟩
  told_moves connected _ attentive value running := by
    rcases exists_step protocol (eq_false_of_ne_true running)
      (fun _ => ready_of_told attentive value) with ⟨act, next, own, taken, _⟩
    exact ⟨.act act, next, own, taken⟩
  departs_step connected event next abandoned departs taken := departs_of_step departs taken
  departs_moves connected _ departs running := exists_own_of_departs departs running
  returns connected _ abandoned stays := can_wait stays
  round_abandoned connected waiting abandoned := by
    have taken := step_around protocol waiting abandoned
    refine ⟨[.act .stop], _, Machine.run_cons_eq_some _ |>.mpr ⟨_, taken, rfl⟩, rfl, ?_⟩
    simp [StopLoop.rounds, stopLoop, ListenerAct.selects]

end Connected

/-! ## The ten loops -/

/-- A loop that listens on a stop channel: a forwarder of a session, named by
the end its direction starts at, or the listener of a client. -/
inductive Listening where
  | forwarder (protocol : TunnelProtocol) (side : Side) (role : Role)
  | listener (protocol : TunnelProtocol)
  deriving DecidableEq, Repr

def Listening.loop : Listening → StopLoop
  | .forwarder .tcp side role => Session.stopLoop .tcp side role
  | .forwarder .udp side role => Session.stopLoop .udp side role
  | .listener protocol => Connected.stopLoop protocol

/-- What holds of a loop's states whatever happens. -/
def Listening.Valid : (which : Listening) → which.loop.State → Prop
  | .forwarder .tcp _ _ => Session.Sound .tcp
  | .forwarder .udp _ _ => Session.Sound .udp
  | .listener _ => fun _ => True

theorem Listening.lawful (which : Listening) : which.loop.Lawful which.Valid := by
  cases which with
  | forwarder protocol side role =>
      cases protocol with
      | tcp => exact Session.lawful_stopLoop .tcp side role
      | udp => exact Session.lawful_stopLoop .udp side role
  | listener protocol => exact Connected.lawful_stopLoop protocol

end Client
end Lantun
