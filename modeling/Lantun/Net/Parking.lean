import Lantun.Common
import Lantun.Machine.Noting
import Lantun.Net.Disabled

namespace Lantun
namespace Net

open Async

/-!
# A forwarder whose source fails

A forwarder whose read has failed reads again in its next round at the earliest.
For that its sleep has to run out first, and `last_active` must have been refreshed
meanwhile.  So two things can go wrong: data can be there that nobody reads, and a
forwarder whose source does nothing but fail can be kept by the activity of the
opposite direction.  Which steps of a run bring this about is settled here exactly.
-/

/-- What the sockets of a tunnel of this protocol carry. -/
abbrev Entry : TunnelProtocol → Type
  | .tcp => UInt8
  | .udp => List UInt8

def Bi.of : (protocol : TunnelProtocol) → Bi (Entry protocol)
  | .tcp => .tcp
  | .udp => .udp

/-- The act reads the source in the selection. -/
def Act.readsSource : Act → Bool
  | .read _ | .readErr => true
  | _ => false

namespace Session

variable {α : Type}

/-! ## What is expected of a forwarder -/

/-- The session when nothing but time has gone by. -/
def later (session : Session α) (nanos : Nat) : Session α :=
  { session with clock := session.clock + nanos }

/-- In its selection the task can read when data is there and no stop pending. -/
def Attends (bi : Bi α) (side : Side) (role : Role) (session : Session α) : Prop :=
  session.dataAt side role = true → session.stopPending side role = false →
    (∃ deadline live, (session.task side role).pc = .select deadline live) →
      ∃ act next, act.readsSource = true ∧
        (machine bi).step session (.task side role act) = some next

/-- At some time the task has a step, and at any time that is the end of its sleep. -/
def Parks (bi : Bi α) (side : Side) (role : Role) (session : Session α) : Prop :=
  (∃ nanos act next, (machine bi).step (session.later nanos) (.task side role act) = some next) ∧
    ∀ nanos act next, (machine bi).step (session.later nanos) (.task side role act) = some next →
      act = .control .sleep

/-- Data is ready and no stop pending, and the task can only wait for its sleep to end. -/
def Starves (bi : Bi α) (side : Side) (role : Role) (session : Session α) : Prop :=
  session.dataAt side role = true ∧ session.stopPending side role = false ∧
    session.Parks bi side role

/-- The task stays for longer than one timeout period after the second `since`, by
its own readings of the clock: it grants itself more sleep than is left of the
period, or it goes around once the period is over. -/
def Overstays (side : Side) (role : Role) (since : Nat) (before after : Session α) : Prop :=
  (∃ now deadline, (before.task side role).pc = .loaded now ∧
      (after.task side role).pc = .select deadline true ∧
        before.clock + (since + connectionTimeoutSeconds - now) * nanosPerSec < deadline) ∨
    ∃ now, (before.task side role).pc = .recheck now ∧ (after.task side role).pc = .top ∧
      since + connectionTimeoutSeconds ≤ now

/-- The second in which the source began to fail, if its last read has failed.  Until
the next read one error is all that is known, so a source that has failed once counts
as failing. -/
def noteFailure (side : Side) (role : Role) (failing : Option Nat) (session : Session α)
    (event : Event α) (_ : Session α) : Option Nat :=
  match isOwn side role event with
  | some .readErr | some .recvErr => some (failing.getD (nowSecs session.clock))
  | some (.read _) | some .recv => none
  | _ => failing

/-- What a step should leave behind, given since when the source fails. -/
structure Keeps (bi : Bi α) (side : Side) (role : Role) (failing : Option Nat)
    (before after : Session α) : Prop where
  attends : after.Attends bi side role
  fed : ¬ after.Starves bi side role
  leaves : ∀ since, failing = some since → ¬ Overstays side role since before after

/-! ## When it is met -/

/-- What is found in `last_active` at the second `now` tells of no activity after
the second `since`, or of none that is younger than a timeout. -/
def Settled (since now last : Nat) : Prop :=
  min now last ≤ since ∨ last + connectionTimeoutSeconds ≤ now

/-- A step that leads into neither trouble. -/
structure Spared (side : Side) (role : Role) (failing : Option Nat) (session : Session α)
    (event : Event α) : Prop where
  /-- A read that fails has no data behind it. -/
  behind : isOwn side role event = some .readErr → session.dataAt side role = false
  /-- Nothing is sent into the socket while its reads are disabled, unless the
  loop is about to be stopped. -/
  arrives : ∀ entry, event = .send side entry → role = .up →
    (∃ deadline, (session.task side role).pc = .select deadline false) →
      session.stopPending side role = true
  /-- The timeout is not computed from activity since the source began to fail. -/
  load : ∀ since now, failing = some since → isOwn side role event = some (.control .load) →
    (session.task side role).pc = .loaded now →
      Settled since now (session.lastActive (role.endOf side))
  /-- Nor is such activity found after the period. -/
  recheck : ∀ since now, failing = some since →
    isOwn side role event = some (.control .recheck) →
      (session.task side role).pc = .recheck now → since + connectionTimeoutSeconds ≤ now →
        Settled since now (session.lastActive (role.endOf side))

/-- A session under watch of one of its tasks. -/
def watched (bi : Bi α) (side : Side) (role : Role) : Machine (Session α × Option Nat) (Event α) :=
  (machine bi).noting none (noteFailure side role)

/-! ## A disabled read branch -/

/-- Data is there and no stop pending, and the read branch is disabled. -/
def Stuck (side : Side) (role : Role) (session : Session α) : Prop :=
  session.dataAt side role = true ∧ session.stopPending side role = false ∧
    session.Disabled side role

section Disabled

variable {bi : Bi α} {session next : Session α} {event : Event α} {side : Side} {role : Role}

/-- An enabled branch is taken. -/
theorem exists_read (takes : bi.sock.takes 1 = true) {deadline : Nat}
    (at_ : (session.task side role).pc = .select deadline true)
    (quiet : session.stopPending side role = false) (data : session.dataAt side role = true) :
    ∃ act next, act.readsSource = true ∧
      (machine bi).step session (.task side role act) = some next := by
  cases role with
  | up =>
      rcases bi.up_eq side with ⟨source, is⟩
      have more := of_decide_eq_true data
      have chosen : (session.pipe side).up.selects (session.env side) (session.pipe side).upReady =
          some .source := by
        have ready : (session.pipe side).upReady = true := by simp [Pipe.upReady, more]
        simp only [task] at at_
        simp only [stopPending, Role.endOf, task] at quiet
        simp [Task.selects, at_, biased, env, quiet, ready]
      have step_of : ∀ {act : Act} {pipe : Pipe α} {last : Nat},
          (session.pipe side).upStep bi.sock source (session.env side) act = some (pipe, last) →
            ∃ next, (machine bi).step session (.task side .up act) = some next := by
        intro act pipe last moved
        rw [← is] at moved
        exact ⟨_, congrArg (Option.map _) moved⟩
      cases error : (session.pipe side).sockError with
      | true =>
          simp only [task] at at_
          have moved : (session.pipe side).upStep bi.sock source (session.env side) .readErr =
              some ((session.pipe side).clearError.setUp (session.env side).lost
                { (session.pipe side).up with pc := .select deadline false },
                (session.env side).lastActive) := by
            simp only [Pipe.upStep, at_]
            rw [if_pos ⟨chosen, error⟩]
          rcases step_of moved with ⟨next, taken⟩
          exact ⟨.readErr, next, rfl, taken⟩
      | false =>
          have admitted : (session.pipe side).admits bi.sock 1 = true := by
            simp only [Pipe.admits, takes, Bool.true_or, Bool.and_true, decide_eq_true_eq]
            omega
          have moved : ∃ pipe last, (session.pipe side).upStep bi.sock source (session.env side)
              (.read 1) = some (pipe, last) := by
            simp only [Pipe.upStep]
            rw [if_pos ⟨chosen, error⟩]
            cases source with
            | udpPeekFrom =>
                rw [List.getElem?_eq_getElem more]
                exact ⟨_, _, rfl⟩
            | tcpRead | udpRecv =>
                simp only [admitted, dite_true]
                exact ⟨_, _, rfl⟩
          rcases moved with ⟨pipe, last, moved⟩
          rcases step_of moved with ⟨next, taken⟩
          exact ⟨.read 1, next, rfl, taken⟩
  | down =>
      have poll := of_decide_eq_true data
      have more := (session.pipe side).stream.lt_of_poll_data poll
      have chosen : (session.pipe side).down.selects (session.env side.other)
          ((session.pipe side).downReady (session.env side.other).lost) = some .source := by
        have ready : (session.pipe side).downReady (session.env side.other).lost = true := by
          simp [Pipe.downReady, env, poll]
        simp only [task] at at_
        simp only [stopPending, Role.endOf, task] at quiet
        rw [ready]
        simp [Task.selects, at_, biased, env, quiet]
      have fits : 0 < 1 ∧ 1 ≤ tunnelForwarderBufferSize ∧
          1 ≤ (session.pipe side).stream.arrived - (session.pipe side).stream.pos := by
        refine ⟨Nat.one_pos, ?_, by omega⟩
        unfold tunnelForwarderBufferSize
        omega
      have moved : ∃ pipe last, (session.pipe side).downStep bi.sock (session.env side.other)
          (.read 1) = some (pipe, last) := by
        have poll' : (session.pipe side).stream.poll (session.env side.other).lost = .data := poll
        simp only [Pipe.downStep]
        rw [if_pos chosen]
        simp only [poll', fits]
        exact ⟨_, _, rfl⟩
      rcases moved with ⟨pipe, last, moved⟩
      rw [← bi.down_eq side] at moved
      exact ⟨.read 1, _, rfl, congrArg (Option.map _) moved⟩

/-- Nor is another branch. -/
theorem act_of_disabled (disabled : session.Disabled side role)
    (quiet : session.stopPending side role = false) {act : Act}
    (taken : (machine bi).step session (.task side role act) = some next) :
    act = .control .sleep := by
  have moves := task_of_step taken side role
  simp only [isOwn, and_self, if_true] at moves
  rcases disabled with ⟨deadline, at_⟩
  exact moves.sleeps at_ quiet

theorem Stuck.starves (stuck : session.Stuck side role) : session.Starves bi side role := by
  rcases stuck with ⟨data, quiet, disabled⟩
  refine ⟨data, quiet, ?_, fun nanos act next taken => ?_⟩
  · rcases disabled with ⟨deadline, at_⟩
    refine ⟨deadline, .control .sleep, ?_⟩
    have moved : ((session.later deadline).task side role).control
        ((session.later deadline).env (role.endOf side))
        ((session.later deadline).sourceReady side role) .sleep =
          some { session.task side role with pc := .woken } := by
      have chosen : (session.task side role).selects ((session.later deadline).env (role.endOf side))
          ((session.later deadline).sourceReady side role) = some .sleep := by
        simp only [stopPending] at quiet
        have due : deadline ≤ session.clock + deadline := Nat.le_add_left _ _
        simp [Task.selects, at_, biased, env, later, quiet, due]
      have same : (session.later deadline).task side role = session.task side role := by
        cases role <;> rfl
      simp only [Task.control, same, chosen, if_true]
    have available : ∃ next, (machine bi).step (session.later deadline)
        (.task side role (.control .sleep)) = some next ∧ _ := exists_step_control moved
    rcases available with ⟨next, taken, _⟩
    exact ⟨next, taken⟩
  · have same : (session.later nanos).task side role = session.task side role := by
      cases role <;> rfl
    have still : (session.later nanos).Disabled side role := by
      rcases disabled with ⟨deadline, at_⟩
      exact ⟨deadline, by rw [same]; exact at_⟩
    refine act_of_disabled still ?_ taken
    simp only [stopPending, same]
    exact quiet

/-- With data there and no stop pending, a disabled branch is the one thing that
can go wrong. -/
theorem attends_and_fed_iff (takes : bi.sock.takes 1 = true) :
    session.Attends bi side role ∧ ¬ session.Starves bi side role ↔ ¬ session.Stuck side role := by
  constructor
  · rintro ⟨_, fed⟩ stuck
    exact fed stuck.starves
  · intro free
    have live : session.dataAt side role = true → session.stopPending side role = false →
        ∀ {deadline : Nat} {live : Bool}, (session.task side role).pc = .select deadline live →
          ∃ act next, act.readsSource = true ∧
            (machine bi).step session (.task side role act) = some next := by
      intro data quiet deadline live at_
      cases live with
      | true => exact exists_read takes at_ quiet data
      | false => exact absurd ⟨data, quiet, deadline, at_⟩ free
    refine ⟨fun data quiet ⟨deadline, enabled, at_⟩ => live data quiet at_, ?_⟩
    rintro ⟨data, quiet, ⟨nanos, act, next, taken⟩, only⟩
    cases only nanos act next taken
    have moves := task_of_step taken side role
    have same : (session.later nanos).task side role = session.task side role := by
      cases role <;> rfl
    simp only [isOwn, and_self, if_true, same] at moves
    rcases moves.heeds.waits rfl with ⟨deadline, enabled, at_⟩
    rcases live data quiet at_ with ⟨act, next', reads, taken'⟩
    cases only 0 act next' taken'
    cases reads

end Disabled

/-! ## What leads into the first trouble -/

section Step

variable {bi : Bi α} {session next : Session α} {event : Event α} {side : Side} {role : Role}

/-- A task gets stuck by a failed read with data behind it, or by data that comes
while it sleeps on after one. -/
theorem stuck_step_iff (disarmed : session.Disarmed side role) (free : ¬ session.Stuck side role)
    (taken : (machine bi).step session event = some next) :
    next.Stuck side role ↔
      (isOwn side role event = some .readErr ∧ session.dataAt side role = true) ∨
        ∃ entry, event = .send side entry ∧ role = .up ∧ session.Disabled side role ∧
          session.stopPending side role = false := by
  have moves := task_of_step taken side role
  cases own : isOwn side role event with
  | some act =>
      rw [own] at moves
      constructor
      · rintro ⟨data, quiet, deadline, at_⟩
        rcases moves.of_disabled at_ with ⟨rfl, _, _⟩
        exact Or.inl ⟨rfl, (of_readErr taken own).1 ▸ data⟩
      · rintro (⟨is, data⟩ | ⟨entry, rfl, _⟩)
        · cases is
          have stop := congrFun (stop_of_own taken own) (role.endOf side)
          generalize to_ : next.task side role = after at moves
          generalize next.lastActive (role.endOf side) = last at moves
          cases moves with
          | readErr _ chosen =>
              refine ⟨(of_readErr taken own).1.trans data, ?_, _, congrArg Task.pc to_⟩
              simp only [stopPending, to_, stop]
              exact (Task.quiet_of_selects chosen (by simp)).1
        · cases own
  | none =>
      rw [own] at moves
      constructor
      · rintro ⟨data, quiet, deadline, at_⟩
        have disabled : session.Disabled side role := ⟨deadline, moves ▸ at_⟩
        have still : session.stopPending side role = false := by
          by_contra pending
          have ready := (stop_moves taken (role.endOf side)).ready (disarmed.seen disabled)
            (by simpa [stopPending] using pending)
          simp only [stopPending, moves, ready] at quiet
          cases quiet
        have empty : session.dataAt side role = false := by
          by_contra some_
          exact free ⟨by simpa using some_, still, disabled⟩
        refine Or.inr ?_
        cases role with
        | up =>
            by_contra unsent
            have same := dataAt_of_step taken own (fun entry is =>
              unsent ⟨entry, is, rfl, disabled, still⟩)
            rw [same, empty] at data
            cases data
        | down =>
            have failed := failed_of_step taken own (disarmed.failed rfl disabled)
            simp [dataAt, failed] at data
      · rintro (⟨is, _⟩ | ⟨entry, rfl, rfl, ⟨deadline, at_⟩, quiet⟩)
        · cases is
        · simp only [machine, step] at taken
          split at taken <;> cases taken
          refine ⟨?_, ?_, deadline, ?_⟩
          · simp only [dataAt, setPipe, Function.update_self, Pipe.send, List.length_append,
              List.length_singleton, decide_eq_true_eq]
            exact Nat.lt_succ_of_le (session.pipe side).got_le
          · rw [← quiet]
            simp only [stopPending, moves]
            rfl
          · rw [moves]
            exact at_

/-! ## What leads into the second -/

/-- The time granted is more than what is left of the period exactly if it is
counted from later activity. -/
theorem grants_more_iff {since now last : Nat} :
    since + connectionTimeoutSeconds - now < timeout now last ↔ ¬ Settled since now last := by
  unfold Settled
  simp only [timeout]
  split
  · rename_i old
    simp only [connectionTimeoutSeconds] at old ⊢
    omega
  · rename_i young
    simp only [connectionTimeoutSeconds] at young ⊢
    omega

/-- So is going around after it. -/
theorem goes_around_iff {since now last : Nat} (past : since + connectionTimeoutSeconds ≤ now) :
    ¬ now - last ≥ connectionTimeoutSeconds ↔ ¬ Settled since now last := by
  unfold Settled
  simp only [connectionTimeoutSeconds] at past ⊢
  omega

theorem overstays_iff (taken : (machine bi).step session event = some next) (since : Nat) :
    Overstays side role since session next ↔
      (∃ now, isOwn side role event = some (.control .load) ∧
          (session.task side role).pc = .loaded now ∧
            ¬ Settled since now (session.lastActive (role.endOf side))) ∨
        ∃ now, isOwn side role event = some (.control .recheck) ∧
          (session.task side role).pc = .recheck now ∧ since + connectionTimeoutSeconds ≤ now ∧
            ¬ Settled since now (session.lastActive (role.endOf side)) := by
  have moves := task_of_step taken side role
  cases own : isOwn side role event with
  | none =>
      rw [own] at moves
      refine iff_of_false ?_ ?_
      · rintro (⟨now, deadline, before, after, _⟩ | ⟨now, before, after, _⟩) <;>
          · rw [moves, before] at after
            cases after
      · rintro (⟨now, is, _⟩ | ⟨now, is, _⟩) <;> cases is
  | some act =>
      rw [own] at moves
      generalize next.lastActive (role.endOf side) = last at moves
      constructor
      · rintro (⟨now, deadline, before, after, more⟩ | ⟨now, before, after, past⟩)
        · have load := moves.of_loaded before
          have round := moves.round
          rw [before, after] at round
          refine Or.inl ⟨now, by rw [load], before, grants_more_iff.mp ?_⟩
          rw [round.deadline_eq] at more
          exact Nat.lt_of_mul_lt_mul_right (Nat.lt_of_add_lt_add_left more)
        · have recheck := moves.of_recheck before
          have round := moves.round
          rw [before, after] at round
          refine Or.inr ⟨now, by rw [recheck], before, past, (goes_around_iff past).mp ?_⟩
          exact round.young_of_top
      · rintro (⟨now, is, before, unsettled⟩ | ⟨now, is, before, past, unsettled⟩)
        · cases is
          generalize to_ : next.task side role = after at moves
          cases moves with
          | control moved =>
              simp only [Task.control, before] at moved
              cases moved
              refine Or.inl ⟨now, _, before, congrArg Task.pc to_, ?_⟩
              exact Nat.add_lt_add_left (Nat.mul_lt_mul_of_pos_right
                (grants_more_iff.mpr unsettled) (by unfold nanosPerSec; omega)) _
        · cases is
          generalize to_ : next.task side role = after at moves
          cases moves with
          | control moved =>
              simp only [Task.control, before] at moved
              cases moved
              refine Or.inr ⟨now, before, ?_, past⟩
              rw [to_]
              exact if_neg ((goes_around_iff past).mpr unsettled)

/-! ## The run -/

theorem keeps_step_iff (takes : bi.sock.takes 1 = true) {failing : Option Nat}
    (disarmed : session.Disarmed side role) (free : ¬ session.Stuck side role)
    (taken : (machine bi).step session event = some next) :
    Keeps bi side role failing session next ↔ Spared side role failing session event := by
  have fed : next.Attends bi side role ∧ ¬ next.Starves bi side role ↔ ¬ next.Stuck side role :=
    attends_and_fed_iff takes
  have stuck := stuck_step_iff disarmed free taken
  constructor
  · rintro ⟨attends, keeps, leaves⟩
    have free' := fed.mp ⟨attends, keeps⟩
    refine ⟨fun own => ?_, fun entry is up disabled => ?_, fun since now is own at_ => ?_,
      fun since now is own at_ past => ?_⟩
    · by_contra data
      exact free' (stuck.mpr (Or.inl ⟨own, by simpa using data⟩))
    · by_contra quiet
      exact free' (stuck.mpr (Or.inr ⟨entry, is, up, disabled, by simpa using quiet⟩))
    · by_contra unsettled
      exact leaves since is ((overstays_iff taken since).mpr (Or.inl ⟨now, own, at_, unsettled⟩))
    · by_contra unsettled
      exact leaves since is
        ((overstays_iff taken since).mpr (Or.inr ⟨now, own, at_, past, unsettled⟩))
  · intro spared
    have free' : ¬ next.Stuck side role := by
      intro gets
      rcases stuck.mp gets with ⟨own, data⟩ | ⟨entry, is, up, disabled, quiet⟩
      · rw [spared.behind own] at data
        cases data
      · rw [spared.arrives entry is up disabled] at quiet
        cases quiet
    rcases fed.mpr free' with ⟨attends, keeps⟩
    refine ⟨attends, keeps, fun since is overstays => ?_⟩
    rcases (overstays_iff taken since).mp overstays with
      ⟨now, own, at_, unsettled⟩ | ⟨now, own, at_, past, unsettled⟩
    · exact unsettled (spared.load since now is own at_)
    · exact unsettled (spared.recheck since now is own at_ past)

theorem not_stuck_of_starts (starts : session.Starts) : ¬ session.Stuck side role := by
  rintro ⟨_, _, deadline, at_⟩
  rcases starts.1 side with ⟨seenUp, seenDown, start⟩
  simp only [task, start] at at_
  cases role <;> cases at_

theorem keeps_run_iff (takes : bi.sock.takes 1 = true) (labels : List (Event α))
    (starts : session.Starts) :
    (watched bi side role).EveryStep
        (fun noted _ next => Keeps bi side role noted.2 noted.1 next.1) labels (session, none) ↔
      (watched bi side role).EveryStep
        (fun noted event _ => Spared side role noted.2 noted.1 event) labels (session, none) := by
  have inv := inductive_disarmed bi side role
  refine Machine.everyStep_congr_of_kept
    (I := fun noted => noted.1.Disarmed side role ∧ ¬ noted.1.Stuck side role) ?_ ?_ labels
    ⟨inv.start session starts, not_stuck_of_starts starts⟩
  · intro noted event next kept taken keeps
    exact ⟨inv.step _ _ _ kept.1 (Machine.step_of_noting taken),
      (attends_and_fed_iff takes).mp ⟨keeps.attends, keeps.fed⟩⟩
  · intro noted event next kept taken
    exact keeps_step_iff takes kept.1 kept.2 (Machine.step_of_noting taken)

end Step

theorem takes_one (protocol : TunnelProtocol) : (Bi.of protocol).sock.takes 1 = true := by
  cases protocol <;> rfl

/-- In every run of a session, and for each of its forwarders, the steps keep what
is expected after a failed read exactly as long as they are spared: no read fails
with data behind it, no data comes while reads are disabled, and a forwarder whose
source has been failing finds no later activity when it counts its time.  The
eight forwarders are the upper and the lower tasks of the two directions, over
sockets of either protocol. -/
theorem read_errors_iff (protocol : TunnelProtocol) (side : Side) (role : Role)
    (labels : List (Event (Entry protocol))) {start : Session (Entry protocol)}
    (starts : start.Starts) :
    (watched (Bi.of protocol) side role).EveryStep
        (fun noted _ next => Keeps (Bi.of protocol) side role noted.2 noted.1 next.1) labels
        (start, none) ↔
      (watched (Bi.of protocol) side role).EveryStep
        (fun noted event _ => Spared side role noted.2 noted.1 event) labels (start, none) :=
  keeps_run_iff (takes_one protocol) labels starts

/-- The service has been away, and an error of that is still in front of the datagram
with which it answers. -/
def answered : List (Event (List UInt8)) :=
  enterSelect .host .up ++ [.sockError .host, .send .host [2]]

/-- The forwarder reads the error. -/
def lateService : List (Event (List UInt8)) := answered ++ [.task .host .up .readErr]

theorem read_errors_iff_lateService :
    (watched (Bi.of .udp) .host .up).EveryStep
        (fun noted _ next => Keeps (Bi.of .udp) .host .up noted.2 noted.1 next.1) lateService
        (fresh, none) ↔
      (watched (Bi.of .udp) .host .up).EveryStep
        (fun noted event _ => Spared .host .up noted.2 noted.1 event) lateService (fresh, none) :=
  read_errors_iff .udp .host .up lateService fresh_starts

/-- The host loses the connection, and ten seconds later the service sends a byte. -/
def refreshed : List (Event UInt8) :=
  enterSelect .client .down ++ [.lose .host, .task .client .down .readErr, .tick 10000000000,
    .send .host 1] ++
    enterSelect .host .up ++
    [.task .host .up (.read 1), .task .host .up .writeErr, .tick 10000000000,
      .task .client .down (.control .sleep), .task .client .down (.control .wake)]

/-- What the service has answered is not read for the rest of the sleep, and a
forwarder whose stream fails every read is still there after one timeout period. -/
theorem lateService_fails :
    (¬ ∀ (protocol : TunnelProtocol) (side : Side) (role : Role)
      (labels : List (Event (Entry protocol))) (start : Session (Entry protocol)), start.Starts →
        (machine (Bi.of protocol)).EveryStep
          (fun _ _ next => ¬ next.Starves (Bi.of protocol) side role) labels start) ∧
      ¬ ∀ (protocol : TunnelProtocol) (side : Side) (role : Role)
        (labels : List (Event (Entry protocol))) (start : Session (Entry protocol)), start.Starts →
          (watched (Bi.of protocol) side role).EveryStep
            (fun noted _ next => ∀ since, noted.2 = some since →
              ¬ Overstays side role since noted.1 next.1) labels (start, none) := by
  constructor
  · intro fed
    have ends : (((machine Bi.udp).run answered fresh).bind fun session =>
        ((machine Bi.udp).step session (.task .host .up .readErr)).map fun next =>
          (next.dataAt .host .up, next.stopPending .host .up, (next.task .host .up).pc)) =
            some (true, false, .select 20000000000 false) := by
      decide +kernel
    rcases Option.bind_eq_some_iff.mp ends with ⟨session, ran, last⟩
    rcases Option.map_eq_some_iff.mp last with ⟨next, taken, found⟩
    simp only [Prod.mk.injEq] at found
    have every : (machine Bi.udp).EveryStep (fun _ _ next => ¬ next.Starves Bi.udp .host .up)
        lateService fresh :=
      fed .udp .host .up lateService fresh fresh_starts
    exact every.of_run ran taken (Stuck.starves ⟨found.1, found.2.1, _, found.2.2⟩)
  · intro leaves
    have ends : (((watched Bi.tcp .client .down).run refreshed (fresh, none)).bind fun noted =>
        ((watched Bi.tcp .client .down).step noted
          (.task .client .down (.control .recheck))).map fun next =>
            (noted.2, (noted.1.task .client .down).pc, (next.1.task .client .down).pc)) =
              some (some 0, .recheck 20, .top) := by
      decide +kernel
    rcases Option.bind_eq_some_iff.mp ends with ⟨noted, ran, last⟩
    rcases Option.map_eq_some_iff.mp last with ⟨next, taken, found⟩
    simp only [Prod.mk.injEq] at found
    have every : (watched Bi.tcp .client .down).EveryStep (fun noted _ next => ∀ since,
        noted.2 = some since → ¬ Overstays .client .down since noted.1 next.1)
          (refreshed ++ [.task .client .down (.control .recheck)]) (fresh, none) :=
      leaves .tcp .client .down _ fresh fresh_starts
    exact every.of_run ran taken 0 found.1 (Or.inr ⟨20, found.2.1, found.2.2, Nat.le_refl _⟩)

end Session

end Net
end Lantun
