import Lantun.Machine.Progress
import Lantun.Net.Idle

namespace Lantun
namespace Net

/-!
# Exactness of the idle timeout over whole runs

A `SharedTimer` is a machine with the two forwarders of one end in it and the
`last_active` between them.  Everything else the machine contains, and in
particular whatever makes chunks arrive, moves as it likes.  Its laws say that
the clock does not go back, that a forwarder moves by its rounds, and that the
timer's own steps are there to be taken.

Two facts then hold of every run.  `last_active` only grows, so that a forwarder
that times out is `CONNECTION_TIMEOUT_SECONDS` behind everything stored
before.  And a forwarder that has computed its sleep is `Pc.Late` until something
is stored, so that its first look after that sleep is its last.
-/

structure SharedTimer where
  State : Type
  Label : Type
  machine : Machine State Label
  clock : State → Nat
  lastActive : State → Nat
  /-- Where a forwarder stands, once it is spawned. -/
  pc : State → Role → Option Pc
  /-- The sleep of a forwarder is the branch its selection takes. -/
  expires : State → Role → Prop
  /-- The label is a step of this forwarder. -/
  own : Role → Label → Prop

namespace SharedTimer

variable (timer : SharedTimer)

/-! ## What is said of a step -/

/-- Both forwarders are spawned. -/
def Begins (s t : timer.State) : Prop :=
  (∀ role, timer.pc s role = none) ∧ ∀ role, timer.pc t role = some .top

/-- One of the two forwarders reads a chunk. -/
def Reads (s t : timer.State) : Prop :=
  ∃ role before after, timer.pc s role = some before ∧ timer.pc t role = some after ∧
    before.Reads after

/-- The step stores the current second. -/
def Stores (s t : timer.State) : Prop := timer.Begins s t ∨ timer.Reads s t

/-- The forwarder computes its timeout from `now` and goes to sleep until `deadline`. -/
def Loads (role : Role) (now deadline : Nat) (s t : timer.State) : Prop :=
  timer.pc s role = some (.loaded now) ∧ timer.pc t role = some (.select deadline true)

/-- The forwarder acts on what it finds in `last_active` after its sleep. -/
def Rechecks (role : Role) (s t : timer.State) : Prop :=
  ∃ now, timer.pc s role = some (.recheck now) ∧ timer.pc t role ≠ some (.recheck now)

/-- The forwarder breaks through its sleep branch. -/
def TimesOut (role : Role) (s t : timer.State) : Prop :=
  timer.pc s role ≠ some (.done .timedOut) ∧ timer.pc t role = some (.done .timedOut)

/-- What a step of the machine can do to the two forwarders. -/
inductive Moves (s t : timer.State) : Prop where
  | aside : timer.pc t = timer.pc s → timer.lastActive t = timer.lastActive s → Moves s t
  | begins : timer.Begins s t → timer.lastActive t = nowSecs (timer.clock s) → Moves s t
  | round {role : Role} {before after : Pc} :
      timer.pc s role = some before → timer.pc t role = some after →
        (∀ other, other ≠ role → timer.pc t other = timer.pc s other) →
          Round (timer.clock s) (timer.lastActive s) before after (timer.lastActive t) → Moves s t

structure Lawful : Prop where
  start : ∀ s, timer.machine.initial s → timer.lastActive s ≤ nowSecs (timer.clock s) ∧
    ∀ role, timer.pc s role = none ∨
      (timer.pc s role = some .top ∧ timer.lastActive s = nowSecs (timer.clock s))
  clock_mono : ∀ s label t, timer.machine.step s label = some t → timer.clock s ≤ timer.clock t
  moves : ∀ s label t, timer.machine.step s label = some t → timer.Moves s t
  expired : ∀ s role, timer.expires s role →
    ∃ deadline live, timer.pc s role = some (.select deadline live) ∧ deadline ≤ timer.clock s
  sleeps : ∀ s role, timer.expires s role →
    ∃ label t, timer.own role label ∧ timer.machine.step s label = some t ∧
      timer.pc t role = some .woken
  wakes : ∀ s role, timer.pc s role = some .woken →
    ∃ label t now, timer.own role label ∧ timer.machine.step s label = some t ∧
      timer.pc t role = some (.recheck now)
  rechecks : ∀ s role now, timer.pc s role = some (.recheck now) →
    ∃ label t, timer.own role label ∧ timer.machine.step s label = some t ∧ timer.Rechecks role s t

/-! ## What is said of a run -/

/-- A second that has been stored by the end of a run: that of the session's
start, or that in which a chunk was read. -/
def Stored (start : timer.State) (labels : List timer.Label) (second : Nat) : Prop :=
  ((∃ role, timer.pc start role ≠ none) ∧ second = nowSecs (timer.clock start)) ∨
    ∃ before label after s t, labels = before ++ label :: after ∧
      timer.machine.run before start = some s ∧ timer.machine.step s label = some t ∧
        timer.Stores s t ∧ second = nowSecs (timer.clock s)

/-- The sleep of the forwarder has run out or is about to. -/
def Due (role : Role) (s : timer.State) : Prop :=
  timer.expires s role ∨ timer.pc s role = some .woken ∨
    ∃ now, timer.pc s role = some (.recheck now)

/-- The forwarder can break by steps of its own. -/
def CanTimeOut (role : Role) (s : timer.State) : Prop :=
  timer.machine.CanReach (timer.own role) (fun t => timer.pc t role = some (.done .timedOut)) s

/-- The timeout of a forwarder is exact in every run from `start`. -/
structure Exact (role : Role) (start : timer.State) : Prop where
  /-- Where it breaks, everything stored is old enough. -/
  old : ∀ labels s label t, timer.machine.run labels start = some s →
    timer.machine.step s label = some t → timer.TimesOut role s t →
      ∀ second, timer.Stored start labels second →
        second + connectionTimeoutSeconds ≤ nowSecs (timer.clock s)
  /-- Once it has computed a timeout, and as long as nothing is stored after
  that, looking at `last_active` again is breaking, and where its sleep is due
  it can break by itself. -/
  once : ∀ labels s label t now deadline, timer.machine.run labels start = some s →
    timer.machine.step s label = some t → timer.Loads role now deadline s t →
      ∀ quiet u, timer.machine.run quiet t = some u →
        timer.machine.EveryStep (fun s _ t => ¬ timer.Stores s t) quiet t →
          (∀ label v, timer.machine.step u label = some v → timer.Rechecks role u v →
            timer.TimesOut role u v) ∧ (timer.Due role u → timer.CanTimeOut role u)
  /-- The subtraction from `CONNECTION_TIMEOUT_SECONDS` is one of integers. -/
  fits : ∀ labels s label t now deadline, timer.machine.run labels start = some s →
    timer.machine.step s label = some t → timer.Loads role now deadline s t →
      now - timer.lastActive s < connectionTimeoutSeconds →
        deadline + (now - timer.lastActive s) * nanosPerSec =
          timer.clock s + connectionTimeoutSeconds * nanosPerSec

variable {timer}

/-! ## One step -/

/-- Spawned forwarders of which neither has come to a write have stored nothing. -/
theorem not_stores_of_places {s t : timer.State} (spawned : timer.pc s .up ≠ none)
    (places : ∀ role chunk, timer.pc t role ≠ some (.write chunk)) : ¬ timer.Stores s t := by
  intro stores
  rcases stores with begins | ⟨role, before, after, _, is, reads⟩
  · exact spawned (begins.1 .up)
  · rcases reads.1 with ⟨chunk, at_⟩
    apply places role chunk
    rw [is, at_]

namespace Moves

variable {s t : timer.State} {role : Role}

/-- A forwarder that comes to a new place has taken a step of its own, unless it
has just been spawned. -/
theorem of_changed (moves : timer.Moves s t) {after : Pc} (comes : timer.pc t role = some after)
    (changed : timer.pc s role ≠ some after) :
    after = .top ∨ ∃ before, timer.pc s role = some before ∧
      Round (timer.clock s) (timer.lastActive s) before after (timer.lastActive t) := by
  cases moves with
  | aside same _ => exact absurd (same ▸ comes) changed
  | begins begins _ =>
      refine Or.inl ?_
      have top := begins.2 role
      rw [comes] at top
      exact Option.some.inj top
  | @round mover before after' was is others round =>
      by_cases same : role = mover
      · subst same
        rw [is] at comes
        cases comes
        exact Or.inr ⟨before, was, round⟩
      · exact absurd (others role same ▸ comes) changed

theorem active_of_stores (moves : timer.Moves s t) (stores : timer.Stores s t) :
    timer.lastActive t = nowSecs (timer.clock s) := by
  rcases stores with begins | ⟨role, before, after, was, is, reads⟩
  · cases moves with
    | aside same _ =>
        have spawned := begins.2 .up
        rw [same, begins.1 .up] at spawned
        cases spawned
    | begins _ stored => exact stored
    | round was _ _ _ =>
        rw [begins.1] at was
        cases was
  · have changed : timer.pc s role ≠ some after := by
      intro same
      rw [was] at same
      rcases reads with ⟨⟨chunk, at_⟩, other⟩
      exact other chunk (Option.some.inj same |>.trans at_)
    rcases moves.of_changed is changed with top | ⟨before', was', round⟩
    · rcases reads with ⟨⟨chunk, at_⟩, _⟩
      rw [top] at at_
      cases at_
    · rw [was] at was'
      cases was'
      rcases round.stores with ⟨_, stored⟩ | ⟨not, _⟩
      · exact stored
      · exact absurd reads not

theorem active_of_not_stores (moves : timer.Moves s t) (quiet : ¬ timer.Stores s t) :
    timer.lastActive t = timer.lastActive s := by
  cases moves with
  | aside _ same => exact same
  | begins begins _ => exact absurd (Or.inl begins) quiet
  | round was is _ round =>
      rcases round.stores with ⟨reads, _⟩ | ⟨_, same⟩
      · exact absurd (Or.inr ⟨_, _, _, was, is, reads⟩) quiet
      · exact same

end Moves

/-! ## What holds in every state -/

/-- No second that has been noted anywhere is ahead of the clock. -/
def Timely (s : timer.State) : Prop :=
  timer.lastActive s ≤ nowSecs (timer.clock s) ∧
    ∀ role pc, timer.pc s role = some pc → pc.Timely (timer.clock s)

/-- Nothing is stored after `active`, and the forwarder does not wake too early for it. -/
def Quiet (role : Role) (active : Nat) (s : timer.State) : Prop :=
  timer.lastActive s = active ∧ ∀ pc, timer.pc s role = some pc → pc.Late (timer.clock s) active

namespace Lawful

variable (lawful : timer.Lawful) {s t : timer.State} {label : timer.Label} {role : Role}

include lawful

theorem active_mono (timely : timer.Timely s) (taken : timer.machine.step s label = some t) :
    timer.lastActive s ≤ timer.lastActive t := by
  have moves := lawful.moves s label t taken
  by_cases stores : timer.Stores s t
  · rw [moves.active_of_stores stores]
    exact timely.1
  · exact Nat.le_of_eq (moves.active_of_not_stores stores).symm

theorem inductive_timely : timer.machine.Inductive timer.Timely where
  start s starts := by
    rcases lawful.start s starts with ⟨stored, places⟩
    refine ⟨stored, fun role pc at_ => ?_⟩
    rcases places role with none_ | ⟨top, _⟩
    · rw [none_] at at_
      cases at_
    · rw [top] at at_
      cases at_
      trivial
  step s label t timely taken := by
    have moves := lawful.moves s label t taken
    have mono := lawful.clock_mono s label t taken
    constructor
    · refine Nat.le_trans ?_ (nowSecs_mono mono)
      by_cases stores : timer.Stores s t
      · exact Nat.le_of_eq (moves.active_of_stores stores)
      · rw [moves.active_of_not_stores stores]
        exact timely.1
    · intro role pc at_
      by_cases same : timer.pc s role = some pc
      · exact (timely.2 role pc same).mono mono
      · rcases moves.of_changed at_ same with rfl | ⟨before, _, round⟩
        · trivial
        · exact round.timely.mono mono

/-- `last_active` is never behind a second that has been stored. -/
theorem active_of_stored {start : timer.State} {labels : List timer.Label} {second : Nat}
    (starts : timer.machine.initial start) (ran : timer.machine.run labels start = some s)
    (stored : timer.Stored start labels second) : second ≤ timer.lastActive s := by
  have grows : ∀ {first last : timer.State} {labels : List timer.Label}, timer.Timely first →
      timer.machine.run labels first = some last → second ≤ timer.lastActive first →
        second ≤ timer.lastActive last := by
    intro first last labels timely ran below
    have along : timer.machine.EveryState (fun s => timer.Timely s ∧ second ≤ timer.lastActive s)
        labels first :=
      Machine.everyState_of_steps (fun label _ s t kept taken =>
        ⟨lawful.inductive_timely.step s label t kept.1 taken,
          Nat.le_trans kept.2 (lawful.active_mono kept.1 taken)⟩) ⟨timely, below⟩
    exact (along.of_run ran).2
  have timely := lawful.inductive_timely.start start starts
  rcases stored with ⟨⟨role, spawned⟩, rfl⟩ |
    ⟨before, label, after, s₀, s₁, rfl, first, taken, stores, rfl⟩
  · rcases (lawful.start start starts).2 role with none_ | ⟨_, here⟩
    · exact absurd none_ spawned
    · exact grows timely ran (Nat.le_of_eq here.symm)
  · rcases timer.machine.run_append_eq_some.mp ran with ⟨m, head, rest⟩
    rw [first] at head
    cases head
    rcases timer.machine.run_cons_eq_some.mp rest with ⟨m, taken', later⟩
    rw [taken] at taken'
    cases taken'
    have timely₀ := lawful.inductive_timely.run timely first
    refine grows (lawful.inductive_timely.step s₀ label s₁ timely₀ taken) later ?_
    exact Nat.le_of_eq ((lawful.moves s₀ label s₁ taken).active_of_stores stores).symm

/-- A forwarder stays late through a step that leaves `last_active`. -/
theorem quiet_step {active : Nat} (timely : timer.Timely s) (quiet : timer.Quiet role active s)
    (taken : timer.machine.step s label = some t)
    (same : timer.lastActive t = timer.lastActive s) : timer.Quiet role active t := by
  rcases quiet with ⟨rfl, late⟩
  have mono := lawful.clock_mono s label t taken
  refine ⟨same, fun pc at_ => ?_⟩
  by_cases stays : timer.pc s role = some pc
  · exact (late pc stays).mono mono
  · rcases (lawful.moves s label t taken).of_changed at_ stays with rfl | ⟨before, was, round⟩
    · trivial
    · exact (round.late (timely.2 role before was) timely.1 (late before was)).mono mono

theorem quiet_of_loads {now deadline : Nat} (timely : timer.Timely s)
    (taken : timer.machine.step s label = some t) (loads : timer.Loads role now deadline s t) :
    timer.Quiet role (timer.lastActive s) t := by
  rcases loads with ⟨was, is⟩
  have moves := lawful.moves s label t taken
  have quiet : timer.Quiet role (timer.lastActive s) s := by
    refine ⟨rfl, fun pc at_ => ?_⟩
    rw [was] at at_
    cases at_
    trivial
  refine lawful.quiet_step timely quiet taken ?_
  rcases moves.of_changed is (by rw [was]; simp) with top | ⟨before, was', round⟩
  · cases top
  · rcases round.stores with ⟨⟨⟨chunk, at_⟩, _⟩, _⟩ | ⟨_, same⟩
    · cases at_
    · exact same

/-! ## The run -/

/-- A quiet forwarder that looks again breaks. -/
theorem timesOut_of_rechecks {active : Nat} (quiet : timer.Quiet role active s)
    (taken : timer.machine.step s label = some t) (rechecks : timer.Rechecks role s t) :
    timer.TimesOut role s t := by
  rcases rechecks with ⟨now, was, other⟩
  refine ⟨by rw [was]; simp, ?_⟩
  rcases quiet with ⟨rfl, late⟩
  cases lawful.moves s label t taken with
  | aside same _ => exact absurd (same ▸ was) other
  | begins begins _ =>
      rw [begins.1] at was
      cases was
  | @round mover before after was' is others round =>
      by_cases same : role = mover
      · subst same
        rw [was] at was'
        cases was'
        rw [is, round.timedOut_of_late (late _ was)]
      · exact absurd ((others role same).trans was) other

/-- It can do so by itself. -/
theorem canTimeOut_of_recheck {active now : Nat} (quiet : timer.Quiet role active s)
    (at_ : timer.pc s role = some (.recheck now)) : timer.CanTimeOut role s := by
  rcases lawful.rechecks s role now at_ with ⟨label, t, own, taken, rechecks⟩
  have timesOut := lawful.timesOut_of_rechecks quiet taken rechecks
  exact Machine.CanReach.step taken own (Machine.CanReach.here timesOut.2)

/-- A step from one waiting place of the timer to the next stores nothing. -/
theorem quiet_of_untouched {active : Nat} {after : Pc} (timely : timer.Timely s)
    (quiet : timer.Quiet role active s) (taken : timer.machine.step s label = some t)
    (is : timer.pc t role = some after) (changed : timer.pc s role ≠ some after)
    (top : after ≠ .top) (write : ∀ chunk, after ≠ .write chunk) :
    timer.Quiet role active t := by
  refine lawful.quiet_step timely quiet taken ?_
  rcases (lawful.moves s label t taken).of_changed is changed with is_top | ⟨before, _, round⟩
  · exact absurd is_top top
  · rcases round.stores with ⟨⟨⟨chunk, at_⟩, _⟩, _⟩ | ⟨_, same⟩
    · exact absurd at_ (write chunk)
    · exact same

theorem canTimeOut_of_woken {active : Nat} (timely : timer.Timely s)
    (quiet : timer.Quiet role active s) (at_ : timer.pc s role = some .woken) :
    timer.CanTimeOut role s := by
  rcases lawful.wakes s role at_ with ⟨label, t, now, own, taken, is⟩
  have still := lawful.quiet_of_untouched timely quiet taken is (by rw [at_]; simp) (by simp)
    (by simp)
  exact (lawful.canTimeOut_of_recheck still is).step taken own

theorem canTimeOut_of_due {active : Nat} (timely : timer.Timely s)
    (quiet : timer.Quiet role active s) (due : timer.Due role s) : timer.CanTimeOut role s := by
  rcases due with expires | woken | ⟨now, recheck⟩
  · rcases lawful.expired s role expires with ⟨deadline, live, at_, _⟩
    rcases lawful.sleeps s role expires with ⟨label, t, own, taken, is⟩
    have still := lawful.quiet_of_untouched timely quiet taken is (by rw [at_]; simp) (by simp)
      (by simp)
    have timely' := lawful.inductive_timely.step s label t timely taken
    exact (lawful.canTimeOut_of_woken timely' still is).step taken own
  · exact lawful.canTimeOut_of_woken timely quiet woken
  · exact lawful.canTimeOut_of_recheck quiet recheck

theorem exact {start : timer.State} (starts : timer.machine.initial start) (role : Role) :
    timer.Exact role start where
  old labels s label t ran taken timesOut second stored := by
    have timely := lawful.inductive_timely.run (lawful.inductive_timely.start start starts) ran
    have below := lawful.active_of_stored starts ran stored
    rcases (lawful.moves s label t taken).of_changed timesOut.2 timesOut.1 with
      top | ⟨before, was, round⟩
    · cases top
    · rcases round.of_timedOut with ⟨now, rfl, old⟩
      have read : now ≤ nowSecs (timer.clock s) := timely.2 role _ was
      omega
  once labels s label t now deadline ran taken loads quiet u ran' silent := by
    have timely := lawful.inductive_timely.run (lawful.inductive_timely.start start starts) ran
    have still := Machine.EveryStep.kept (I := fun s => timer.Timely s ∧ timer.Quiet role _ s) silent
      (fun s label t kept taken none_ =>
        ⟨lawful.inductive_timely.step s label t kept.1 taken, lawful.quiet_step kept.1 kept.2 taken
          ((lawful.moves s label t taken).active_of_not_stores none_)⟩)
      ⟨lawful.inductive_timely.step s label t timely taken,
        lawful.quiet_of_loads timely taken loads⟩ ran'
    exact ⟨fun label v taken rechecks => lawful.timesOut_of_rechecks still.2 taken rechecks,
      fun due => lawful.canTimeOut_of_due still.1 still.2 due⟩
  fits labels s label t now deadline ran taken loads young := by
    rcases loads with ⟨was, is⟩
    rcases (lawful.moves s label t taken).of_changed is (by rw [was]; simp) with
      top | ⟨before, was', round⟩
    · cases top
    · rw [was] at was'
      cases was'
      rw [round.deadline_eq, Nat.add_assoc, ← Nat.add_mul]
      congr 2
      simp only [timeout]
      rw [if_neg (Nat.not_le_of_lt young)]
      omega

end Lawful

end SharedTimer

/-! ## The forwarders of a session -/

namespace Session

open Async

variable {α : Type}

/-- One end of a session: the upper task of the direction that starts there and
the lower task of the one that ends there. -/
def sharedTimer (bi : Bi α) (side : Side) : SharedTimer where
  State := Session α
  Label := Event α
  machine := machine bi
  clock session := session.clock
  lastActive session := session.lastActive side
  pc session role := some (session.task (role.endOf side) role).pc
  expires session role :=
    (session.task (role.endOf side) role).selects (session.env side)
      (session.sourceReady (role.endOf side) role) = some .sleep
  own role event := ∃ act, isOwn (role.endOf side) role event = some act

theorem clock_le_of_step {bi : Bi α} {session next : Session α} {event : Event α}
    (taken : (machine bi).step session event = some next) : session.clock ≤ next.clock := by
  cases event with
  | tick nanos =>
      cases taken
      exact Nat.le_add_right _ _
  | send at_ _ | close at_ | deliver at_ _ | deliverEnd at_ | stop at_ =>
      simp only [machine, step] at taken
      split at taken <;> cases taken
      exact Nat.le_refl _
  | sockError at_ | dropStop at_ | lose at_ =>
      cases taken
      exact Nat.le_refl _
  | task at_ role act =>
      cases role <;>
        rcases Option.map_eq_some_iff.mp taken with ⟨⟨pipe, last⟩, _, same⟩ <;> cases same <;>
        exact Nat.le_refl _

/-- Nobody but the two forwarders of an end writes its `last_active`. -/
theorem lastActive_of_step {bi : Bi α} {session next : Session α} {event : Event α}
    (taken : (machine bi).step session event = some next) {side : Side}
    (other : ∀ role, isOwn (role.endOf side) role event = none) :
    next.lastActive side = session.lastActive side := by
  cases event with
  | send at_ _ | close at_ | deliver at_ _ | deliverEnd at_ | stop at_ =>
      simp only [machine, step] at taken
      split at taken <;> cases taken
      rfl
  | sockError at_ | dropStop at_ | lose at_ | tick nanos =>
      cases taken
      rfl
  | task at_ role act =>
      have elsewhere : side ≠ role.endOf at_ := by
        rintro rfl
        have own := other role
        simp [isOwn] at own
      cases role <;>
        rcases Option.map_eq_some_iff.mp taken with ⟨⟨pipe, last⟩, _, same⟩ <;> cases same <;>
        exact Function.update_of_ne elsewhere _ _

/-- A control step of a forwarder as a step of the timer's machine. -/
theorem exists_own_control {bi : Bi α} {side : Side} {session : Session α} {role : Role}
    {control : Control} {after : Task}
    (moved : (session.task (role.endOf side) role).control (session.env side)
      (session.sourceReady (role.endOf side) role) control = some after) :
    ∃ event next, (sharedTimer bi side).own role event ∧
      (machine bi).step session event = some next ∧
        (sharedTimer bi side).pc next role = some after.pc := by
  have moved' : (session.task (role.endOf side) role).control
      (session.env (role.endOf (role.endOf side))) (session.sourceReady (role.endOf side) role)
      control = some after := by
    rw [Role.endOf_endOf]
    exact moved
  rcases exists_step_control moved' with ⟨next, taken, is, _⟩
  refine ⟨.task (role.endOf side) role (.control control), next, ⟨.control control, ?_⟩, taken, ?_⟩
  · simp only [isOwn, and_self, if_true]
  · simp only [sharedTimer, is]

theorem lawful_sharedTimer (bi : Bi α) (side : Side) : (sharedTimer bi side).Lawful where
  start session starts := by
    rcases starts with ⟨pipes, stored, _⟩
    refine ⟨Nat.le_of_eq (stored side), fun role => Or.inr ⟨?_, stored side⟩⟩
    rcases pipes (role.endOf side) with ⟨seenUp, seenDown, pipe⟩
    simp only [sharedTimer, task, pipe]
    cases role <;> rfl
  clock_mono session event next taken := clock_le_of_step taken
  moves session event next taken := by
    by_cases mine : ∃ role act, isOwn (role.endOf side) role event = some act
    · rcases mine with ⟨role, act, own⟩
      have moves := task_of_step taken (role.endOf side) role
      rw [own, Role.endOf_endOf] at moves
      refine .round rfl rfl ?_ moves.round
      intro other different
      have moves' := task_of_step taken (other.endOf side) other
      have foreign : isOwn (other.endOf side) other event = none := by
        cases event with
        | task at_ role' act' =>
            simp only [isOwn] at own ⊢
            split at own
            · rename_i here
              rw [if_neg]
              rintro ⟨_, same⟩
              exact different (same.symm.trans here.2)
            · cases own
        | _ => cases own
      rw [foreign] at moves'
      simp only [sharedTimer, moves']
    · have other : ∀ role, isOwn (role.endOf side) role event = none := by
        intro role
        by_contra some_
        rcases Option.ne_none_iff_exists'.mp some_ with ⟨act, own⟩
        exact mine ⟨role, act, own⟩
      refine .aside ?_ (lastActive_of_step taken other)
      funext role
      have moves := task_of_step taken (role.endOf side) role
      rw [other role] at moves
      simp only [sharedTimer, moves]
  expired session role expires := by
    rcases Task.due_of_selects expires with ⟨deadline, live, at_, due⟩
    exact ⟨deadline, live, congrArg some at_, due⟩
  sleeps session role expires := by
    have moved : (session.task (role.endOf side) role).control (session.env side)
        (session.sourceReady (role.endOf side) role) .sleep =
          some { session.task (role.endOf side) role with pc := .woken } := by
      simp only [sharedTimer] at expires
      simp only [Task.control, expires, if_true]
    exact exists_own_control moved
  wakes session role at_ := by
    have woken := Option.some.inj at_
    have moved : (session.task (role.endOf side) role).control (session.env side)
        (session.sourceReady (role.endOf side) role) .wake =
          some { session.task (role.endOf side) role with
            pc := .recheck (nowSecs session.clock) } := by
      simp only [Task.control, woken]
      rfl
    rcases exists_own_control moved with ⟨event, next, own, taken, after⟩
    exact ⟨event, next, _, own, taken, after⟩
  rechecks session role now at_ := by
    have recheck := Option.some.inj at_
    have moved : (session.task (role.endOf side) role).control (session.env side)
        (session.sourceReady (role.endOf side) role) .recheck =
          some { session.task (role.endOf side) role with
            pc := if now - session.lastActive side ≥ connectionTimeoutSeconds then .done .timedOut
              else .top } := by
      simp only [Task.control, recheck]
      rfl
    rcases exists_own_control moved with ⟨event, next, own, taken, after⟩
    refine ⟨event, next, own, taken, now, at_, ?_⟩
    rw [after]
    split <;> simp

end Session

end Net
end Lantun
