import Lantun.Net.Join

namespace Lantun
namespace Net

open Async

/-!
# How a session ends

The four `bi_*` functions have one shape: spawn two forwarders, wait for both
with `try_join!`, take the session out of the registry, return.  The result of
the wait is thrown away, so the function goes on in the same way whether both
forwarders have left their loops or one of them has panicked.

Of the outcomes an operation of a forwarder can have, a failing read disables
its branch and a failing `recv` goes around, but a failing write is unwrapped.
A session therefore ends cleanly at one end, as `EndsCleanly` says, exactly as
long as no write of a forwarder of that end fails.  Such a failure needs nothing
unusual: a stream is stopped as soon as the forwarder that reads it at the other
end has left its loop.
-/

/-- Where a `bi_*` function stands, with its forwarders spawned. -/
inductive Phase where
  /-- In `try_join!`. -/
  | joining
  /-- In `disconnect_local_connection` or `disconnect_local_client_connection`. -/
  | disconnecting
  /-- The registry entry is gone. -/
  | returned
  deriving DecidableEq, Repr

/-- A session together with the two functions that serve it, one at each end. -/
structure Serving (α : Type) where
  session : Session α
  phase : Side → Phase

inductive ServingEvent (α : Type) where
  | session (event : Event α)
  | joined (side : Side)
  | disconnected (side : Side)
  deriving DecidableEq, Repr

/-- The event is a failing write of a forwarder that runs at this end. -/
def ServingEvent.failsAt {α : Type} (side : Side) : ServingEvent α → Prop
  | .session (.task at_ role .writeErr) => role.endOf at_ = side
  | _ => False

namespace Serving

variable {α : Type}

def setPhase (serving : Serving α) (side : Side) (phase : Phase) : Serving α :=
  { serving with phase := Function.update serving.phase side phase }

def step (bi : Bi α) (serving : Serving α) : ServingEvent α → Option (Serving α)
  | .session event =>
      (Session.step bi serving.session event).map fun session => { serving with session }
  | .joined side =>
      if serving.phase side = .joining ∧ (serving.session.forwarders side).joined = true then
        some (serving.setPhase side .disconnecting)
      else none
  | .disconnected side =>
      if serving.phase side = .disconnecting then some (serving.setPhase side .returned)
      else none

/-- Both functions have just spawned their forwarders. -/
def Starts (serving : Serving α) : Prop :=
  serving.session.Starts ∧ ∀ side, serving.phase side = .joining

def machine (bi : Bi α) : Machine (Serving α) (ServingEvent α) where
  initial := Starts
  step := step bi

/-- So far this end of the session behaves: a forwarder of it that has ended has
left its loop by a break, so that no panic has taken the process down; and the
function has gone past its wait only if both have ended, so that no forwarder of
a session without a registry entry is running. -/
structure EndsCleanly (side : Side) (serving : Serving α) : Prop where
  breaks : ∀ role, (serving.session.forwarders side).status role ≠ .panicked
  joins : serving.phase side ≠ .joining →
    ∀ role, (serving.session.forwarders side).status role = .finished

theorem endsCleanly_of_starts {serving : Serving α} (starts : serving.Starts) (side : Side) :
    serving.EndsCleanly side := by
  have running : ∀ role, (serving.session.forwarders side).status role = .running := by
    intro role
    rw [Session.status_forwarders]
    rcases starts.1.1 (role.endOf side) with ⟨seenUp, seenDown, start⟩
    cases role <;> simp only [Session.task, start, Pipe.start, Pc.status]
  refine ⟨fun role => ?_, fun past => absurd (starts.2 side) past⟩
  rw [running role]
  intro panicked
  cases panicked

end Serving

/-! ## The outcome of one operation -/

/-- A task panics by a failing write, and by nothing else. -/
def PanicsAt (act : Act) (after : Task) : Prop := after.pc.status = .panicked ↔ act = .writeErr

theorem Pc.status_ne_panicked {pc : Pc} (other : pc ≠ .done .panicked) : pc.status ≠ .panicked := by
  cases pc with
  | done exit => cases exit <;> simp_all [Pc.status]
  | _ => simp [Pc.status]

theorem Task.control_unpanicked {env : Env} {ready : Bool} {task next : Task} {step : Control}
    (taken : task.control env ready step = some next) : next.pc ≠ .done .panicked := by
  intro panicked
  rcases (control_cases taken).2.2.2.2 _ panicked with is | is <;> cases is

theorem Task.Moves.panicsAt {env : Env} {ready : Bool} {task next : Task} {act : Act} {last : Nat}
    (moves : Moves env ready task act next last) : PanicsAt act next := by
  have other : next.pc ≠ .done .panicked → act ≠ .writeErr → PanicsAt act next :=
    fun unpanicked different =>
      ⟨fun panicked => absurd panicked (Pc.status_ne_panicked unpanicked),
        fun is => absurd is different⟩
  cases moves with
  | control taken => exact other (control_unpanicked taken) (by simp)
  | ends _ exits =>
      refine other ?_ (by simp)
      rcases exits with rfl | rfl <;> simp
  | read | peek | foreign | readErr | recv | recvEmpty | recvErr => exact other (by simp) (by simp)
  | write => exact other (Pc.afterWrite_ne_done _ _) (by simp)
  | writeErr => exact ⟨fun _ => rfl, fun _ => rfl⟩

/-! ## The two forwarders and their function -/

namespace Serving

variable {α : Type}

/-- An event panics a forwarder of this end exactly if it is a failing write of
it; the other forwarder, and those at the other end, are left alone. -/
theorem unpanicked_step_iff {bi : Bi α} {session next : Session α} {event : Event α}
    (taken : (Session.machine bi).step session event = some next) {side : Side}
    (breaks : ∀ role, (session.forwarders side).status role ≠ .panicked) :
    (∀ role, (next.forwarders side).status role ≠ .panicked) ↔
      ¬ (ServingEvent.session event).failsAt side := by
  have moves := fun role => Session.task_of_step taken (role.endOf side) role
  constructor
  · intro unpanicked fails
    cases event with
    | task at_ role act =>
        cases act with
        | writeErr =>
            have here : at_ = role.endOf side := by
              simp only [ServingEvent.failsAt] at fails
              cases role <;> cases at_ <;> cases side <;> first | rfl | cases fails
            have panics := moves role
            simp only [Session.isOwn, here, and_self, if_true] at panics
            exact unpanicked role (by
              rw [Session.status_forwarders]
              exact panics.panicsAt.mpr rfl)
        | _ => exact fails
    | _ => exact fails
  · intro writes role panicked
    rw [Session.status_forwarders] at panicked
    have panics := moves role
    cases own : Session.isOwn (role.endOf side) role event with
    | none =>
        rw [own] at panics
        rw [panics] at panicked
        exact breaks role (by rw [Session.status_forwarders]; exact panicked)
    | some act =>
        rw [own] at panics
        cases panics.panicsAt.mp panicked
        cases event with
        | task at_ role' act =>
            simp only [Session.isOwn] at own
            split at own
            · rename_i here
              cases own
              rcases here with ⟨rfl, rfl⟩
              apply writes
              cases role' <;> cases side <;> rfl
            · cases own
        | _ => cases own

/-- A wait that is over while nobody has panicked has seen both tasks end. -/
theorem finished_of_joined {forwarders : Forwarders} (joined : forwarders.joined = true)
    (breaks : ∀ role, forwarders.status role ≠ .panicked) (role : Role) :
    forwarders.status role = .finished := by
  have up := breaks .up
  have down := breaks .down
  simp only [Forwarders.status] at up down
  simp only [Forwarders.joined, up, down, decide_false, Bool.false_or, Bool.and_eq_true,
    decide_eq_true_eq] at joined
  cases role with
  | up => exact joined.2
  | down => exact joined.1

theorem endsCleanly_step_iff {bi : Bi α} {serving next : Serving α} {event : ServingEvent α}
    {side : Side} (clean : serving.EndsCleanly side)
    (taken : (machine bi).step serving event = some next) :
    next.EndsCleanly side ↔ ¬ event.failsAt side := by
  cases event with
  | session event =>
      rcases Option.map_eq_some_iff.mp taken with ⟨session, moved, same⟩
      cases same
      refine Iff.trans ⟨EndsCleanly.breaks, fun breaks => ⟨breaks, fun past role => ?_⟩⟩
        (unpanicked_step_iff moved clean.breaks)
      have finished := clean.joins past role
      rcases Session.forwarders_moves moved side role with running | same
      · rw [finished] at running
        cases running
      · exact same.trans finished
  | joined at_ =>
      refine iff_of_true ?_ id
      simp only [machine, step] at taken
      split at taken <;> cases taken
      rename_i ready
      refine ⟨clean.breaks, fun past role => ?_⟩
      by_cases here : side = at_
      · subst here
        exact finished_of_joined ready.2 clean.breaks role
      · simp only [setPhase, Function.update_of_ne here] at past
        exact clean.joins past role
  | disconnected at_ =>
      refine iff_of_true ?_ id
      simp only [machine, step] at taken
      split at taken <;> cases taken
      rename_i past
      refine ⟨clean.breaks, fun past' role => clean.joins ?_ role⟩
      by_cases here : side = at_
      · subst here
        rw [past]
        intro joining
        cases joining
      · simp only [setPhase, Function.update_of_ne here] at past'
        exact past'

/-- In every run a session ends cleanly at one end as long as no write of a
forwarder of that end fails, and no longer.  The ends of `Bi.tcp` are served by
`bi_tcp_stream_client` and `bi_tcp_stream_host`, those of `Bi.udp` by
`bi_udp_client` and `bi_udp_host`. -/
theorem endsCleanly_iff (bi : Bi α) (side : Side) (labels : List (ServingEvent α))
    {start : Serving α} (starts : start.Starts) :
    (machine bi).EveryState (EndsCleanly side) labels start ↔
      (machine bi).EveryStep (fun _ event _ => ¬ event.failsAt side) labels start :=
  Machine.everyState_iff_everyStep (I := fun _ => True) (fun _ _ _ _ _ _ => trivial)
    (fun _ _ _ _ clean taken => endsCleanly_step_iff clean taken) labels trivial
    (endsCleanly_of_starts starts side)

/-- Both functions at their start, at time zero. -/
def fresh : Serving α := ⟨Session.fresh, fun _ => .joining⟩

theorem fresh_starts : (fresh : Serving α).Starts := ⟨Session.fresh_starts, fun _ => rfl⟩

/-- The host is stopped while the client carries a datagram: the host's forwarder
leaves its loop and drops its end of the stream, the client's write fails, and
the client goes on without waiting for its other forwarder. -/
def stoppedPeerSession : List (Event (List UInt8)) :=
  Session.enterSelect .client .up ++ Session.enterSelect .client .down ++
    [.send .client [1], .task .client .up (.read 1), .task .client .up .recv, .stop .host,
      .task .client .down (.control .stop), .task .client .up .writeErr]

def stoppedPeer : List (ServingEvent (List UInt8)) :=
  stoppedPeerSession.map .session ++ [.joined .client, .disconnected .client]

theorem endsCleanly_iff_stoppedPeer :
    (machine Bi.udp).EveryState (EndsCleanly .client) stoppedPeer fresh ↔
      (machine Bi.udp).EveryStep (fun _ event _ => ¬ event.failsAt .client) stoppedPeer fresh :=
  endsCleanly_iff Bi.udp .client stoppedPeer fresh_starts

theorem stoppedPeer_leaves : ¬ ∀ (labels : List (ServingEvent (List UInt8))) serving,
    (machine Bi.udp).run labels fresh = some serving → serving.EndsCleanly .client := by
  intro always
  have left : ((machine Bi.udp).run stoppedPeer fresh).any (fun serving =>
      decide (serving.phase .client = .returned) &&
        decide ((serving.session.forwarders .client).status .down = .running)) = true := by
    decide
  rcases (Option.any_eq_true ..).mp left with ⟨serving, ran, found⟩
  rcases Bool.and_eq_true_iff.mp found with ⟨returned, running⟩
  have finished := (always stoppedPeer serving ran).joins
    (by rw [of_decide_eq_true returned]; simp) .down
  rw [of_decide_eq_true running] at finished
  cases finished

end Serving

end Net
end Lantun
