import Lantun.Net.Moves
import Lantun.Net.Session

namespace Lantun
namespace Net

/-!
# Waiting for the two forwarders of a session

Each of the four `bi_*` functions spawns its two forwarders and waits for them
with `tokio::try_join!`.  For the caller only three things about a forwarder
matter: it is running, it has left its loop, or it has panicked.  A finished
pair lets the wait return, and so does one panic, in which case the sibling is
detached and keeps running with nobody waiting for it.

`Session.forwarders` reads this summary off a session.  The listener on the
client and the connection handler on the host are modelled over the summary
alone, with its components moving as `Forwarders.Moves` allows; that this is
all a session ever does to them is `forwarders_moves`.
-/

/-- What a join handle knows of its task. -/
inductive TaskStatus where
  | running
  | finished
  | panicked
  deriving DecidableEq, Repr

def Pc.status : Pc → TaskStatus
  | .done .panicked => .panicked
  | .done _ => .finished
  | _ => .running

theorem Pc.status_of_running {pc : Pc} (running : pc.isDone = false) : pc.status = .running := by
  cases pc with
  | done exit => cases running
  | _ => rfl

theorem Pc.status_ne_running_of_done {pc : Pc} (done : pc.isDone = true) : pc.status ≠ .running := by
  cases pc with
  | done exit => cases exit <;> simp [Pc.status]
  | _ => cases done

/-- The two forwarder tasks one end has spawned for a session. -/
structure Forwarders where
  tunnelToSocket : TaskStatus
  socketToTunnel : TaskStatus
  deriving DecidableEq, Repr

namespace Forwarders

def spawned : Forwarders := ⟨.running, .running⟩

/-- The task with the given part in this end's session. -/
def status (forwarders : Forwarders) : Role → TaskStatus
  | .up => forwarders.socketToTunnel
  | .down => forwarders.tunnelToSocket

def setStatus (forwarders : Forwarders) (role : Role) (status : TaskStatus) : Forwarders :=
  match role with
  | .up => { forwarders with socketToTunnel := status }
  | .down => { forwarders with tunnelToSocket := status }

theorem setStatus_running {forwarders : Forwarders} {role : Role}
    (running : forwarders.status role = .running) : forwarders.setStatus role .running = forwarders := by
  cases role with
  | up => exact congrArg (Forwarders.mk forwarders.tunnelToSocket) running.symm
  | down => exact congrArg (Forwarders.mk · forwarders.socketToTunnel) running.symm

/-- `try_join!` of the two handles is ready. -/
def joined (forwarders : Forwarders) : Bool :=
  decide (forwarders.tunnelToSocket = .panicked) ||
    decide (forwarders.socketToTunnel = .panicked) ||
    (decide (forwarders.tunnelToSocket = .finished) &&
      decide (forwarders.socketToTunnel = .finished))

theorem joined_of_ended {forwarders : Forwarders}
    (ended : ∀ role, forwarders.status role ≠ .running) : forwarders.joined = true := by
  have up := ended .up
  have down := ended .down
  rcases forwarders with ⟨lower, upper⟩
  cases lower <;> cases upper <;> first | rfl | exact absurd rfl up | exact absurd rfl down

/-- The tasks that are still running. -/
def left (forwarders : Forwarders) : Nat :=
  (if forwarders.tunnelToSocket = .running then 1 else 0) +
    if forwarders.socketToTunnel = .running then 1 else 0

theorem left_setStatus_lt {forwarders : Forwarders} {role : Role} {status : TaskStatus}
    (running : forwarders.status role = .running) (ended : status ≠ .running) :
    (forwarders.setStatus role status).left < forwarders.left := by
  cases role with
  | up =>
      have here : forwarders.socketToTunnel = .running := running
      by_cases other : forwarders.tunnelToSocket = .running <;>
        simp [left, setStatus, here, ended, other]
  | down =>
      have here : forwarders.tunnelToSocket = .running := running
      by_cases other : forwarders.socketToTunnel = .running <;>
        simp [left, setStatus, here, ended, other]

/-- One forwarder may have ended; one that had ended has not moved. -/
def Moves (before after : Forwarders) : Prop :=
  ∀ role, before.status role = .running ∨ after.status role = before.status role

end Forwarders

/-- The lower task leaves the upper one where it is. -/
theorem Pipe.downStep_up {α : Type} {sock : Sock α} {env : Env} {pipe next : Pipe α}
    {act : Act} {last : Nat} (taken : pipe.downStep sock env act = some (next, last)) :
    next.up = pipe.up := by
  cases act with
  | control step =>
      rcases Option.map_eq_some_iff.mp taken with ⟨task, -, same⟩
      cases same
      rfl
  | write count =>
      simp only [downStep] at taken
      split at taken
      · rcases Option.map_eq_some_iff.mp taken with ⟨⟨entries, left⟩, -, same⟩
        cases same
        rfl
      · cases taken
  | read count =>
      simp only [downStep] at taken
      split at taken
      · split at taken
        · split at taken <;> cases taken
          rfl
        · split at taken <;> cases taken
          rfl
        · cases taken
      · cases taken
  | readErr =>
      simp only [downStep] at taken
      split at taken
      · split at taken <;> cases taken
        rfl
      · cases taken
  | writeErr =>
      simp only [downStep] at taken
      split at taken <;> cases taken
      rfl
  | recv | recvErr => cases taken

/-! ## A task in its session -/

/-- The end a task runs at, given where its direction starts. -/
def Role.endOf (side : Side) : Role → Side
  | .up => side
  | .down => side.other

/-- The end a direction starts at where this task of it runs at the given end. -/
@[simp] theorem Role.endOf_endOf (side : Side) (role : Role) : role.endOf (role.endOf side) = side := by
  cases role <;> cases side <;> rfl

namespace Session

variable {α : Type}

def task (session : Session α) (side : Side) : Role → Task
  | .up => (session.pipe side).up
  | .down => (session.pipe side).down

/-- Whether the source of a task would return at once. -/
def sourceReady (session : Session α) (side : Side) : Role → Bool
  | .up => (session.pipe side).upReady
  | .down => (session.pipe side).downReady (session.lost side.other)

/-- The event is a step of this task. -/
def isOwn (side : Side) (role : Role) : Event α → Option Act
  | .task at_ role' act => if at_ = side ∧ role' = role then some act else none
  | _ => none

/-- What an event does to one task: a step of its own is one of the moves a task
makes, and anything else leaves it. -/
theorem task_of_step {bi : Bi α} {session next : Session α} {event : Event α}
    (taken : (machine bi).step session event = some next) (side : Side) (role : Role) :
    match isOwn side role event with
    | some act =>
        Task.Moves (session.env (role.endOf side)) (session.sourceReady side role)
          (session.task side role) act (next.task side role) (next.lastActive (role.endOf side))
    | none => next.task side role = session.task side role := by
  cases pipe_of_step taken side with
  | aside _ idle is =>
      have other : isOwn side role event = none := by
        cases event with
        | task at_ role' act =>
            refine if_neg ?_
            rintro ⟨rfl, -⟩
            exact idle role' act rfl
        | _ => rfl
      rw [other]
      cases role <;> simp only [task, is]
  | send is | close _ is | sockError is | deliver _ is | deliverEnd _ is =>
      cases role <;> simp [isOwn, task, is, Pipe.send, Pipe.deliver, Pipe.deliverEnd]
  | up moved =>
      cases role with
      | up =>
          simp only [isOwn, and_self, if_true]
          exact Pipe.upStep_moves moved
      | down =>
          simp only [isOwn, reduceCtorEq, and_false, if_false]
          exact (Pipe.upStep_frame moved).2.2
  | down moved =>
      cases role with
      | up =>
          simp only [isOwn, reduceCtorEq, and_false, if_false]
          exact Pipe.downStep_up moved
      | down =>
          simp only [isOwn, and_self, if_true]
          exact Pipe.downStep_moves moved

/-! ## The summary of a session -/

/-- The two tasks that run at one end: the upper task of the direction that
starts there and the lower task of the direction that ends there. -/
def forwarders (session : Session α) (side : Side) : Forwarders where
  tunnelToSocket := (session.pipe side.other).down.pc.status
  socketToTunnel := (session.pipe side).up.pc.status

/-- The tasks at one end, each in its direction. -/
theorem status_forwarders (session : Session α) (side : Side) (role : Role) :
    (session.forwarders side).status role = (session.task (role.endOf side) role).pc.status := by
  cases role <;> rfl

/-- Whatever happens to a session, its two ends see forwarders that end once
and stay as they ended. -/
theorem forwarders_moves {bi : Bi α} {session next : Session α} {event : Event α}
    (taken : (machine bi).step session event = some next) (side : Side) :
    (session.forwarders side).Moves (next.forwarders side) := by
  intro role
  rw [status_forwarders, status_forwarders]
  have moves := task_of_step taken (role.endOf side) role
  split at moves
  · exact Or.inl (Pc.status_of_running moves.running)
  · exact Or.inr (by rw [moves])

end Session

end Net
end Lantun
