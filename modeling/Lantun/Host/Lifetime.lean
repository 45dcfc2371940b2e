import Lantun.Machine.Family
import Lantun.State.HostState
import Lantun.Host.Occupancy
import Lantun.Host.Shutdown

namespace Lantun
namespace Host

open Machine

/-!
# A host tunnel from one start to the next

A tunnel can be started, stopped and started again.  Every start makes an
endpoint, a registry and a stop channel, and spawns a task that goes on by
itself; the tunnel keeps the running properties of the last start only.  What is
asked of the tunnel is answered from these.

A call of `stop` takes the running properties, sends on their channel, waits
until their endpoint is closed, and clears the flag behind that.  Nothing else is
called meanwhile, since the call holds the tunnel.
-/

/-- The task that `start` has spawned for the tunnel it leaves. -/
def acceptLoop {Key : Type} [DecidableEq Key] (tunnel : State.HostTunnel) :
    Machine (HostTunnel Key) (Label Key) :=
  HostTunnel.machine tunnel.protocol tunnel.hostAddr

/-- A tunnel and what it has started so far. -/
structure Lifetime (Key : Type) where
  tunnel : State.HostTunnel
  /-- What each start has left of the tunnel and spawned; its place is the number
  of the stop channel. -/
  periods : List (State.HostTunnel × HostTunnel Key)
  /-- The running properties that a call of `stop` has taken and waits for. -/
  stopping : Option Nat

inductive LifetimeLabel (Key : Type) where
  /-- `start`, and what binding the endpoint yields. -/
  | start (bound : Except String Unit)
  /-- `stop` up to its `await`, and whether a receiver is left. -/
  | stop (received : Bool)
  /-- The rest of `stop`. -/
  | closed
  /-- The task of one start moves, or one of its clients. -/
  | period (index : Nat) (label : Label Key)

namespace Lifetime

variable {Key : Type} [DecidableEq Key]

def isRunning (lifetime : Lifetime Key) : Bool := lifetime.tunnel.isRunning

/-- The registry that the running properties hold. -/
def clients (lifetime : Lifetime Key) : List ConnectedClient :=
  match lifetime.tunnel.runningProps with
  | none => []
  | some channel =>
      match lifetime.periods[channel]? with
      | none => []
      | some period => values period.2.tunnelClients

def numClients (lifetime : Lifetime Key) : Nat := lifetime.clients.length

def numActiveConnections (lifetime : Lifetime Key) : Nat :=
  lifetime.clients.foldl (fun count client => count + client.len) 0

def start (lifetime : Lifetime Key) (bound : Except String Unit) : Lifetime Key :=
  match lifetime.tunnel.start lifetime.periods.length bound with
  | .error _ => lifetime
  | .ok tunnel => { lifetime with
      tunnel := tunnel
      periods := lifetime.periods ++ [(tunnel, HostTunnel.started)] }

/-- `stop` up to its `await`.  The receiver of the task is there for as long as
the task is. -/
def stop (lifetime : Lifetime Key) (received : Bool) : Option (Lifetime Key) :=
  if lifetime.tunnel.isRunning then
    match lifetime.tunnel.runningProps with
    | none => some { lifetime with tunnel := lifetime.tunnel.stop received }
    | some channel =>
        (lifetime.periods[channel]?).bind fun (tunnel, task) =>
          if received then
            ((acceptLoop tunnel).step task .stop).map fun task => { lifetime with
              tunnel := { lifetime.tunnel with runningProps := none }
              periods := lifetime.periods.set channel (tunnel, task)
              stopping := some channel }
          else if task.loop = .panicked then
            some { lifetime with tunnel := lifetime.tunnel.stop received }
          else none
  else some lifetime

/-- The endpoint is closed, and `stop` returns. -/
def closed (lifetime : Lifetime Key) : Option (Lifetime Key) :=
  lifetime.stopping.bind fun channel =>
    (lifetime.periods[channel]?).bind fun (tunnel, task) =>
      ((acceptLoop tunnel).step task .closeEndpoint).map fun task => { lifetime with
        tunnel := { lifetime.tunnel with isOpen := false }
        periods := lifetime.periods.set channel (tunnel, task)
        stopping := none }

/-- One step. -/
def step (lifetime : Lifetime Key) : LifetimeLabel Key → Option (Lifetime Key)
  | .start bound => if lifetime.stopping.isSome then none else some (lifetime.start bound)
  | .stop received => if lifetime.stopping.isSome then none else lifetime.stop received
  | .closed => lifetime.closed
  | .period index label =>
      if label = .stop ∨ label = .closeEndpoint then none
      else
        (lifetime.periods[index]?).bind fun (tunnel, task) =>
          ((acceptLoop tunnel).step task label).map fun task =>
            { lifetime with periods := lifetime.periods.set index (tunnel, task) }

/-- A tunnel as `create_tunnel` leaves it. -/
def machine : Machine (Lifetime Key) (LifetimeLabel Key) where
  initial lifetime :=
    lifetime.tunnel.runningState = (false, none) ∧ lifetime.periods = [] ∧ lifetime.stopping = none
  step := step

end Lifetime

/-! ## Where a tunnel stands -/

/-- What `start` and `stop` are about in a period. -/
def HostTunnel.switches {Key : Type} (host : HostTunnel Key) : Bool × Bool × Bool :=
  (host.isOpen, host.runningProps, host.endpointClosed)

/-- A period that has been stopped. -/
def ended : Bool × Bool × Bool := (false, false, true)

namespace Lifetime

variable {Key : Type} {lifetime : Lifetime Key}

def switches (lifetime : Lifetime Key) : List (Bool × Bool × Bool) :=
  lifetime.periods.map fun period => period.2.switches

/-- The tunnel rests, or its last period runs, or it is being stopped; all other
periods have been stopped. -/
inductive Stage (lifetime : Lifetime Key) : Prop where
  | rests (past : Nat) : lifetime.switches = List.replicate past ended →
      lifetime.tunnel.runningState = (false, none) → lifetime.stopping = none → Stage lifetime
  | runs (past : Nat) : lifetime.switches = List.replicate past ended ++ [(true, true, false)] →
      lifetime.tunnel.runningState = (true, some past) → lifetime.stopping = none → Stage lifetime
  | stops (past : Nat) : lifetime.switches = List.replicate past ended ++ [(true, false, false)] →
      lifetime.tunnel.runningState = (true, none) → lifetime.stopping = some past → Stage lifetime

theorem start_cases (tunnel : State.HostTunnel) (channel : Nat) (bound : Except String Unit) :
    (∃ reason, tunnel.start channel bound = .error reason) ∨
      ∃ next, tunnel.start channel bound = .ok next ∧ tunnel.isOpen = false ∧
        next.runningState = (true, some channel) := by
  unfold State.HostTunnel.start State.HostTunnel.isRunning
  cases running : tunnel.isOpen with
  | true => exact Or.inl ⟨_, rfl⟩
  | false =>
      cases bound with
      | error message => exact Or.inl ⟨_, rfl⟩
      | ok _ => exact Or.inr ⟨_, rfl, rfl, rfl⟩

/-- The period that the last place of the list is about. -/
theorem getElem?_last {past : Nat} {last : Bool × Bool × Bool}
    (all : lifetime.switches = List.replicate past ended ++ [last]) :
    ∃ tunnel task, lifetime.periods[past]? = some (tunnel, task) ∧ task.switches = last ∧
      lifetime.periods.length = past + 1 := by
  have here : (lifetime.periods[past]?).map (fun period => period.2.switches) = some last := by
    rw [← List.getElem?_map]
    change lifetime.switches[past]? = some last
    rw [all, List.getElem?_append_right (by simp)]
    simp
  rcases Option.map_eq_some_iff.mp here with ⟨⟨tunnel, task⟩, found, is⟩
  refine ⟨tunnel, task, found, is, ?_⟩
  have count := congrArg List.length all
  simpa [switches] using count

/-- What writing the last period back does to the switches. -/
theorem switches_set {past : Nat} {last : Bool × Bool × Bool}
    (all : lifetime.switches = List.replicate past ended ++ [last]) (tunnel : State.HostTunnel)
    (task : HostTunnel Key) :
    (lifetime.periods.set past (tunnel, task)).map (fun period => period.2.switches) =
      List.replicate past ended ++ [task.switches] := by
  rw [List.map_set]
  change lifetime.switches.set past task.switches = _
  rw [all, List.set_append_right _ _ (by simp)]
  simp

variable [DecidableEq Key] {next : Lifetime Key}

/-- A step of one period that is no part of `stop` leaves all switches. -/
theorem switches_of_period {index : Nat} {label : Label Key}
    (taken : lifetime.step (.period index label) = some next) :
    next.switches = lifetime.switches ∧ next.tunnel = lifetime.tunnel ∧
      next.stopping = lifetime.stopping := by
  simp only [step] at taken
  split at taken
  · cases taken
  · rename_i other
    rcases not_or.mp other with ⟨noStop, noClose⟩
    rcases Option.bind_eq_some_iff.mp taken with ⟨⟨tunnel, task⟩, found, rest⟩
    rcases Option.map_eq_some_iff.mp rest with ⟨after, moved, same⟩
    subst same
    have frame := HostTunnel.step_frame moved noStop noClose
    refine ⟨?_, rfl, rfl⟩
    apply map_set_same found
    change after.switches = task.switches
    rw [HostTunnel.switches, frame.1, frame.2.1, frame.2.2.2, ← HostTunnel.switches]

omit [DecidableEq Key] in
theorem Stage.of_start (stage : lifetime.Stage) (bound : Except String Unit) :
    (lifetime.start bound).Stage := by
  unfold start
  rcases start_cases lifetime.tunnel lifetime.periods.length bound with
    ⟨reason, refused⟩ | ⟨tunnel, made, off, on⟩
  · rw [refused]
    exact stage
  · rw [made]
    cases stage with
    | rests past all _ quiet =>
        have count : lifetime.periods.length = past := by
          simpa [switches] using congrArg List.length all
        refine .runs past ?_ (on.trans (by rw [count])) quiet
        have kept : lifetime.periods.map (fun period => period.2.switches) =
            List.replicate past ended := all
        rw [switches, List.map_append, kept]
        rfl
    | runs past _ state _ => cases off.symm.trans (congrArg Prod.fst state)
    | stops past _ state _ => cases off.symm.trans (congrArg Prod.fst state)

/-- A call of `stop` on a running tunnel finds a receiver, and takes the running
properties of the last period. -/
theorem stop_of_runs {past : Nat}
    (all : lifetime.switches = List.replicate past ended ++ [(true, true, false)])
    (state : lifetime.tunnel.runningState = (true, some past))
    (apart : Apart acceptLoop lifetime.periods) :
    lifetime.stop false = none ∧ ∃ tunnel task after, lifetime.periods[past]? = some (tunnel, task) ∧
      (acceptLoop tunnel).step task .stop = some after ∧ after.switches = (true, false, false) ∧
      lifetime.stop true = some { lifetime with
        tunnel := { lifetime.tunnel with runningProps := none }
        periods := lifetime.periods.set past (tunnel, after)
        stopping := some past } := by
  have running : lifetime.tunnel.isRunning = true := congrArg Prod.fst state
  have props : lifetime.tunnel.runningProps = some past := congrArg Prod.snd state
  rcases getElem?_last all with ⟨tunnel, task, found, is, _⟩
  simp only [HostTunnel.switches, Prod.mk.injEq] at is
  have alive : task.loop ≠ .panicked :=
    ((HostTunnel.inductive_inv tunnel.protocol tunnel.hostAddr).of_reachable
      (apart _ (List.mem_of_getElem? found))).notPanicked
  have sent : (acceptLoop tunnel).step task .stop =
      some { task with runningProps := false, stopSent := true } := by
    simp [acceptLoop, HostTunnel.machine, HostTunnel.step, is.1, is.2.1]
  refine ⟨?_, tunnel, task, _, found, sent, ?_, ?_⟩
  · simp [stop, running, props, found, alive]
  · simp [HostTunnel.switches, is.1, is.2.2]
  · simp [stop, running, props, found, sent]

/-- The endpoint of a tunnel that is being stopped can be closed, which ends the
call and the period. -/
theorem closed_of_stops {past : Nat}
    (all : lifetime.switches = List.replicate past ended ++ [(true, false, false)])
    (waits : lifetime.stopping = some past) :
    ∃ tunnel task after, lifetime.periods[past]? = some (tunnel, task) ∧
      (acceptLoop tunnel).step task .closeEndpoint = some after ∧ after.switches = ended ∧
      lifetime.closed = some { lifetime with
        tunnel := { lifetime.tunnel with isOpen := false }
        periods := lifetime.periods.set past (tunnel, after)
        stopping := none } := by
  rcases getElem?_last all with ⟨tunnel, task, found, is, _⟩
  simp only [HostTunnel.switches, Prod.mk.injEq] at is
  have closes : (acceptLoop tunnel).step task .closeEndpoint = some { task with
      isOpen := false
      endpointClosed := true
      conns := task.conns.map Conn.shut } := by
    simp [acceptLoop, HostTunnel.machine, HostTunnel.step, is.1, is.2.1]
  refine ⟨tunnel, task, _, found, closes, ?_, ?_⟩
  · simp [HostTunnel.switches, ended, is.2.1]
  · simp [closed, waits, found, closes]

/-- What is known of a tunnel and of the periods it has left behind. -/
structure Inv (lifetime : Lifetime Key) : Prop where
  apart : Apart acceptLoop lifetime.periods
  stage : lifetime.Stage

theorem Inv.stop {received : Bool} (inv : lifetime.Inv) (quiet : lifetime.stopping = none)
    (taken : lifetime.stop received = some next) : next.Inv := by
  cases inv.stage with
  | rests past all state _ =>
      have off : lifetime.tunnel.isRunning = false := congrArg Prod.fst state
      rw [Lifetime.stop, off] at taken
      cases taken
      exact inv
  | runs past all state _ =>
      rcases stop_of_runs all state inv.apart with
        ⟨refused, tunnel, task, after, found, sent, is, stops⟩
      cases received with
      | false => cases refused.symm.trans taken
      | true =>
          cases stops.symm.trans taken
          refine ⟨(Family.moves found sent rfl).apart inv.apart, .stops past ?_ ?_ rfl⟩
          · exact (switches_set all tunnel after).trans (by rw [is])
          · exact congrArg (fun open_ => (open_, none)) (congrArg Prod.fst state)
  | stops past _ _ waits => cases quiet.symm.trans waits

theorem Inv.closed (inv : lifetime.Inv) (taken : lifetime.closed = some next) : next.Inv := by
  cases inv.stage with
  | rests _ _ _ quiet | runs _ _ _ quiet =>
      rw [Lifetime.closed, quiet] at taken
      cases taken
  | stops past all state waits =>
      rcases closed_of_stops all waits with ⟨tunnel, task, after, found, closes, is, back⟩
      cases back.symm.trans taken
      refine ⟨(Family.moves found closes rfl).apart inv.apart, .rests (past + 1) ?_ ?_ rfl⟩
      · refine (switches_set all tunnel after).trans ?_
        rw [is, List.replicate_succ']
      · exact congrArg (fun props => (false, props)) (congrArg Prod.snd state)

theorem inductive_inv : (machine : Machine (Lifetime Key) (LifetimeLabel Key)).Inductive Inv where
  start lifetime first := by
    rcases first with ⟨state, none_, quiet⟩
    refine ⟨none_ ▸ apart_nil, .rests 0 ?_ state quiet⟩
    rw [switches, none_]
    rfl
  step lifetime label next inv taken := by
    cases label with
    | start bound =>
        simp only [machine, step] at taken
        split at taken <;> cases taken
        refine ⟨?_, inv.stage.of_start bound⟩
        unfold start
        split
        · exact inv.apart
        · exact (Family.grows rfl rfl).apart inv.apart
    | stop received =>
        simp only [machine, step] at taken
        split at taken
        · cases taken
        · rename_i quiet
          exact inv.stop (Option.not_isSome_iff_eq_none.mp quiet) taken
    | closed => exact inv.closed taken
    | period index label =>
        have same := switches_of_period taken
        simp only [machine, step] at taken
        split at taken
        · cases taken
        · rcases Option.bind_eq_some_iff.mp taken with ⟨⟨tunnel, task⟩, found, rest⟩
          rcases Option.map_eq_some_iff.mp rest with ⟨after, moved, is⟩
          refine ⟨is ▸ (Family.moves found moved rfl).apart inv.apart, ?_⟩
          cases inv.stage with
          | rests past all state quiet =>
              exact .rests past (same.1.trans all) (same.2.1 ▸ state) (same.2.2.trans quiet)
          | runs past all state quiet =>
              exact .runs past (same.1.trans all) (same.2.1 ▸ state) (same.2.2.trans quiet)
          | stops past all state waits =>
              exact .stops past (same.1.trans all) (same.2.1 ▸ state) (same.2.2.trans waits)

/-! ## What the tunnel tells -/

/-- What its owner is told of a tunnel is true of the period of the last start,
and all the others are over, but for their tasks, which never end. -/
structure Told (lifetime : Lifetime Key) : Prop where
  isRunning : lifetime.isRunning = true ↔
    ∃ period ∈ lifetime.periods.getLast?, period.2.isOpen = true
  numClients : lifetime.numClients =
    (lifetime.periods.getLast?).elim 0 fun period => period.2.numClients
  numActiveConnections : lifetime.numActiveConnections =
    (lifetime.periods.getLast?).elim 0 fun period => period.2.numActiveConnections
  /-- No period notices that there are others. -/
  alone : ∀ period ∈ lifetime.periods, (acceptLoop period.1).Reachable period.2
  stopped : ∀ (index : Nat) period, lifetime.periods[index]? = some period →
    (index + 1 < lifetime.periods.length ∨ lifetime.isRunning = false) →
      period.2.isOpen = false ∧ period.2.endpointClosed = true ∧
        ¬ period.2.Ends period.1.protocol period.1.hostAddr
  /-- The stop is received, so its `unwrap` does not panic. -/
  received : lifetime.isRunning = true → lifetime.step (.stop false) = none
  /-- The endpoint of a tunnel being stopped can be closed. -/
  closes : lifetime.stopping.isSome = true → ∃ next, lifetime.step .closed = some next

omit [DecidableEq Key] in
/-- A period is over where the switches say so. -/
theorem ended_of_replicate {past index : Nat} {period : State.HostTunnel × HostTunnel Key}
    (last : List (Bool × Bool × Bool)) (all : lifetime.switches = List.replicate past ended ++ last)
    (here : lifetime.periods[index]? = some period) (early : index < past) :
    period.2.switches = ended := by
  have at_ : lifetime.switches[index]? = some period.2.switches := by
    rw [switches, List.getElem?_map, here]
    rfl
  rw [all, List.getElem?_append_left (by simpa using early), List.getElem?_replicate,
    if_pos early] at at_
  exact (Option.some.inj at_).symm

theorem Inv.stopped (inv : lifetime.Inv) {index : Nat}
    {period : State.HostTunnel × HostTunnel Key} (here : lifetime.periods[index]? = some period)
    (past : index + 1 < lifetime.periods.length ∨ lifetime.isRunning = false) :
    period.2.isOpen = false ∧ period.2.endpointClosed = true ∧
      ¬ period.2.Ends period.1.protocol period.1.hostAddr := by
  have within := (List.getElem?_eq_some_iff.mp here).1
  have is : period.2.switches = ended := by
    cases inv.stage with
    | rests count all _ _ =>
        have length : lifetime.periods.length = count := by
          simpa [switches] using congrArg List.length all
        exact ended_of_replicate [] (by simpa using all) here (length ▸ within)
    | runs count all state _ | stops count all state _ =>
        have running : lifetime.isRunning = true := congrArg Prod.fst state
        rcases getElem?_last all with ⟨_, _, _, _, length⟩
        rw [length] at past
        rcases past with early | off
        · exact ended_of_replicate _ all here (Nat.lt_of_succ_lt_succ early)
        · cases running.symm.trans off
  simp only [HostTunnel.switches, ended, Prod.mk.injEq] at is
  exact ⟨is.1, is.2.2, (HostTunnel.spinning_of_reachable
    (inv.apart _ (List.mem_of_getElem? here)) is.2.2).not_ends _ _⟩

/-- The registry the tunnel holds is that of the last period, unless that has
been stopped. -/
theorem Inv.clients_eq (inv : lifetime.Inv) : lifetime.clients =
    (lifetime.periods.getLast?).elim [] fun period =>
      if period.2.runningProps then values period.2.tunnelClients else [] := by
  cases inv.stage with
  | rests past all state _ =>
      have props : lifetime.tunnel.runningProps = none := congrArg Prod.snd state
      have length : lifetime.periods.length = past := by
        simpa [switches] using congrArg List.length all
      cases last : lifetime.periods.getLast? with
      | none => simp [clients, props]
      | some period =>
          rw [List.getLast?_eq_getElem?] at last
          have within := (List.getElem?_eq_some_iff.mp last).1
          have is := ended_of_replicate [] (by simpa using all) last
            (Nat.lt_of_lt_of_eq within length)
          simp only [HostTunnel.switches, ended, Prod.mk.injEq] at is
          simp [clients, props, is.2.1]
  | runs past all state _ | stops past all state _ =>
      rcases getElem?_last all with ⟨tunnel, task, found, is, length⟩
      have last : lifetime.periods.getLast? = some (tunnel, task) := by
        rw [List.getLast?_eq_getElem?, length]
        exact found
      have props := congrArg Prod.snd state
      simp only [State.HostTunnel.runningState] at props
      simp only [HostTunnel.switches, Prod.mk.injEq] at is
      simp [clients, props, last, found, is.2.1]

omit [DecidableEq Key] in
theorem length_values (clients : ConnectedClients Key) :
    (values clients).length = clients.keys.length := by
  rw [values, AList.keys, List.keys, List.length_map, List.length_map]

theorem Inv.told (inv : lifetime.Inv) : lifetime.Told where
  isRunning := by
    cases inv.stage with
    | rests past all state _ =>
        have off : lifetime.isRunning = false := congrArg Prod.fst state
        rw [off]
        refine iff_of_false Bool.false_ne_true ?_
        rintro ⟨period, last, on⟩
        rw [Option.mem_def, List.getLast?_eq_getElem?] at last
        rw [(inv.stopped last (Or.inr off)).1] at on
        cases on
    | runs past all state _ | stops past all state _ =>
        rcases getElem?_last all with ⟨tunnel, task, found, is, length⟩
        refine iff_of_true (congrArg Prod.fst state) ⟨(tunnel, task), ?_, congrArg Prod.fst is⟩
        rw [Option.mem_def, List.getLast?_eq_getElem?, length]
        exact found
  numClients := by
    rw [numClients, inv.clients_eq]
    cases lifetime.periods.getLast? with
    | none => rfl
    | some period =>
        simp only [Option.elim_some, HostTunnel.numClients]
        split
        · exact length_values _
        · rfl
  numActiveConnections := by
    rw [numActiveConnections, inv.clients_eq]
    cases lifetime.periods.getLast? with
    | none => rfl
    | some period =>
        simp only [Option.elim_some, HostTunnel.numActiveConnections]
        split <;> rfl
  alone := inv.apart
  stopped _ _ here past := inv.stopped here past
  received on := by
    cases inv.stage with
    | rests past all state _ => cases on.symm.trans (congrArg Prod.fst state)
    | runs past all state quiet =>
        simp [step, quiet, (stop_of_runs all state inv.apart).1]
    | stops past all state waits => simp [step, waits]
  closes waiting := by
    cases inv.stage with
    | rests _ _ _ quiet | runs _ _ _ quiet =>
        rw [quiet] at waiting
        cases waiting
    | stops past all state waits =>
        rcases closed_of_stops all waits with ⟨_, _, _, _, _, _, back⟩
        exact ⟨_, back⟩

/-- However often and in whatever order a tunnel is started and stopped while
clients come and go, it answers for its last start only: whether it runs and what
it counts is what holds of that period, which finds nothing of the earlier ones.
Of these, each has its endpoint closed and a task that never ends. -/
theorem told_of_reachable (reached : (machine : Machine (Lifetime Key) _).Reachable lifetime) :
    lifetime.Told :=
  (inductive_inv.of_reachable reached).told

/-- A tunnel that nobody has started. -/
def web : Lifetime Nat where
  tunnel := State.HostTunnel.created (.v4 0 80) "web" (List.Vector.replicate 32 1) .tcp 0
  periods := []
  stopping := none

/-- A client is admitted, the tunnel is stopped and started again, and the same
client is admitted again. -/
def restarted : List (LifetimeLabel Nat) :=
  [.start (.ok ()), .period 0 (.dial 7), .period 0 .accept,
    .period 0 (.client 7 0 (.handshake true)), .period 0 .handshakeEnds, .stop true, .closed,
    .start (.ok ()), .period 1 (.dial 7), .period 1 .accept,
    .period 1 (.client 7 0 (.handshake true)), .period 1 .handshakeEnds]

theorem told_of_reachable_restarted : ∃ lifetime : Lifetime Nat,
    machine.run restarted web = some lifetime ∧ lifetime.numClients = 1 ∧ lifetime.Told := by
  have ends : (machine.run restarted web).any (fun lifetime => decide (lifetime.numClients = 1)) =
      true := by decide
  rcases (Option.any_eq_true ..).mp ends with ⟨lifetime, ran, one⟩
  exact ⟨lifetime, ran, of_decide_eq_true one,
    told_of_reachable ⟨web, restarted, ⟨rfl, rfl, rfl⟩, ran⟩⟩

end Lifetime

end Host
end Lantun
