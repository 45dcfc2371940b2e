import Lantun.Net.SharedTimer
import Lantun.Client.HeadOfLine

namespace Lantun
namespace Client

open Async Net

/-!
# The idle timeout of every session

On the client a UDP session has a reader of the shared socket for its upper task.
A datagram of another application sends such a reader around its loop, which is
neither activity nor an expiry, and sessions come and go while the socket stays.
So the timer of a UDP session is looked at a second time, inside the tunnel.
-/

namespace UdpTunnel

/-- The session at this place of the tunnel. -/
def sharedTimer (id : Nat) : SharedTimer where
  State := UdpTunnel
  Label := UdpEvent
  machine := machine
  clock tunnel := tunnel.clock
  lastActive tunnel := ((tunnel.sessions[id]?).map fun session => session.reader.lastActive).getD 0
  pc tunnel role := (tunnel.sessions[id]?).map fun session => (session.task role).pc
  expires tunnel role := ∃ session, tunnel.sessions[id]? = some session ∧
    (session.task role).selects (session.reader.env tunnel.process)
      (tunnel.sourceReady session role) = some .sleep
  own role event := ∃ step, event = controlEvent id step role

section Step

variable {tunnel next : UdpTunnel} {id other : Nat} {session after : UdpSession}

/-- The listener starts sessions and does nothing else to them. -/
theorem sessions_of_listenerStep {act : ListenerAct} (taken : tunnel.listenerStep act = some next) :
    next.clock = tunnel.clock ∧
      (next.sessions = tunnel.sessions ∨
        ∃ addr, next.sessions = tunnel.sessions ++ [tunnel.spawn addr]) := by
  cases act with
  | incoming addr | incomingFails | forwarderEnds role status =>
      simp only [listenerStep] at taken
      split at taken
      · rcases Option.map_eq_some_iff.mp taken with ⟨connected, _, same⟩
        cases same
        exact ⟨rfl, Or.inl rfl⟩
      · cases taken
  | sent =>
      simp only [listenerStep] at taken
      split at taken
      · rename_i addr _
        rcases Option.map_eq_some_iff.mp taken with ⟨connected, _, same⟩
        cases same
        exact ⟨rfl, Or.inr ⟨addr, rfl⟩⟩
      · cases taken
  | bound | bindFails | stop | opened | openFails | sendFails | join | detachedEnds =>
      rcases Option.map_eq_some_iff.mp taken with ⟨connected, _, same⟩
      cases same
      exact ⟨rfl, Or.inl rfl⟩

theorem timer_aside (same : next.sessions[id]? = tunnel.sessions[id]?) :
    (sharedTimer id).Moves tunnel next := by
  refine .aside ?_ ?_
  · funext role
    simp only [sharedTimer, same]
  · simp only [sharedTimer, same]

/-- A session that starts stores the second it starts in. -/
theorem timer_starts {addr : SocketAddr}
    (grown : next.sessions = tunnel.sessions ++ [tunnel.spawn addr]) :
    (sharedTimer id).Moves tunnel next := by
  by_cases here : id = tunnel.sessions.length
  · subst here
    have none_ : tunnel.sessions[tunnel.sessions.length]? = none := List.getElem?_eq_none (Nat.le_refl _)
    have found : next.sessions[tunnel.sessions.length]? = some (tunnel.spawn addr) := by
      rw [grown, List.getElem?_concat_length]
    refine .begins ⟨fun role => ?_, fun role => ?_⟩ ?_
    · simp only [sharedTimer, none_, Option.map_none]
    · simp only [sharedTimer, found, Option.map_some]
      cases role <;> rfl
    · simp only [sharedTimer, found, Option.map_some, Option.getD_some]
      rfl
  · refine timer_aside ?_
    rw [grown]
    by_cases before : id < tunnel.sessions.length
    · exact List.getElem?_append_left before
    · rw [List.getElem?_eq_none (by rw [List.length_append, List.length_singleton]; omega),
        List.getElem?_eq_none (by omega)]

/-- A change to one session, which may be another one. -/
theorem timer_session (at_ : tunnel.sessions[other]? = some session)
    (changed : next.sessions = tunnel.sessions.set other after)
    (moves : other = id → (sharedTimer id).pc tunnel = (fun role => some (session.task role).pc) →
      (sharedTimer id).pc next = (fun role => some (after.task role).pc) →
        (sharedTimer id).lastActive tunnel = session.reader.lastActive →
          (sharedTimer id).lastActive next = after.reader.lastActive →
            (sharedTimer id).Moves tunnel next) :
    (sharedTimer id).Moves tunnel next := by
  by_cases same : other = id
  · subst same
    have found : next.sessions[other]? = some after := by
      rw [changed]
      exact List.getElem?_set_self (List.getElem?_eq_some_iff.mp at_).1
    refine moves rfl ?_ ?_ ?_ ?_ <;> simp only [sharedTimer, at_, found, Option.map_some,
      Option.getD_some]
  · exact timer_aside (by rw [changed, List.getElem?_set_ne same])

/-- The session's stream has moved, not the session. -/
theorem timer_still (at_ : tunnel.sessions[other]? = some session)
    (changed : next.sessions = tunnel.sessions.set other after)
    (tasks : ∀ role, after.task role = session.task role)
    (active : after.reader.lastActive = session.reader.lastActive) :
    (sharedTimer id).Moves tunnel next := by
  refine timer_session at_ changed fun _ was is stored stores => .aside ?_ ?_
  · rw [was, is]
    simp only [tasks]
  · rw [stored, stores, active]

/-- A forwarder of the session has moved. -/
theorem timer_round {role : Role} {env : Env} {ready : Bool} {act : Act}
    (at_ : tunnel.sessions[other]? = some session)
    (changed : next.sessions = tunnel.sessions.set other after)
    (clock : env.clock = tunnel.clock) (active : env.lastActive = session.reader.lastActive)
    (moves : Task.Moves env ready (session.task role) act (after.task role) after.reader.lastActive)
    (others : ∀ other, other ≠ role → after.task other = session.task other) :
    (sharedTimer id).Moves tunnel next := by
  refine timer_session at_ changed fun _ was is stored stores =>
    .round (congrFun was role) (congrFun is role) ?_ ?_
  · intro other different
    rw [was, is]
    simp only [others other different]
  · rw [stored, stores, ← active]
    have round := moves.round
    rw [clock] at round
    exact round

theorem clock_le_of_step {event : UdpEvent} (taken : machine.step tunnel event = some next) :
    tunnel.clock ≤ next.clock := by
  cases event with
  | listener act => exact Nat.le_of_eq (sessions_of_listenerStep taken).1.symm
  | sendStop =>
      simp only [machine, step] at taken
      split at taken <;> cases taken
      exact Nat.le_refl _
  | reader other act | sender other act =>
      rcases Option.bind_eq_some_iff.mp taken with ⟨session, _, moved⟩
      rcases Option.map_eq_some_iff.mp moved with ⟨⟨_, _⟩, _, same⟩
      cases same
      exact Nat.le_refl _
  | tick nanos =>
      cases taken
      exact Nat.le_add_right _ _
  | arrive | sockError | dropStop | close =>
      cases taken
      exact Nat.le_refl _
  | stopReading other | write other bytes | finish other | deliver other count | deliverEnd other =>
      rcases Option.map_eq_some_iff.mp taken with ⟨session, _, same⟩
      cases same
      exact Nat.le_refl _

/-- Every step of the tunnel is one of the timer's. -/
theorem timer_step {event : UdpEvent} (taken : machine.step tunnel event = some next) :
    (sharedTimer id).Moves tunnel next := by
  cases event with
  | listener act =>
      rcases (sessions_of_listenerStep taken).2 with same | ⟨addr, grown⟩
      · exact timer_aside (by rw [same])
      · exact timer_starts grown
  | sendStop =>
      simp only [machine, step] at taken
      split at taken <;> cases taken
      exact timer_aside rfl
  | reader other act =>
      rcases Option.bind_eq_some_iff.mp taken with ⟨session, at_, moved⟩
      rcases Option.map_eq_some_iff.mp moved with ⟨⟨socket, reader⟩, taken', same⟩
      cases same
      have moves : Task.Moves _ _ (session.task .up) act _ _ := Reader.taskMoves_of_step taken'
      refine timer_round at_ rfl rfl rfl moves ?_
      intro role different
      cases role with
      | up => exact absurd rfl different
      | down => rfl
  | sender other act =>
      rcases Option.bind_eq_some_iff.mp taken with ⟨session, at_, moved⟩
      rcases Option.map_eq_some_iff.mp moved with ⟨⟨pipe, last⟩, taken', same⟩
      cases same
      have moves : Task.Moves _ _ (session.task .down) act _ _ := Pipe.downStep_moves taken'
      refine timer_round at_ rfl rfl rfl moves ?_
      intro role different
      cases role with
      | up => rfl
      | down => exact absurd rfl different
  | tick | arrive | sockError | dropStop | close =>
      cases taken
      exact timer_aside rfl
  | stopReading other | write other bytes | finish other | deliver other count | deliverEnd other =>
      rcases Option.map_eq_some_iff.mp taken with ⟨session, at_, same⟩
      cases same
      refine timer_still at_ rfl ?_ rfl
      intro role
      cases role <;> rfl

end Step

theorem lawful_sharedTimer (id : Nat) : (sharedTimer id).Lawful where
  start tunnel starts := by
    cases starts
    exact ⟨Nat.zero_le _, fun role => Or.inl rfl⟩
  clock_mono tunnel event next taken := clock_le_of_step taken
  moves tunnel event next taken := timer_step taken
  expired tunnel role expires := by
    rcases expires with ⟨session, at_, chosen⟩
    rcases Task.due_of_selects chosen with ⟨deadline, live, here, due⟩
    refine ⟨deadline, live, ?_, due⟩
    simp only [sharedTimer, at_, Option.map_some, here]
  sleeps tunnel role expires := by
    rcases expires with ⟨session, at_, chosen⟩
    have moved : (session.task role).control (session.reader.env tunnel.process)
        (tunnel.sourceReady session role) .sleep =
          some { session.task role with pc := .woken } := by
      simp only [Task.control, chosen, if_true]
    refine ⟨_, _, ⟨.sleep, rfl⟩, step_control at_ moved, ?_⟩
    simp only [sharedTimer, getElem_setSession at_, Option.map_some, UdpSession.task_setTask]
  wakes tunnel role woken := by
    rcases Option.map_eq_some_iff.mp woken with ⟨session, at_, here⟩
    have moved : (session.task role).control (session.reader.env tunnel.process)
        (tunnel.sourceReady session role) .wake =
          some { session.task role with pc := .recheck (nowSecs tunnel.clock) } := by
      simp only [Task.control, here]
      rfl
    refine ⟨_, _, nowSecs tunnel.clock, ⟨.wake, rfl⟩, step_control at_ moved, ?_⟩
    simp only [sharedTimer, getElem_setSession at_, Option.map_some, UdpSession.task_setTask]
  rechecks tunnel role now recheck := by
    rcases Option.map_eq_some_iff.mp recheck with ⟨session, at_, here⟩
    have moved : (session.task role).control (session.reader.env tunnel.process)
        (tunnel.sourceReady session role) .recheck =
          some { session.task role with
            pc := if now - session.reader.lastActive ≥ connectionTimeoutSeconds then .done .timedOut
              else .top } := by
      simp only [Task.control, here]
      rfl
    refine ⟨_, _, ⟨.recheck, rfl⟩, step_control at_ moved, now, recheck, ?_⟩
    simp only [sharedTimer, getElem_setSession at_, Option.map_some, UdpSession.task_setTask]
    split <;> simp

end UdpTunnel

/-! ## Every pair of forwarders -/

/-- Two forwarders that share a `last_active`: those of one end of a session that
has its sockets to itself, or those of a session of a client's UDP tunnel, named
by its place. -/
inductive Idling where
  | session (protocol : TunnelProtocol) (side : Side)
  | udpClient (id : Nat)
  deriving DecidableEq, Repr

def Idling.timer : Idling → SharedTimer
  | .session .tcp side => Session.sharedTimer .tcp side
  | .session .udp side => Session.sharedTimer .udp side
  | .udpClient id => UdpTunnel.sharedTimer id

theorem Idling.lawful (which : Idling) : which.timer.Lawful := by
  cases which with
  | session protocol side =>
      cases protocol with
      | tcp => exact Session.lawful_sharedTimer .tcp side
      | udp => exact Session.lawful_sharedTimer .udp side
  | udpClient id => exact UdpTunnel.lawful_sharedTimer id

/-- In every run a forwarder times out only `CONNECTION_TIMEOUT_SECONDS` after
everything stored by either of the two; and with nothing stored after its timeout
was computed, it times out at the first look after its sleep. -/
theorem timeout_exact (which : Idling) {start : which.timer.State}
    (starts : which.timer.machine.initial start) (role : Role) : which.timer.Exact role start :=
  which.lawful.exact starts role

/-- The service is sent a byte 3.2 seconds after the start, and answers at 4.9 seconds. -/
def chattyRun : List (Event UInt8) :=
  [.send .client 1] ++ Session.enterSelect .client .up ++
    [.task .client .up (.read 1), .task .client .up (.write 1), .deliver .client 1,
      .tick 3200000000] ++
    Session.enterSelect .client .down ++
    [.task .client .down (.read 1), .task .client .down (.write 1), .send .host 2,
      .tick 1700000000] ++
    Session.enterSelect .host .up ++
    [.task .host .up (.read 1), .task .host .up (.write 1), .task .host .up (.control .now)]

/-- Its sleep of 20 seconds. -/
def quietRun : List (Event UInt8) :=
  [.tick 20000000000, .task .host .up (.control .sleep), .task .host .up (.control .wake)]

/-- Where the forwarders of the host's end stand. -/
def hostPlaces (session : Session UInt8) : Pc × Pc :=
  ((session.task .host .up).pc, (session.task .client .down).pc)

theorem not_stores_of_places {s t : Session UInt8}
    (up : ∀ chunk, (hostPlaces t).1 ≠ .write chunk)
    (down : ∀ chunk, (hostPlaces t).2 ≠ .write chunk) :
    ¬ (Session.sharedTimer .tcp .host).Stores s t := by
  apply SharedTimer.not_stores_of_places
  · exact Option.some_ne_none _
  · intro role chunk is
    cases role with
    | up => exact up chunk (Option.some.inj is)
    | down => exact down chunk (Option.some.inj is)

/-- Where a chunk has gone each way, the forwarder breaks after this one sleep. -/
theorem timesOut_of_chattyRun
    (exact_ : (Session.sharedTimer .tcp .host).Exact .up (Session.fresh : Session UInt8)) :
    ∃ s t u v, (Session.machine Bi.tcp).run chattyRun Session.fresh = some s ∧
      (Session.machine Bi.tcp).step s (.task .host .up (.control .load)) = some t ∧
        (Session.machine Bi.tcp).run quietRun t = some u ∧
          (Session.machine Bi.tcp).step u (.task .host .up (.control .recheck)) = some v ∧
            s.lastActive .host = 4 ∧ (Session.sharedTimer .tcp .host).TimesOut .up u v := by
  have ends : (((Session.machine Bi.tcp).run chattyRun Session.fresh).bind fun s =>
      ((Session.machine Bi.tcp).step s (.task .host .up (.control .load))).bind fun t =>
        ((Session.machine Bi.tcp).step t (.tick 20000000000)).bind fun first =>
          ((Session.machine Bi.tcp).step first (.task .host .up (.control .sleep))).bind
            fun second =>
              ((Session.machine Bi.tcp).step second (.task .host .up (.control .wake))).bind
                fun u =>
                  ((Session.machine Bi.tcp).step u (.task .host .up (.control .recheck))).map
                    fun v => (s.lastActive .host, decide ((hostPlaces v).1 = .recheck 24),
                      [s, t, first, second, u].map hostPlaces)) =
      some (4, false, [(.loaded 4, .top), (.select 24900000000 true, .top),
        (.select 24900000000 true, .top), (.woken, .top), (.recheck 24, .top)]) := by
    decide +kernel
  rcases Option.bind_eq_some_iff.mp ends with ⟨s, ran, rest⟩
  rcases Option.bind_eq_some_iff.mp rest with ⟨t, taken, rest⟩
  rcases Option.bind_eq_some_iff.mp rest with ⟨first, ticks, rest⟩
  rcases Option.bind_eq_some_iff.mp rest with ⟨second, sleeps, rest⟩
  rcases Option.bind_eq_some_iff.mp rest with ⟨u, wakes, rest⟩
  rcases Option.map_eq_some_iff.mp rest with ⟨v, rechecks, found⟩
  simp only [Prod.mk.injEq, List.map_cons, List.map_nil, List.cons.injEq, and_true] at found
  rcases found with ⟨active, atV, atS, atT, atFirst, atSecond, atU⟩
  have quiet : (Session.machine Bi.tcp).EveryStep
      (fun s _ t => ¬ (Session.sharedTimer .tcp .host).Stores s t) quietRun t := by
    intro first' ticks'
    cases ticks.symm.trans ticks'
    refine ⟨not_stores_of_places (by simp [atFirst]) (by simp [atFirst]), fun second' sleeps' => ?_⟩
    cases sleeps.symm.trans sleeps'
    refine ⟨not_stores_of_places (by simp [atSecond]) (by simp [atSecond]), fun u' wakes' => ?_⟩
    cases wakes.symm.trans wakes'
    exact ⟨not_stores_of_places (by simp [atU]) (by simp [atU]), trivial⟩
  have later : (Session.machine Bi.tcp).run quietRun t = some u := by
    simp only [quietRun, Machine.run_cons, ticks, sleeps, wakes, Option.bind_some, Machine.run_nil]
  have loads : (Session.sharedTimer .tcp .host).Loads .up 4 24900000000 s t :=
    ⟨congrArg (fun at_ : Pc × Pc => some at_.1) atS, congrArg (fun at_ : Pc × Pc => some at_.1) atT⟩
  have again : (Session.sharedTimer .tcp .host).Rechecks .up u v := by
    refine ⟨24, congrArg (fun at_ : Pc × Pc => some at_.1) atU, fun same => ?_⟩
    exact of_decide_eq_false atV (Option.some.inj same)
  refine ⟨s, t, u, v, ran, taken, later, rechecks, active, ?_⟩
  have breaks := exact_.once chattyRun s _ t 4 24900000000 ran taken loads quietRun u later quiet
  exact breaks.1 _ v rechecks again

/-- A host's forwarder computes its timeout 0.7 seconds after the start, and looks
again after that sleep. -/
def idleRun : List (Event UInt8) :=
  [.tick 700000000] ++ Session.enterSelect .host .up ++
    [.tick 20000000000, .task .host .up (.control .sleep), .task .host .up (.control .wake)]

theorem timeout_exact_idleRun :
    (∃ s t, (Session.machine Bi.tcp).run idleRun Session.fresh = some s ∧
      (Session.machine Bi.tcp).step s (.task .host .up (.control .recheck)) = some t ∧
        (Session.sharedTimer .tcp .host).TimesOut .up s t ∧
          nowSecs (Session.fresh : Session UInt8).clock + connectionTimeoutSeconds ≤
            nowSecs s.clock) ∧
      ∃ s t u v, (Session.machine Bi.tcp).run chattyRun Session.fresh = some s ∧
        (Session.machine Bi.tcp).step s (.task .host .up (.control .load)) = some t ∧
          (Session.machine Bi.tcp).run quietRun t = some u ∧
            (Session.machine Bi.tcp).step u (.task .host .up (.control .recheck)) = some v ∧
              s.lastActive .host = 4 ∧ (Session.sharedTimer .tcp .host).TimesOut .up u v := by
  have exact_ := timeout_exact (.session .tcp .host) Session.fresh_starts .up
  refine ⟨?_, timesOut_of_chattyRun exact_⟩
  have ends : (((Session.machine Bi.tcp).run idleRun Session.fresh).bind fun s =>
      ((Session.machine Bi.tcp).step s (.task .host .up (.control .recheck))).map fun t =>
        ((s.task .host .up).pc, (t.task .host .up).pc)) =
          some (.recheck 20, .done .timedOut) := by
    decide +kernel
  rcases Option.bind_eq_some_iff.mp ends with ⟨s, ran, last⟩
  rcases Option.map_eq_some_iff.mp last with ⟨t, taken, places⟩
  rcases Prod.mk.inj places with ⟨before, after⟩
  have timesOut : (Session.sharedTimer .tcp .host).TimesOut .up s t := by
    refine ⟨fun timed => ?_, congrArg some after⟩
    cases before.symm.trans (Option.some.inj timed)
  refine ⟨s, t, ran, taken, timesOut, ?_⟩
  refine exact_.old idleRun s _ t ran taken timesOut _ (Or.inl ⟨⟨.up, ?_⟩, rfl⟩)
  exact Option.some_ne_none _

end Client
end Lantun
