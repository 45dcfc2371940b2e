import Lantun.EndToEnd.Counts
import Lantun.Net.Join

namespace Lantun
namespace EndToEnd

open Async Client Net Pair Pipe

/-!
# What holds of a tunnel from end to end

The exchange keeps its own invariant, and the counts hang together: the stream the
listener opened last is that of the application it accepted last, and the stream
the handler accepted last that of the next session of the host.  Beside these two
each line has an invariant by itself: both directions keep the invariant of a
direction, and where no session has begun no forwarder has moved.
-/

/-! ## One line -/

namespace Line

/-- No forwarder has moved at this end. -/
def Fresh (line : Line) (at_ : Side) : Prop :=
  (line.pipe at_).up.pc = .top ∧ (line.pipe at_.other).down.pc = .top

/-- The invariant of a line: `idle` tells at which ends a session may still begin,
`unplugged` whether the service is not connected to yet. -/
structure Inv (idle : Side → Prop) (unplugged : Prop) (line : Line) : Prop where
  pipes : ∀ side, (line.pipe side).Inv Sock.tcp
  fresh : ∀ at_, idle at_ → line.Fresh at_
  silent : unplugged → (line.pipe .host).log = []

section

variable {idle idle' : Side → Prop} {unplugged unplugged' : Prop} {line : Line}

theorem Inv.mono (inv : line.Inv idle unplugged) (ends : ∀ at_, idle' at_ → idle at_)
    (plug : unplugged' → unplugged) : line.Inv idle' unplugged' :=
  ⟨inv.pipes, fun at_ is => inv.fresh at_ (ends at_ is), fun is => inv.silent (plug is)⟩

theorem inv_dialed (addr : SocketAddr) : (dialed addr).Inv idle unplugged :=
  ⟨fun _ => Pipe.inv_start _ _ _, fun _ _ => ⟨rfl, rfl⟩, fun _ => rfl⟩

/-- A change of one direction that leaves its tasks where they are. -/
theorem Inv.setPipe (inv : line.Inv idle unplugged) {side : Side} {pipe : Pipe UInt8}
    (keeps : pipe.Inv Sock.tcp) (up : pipe.up = (line.pipe side).up)
    (down : pipe.down = (line.pipe side).down)
    (log : unplugged → side = .host → pipe.log = (line.pipe side).log) :
    (line.setPipe side pipe).Inv idle unplugged where
  pipes other := by
    by_cases same : other = side
    · subst same
      simpa [Line.setPipe] using keeps
    · simpa [Line.setPipe, Function.update_of_ne same] using inv.pipes other
  fresh at_ is := by
    rcases inv.fresh at_ is with ⟨upper, lower⟩
    constructor
    · by_cases same : at_ = side
      · subst same
        simpa [Line.setPipe, up] using upper
      · simpa [Line.setPipe, Function.update_of_ne same] using upper
    · by_cases same : at_.other = side
      · subst same
        simpa [Line.setPipe, down] using lower
      · simpa [Line.setPipe, Function.update_of_ne same] using lower
  silent is := by
    by_cases same : side = .host
    · subst same
      simpa [Line.setPipe, log is rfl] using inv.silent is
    · simpa [Line.setPipe, Function.update_of_ne (Ne.symm same)] using inv.silent is

/-- A task moves at an end where a session has begun. -/
theorem Inv.setTask (inv : line.Inv idle unplugged) {side : Side} {role : Role} {pipe : Pipe UInt8}
    {last : Nat} (begun : ¬ idle (role.endOf side)) (keeps : pipe.Inv Sock.tcp)
    (frame : match role with
      | .up => pipe.down = (line.pipe side).down
      | .down => pipe.up = (line.pipe side).up)
    (log : pipe.log = (line.pipe side).log) :
    ((line.setPipe side pipe).setActive (role.endOf side) last).Inv idle unplugged where
  pipes other := by
    by_cases same : other = side
    · subst same
      simpa [setActive, Line.setPipe] using keeps
    · simpa [setActive, Line.setPipe, Function.update_of_ne same] using inv.pipes other
  fresh at_ is := by
    rcases inv.fresh at_ is with ⟨upper, lower⟩
    have elsewhere : at_ ≠ role.endOf side := fun same => begun (same ▸ is)
    cases role with
    | up =>
        have away : at_ ≠ side := elsewhere
        refine ⟨by simpa [setActive, Line.setPipe, Function.update_of_ne away] using upper, ?_⟩
        by_cases same : at_.other = side
        · subst same
          simpa [setActive, Line.setPipe, frame] using lower
        · simpa [setActive, Line.setPipe, Function.update_of_ne same] using lower
    | down =>
        have away : at_.other ≠ side := by
          intro same
          apply elsewhere
          rw [← same]
          cases at_ <;> rfl
        refine ⟨?_, by simpa [setActive, Line.setPipe, Function.update_of_ne away] using lower⟩
        by_cases same : at_ = side
        · subst same
          simpa [setActive, Line.setPipe, frame] using upper
        · simpa [setActive, Line.setPipe, Function.update_of_ne same] using upper
  silent is := by
    by_cases same : side = .host
    · subst same
      simpa [setActive, Line.setPipe, log] using inv.silent is
    · simpa [setActive, Line.setPipe, Function.update_of_ne (Ne.symm same)] using inv.silent is

theorem ne_other (side : Side) : side.other ≠ side := by cases side <;> decide

/-- New tasks that owe nothing, at an end where none has moved. -/
theorem Inv.setEnd (inv : line.Inv idle unplugged) {at_ : Side} (is : line.Fresh at_)
    (lost : Bool) {task : Task} (owes : task.pc.pending = []) (noRecv : ∀ n, task.pc ≠ .recv n)
    (notClosed : task.pc ≠ .done .closed) (side : Side) :
    ((line.setEnd at_ lost task).pipe side).Inv Sock.tcp := by
  have keeps := inv.pipes side
  by_cases same : side = at_
  · subst same
    have running : (line.pipe side).up.pc.isDone = false := by rw [is.1]; rfl
    have open_ := keeps.up.open_of_running running
    have balance := keeps.up.whole (by rw [is.1]; exact Pc.noConfusion)
    rw [is.1] at balance
    simp only [Line.setEnd, if_true]
    refine ⟨UpInv.setUp_whole open_ (by rw [owes]; exact balance) (fun n here => absurd here (noRecv n)),
      keeps.down.of_stream open_ rfl rfl (by simp)⟩
  · have here : side = at_.other := by cases side <;> cases at_ <;> first | rfl | exact absurd rfl same
    have lower : (line.pipe side).down.pc = .top := here ▸ is.2
    have balance := keeps.down.whole (by rw [lower]; exact Pc.noConfusion)
    rw [lower] at balance
    simp only [Line.setEnd, same, if_false]
    refine ⟨keeps.up.of_frame rfl rfl rfl (by simp) (by simp),
      DownInv.setDown_whole (by rw [owes]; exact balance) (fun closed => absurd closed notClosed)⟩

/-- The tasks at the other end stay where they are. -/
theorem Fresh.setEnd {at_ other : Side} (fresh : line.Fresh other) (away : other ≠ at_) (lost : Bool)
    (task : Task) : (line.setEnd at_ lost task).Fresh other := by
  have back : other.other = at_ := by cases other <;> cases at_ <;> first | rfl | exact absurd rfl away
  refine ⟨?_, ?_⟩
  · simp only [Line.setEnd, away, if_false, setDown_up]
    exact fresh.1
  · simp only [Line.setEnd, back, if_true, setUp_down]
    exact back ▸ fresh.2

theorem log_setEnd (line : Line) (at_ : Side) (lost : Bool) (task : Task) (side : Side) :
    ((line.setEnd at_ lost task).pipe side).log = (line.pipe side).log := by
  unfold Line.setEnd
  dsimp only
  split <;> rfl

/-- A session begins at an end where none has begun. -/
theorem Inv.begins (inv : line.Inv idle unplugged) {at_ : Side} (is : idle at_) (lost : Bool)
    (seen clock : Nat) : (line.begins at_ lost seen clock).Inv idle unplugged where
  pipes side := inv.setEnd (inv.fresh at_ is) lost rfl (fun _ => Pc.noConfusion) Pc.noConfusion side
  fresh other still := by
    by_cases same : other = at_
    · subst same
      refine ⟨?_, ?_⟩
      · simp [Line.begins, setActive, Line.setEnd]
      · simp [Line.begins, setActive, Line.setEnd, ne_other]
    · exact (inv.fresh other still).setEnd same lost _
  silent is := (log_setEnd line at_ lost _ .host).trans (inv.silent is)

/-- The halves of one end are dropped before a session could begin there. -/
theorem Inv.drops (inv : line.Inv idle unplugged) {at_ : Side} (is : line.Fresh at_) (lost : Bool) :
    (line.drops at_ lost).Inv (fun other => idle other ∧ other ≠ at_) unplugged where
  pipes side := inv.setEnd is lost rfl (fun _ => Pc.noConfusion) (by simp) side
  fresh other still := (inv.fresh other still.1).setEnd still.2 lost _
  silent is := (log_setEnd line at_ lost _ .host).trans (inv.silent is)

end

end Line

/-! ## All lines -/

/-- The invariant of a list of lines, each with what may still begin on it. -/
def LinesInv (lines : List Line) (idle : Nat → Side → Prop) (unplugged : Nat → Prop) : Prop :=
  ∀ index (line : Line), lines[index]? = some line → line.Inv (idle index) (unplugged index)

section

variable {lines : List Line} {idle idle' : Nat → Side → Prop} {unplugged unplugged' : Nat → Prop}

theorem LinesInv.mono (inv : LinesInv lines idle unplugged)
    (ends : ∀ index at_, idle' index at_ → idle index at_)
    (plug : ∀ index, unplugged' index → unplugged index) : LinesInv lines idle' unplugged' :=
  fun index line here => (inv index line here).mono (ends index) (plug index)

theorem LinesInv.dialed (inv : LinesInv lines idle unplugged) (addr : SocketAddr) :
    LinesInv (lines ++ [Line.dialed addr]) idle unplugged := by
  intro index line here
  rw [List.getElem?_append] at here
  split at here
  · exact inv index line here
  · rcases List.mem_singleton.mp (List.mem_of_getElem? here)
    exact Line.inv_dialed addr

/-- One line changes, and what may begin on the others does not widen. -/
theorem LinesInv.modify (inv : LinesInv lines idle unplugged) (at_ : Nat) {change : Line → Line}
    (ends : ∀ index, index ≠ at_ → ∀ side, idle' index side → idle index side)
    (plug : ∀ index, index ≠ at_ → unplugged' index → unplugged index)
    (keeps : ∀ line, lines[at_]? = some line → line.Inv (idle at_) (unplugged at_) →
      (change line).Inv (idle' at_) (unplugged' at_)) :
    LinesInv (lines.modify at_ change) idle' unplugged' := by
  intro index line here
  rw [List.getElem?_modify] at here
  rcases Option.map_eq_some_iff.mp here with ⟨old, found, same⟩
  subst same
  by_cases is : at_ = index
  · subst is
    rw [if_pos rfl]
    exact keeps old found (inv at_ old found)
  · rw [if_neg is]
    exact (inv index old found).mono (ends index (Ne.symm is)) (plug index (Ne.symm is))

end

/-- The end has not returned, so that it may begin another session. -/
def lives (exchange : Exchange) : Side → Prop
  | .client => exchange.client.listener.isEnded = false
  | .host => exchange.handler ≠ .returned

namespace Tunnel

/-- A session may still begin on this line at this end. -/
def idle (tunnel : Tunnel) (index : Nat) (at_ : Side) : Prop :=
  lives tunnel.exchange at_ ∧ tunnel.begun at_ ≤ index

/-- The invariant of a tunnel. -/
structure Inv (bincode : Bincode) (tunnel : Tunnel) : Prop where
  exchange : tunnel.exchange.Inv bincode
  counts : Counts tunnel
  lines : LinesInv tunnel.lines tunnel.idle (tunnel.begun .host ≤ ·)

theorem inv_started (bincode : Bincode) : started.Inv bincode where
  exchange := Exchange.inv_started bincode
  counts :=
    { client :=
        { opened := List.nil_prefix
          settled := fun _ => ⟨rfl, rfl⟩
          opening := fun _ at_ => by cases at_
          sending := fun _ at_ => by cases at_ }
      host :=
        { idle := fun _ => rfl
          collecting := fun at_ => by cases at_
          serving := fun _ at_ => by cases at_ } }
  lines := fun _ _ found => by cases found

/-! ## One step -/

/-- An end that lives after a step has lived before it. -/
theorem lives_of_turn {before after : Exchange} {event : ExchangeEvent}
    (turn : Turn before after event) (at_ : Side) (still : lives after at_) : lives before at_ := by
  cases turn with
  | accepts is _ _ same | opens is _ _ same | begins is _ _ same =>
      cases at_ with
      | client => simp [lives, is, Listener.isEnded]
      | host => simpa [lives, same.1] using still
  | gives is _ _ same =>
      cases at_ with
      | client => simp [lives, is, Listener.isEnded]
      | host => simpa [lives, same.1] using still
  | listens _ _ _ moves _ same =>
      cases at_ with
      | client =>
          rcases moves with stays | ⟨alive, _⟩
          · simpa [lives, stays] using still
          · exact alive
      | host => simpa [lives, same.1] using still
  | hostAccepts is _ _ same | hostFinishes is _ _ same =>
      cases at_ with
      | client => simpa [lives, same.1] using still
      | host => simp [lives, is]
  | hostReads is _ _ same | hostRegisters is _ _ _ _ same =>
      cases at_ with
      | client => simpa [lives, same.1] using still
      | host =>
          intro returned
          simp [returned, collecting] at is
  | hostReturns _ alive _ _ same =>
      cases at_ with
      | client => simpa [lives, same.1] using still
      | host => exact alive
  | aside _ _ host client =>
      cases at_ with
      | client => simpa [lives, client.1] using still
      | host => simpa [lives, host.1] using still

/-- Most steps of the exchange leave the lines alone. -/
theorem after_quiet (tunnel : Tunnel) {event : ExchangeEvent} {exchange : Exchange}
    (noIncoming : ∀ addr, event ≠ .listener (.incoming addr)) (noSent : event ≠ .listener .sent)
    (noFail : event ≠ .listener .sendFails)
    (noReturn : (∃ act, event = .host act) →
      exchange.handler = .returned → tunnel.exchange.handler = .acceptBi) :
    tunnel.after event exchange = { tunnel with exchange } := by
  unfold after
  split
  · exact absurd rfl (noIncoming _)
  · exact absurd rfl noSent
  · exact absurd rfl noFail
  · rw [if_neg]
    rintro ⟨returned, other⟩
    exact other (noReturn ⟨_, rfl⟩ returned)
  · rfl

/-- A session begins at the line whose turn it is. -/
theorem lines_spawn {tunnel : Tunnel} (inv : LinesInv tunnel.lines tunnel.idle (tunnel.begun .host ≤ ·))
    {exchange : Exchange} (live : ∀ side, lives exchange side → lives tunnel.exchange side)
    {at_ : Side} (alive : lives tunnel.exchange at_) {index : Nat} (turn : index = tunnel.begun at_)
    (seen : Nat) :
    LinesInv ({ tunnel with exchange }.spawn at_ index seen).lines
      ({ tunnel with exchange }.spawn at_ index seen).idle
      (({ tunnel with exchange }.spawn at_ index seen).begun .host ≤ ·) := by
  have grows : ∀ side, tunnel.begun side ≤ ({ tunnel with exchange }.spawn at_ index seen).begun side := by
    intro side
    change _ ≤ Function.update tunnel.begun at_ (tunnel.begun at_ + 1) side
    by_cases same : side = at_
    · subst same
      simp
    · simp [Function.update_of_ne same]
  have narrows : ∀ place side, ({ tunnel with exchange }.spawn at_ index seen).idle place side →
      tunnel.idle place side :=
    fun place side still => ⟨live side still.1, Nat.le_trans (grows side) still.2⟩
  refine inv.modify index (fun place _ => narrows place)
    (fun place _ => Nat.le_trans (grows .host)) ?_
  intro line _ holds
  exact (holds.begins ⟨alive, Nat.le_of_eq turn.symm⟩ _ _ _).mono (narrows index)
    (Nat.le_trans (grows .host))

/-- The halves of one end of the line whose turn it is are dropped, and the end is
finished with. -/
theorem lines_drops {tunnel : Tunnel} (inv : LinesInv tunnel.lines tunnel.idle (tunnel.begun .host ≤ ·))
    {exchange : Exchange} (live : ∀ side, lives exchange side → lives tunnel.exchange side)
    {at_ : Side} (alive : lives tunnel.exchange at_) (finished : ¬ lives exchange at_) {index : Nat}
    (turn : tunnel.begun at_ ≤ index) (lost : Bool) :
    LinesInv (tunnel.lines.modify index fun line => line.drops at_ lost)
      { tunnel with exchange }.idle (tunnel.begun .host ≤ ·) := by
  refine inv.modify index (fun _ _ side still => ⟨live side still.1, still.2⟩) (fun _ _ is => is) ?_
  intro line _ holds
  refine (holds.drops (holds.fresh at_ ⟨alive, turn⟩) lost).mono ?_ (fun is => is)
  intro side still
  refine ⟨⟨live side still.1, still.2⟩, ?_⟩
  rintro rfl
  exact finished still.1

theorem after_returned {tunnel : Tunnel} {act : HandlerAct} {exchange : Exchange}
    (goes : exchange.handler = .returned) (accepted : tunnel.exchange.handler ≠ .acceptBi) :
    tunnel.after (.host act) exchange =
      { tunnel with exchange }.onLine (tunnel.exchange.accepted - 1) fun line =>
        line.drops .host (tunnel.lost .host) :=
  if_pos ⟨goes, accepted⟩

/-- The exchange moves on. -/
theorem Inv.exchangeStep {bincode : Bincode} {tunnel : Tunnel} (inv : tunnel.Inv bincode)
    {event : ExchangeEvent} {exchange : Exchange} (permitted : tunnel.permits event = true)
    (inverts : ∀ addr, event = .listener (.incoming addr) → bincode.Inverts addr)
    (taken : tunnel.exchange.step bincode .tcp event = some exchange) :
    (tunnel.after event exchange).Inv bincode := by
  have keeps := inv.exchange.step inverts taken
  have turn := turn_of_step taken
  have live := lives_of_turn turn
  refine ⟨?_, inv.counts.after permitted turn keeps.agrees, ?_⟩
  · rw [after_exchange]
    exact keeps
  have quiet : tunnel.after event exchange = { tunnel with exchange } →
      LinesInv (tunnel.after event exchange).lines (tunnel.after event exchange).idle
        ((tunnel.after event exchange).begun .host ≤ ·) := by
    intro same
    rw [same]
    exact inv.lines.mono (fun _ side still => ⟨live side still.1, still.2⟩) (fun _ is => is)
  cases turn with
  | accepts => exact inv.lines.mono (fun _ side still => ⟨live side still.1, still.2⟩) (fun _ is => is)
  | opens => exact quiet (after_quiet _ (by simp) (by simp) (by simp) (by simp))
  | @begins addr is _ _ _ =>
      rcases inv.counts.client.sending addr is with ⟨_, begun⟩
      have here : tunnel.exchange.opened.length - 1 = tunnel.begun .client := by omega
      refine lines_spawn inv.lines live ?_ here _
      simp [lives, is, Listener.isEnded]
  | @gives addr is ended _ _ =>
      rcases inv.counts.client.sending addr is with ⟨_, begun⟩
      have alive : lives tunnel.exchange .client := by simp [lives, is, Listener.isEnded]
      have finished : ¬ lives exchange .client := by simp [lives, ended]
      exact lines_drops inv.lines live alive finished (by omega) _
  | listens noIncoming noSent noFail _ _ _ =>
      exact quiet (after_quiet _ (by simpa using noIncoming) (by simpa using noSent)
        (by simpa using noFail) (by simp))
  | hostAccepts _ goes _ _ | hostRegisters _ goes _ _ _ _ | hostFinishes _ goes _ _ =>
      exact quiet (after_quiet _ (by simp) (by simp) (by simp) (by simp [goes]))
  | hostReads _ goes _ _ =>
      refine quiet (after_quiet _ (by simp) (by simp) (by simp) ?_)
      intro _ returned
      simp [returned, collecting] at goes
  | hostReturns act alive goes _ _ =>
      by_cases waits : tunnel.exchange.handler = .acceptBi
      · exact quiet (after_quiet _ (by simp) (by simp) (by simp) (fun _ _ => waits))
      · -- a stream has been accepted, and no session has begun on it
        have behind : tunnel.begun .host + 1 = tunnel.exchange.accepted := by
          have collected := inv.counts.host.collecting
          rcases act with ⟨_, from_⟩ | rfl
          · exact collected from_
          · cases at_ : tunnel.exchange.handler with
            | acceptBi => exact absurd at_ waits
            | acceptUni | reading _ => exact collected (by rw [at_]; rfl)
            | serving addr =>
                simp only [permits, at_, decide_eq_true_eq] at permitted
                rcases (inv.counts.host.serving addr at_).1 with level | behind
                · omega
                · exact behind
            | returned => exact absurd at_ alive
        rw [after_returned goes waits]
        have living : lives tunnel.exchange .host := alive
        exact lines_drops inv.lines live living (fun still => still goes) (by omega) _
  | aside noListener noHost _ _ =>
      refine quiet (after_quiet _ (fun _ => noListener _) (noListener _) (noListener _) ?_)
      rintro ⟨act, same⟩
      exact absurd same (noHost act)

/-- One line changes, and what it may still begin does not. -/
theorem Inv.onLine {bincode : Bincode} {tunnel : Tunnel} (inv : tunnel.Inv bincode) (index : Nat)
    {change : Line → Line} (addr : ∀ line, (change line).addr = line.addr)
    (keeps : ∀ line, tunnel.lines[index]? = some line →
      line.Inv (tunnel.idle index) (tunnel.begun .host ≤ index) →
        (change line).Inv (tunnel.idle index) (tunnel.begun .host ≤ index)) :
    (tunnel.onLine index change).Inv bincode where
  exchange := inv.exchange
  counts := by
    refine ⟨?_, inv.counts.host⟩
    rw [addrs_onLine tunnel index addr]
    exact inv.counts.client
  lines := inv.lines.modify index (fun _ _ _ still => still) (fun _ _ is => is) keeps

theorem Inv.socketStep {bincode : Bincode} {tunnel next : Tunnel} (inv : tunnel.Inv bincode)
    {index : Nat} {side : Side} {act : SocketAct}
    (taken : tunnel.socketStep index side act = some next) : next.Inv bincode := by
  unfold Tunnel.socketStep at taken
  split at taken
  · rename_i there
    have plugged : tunnel.begun .host ≤ index → side ≠ .host := by
      rintro unplugged rfl
      rcases there with is | is
      · cases is
      · omega
    rcases Option.bind_eq_some_iff.mp taken with ⟨line, _, rest⟩
    cases act with
    | sends byte =>
        simp only at rest
        split at rest <;> cases rest
        refine inv.onLine index (fun _ => rfl) (fun line _ holds => ?_)
        exact holds.setPipe ((holds.pipes side).send byte) rfl rfl
          (fun unplugged is => absurd is (plugged unplugged))
    | closes =>
        cases rest
        refine inv.onLine index (fun _ => rfl) (fun line _ holds => ?_)
        exact holds.setPipe (holds.pipes side).close rfl rfl (fun _ _ => rfl)
    | fails =>
        cases rest
        refine inv.onLine index (fun _ => rfl) (fun line _ holds => ?_)
        exact holds.setPipe (holds.pipes side).sockError rfl rfl (fun _ _ => rfl)
  · cases taken

/-- The handler is connected to the service. -/
theorem Inv.connectStep {bincode : Bincode} {tunnelAddr : SocketAddr} {tunnel next : Tunnel}
    (inv : tunnel.Inv bincode) (taken : tunnel.connectStep tunnelAddr = some next) :
    next.Inv bincode := by
  unfold Tunnel.connectStep at taken
  split at taken
  · rename_i addr at_
    split at taken
    · rename_i ready
      cases taken
      rcases inv.counts.host.serving addr at_ with ⟨level | behind, opened⟩
      · omega
      have alive : lives tunnel.exchange .host := by simp [lives, at_]
      refine ⟨inv.exchange, ⟨?_, ?_⟩, ?_⟩
      · rw [addrs_spawn]
        exact inv.counts.client
      · refine ⟨fun is => ?_, fun is => ?_, fun other is => ?_⟩
        · cases at_.symm.trans is
        · rw [show (tunnel.spawn .host _ 0).exchange.handler = _ from at_] at is
          cases is
        · cases at_.symm.trans is
          exact ⟨Or.inl behind, opened⟩
      · exact lines_spawn inv.lines (fun _ still => still) alive (by omega) 0
    · cases taken
  · cases taken

/-- What a step of a forwarder does to its line. -/
inductive TaskMoves (tunnel : Tunnel) (index : Nat) (side : Side) (act : Act) (line : Line)
    (pipe : Pipe UInt8) (last : Nat) : Role → Prop where
  | up : (line.pipe side).upStep Sock.tcp .tcpRead (tunnel.env line side) act = some (pipe, last) →
      TaskMoves tunnel index side act line pipe last .up
  | down : (line.pipe side).downStep Sock.tcp (tunnel.env line side.other) act = some (pipe, last) →
      TaskMoves tunnel index side act line pipe last .down

theorem taskMoves_of_step {tunnel next : Tunnel} {index : Nat} {side : Side} {role : Role} {act : Act}
    (taken : tunnel.taskStep index side role act = some next) :
    index < tunnel.begun (role.endOf side) ∧ ∃ line pipe last,
      tunnel.lines[index]? = some line ∧ TaskMoves tunnel index side act line pipe last role ∧
        next = tunnel.onLine index fun line =>
          (line.setPipe side pipe).setActive (role.endOf side) last := by
  unfold Tunnel.taskStep at taken
  split at taken
  · rename_i begun
    rcases Option.bind_eq_some_iff.mp taken with ⟨line, found, rest⟩
    rcases Option.map_eq_some_iff.mp rest with ⟨⟨pipe, last⟩, moved, same⟩
    refine ⟨begun, line, pipe, last, found, ?_, same.symm⟩
    cases role with
    | up =>
        apply TaskMoves.up
        cases side <;> exact moved
    | down =>
        apply TaskMoves.down
        cases side <;> exact moved
  · cases taken

theorem Inv.taskStep {bincode : Bincode} {tunnel next : Tunnel} (inv : tunnel.Inv bincode)
    {index : Nat} {side : Side} {role : Role} {act : Act}
    (taken : tunnel.taskStep index side role act = some next) : next.Inv bincode := by
  rcases taskMoves_of_step taken with ⟨begun, line, pipe, last, found, moved, rfl⟩
  have busy : ¬ tunnel.idle index (role.endOf side) := fun still => absurd still.2 (by omega)
  refine inv.onLine index (fun _ => rfl) (fun other there holds => ?_)
  cases found.symm.trans there
  cases moved with
  | up moved =>
      rcases upStep_frame moved with ⟨log, _, down⟩
      exact holds.setTask busy ((holds.pipes side).upStep moved) down log
  | down moved =>
      exact holds.setTask busy ((holds.pipes side).downStep moved) (downStep_up moved)
        (downStep_cases moved).1

/-- One step keeps the invariant.  The codec has to invert the address of the
application that is accepted. -/
theorem Inv.step {bincode : Bincode} {tunnelAddr : SocketAddr} {tunnel next : Tunnel} {label : Label}
    (inv : tunnel.Inv bincode)
    (inverts : ∀ addr, label = .exchange (.listener (.incoming addr)) → bincode.Inverts addr)
    (taken : (machine bincode tunnelAddr).step tunnel label = some next) : next.Inv bincode := by
  cases label with
  | dial addr =>
      simp only [machine, Tunnel.step] at taken
      split at taken <;> cases taken
      refine ⟨inv.exchange, ⟨?_, inv.counts.host⟩, inv.lines.dialed addr⟩
      have longer := inv.counts.client.dial addr
      simpa [addrs, Line.dialed] using longer
  | socket index side act => exact inv.socketStep taken
  | exchange event =>
      simp only [machine, Tunnel.step] at taken
      split at taken
      · rename_i permitted
        rcases Option.map_eq_some_iff.mp taken with ⟨exchange, moved, same⟩
        subst same
        exact inv.exchangeStep permitted (fun addr same => inverts addr (congrArg _ same)) moved
      · cases taken
  | connect => exact inv.connectStep taken
  | task index side role act => exact inv.taskStep taken
  | deliver index side count =>
      simp only [machine, Tunnel.step] at taken
      split at taken <;> cases taken
      refine inv.onLine index (fun _ => rfl) (fun line _ holds => ?_)
      exact holds.setPipe ((holds.pipes side).deliver count) rfl rfl (fun _ _ => rfl)
  | deliverEnd index side =>
      simp only [machine, Tunnel.step] at taken
      split at taken <;> cases taken
      refine inv.onLine index (fun _ => rfl) (fun line _ holds => ?_)
      exact holds.setPipe (holds.pipes side).deliverEnd rfl rfl (fun _ _ => rfl)
  | tick _ | dropHostStop =>
      cases taken
      exact ⟨inv.exchange, ⟨inv.counts.client, inv.counts.host⟩, inv.lines⟩
  | stopHost =>
      simp only [machine, Tunnel.step] at taken
      split at taken <;> cases taken
      exact ⟨inv.exchange, ⟨inv.counts.client, inv.counts.host⟩, inv.lines⟩

end Tunnel

end EndToEnd
end Lantun
