import Lantun.Machine.Run
import Lantun.Client.SharedSocket
import Lantun.Data.Places

namespace Lantun
namespace Client

open Async Net

/-!
# A datagram is received by its owner

Any number of readers share the socket with the listener, which only peeks.
Between the peek of a reader and its `recv` every other task may move and any
number of datagrams may arrive.  What makes the `recv` safe nevertheless is
`Reader.Holds`: the datagram a reader has found in front of the queue is still
there, because arrivals join at the tail and the only reader that would remove it
is the one it is addressed to.  That there is one such reader is where the
distinct addresses come in.

From this it follows what each reader receives: a contiguous part of what
arrives from its source, each datagram cut to the buffer.
-/

/-- The socket with all the readers that have been started on it, and the rest
of the process as far as it concerns them. -/
structure Sharing where
  process : Process
  socket : SharedSocket
  readers : List Reader
  deriving DecidableEq

inductive SharingEvent where
  | arrive (datagram : Datagram)
  | sockError
  | tick (nanos : Nat)
  | stop
  | dropStop
  | lose
  /-- A session starts for this application. -/
  | start (addr : SocketAddr) (seen : Nat)
  /-- The listener peeks. -/
  | look
  /-- The other forwarder of a session stores `last_active`. -/
  | active (id : Nat)
  /-- The host stops reading the stream of a session. -/
  | stopReading (id : Nat)
  | reader (id : Nat) (act : Act)
  deriving DecidableEq, Repr

namespace Sharing

/-- Nobody is at work for this application. -/
def vacant (sharing : Sharing) (addr : SocketAddr) : Bool :=
  sharing.readers.all fun reader => reader.task.pc.isDone || decide (reader.clientLocalAddr ≠ addr)

def setReader (sharing : Sharing) (id : Nat) (reader : Reader) : Sharing :=
  { sharing with readers := sharing.readers.set id reader }

def setProcess (sharing : Sharing) (process : Process) : Sharing := { sharing with process }

def setSocket (sharing : Sharing) (socket : SharedSocket) : Sharing := { sharing with socket }

/-- One event.  A session starts only for an application that has none. -/
def step (sharing : Sharing) : SharingEvent → Option Sharing
  | .arrive datagram => some (sharing.setSocket (sharing.socket.arrive datagram))
  | .sockError => some (sharing.setSocket { sharing.socket with error := true })
  | .tick nanos =>
      some (sharing.setProcess { sharing.process with clock := sharing.process.clock + nanos })
  | .stop => some (sharing.setProcess { sharing.process with stop := sharing.process.stop.send true })
  | .dropStop => some (sharing.setProcess { sharing.process with stop := sharing.process.stop.dropSender })
  | .lose => some (sharing.setProcess { sharing.process with lost := true })
  | .start addr seen =>
      if sharing.vacant addr then
        some { sharing with
          readers := sharing.readers ++ [Reader.spawned sharing.process addr seen] }
      else none
  | .look =>
      -- the datagram stays where it is; a pending error is reported instead
      if sharing.socket.ready then some (sharing.setSocket sharing.socket.clearError) else none
  | .active id =>
      (sharing.readers[id]?).map fun reader =>
        sharing.setReader id { reader with lastActive := nowSecs sharing.process.clock }
  | .stopReading id =>
      (sharing.readers[id]?).map fun reader => sharing.setReader id { reader with stopped := true }
  | .reader id act =>
      (sharing.readers[id]?).bind fun reader =>
        (reader.step sharing.process id sharing.socket act).map fun (socket, next) =>
          (sharing.setSocket socket).setReader id next

/-- The socket is bound; no session has been started. -/
def Starts (sharing : Sharing) : Prop := sharing.readers = [] ∧ sharing.socket.received = []

def machine : Machine Sharing SharingEvent where
  initial := Starts
  step := step

end Sharing

/-! ## What one reader is promised -/

namespace Reader

/-- A reader between its peek and its `recv` has the front of the queue. -/
def Holds (socket : SharedSocket) (reader : Reader) : Prop :=
  ∀ n, reader.task.pc = .recv n → ∃ datagram rest, socket.queue = datagram :: rest ∧
    datagram.source = reader.clientLocalAddr ∧ reader.peeked = socket.received.length ∧
      reader.buf = datagram.clipped ∧ n = datagram.clipped.length

/-- What a reader has received has gone into its stream, cut to the buffer and in
order; what is missing is in hand, or was when a write failed. -/
def Carries (socket : SharedSocket) (id : Nat) (reader : Reader) : Prop :=
  reader.written <+: (socket.share id).flatMap Datagram.clipped ∧
    (reader.task.pc ≠ .done .panicked →
      reader.written ++ reader.task.pc.pending = (socket.share id).flatMap Datagram.clipped)

/-- What a reader has received is a contiguous part of what has been received of
its source, and the last part as long as it runs. -/
def Collects (socket : SharedSocket) (id : Nat) (reader : Reader) : Prop :=
  socket.share id <:+: socket.receivedFrom reader.clientLocalAddr ∧
    (reader.task.pc.isDone = false →
      socket.share id <:+ socket.receivedFrom reader.clientLocalAddr)

/-- A held datagram is not disturbed by what happens behind it. -/
theorem Holds.of_queue {reader : Reader} {socket after : SharedSocket}
    (holds : reader.Holds socket) (received : after.received = socket.received)
    {more : List Datagram} (queue : after.queue = socket.queue ++ more) :
    reader.Holds after := by
  intro n at_
  rcases holds n at_ with ⟨datagram, rest, front, mine, peeked, buf, length⟩
  refine ⟨datagram, rest ++ more, ?_, mine, ?_, buf, length⟩
  · rw [queue, front]
    rfl
  · rw [received]
    exact peeked

theorem Carries.of_received {reader : Reader} {id : Nat} {socket after : SharedSocket}
    (carries : reader.Carries socket id) (received : after.received = socket.received) :
    reader.Carries after id := by
  unfold Carries SharedSocket.share at *
  rw [received]
  exact carries

theorem Collects.of_received {reader : Reader} {id : Nat} {socket after : SharedSocket}
    (collects : reader.Collects socket id) (received : after.received = socket.received) :
    reader.Collects after id := by
  unfold Collects SharedSocket.share SharedSocket.receivedFrom at *
  rw [received]
  exact collects

/-! ### Its own step -/

variable {process : Process} {id : Nat} {socket after : SharedSocket} {reader next : Reader}
  {act : Act}

/-- A `recv` takes what was peeked, so its chunk is that datagram, cut to the
buffer. -/
theorem chunk_of_holds {n : Nat} {datagram : Datagram} (buf : reader.buf = datagram.clipped)
    (length : n = datagram.clipped.length) : reader.chunk n datagram = datagram.clipped := by
  unfold chunk
  rw [buf, length, Datagram.clipped, List.length_take, List.drop_take]
  by_cases fits : datagram.payload.length ≤ tunnelForwarderBufferSize
  · rw [Nat.min_eq_right fits, List.take_length, List.drop_length, List.take_of_length_le fits,
      List.take_nil, List.append_nil]
  · rw [Nat.min_eq_left (by omega), Nat.sub_eq_zero_of_le (by omega), List.take_zero,
      List.append_nil]

/-- What a `recv` leaves in hand is the datagram it has removed. -/
theorem pending_afterRecv (process : Process) {n : Nat} {datagram : Datagram}
    (buf : reader.buf = datagram.clipped) (length : n = datagram.clipped.length) :
    (reader.afterRecv process n datagram).task.pc.pending = datagram.clipped ∧
      (reader.afterRecv process n datagram).task.pc ≠ .done .panicked ∧
        ∀ m, (reader.afterRecv process n datagram).task.pc ≠ .recv m := by
  unfold afterRecv
  split
  · rename_i empty
    rw [empty] at length
    refine ⟨?_, by simp [goto], by simp [goto]⟩
    rw [List.length_eq_zero_iff.mp length.symm]
    rfl
  · refine ⟨?_, by simp [goto], by simp [goto]⟩
    exact chunk_of_holds buf length

theorem Moves.holds (moves : Moves process id socket reader act after next) : next.Holds after := by
  cases moves with
  | idle _ _ _ _ _ _ noRecv =>
      intro n at_
      exact absurd at_ (noRecv n)
  | peek front mine =>
      intro n at_
      cases at_
      exact ⟨_, _, front, mine, rfl, rfl, rfl⟩
  | recv at_ front =>
      intro n there
      unfold afterRecv at there
      split at there <;> cases there
  | write at_ =>
      intro n there
      simp only [goto, Pc.afterWrite] at there
      split at there <;> cases there
  | panic at_ =>
      intro n there
      cases there

theorem Moves.carries (moves : Moves process id socket reader act after next)
    (holds : reader.Holds socket) (carries : reader.Carries socket id) :
    next.Carries after id := by
  cases moves with
  | idle _ _ received running owes noWrite =>
      refine Carries.of_received ⟨carries.1, fun unpanicked => ?_⟩ received
      rw [Pc.pending_of_ne_write noWrite, ← owes]
      refine carries.2 ?_
      intro panicked
      rw [panicked] at running
      cases running
  | peek front mine running owes =>
      refine ⟨carries.1, fun _ => ?_⟩
      have whole := carries.2 (by intro panicked; rw [panicked] at running; cases running)
      rw [owes] at whole
      exact whole
  | recv at_ front =>
      rename_i n datagram rest
      rcases holds n at_ with ⟨first, others, front', _, _, buf, length⟩
      cases front.symm.trans front'
      have whole := carries.2 (by rw [at_]; simp)
      rw [at_] at whole
      change reader.written ++ [] = _ at whole
      rw [List.append_nil] at whole
      rcases pending_afterRecv process buf length with ⟨owes, _, _⟩
      unfold Carries
      rw [written_afterRecv, SharedSocket.share_receive, if_pos rfl, List.flatMap_append,
        List.flatMap_singleton, owes, whole]
      exact ⟨List.prefix_append _ _, fun _ => rfl⟩
  | write at_ =>
      rename_i count bytes
      have whole := carries.2 (by rw [at_]; simp)
      rw [at_, Pc.pending] at whole
      refine ⟨⟨bytes.drop count, ?_⟩, fun _ => ?_⟩
      · simpa using whole
      · simpa [goto, Pc.pending_afterWrite] using whole
  | panic at_ => exact ⟨carries.1, fun unpanicked => absurd rfl unpanicked⟩

theorem Moves.collects (moves : Moves process id socket reader act after next)
    (holds : reader.Holds socket) (collects : reader.Collects socket id) :
    next.Collects after id := by
  have last := collects.2 moves.running
  cases moves with
  | idle _ _ received => exact Collects.of_received ⟨collects.1, fun _ => last⟩ received
  | peek front mine => exact ⟨collects.1, fun _ => last⟩
  | recv at_ front =>
      rename_i n datagram rest
      rcases holds n at_ with ⟨first, others, front', mine, _, _, _⟩
      cases front.symm.trans front'
      have extended : (socket.receive id datagram rest).share id <:+
          (socket.receive id datagram rest).receivedFrom reader.clientLocalAddr := by
        rw [SharedSocket.share_receive, SharedSocket.receivedFrom_receive, if_pos rfl, if_pos mine]
        rcases last with ⟨earlier, is⟩
        exact ⟨earlier, by rw [← List.append_assoc, is]⟩
      unfold Collects
      rw [clientLocalAddr_afterRecv]
      exact ⟨extended.isInfix, fun _ => extended⟩
  | write at_ => exact ⟨collects.1, fun _ => last⟩
  | panic at_ => exact ⟨collects.1, fun _ => last⟩

/-! ### A step of another reader -/

variable {other : Reader} {its : Nat}

theorem Moves.holds_other (moves : Moves process id socket reader act after next)
    (holds : reader.Holds socket) (theirs : other.Holds socket)
    (distinct : other.task.pc.isDone = false → other.clientLocalAddr ≠ reader.clientLocalAddr) :
    other.Holds after := by
  cases moves with
  | idle _ queue received => exact theirs.of_queue received (queue.trans (List.append_nil _).symm)
  | peek | write | panic => exact theirs
  | recv at_ front =>
      -- two readers in front of one datagram would have one address
      intro m there
      rename_i n datagram rest
      rcases holds n at_ with ⟨first, _, front', mine, _⟩
      rcases theirs m there with ⟨second, _, front'', yours, _⟩
      cases front'.symm.trans front''
      exact absurd (yours.symm.trans mine) (distinct (by rw [there]; rfl))

theorem Moves.carries_other (moves : Moves process id socket reader act after next)
    (different : id ≠ its) (carries : other.Carries socket its) : other.Carries after its := by
  cases moves with
  | idle _ _ received => exact carries.of_received received
  | peek | write | panic => exact carries
  | recv at_ front =>
      unfold Carries
      rw [SharedSocket.share_receive, if_neg different, List.append_nil]
      exact carries

theorem Moves.collects_other (moves : Moves process id socket reader act after next)
    (different : id ≠ its) (holds : reader.Holds socket) (collects : other.Collects socket its)
    (distinct : other.task.pc.isDone = false → other.clientLocalAddr ≠ reader.clientLocalAddr) :
    other.Collects after its := by
  cases moves with
  | idle _ _ received => exact collects.of_received received
  | peek | write | panic => exact collects
  | recv at_ front =>
      rename_i n datagram rest
      rcases holds n at_ with ⟨first, _, front', mine, _⟩
      cases front.symm.trans front'
      unfold Collects
      rw [SharedSocket.share_receive, SharedSocket.receivedFrom_receive, if_neg different,
        List.append_nil]
      refine ⟨collects.1.trans (List.prefix_append _ _).isInfix, fun running => ?_⟩
      rw [if_neg (fun same => distinct running (same.symm.trans mine)), List.append_nil]
      exact collects.2 running

end Reader

/-! ## All readers together -/

namespace Sharing

/-- No two readers at work have one address. -/
def Distinct (readers : List Reader) : Prop :=
  ∀ (i j : Nat) (first second : Reader), readers[i]? = some first → readers[j]? = some second →
    first.task.pc.isDone = false → second.task.pc.isDone = false →
      first.clientLocalAddr = second.clientLocalAddr → i = j

structure Inv (sharing : Sharing) : Prop where
  holds : ∀ (id : Nat) (reader : Reader), sharing.readers[id]? = some reader → reader.Holds sharing.socket
  carries : ∀ (id : Nat) (reader : Reader), sharing.readers[id]? = some reader →
    reader.Carries sharing.socket id
  collects : ∀ (id : Nat) (reader : Reader), sharing.readers[id]? = some reader →
    reader.Collects sharing.socket id
  distinct : Distinct sharing.readers
  owned : ∀ entry ∈ sharing.socket.received, ∃ reader : Reader,
    sharing.readers[entry.1]? = some reader ∧ entry.2.source = reader.clientLocalAddr

/-- The readers are left alone, and the socket only gains. -/
theorem Inv.of_socket {sharing : Sharing} (inv : sharing.Inv) {socket : SharedSocket}
    (received : socket.received = sharing.socket.received) {more : List Datagram}
    (queue : socket.queue = sharing.socket.queue ++ more) : (sharing.setSocket socket).Inv where
  holds id reader at_ := (inv.holds id reader at_).of_queue received queue
  carries id reader at_ := (inv.carries id reader at_).of_received received
  collects id reader at_ := (inv.collects id reader at_).of_received received
  distinct := inv.distinct
  owned entry member := inv.owned entry (by simpa [setSocket, received] using member)

/-- One reader changes in what nobody depends on. -/
theorem Inv.of_reader {sharing : Sharing} (inv : sharing.Inv) {id : Nat} {reader next : Reader}
    (at_ : sharing.readers[id]? = some reader) (addr : next.clientLocalAddr = reader.clientLocalAddr)
    (task : next.task = reader.task) (buf : next.buf = reader.buf)
    (peeked : next.peeked = reader.peeked) (written : next.written = reader.written) :
    (sharing.setReader id next).Inv := by
  have found : ∀ {its : Nat} {other : Reader}, (sharing.readers.set id next)[its]? = some other →
      ∃ before, sharing.readers[its]? = some before ∧
        other.clientLocalAddr = before.clientLocalAddr ∧ other.task = before.task ∧
          other.buf = before.buf ∧ other.peeked = before.peeked ∧
            other.written = before.written := by
    intro its other is
    rw [List.getElem?_set] at is
    split at is
    · rename_i same
      split at is
      · cases is
        exact ⟨reader, same ▸ at_, addr, task, buf, peeked, written⟩
      · cases is
    · exact ⟨other, is, rfl, rfl, rfl, rfl, rfl⟩
  refine ⟨fun its other is => ?_, fun its other is => ?_, fun its other is => ?_, ?_, ?_⟩
  · rcases found is with ⟨before, was, addr, task, buf, peeked, _⟩
    unfold Reader.Holds
    rw [addr, task, buf, peeked]
    exact inv.holds its before was
  · rcases found is with ⟨before, was, _, task, _, _, written⟩
    unfold Reader.Carries
    rw [task, written]
    exact inv.carries its before was
  · rcases found is with ⟨before, was, addr, task, _⟩
    unfold Reader.Collects
    rw [addr, task]
    exact inv.collects its before was
  · intro i j first second atFirst atSecond runs runs' same
    rcases found atFirst with ⟨before, was, addr, task, _⟩
    rcases found atSecond with ⟨before', was', addr', task', _⟩
    rw [task] at runs
    rw [task'] at runs'
    rw [addr, addr'] at same
    exact inv.distinct i j before before' was was' runs runs' same
  · intro entry member
    rcases inv.owned entry member with ⟨before, was, source⟩
    by_cases same : id = entry.1
    · subst same
      rw [at_] at was
      cases was
      refine ⟨next, ?_, source.trans addr.symm⟩
      exact List.getElem?_set_self (List.getElem?_eq_some_iff.mp at_).1
    · exact ⟨before, (List.getElem?_set_ne same).trans was, source⟩

/-- A reader takes a step. -/
theorem Inv.of_moves {sharing : Sharing} (inv : sharing.Inv) {id : Nat} {reader next : Reader}
    {socket : SharedSocket} {act : Act} (at_ : sharing.readers[id]? = some reader)
    (moves : Reader.Moves sharing.process id sharing.socket reader act socket next) :
    ((sharing.setSocket socket).setReader id next).Inv := by
  have mine := inv.holds id reader at_
  have found : ∀ {its : Nat} {other : Reader}, (sharing.readers.set id next)[its]? = some other →
      (its = id ∧ other = next) ∨ (id ≠ its ∧ sharing.readers[its]? = some other) := by
    intro its other is
    rw [List.getElem?_set] at is
    split at is
    · rename_i same
      split at is
      · cases is
        exact Or.inl ⟨same.symm, rfl⟩
      · cases is
    · rename_i different
      exact Or.inr ⟨different, is⟩
  have apart : ∀ {its : Nat} {other : Reader}, id ≠ its → sharing.readers[its]? = some other →
      other.task.pc.isDone = false → other.clientLocalAddr ≠ reader.clientLocalAddr := by
    intro its other different is runs same
    exact different (inv.distinct its id other reader is at_ runs moves.running same).symm
  refine ⟨fun its other is => ?_, fun its other is => ?_, fun its other is => ?_, ?_, ?_⟩
  · rcases found is with ⟨_, rfl⟩ | ⟨different, was⟩
    · exact moves.holds
    · exact moves.holds_other mine (inv.holds its other was) (apart different was)
  · rcases found is with ⟨rfl, rfl⟩ | ⟨different, was⟩
    · exact moves.carries mine (inv.carries its reader at_)
    · exact moves.carries_other different (inv.carries its other was)
  · rcases found is with ⟨rfl, rfl⟩ | ⟨different, was⟩
    · exact moves.collects mine (inv.collects its reader at_)
    · exact moves.collects_other different mine (inv.collects its other was) (apart different was)
  · intro i j first second atFirst atSecond runs runs' same
    rcases found atFirst with ⟨rfl, rfl⟩ | ⟨different, was⟩
    · rcases found atSecond with ⟨rfl, _⟩ | ⟨different', was'⟩
      · rfl
      · exact absurd (same.symm.trans moves.addr) (apart different' was' runs')
    · rcases found atSecond with ⟨rfl, rfl⟩ | ⟨different', was'⟩
      · exact absurd (same.trans moves.addr) (apart different was runs)
      · exact inv.distinct i j first second was was' runs runs' same
  · have kept : ∀ {its : Nat} {source : SocketAddr},
        (∃ other : Reader, sharing.readers[its]? = some other ∧ source = other.clientLocalAddr) →
          ∃ other : Reader, (sharing.readers.set id next)[its]? = some other ∧
            source = other.clientLocalAddr := by
      rintro its source ⟨other, was, is⟩
      by_cases same : id = its
      · subst same
        rw [at_] at was
        cases was
        exact ⟨next, List.getElem?_set_self (List.getElem?_eq_some_iff.mp at_).1,
          is.trans moves.addr.symm⟩
      · exact ⟨other, (List.getElem?_set_ne same).trans was, is⟩
    intro entry member
    refine kept ?_
    cases moves with
    | idle _ _ received =>
        exact inv.owned entry (by simpa [setSocket, setReader, received] using member)
    | peek | write | panic => exact inv.owned entry member
    | recv there front =>
        rcases mine _ there with ⟨datagram, rest, front', source, _⟩
        cases front.symm.trans front'
        rcases List.mem_append.mp member with before | new
        · exact inv.owned entry before
        · cases List.mem_singleton.mp new
          exact ⟨reader, at_, source⟩

/-- A session starts for an application that has none. -/
theorem Inv.of_start {sharing : Sharing} (inv : sharing.Inv) {addr : SocketAddr}
    (vacant : sharing.vacant addr = true) (seen : Nat) :
    ({ sharing with readers := sharing.readers ++ [Reader.spawned sharing.process addr seen] } :
      Sharing).Inv := by
  have found : ∀ {its : Nat} {other : Reader},
      (sharing.readers ++ [Reader.spawned sharing.process addr seen])[its]? = some other →
        sharing.readers[its]? = some other ∨
          (its = sharing.readers.length ∧ other = Reader.spawned sharing.process addr seen) := by
    intro its other is
    rw [List.getElem?_append] at is
    split at is
    · exact Or.inl is
    · rename_i beyond
      rw [List.getElem?_singleton] at is
      split at is <;> cases is
      exact Or.inr ⟨by omega, rfl⟩
  have unused : sharing.socket.share sharing.readers.length = [] := by
    unfold SharedSocket.share
    rw [List.filter_eq_nil_iff.mpr, List.map_nil]
    intro entry member is
    rcases inv.owned entry member with ⟨reader, was, _⟩
    rw [of_decide_eq_true is, List.getElem?_eq_none (Nat.le_refl _)] at was
    cases was
  have elsewhere : ∀ {its : Nat} {other : Reader}, sharing.readers[its]? = some other →
      other.task.pc.isDone = false → other.clientLocalAddr ≠ addr := by
    intro its other is runs
    have free := List.all_eq_true.mp vacant other (List.mem_of_getElem? is)
    rw [runs, Bool.false_or] at free
    exact of_decide_eq_true free
  refine ⟨fun its other is => ?_, fun its other is => ?_, fun its other is => ?_, ?_, ?_⟩
  · rcases found is with was | ⟨rfl, rfl⟩
    · exact inv.holds its other was
    · intro n at_
      cases at_
  · rcases found is with was | ⟨rfl, rfl⟩
    · exact inv.carries its other was
    · simp [Reader.Carries, unused, Reader.spawned, Pc.pending]
  · rcases found is with was | ⟨rfl, rfl⟩
    · exact inv.collects its other was
    · simp [Reader.Collects, unused]
  · intro i j first second atFirst atSecond runs runs' same
    rcases found atFirst with was | ⟨rfl, rfl⟩
    · rcases found atSecond with was' | ⟨rfl, rfl⟩
      · exact inv.distinct i j first second was was' runs runs' same
      · exact absurd same (elsewhere was runs)
    · rcases found atSecond with was' | ⟨rfl, rfl⟩
      · exact absurd same.symm (elsewhere was' runs')
      · rfl
  · intro entry member
    rcases inv.owned entry member with ⟨reader, was, source⟩
    refine ⟨reader, ?_, source⟩
    exact getElem?_append_of_found was _

theorem inductive_inv : machine.Inductive Inv where
  start sharing starts := by
    rcases starts with ⟨readers, received⟩
    refine ⟨?_, ?_, ?_, ?_, ?_⟩ <;> simp [readers, received, Distinct]
  step sharing event next inv taken := by
    cases event with
    | arrive datagram =>
        cases taken
        exact inv.of_socket rfl rfl
    | sockError =>
        cases taken
        exact inv.of_socket rfl (List.append_nil _).symm
    | tick | stop | dropStop | lose =>
        cases taken
        exact ⟨inv.holds, inv.carries, inv.collects, inv.distinct, inv.owned⟩
    | start addr seen =>
        simp only [machine, step] at taken
        split at taken <;> cases taken
        rename_i vacant
        exact inv.of_start vacant seen
    | look =>
        simp only [machine, step] at taken
        split at taken <;> cases taken
        exact inv.of_socket rfl (List.append_nil _).symm
    | active id | stopReading id =>
        rcases Option.map_eq_some_iff.mp taken with ⟨reader, at_, same⟩
        cases same
        exact inv.of_reader at_ rfl rfl rfl rfl rfl
    | reader id act =>
        rcases Option.bind_eq_some_iff.mp taken with ⟨reader, at_, moved⟩
        rcases Option.map_eq_some_iff.mp moved with ⟨⟨socket, after⟩, taken', same⟩
        cases same
        exact inv.of_moves at_ (Reader.moves_of_step taken')

/-! ## Who receives what -/

/-- A `recv` that completes removes the datagram in front of the queue, which is
addressed by the reader's own application and is the one it has peeked.  Nothing
else removes a datagram, and arrivals join at the tail. -/
def Routes (sharing : Sharing) (event : SharingEvent) (next : Sharing) : Prop :=
  match event with
  | .reader id .recv => ∃ (reader : Reader) (datagram : Datagram),
      sharing.readers[id]? = some reader ∧ datagram.source = reader.clientLocalAddr ∧
        sharing.socket.arrivals[reader.peeked]? = some datagram ∧
        sharing.socket.queue = datagram :: next.socket.queue ∧
        next.socket.received = sharing.socket.received ++ [(id, datagram)]
  | .arrive datagram =>
      next.socket.queue = sharing.socket.queue ++ [datagram] ∧
        next.socket.received = sharing.socket.received
  | _ =>
      next.socket.queue = sharing.socket.queue ∧
        next.socket.received = sharing.socket.received

/-- Every datagram has gone to a reader of its source, and the stream of a reader
carries a contiguous part of what arrived from its source, cut to the buffer. -/
structure Delivered (sharing : Sharing) : Prop where
  owned : ∀ entry ∈ sharing.socket.received, ∃ reader : Reader,
    sharing.readers[entry.1]? = some reader ∧ entry.2.source = reader.clientLocalAddr
  ordered : ∀ (id : Nat) (reader : Reader), sharing.readers[id]? = some reader →
    sharing.socket.share id <:+: sharing.socket.arrivals.filter
      (fun datagram => datagram.source = reader.clientLocalAddr)
  carried : ∀ (id : Nat) (reader : Reader), sharing.readers[id]? = some reader →
    reader.Carries sharing.socket id

theorem Inv.delivered {sharing : Sharing} (inv : sharing.Inv) : sharing.Delivered where
  owned := inv.owned
  ordered id reader at_ :=
    (inv.collects id reader at_).1.trans (sharing.socket.receivedFrom_prefix _).isInfix
  carried := inv.carries

/-- A reader that is about to receive has peeked at the front of the queue. -/
theorem Inv.routes {sharing next : Sharing} {event : SharingEvent} (inv : sharing.Inv)
    (taken : machine.step sharing event = some next) : Routes sharing event next := by
  cases event with
  | arrive | sockError | tick | stop | dropStop | lose =>
      cases taken
      exact ⟨rfl, rfl⟩
  | start | look =>
      simp only [machine, step] at taken
      split at taken <;> cases taken
      exact ⟨rfl, rfl⟩
  | active | stopReading =>
      rcases Option.map_eq_some_iff.mp taken with ⟨reader, _, same⟩
      cases same
      exact ⟨rfl, rfl⟩
  | reader id act =>
      rcases Option.bind_eq_some_iff.mp taken with ⟨reader, at_, moved⟩
      rcases Option.map_eq_some_iff.mp moved with ⟨⟨socket, after⟩, taken', same⟩
      cases same
      have moves := Reader.moves_of_step taken'
      cases moves with
      | idle other queue received =>
          cases act with
          | recv => exact absurd rfl other
          | _ => exact ⟨queue, received⟩
      | peek | write | panic => exact ⟨rfl, rfl⟩
      | recv there front =>
          rename_i n datagram rest
          rcases inv.holds id reader at_ n there with ⟨first, others, front', mine, peeked, _⟩
          cases front.symm.trans front'
          refine ⟨reader, datagram, at_, mine, ?_, front, rfl⟩
          rw [peeked, SharedSocket.arrivals, front,
            List.getElem?_append_right (by simp), List.length_map, Nat.sub_self]
          rfl

/-- Peek-then-receive never misroutes a datagram, whatever is interleaved with
the two. -/
theorem datagrams_stay_owned (labels : List SharingEvent) {start : Sharing}
    (starts : start.Starts) :
    machine.EveryStep Routes labels start ∧ machine.EveryState Delivered labels start := by
  have inv := inductive_inv.start start starts
  refine ⟨inductive_inv.everyStep (fun _ _ _ held taken => held.routes taken) labels inv, ?_⟩
  exact (inductive_inv.everyState labels inv).imp fun _ held => held.delivered

/-- Two sessions and a datagram for each, the second looked at by the wrong
reader first. -/
def twoReaders : List SharingEvent :=
  [.arrive ⟨.v4 0 5000, [1]⟩, .arrive ⟨.v4 0 6000, [2, 3]⟩, .start (.v4 0 5000) 0,
    .start (.v4 0 6000) 0, .reader 1 (.control .now), .reader 1 (.control .load),
    .reader 1 (.read 0), .reader 0 (.control .now), .reader 0 (.control .load),
    .reader 0 (.read 0), .look, .reader 0 .recv, .reader 1 (.control .now),
    .reader 1 (.control .load), .reader 1 (.read 0), .reader 0 (.write 1), .reader 1 .recv]

def bound : Sharing := ⟨⟨0, Watch.channel false, false⟩, ⟨[], [], false⟩, []⟩

theorem datagrams_stay_owned_twoReaders :
    machine.EveryStep Routes twoReaders bound ∧ machine.EveryState Delivered twoReaders bound :=
  datagrams_stay_owned twoReaders ⟨rfl, rfl⟩

example : ((machine.run twoReaders bound).map fun sharing =>
    (sharing.socket.share 0, sharing.socket.share 1)) =
      some ([⟨.v4 0 5000, [1]⟩], [⟨.v4 0 6000, [2, 3]⟩]) := by decide

end Sharing

end Client
end Lantun
