import Lantun.Net.Moves

namespace Lantun
namespace Net
namespace Pipe

open Async

/-!
# What one direction carries

The invariant of a direction has two halves that never look at each other's
task.  The upper half relates what the socket gave up to what the stream
accepted, the lower half relates what the stream handed out to what the far
socket was given.  Each half is an equation with the pending write as its
middle term.  Only a task that panicked inside a write may leave it open, and
then the bytes it did not write are simply missing at the end.

The two halves meet in `written_isPrefix_carried` and in `written_of_closed`:
nothing but a leading part ever comes out, and everything has come out once the
lower task has read the end of the stream.
-/

variable {α : Type}

/-- What the tunnel should carry of the entries received so far. -/
def carried (sock : Sock α) (pipe : Pipe α) : List UInt8 :=
  (pipe.log.take pipe.got).flatMap sock.clipped

/-- The bytes of everything written at the far end. -/
def written (sock : Sock α) (pipe : Pipe α) : List UInt8 := pipe.out.flatMap sock.raw

/-- The upper half: source socket to stream. -/
structure UpInv (sock : Sock α) (pipe : Pipe α) : Prop where
  leading : pipe.stream.accepted ++ pipe.up.pc.pending <+: pipe.carried sock
  whole : pipe.up.pc ≠ .done .panicked →
    pipe.stream.accepted ++ pipe.up.pc.pending = pipe.carried sock
  peeked : ∀ n, pipe.up.pc = .recv n →
    ∃ entry, pipe.log[pipe.got]? = some entry ∧ n = (sock.clipped entry).length
  ended : pipe.stream.ending ≠ none → pipe.up.pc.isDone = true
  finished : pipe.stream.ending = some .fin → pipe.stream.accepted = pipe.carried sock

/-- The lower half: stream to far socket. -/
structure DownInv (sock : Sock α) (pipe : Pipe α) : Prop where
  leading : pipe.written sock ++ pipe.down.pc.pending <+: pipe.stream.consumed
  whole : pipe.down.pc ≠ .done .panicked →
    pipe.written sock ++ pipe.down.pc.pending = pipe.stream.consumed
  closed : pipe.down.pc = .done .closed →
    pipe.stream.ending = some .fin ∧ pipe.stream.consumed = pipe.stream.accepted

structure Inv (sock : Sock α) (pipe : Pipe α) : Prop where
  up : pipe.UpInv sock
  down : pipe.DownInv sock

/-! ## The meeting of the two halves -/

theorem carried_isPrefix (sock : Sock α) (pipe : Pipe α) :
    pipe.carried sock <+: pipe.log.flatMap sock.clipped := by
  refine ⟨(pipe.log.drop pipe.got).flatMap sock.clipped, ?_⟩
  rw [carried, ← List.flatMap_append, List.take_append_drop]

theorem Inv.written_isPrefix_carried {sock : Sock α} {pipe : Pipe α} (inv : pipe.Inv sock) :
    pipe.written sock <+: pipe.carried sock := by
  have handed : pipe.written sock <+: pipe.stream.consumed :=
    (List.prefix_append _ _).trans inv.down.leading
  have accepted : pipe.stream.accepted <+: pipe.carried sock :=
    (List.prefix_append _ _).trans inv.up.leading
  exact (handed.trans pipe.stream.consumed_isPrefix).trans accepted

/-- Once the lower task has read `None`, it has written everything the upper
task ever received from its socket. -/
theorem Inv.written_of_closed {sock : Sock α} {pipe : Pipe α} (inv : pipe.Inv sock)
    (closed : pipe.down.pc = .done .closed) : pipe.written sock = pipe.carried sock := by
  have handed : pipe.written sock ++ pipe.down.pc.pending = pipe.stream.consumed :=
    inv.down.whole (by rw [closed]; simp)
  have ended := inv.down.closed closed
  calc pipe.written sock
      = pipe.written sock ++ pipe.down.pc.pending := by rw [closed]; simp [Pc.pending]
    _ = pipe.stream.consumed := handed
    _ = pipe.stream.accepted := ended.2
    _ = pipe.carried sock := inv.up.finished ended.1

/-! ## The start, the application and the network -/

theorem inv_start (sock : Sock α) (seenUp seenDown : Nat) :
    (start seenUp seenDown : Pipe α).Inv sock where
  up :=
    { leading := List.nil_prefix
      whole := fun _ => rfl
      peeked := fun n at_ => by cases at_
      ended := fun some_ => absurd rfl some_
      finished := fun fin => by cases fin }
  down :=
    { leading := List.nil_prefix
      whole := fun _ => rfl
      closed := fun at_ => by cases at_ }

/-- A further entry in the log does not change the received part. -/
theorem carried_send (sock : Sock α) (pipe : Pipe α) (entry : α) :
    (pipe.send entry).carried sock = pipe.carried sock := by
  rw [carried, send, List.take_append_of_le_length pipe.got_le, carried]

theorem Inv.send {sock : Sock α} {pipe : Pipe α} (inv : pipe.Inv sock) (entry : α) :
    (pipe.send entry).Inv sock where
  up :=
    { leading := by rw [carried_send]; exact inv.up.leading
      whole := by rw [carried_send]; exact inv.up.whole
      peeked := by
        intro n at_
        obtain ⟨first, head, size⟩ := inv.up.peeked n at_
        refine ⟨first, ?_, size⟩
        have inside : pipe.got < pipe.log.length := (List.getElem?_eq_some_iff.mp head).1
        change (pipe.log ++ [entry])[pipe.got]? = some first
        rw [List.getElem?_append_left inside, head]
      ended := inv.up.ended
      finished := by rw [carried_send]; exact inv.up.finished }
  down := ⟨inv.down.leading, inv.down.whole, inv.down.closed⟩

theorem Inv.close {sock : Sock α} {pipe : Pipe α} (inv : pipe.Inv sock) :
    { pipe with eof := true }.Inv sock where
  up := ⟨inv.up.leading, inv.up.whole, inv.up.peeked, inv.up.ended, inv.up.finished⟩
  down := ⟨inv.down.leading, inv.down.whole, inv.down.closed⟩

theorem Inv.sockError {sock : Sock α} {pipe : Pipe α} (inv : pipe.Inv sock) :
    { pipe with sockError := true }.Inv sock where
  up := ⟨inv.up.leading, inv.up.whole, inv.up.peeked, inv.up.ended, inv.up.finished⟩
  down := ⟨inv.down.leading, inv.down.whole, inv.down.closed⟩

theorem Inv.deliver {sock : Sock α} {pipe : Pipe α} (inv : pipe.Inv sock) (count : Nat) :
    (pipe.deliver count).Inv sock where
  up := ⟨inv.up.leading, inv.up.whole, inv.up.peeked, inv.up.ended, inv.up.finished⟩
  down := ⟨inv.down.leading, inv.down.whole, inv.down.closed⟩

theorem Inv.deliverEnd {sock : Sock α} {pipe : Pipe α} (inv : pipe.Inv sock) :
    pipe.deliverEnd.Inv sock where
  up := ⟨inv.up.leading, inv.up.whole, inv.up.peeked, inv.up.ended, inv.up.finished⟩
  down := ⟨inv.down.leading, inv.down.whole, inv.down.closed⟩

/-! ## Moving a task -/

section Moving

variable {sock : Sock α} {pipe : Pipe α}

@[simp] theorem setUp_up (lost : Bool) (task : Task) : (pipe.setUp lost task).up = task := rfl
@[simp] theorem setUp_down (lost : Bool) (task : Task) : (pipe.setUp lost task).down = pipe.down := rfl
@[simp] theorem setUp_carried (lost : Bool) (task : Task) :
    (pipe.setUp lost task).carried sock = pipe.carried sock := rfl
@[simp] theorem setUp_written (lost : Bool) (task : Task) :
    (pipe.setUp lost task).written sock = pipe.written sock := rfl

@[simp] theorem setUp_accepted (lost : Bool) (task : Task) :
    (pipe.setUp lost task).stream.accepted = pipe.stream.accepted := by
  unfold setUp
  dsimp only
  split <;> simp

@[simp] theorem setUp_consumed (lost : Bool) (task : Task) :
    (pipe.setUp lost task).stream.consumed = pipe.stream.consumed := by
  unfold setUp
  dsimp only
  split <;> simp

theorem setUp_stream_of_running {lost : Bool} {task : Task} (running : task.pc.isDone = false) :
    (pipe.setUp lost task).stream = pipe.stream := by
  simp [setUp, running]

theorem setUp_stream_of_done {lost : Bool} {task : Task} (done : task.pc.isDone = true) :
    (pipe.setUp lost task).stream = pipe.stream.dropSend lost := by
  simp [setUp, done]

@[simp] theorem setDown_down (task : Task) : (pipe.setDown task).down = task := rfl
@[simp] theorem setDown_up (task : Task) : (pipe.setDown task).up = pipe.up := rfl
@[simp] theorem setDown_log (task : Task) : (pipe.setDown task).log = pipe.log := rfl
@[simp] theorem setDown_got (task : Task) : (pipe.setDown task).got = pipe.got := rfl
@[simp] theorem setDown_carried (task : Task) :
    (pipe.setDown task).carried sock = pipe.carried sock := rfl
@[simp] theorem setDown_written (task : Task) :
    (pipe.setDown task).written sock = pipe.written sock := rfl

@[simp] theorem setDown_accepted (task : Task) :
    (pipe.setDown task).stream.accepted = pipe.stream.accepted := by
  unfold setDown
  dsimp only
  split <;> simp

@[simp] theorem setDown_consumed (task : Task) :
    (pipe.setDown task).stream.consumed = pipe.stream.consumed := by
  unfold setDown
  dsimp only
  split <;> simp

@[simp] theorem setDown_ending (task : Task) :
    (pipe.setDown task).stream.ending = pipe.stream.ending := by
  unfold setDown
  dsimp only
  split <;> simp

/-- The upper task moves to a point that owes `owed`, while the stream still
accepts.  A task that ends here owes nothing, so a finished stream is whole. -/
theorem UpInv.setUp_whole {lost : Bool} {task : Task} (open_ : pipe.stream.ending = none)
    (balance : pipe.stream.accepted ++ task.pc.pending = pipe.carried sock)
    (peeked : ∀ n, task.pc = .recv n →
      ∃ entry, pipe.log[pipe.got]? = some entry ∧ n = (sock.clipped entry).length) :
    (pipe.setUp lost task).UpInv sock where
  leading := by
    simp only [setUp_accepted, setUp_up, setUp_carried, balance, List.prefix_rfl]
  whole _ := by
    rw [setUp_accepted, setUp_up, setUp_carried, balance]
  peeked := peeked
  ended some_ := by
    by_contra running
    rw [setUp_up, Bool.not_eq_true] at running
    rw [setUp_stream_of_running running] at some_
    exact some_ open_
  finished fin := by
    cases done : task.pc.isDone with
    | false =>
        rw [setUp_stream_of_running done, open_] at fin
        cases fin
    | true =>
        have owed : task.pc.pending = [] := by
          cases at_ : task.pc <;> simp_all [Pc.isDone, Pc.pending]
        rw [setUp_accepted, setUp_carried, ← balance, owed, List.append_nil]

/-- The upper task panics inside a write: the stream keeps what it accepted,
and it does not finish. -/
theorem UpInv.setUp_panicked {lost : Bool} (inv : pipe.UpInv sock)
    (open_ : pipe.stream.ending = none) (cause : (pipe.stream.stopped || lost) = true) :
    (pipe.setUp lost { pipe.up with pc := .done .panicked }).UpInv sock where
  leading := by
    rw [setUp_accepted, setUp_up, setUp_carried]
    simpa [Pc.pending] using (List.prefix_append _ _).trans inv.leading
  whole different := absurd rfl different
  peeked n at_ := by cases at_
  ended _ := rfl
  finished fin := by
    rw [setUp_stream_of_done rfl] at fin
    rcases Stream.dropSend_fin _ fin with before | ⟨notLost, notStopped⟩
    · rw [open_] at before
      cases before
    · rw [notLost, notStopped] at cause
      cases cause

/-- While the upper task runs, its stream is open. -/
theorem UpInv.open_of_running (inv : pipe.UpInv sock) (running : pipe.up.pc.isDone = false) :
    pipe.stream.ending = none := by
  by_contra some_
  rw [inv.ended some_] at running
  cases running

/-- A stream whose upper task is still running has not been read to its end. -/
theorem DownInv.of_stream (inv : pipe.DownInv sock) {next : Pipe α}
    (open_ : pipe.stream.ending = none) (down : next.down = pipe.down)
    (written : next.written sock = pipe.written sock)
    (consumed : next.stream.consumed = pipe.stream.consumed) : next.DownInv sock where
  leading := by
    rw [written, down, consumed]
    exact inv.leading
  whole := by
    rw [written, down, consumed]
    exact inv.whole
  closed at_ := by
    have ended := (inv.closed (down ▸ at_)).1
    rw [open_] at ended
    cases ended

/-- What reading `count` entries adds to the carried bytes. -/
theorem carried_take (count : Nat) (enough : pipe.got + count ≤ pipe.log.length) :
    (pipe.take count enough).carried sock =
      pipe.carried sock ++ ((pipe.log.drop pipe.got).take count).flatMap sock.clipped := by
  simp only [carried, take]
  rw [List.take_add, List.flatMap_append]

/-- The body behind a receive keeps the balance, whatever the chunk was. -/
theorem UpInv.afterRead {env : Env} {chunk : List UInt8} (open_ : pipe.stream.ending = none)
    (balance : pipe.stream.accepted ++ chunk = pipe.carried sock) :
    (pipe.afterRead env chunk).1.UpInv sock := by
  unfold Pipe.afterRead
  split
  · rename_i empty
    subst empty
    exact UpInv.setUp_whole open_ balance (fun n at_ => by cases at_)
  · exact UpInv.setUp_whole open_ balance (fun n at_ => by cases at_)

variable (sock pipe) in
theorem afterRead_frame (env : Env) (chunk : List UInt8) :
    (pipe.afterRead env chunk).1.down = pipe.down ∧
      (pipe.afterRead env chunk).1.written sock = pipe.written sock ∧
      (pipe.afterRead env chunk).1.stream.consumed = pipe.stream.consumed := by
  unfold Pipe.afterRead
  split <;> simp

end Moving

/-! ## The steps of the two tasks -/

section Steps

variable {sock : Sock α} {source : SourceRead} {env : Env} {pipe next : Pipe α} {last : Nat}

theorem selects_running {task : Task} {ready : Bool} {branch : Branch}
    (chosen : task.selects env ready = some branch) :
    task.pc.isDone = false ∧ task.pc.pending = [] ∧ task.pc ≠ .done .panicked := by
  obtain ⟨deadline, live, at_⟩ := Task.selects_pc chosen
  rw [at_]
  exact ⟨rfl, rfl, by simp⟩

theorem Inv.upControl (inv : pipe.Inv sock) {step : Control}
    (taken : pipe.upStep sock source env (.control step) = some (next, last)) :
    next.Inv sock := by
  have running := (upStep_moves taken).running
  obtain ⟨task, moved, same⟩ := Option.map_eq_some_iff.mp taken
  cases same
  obtain ⟨notDone, owedBefore, notWrite, notRecv, -⟩ := Task.control_cases moved
  have open_ := inv.up.open_of_running running
  have balance := inv.up.whole (notDone _)
  rw [owedBefore] at balance
  exact ⟨UpInv.setUp_whole open_ (by rw [Pc.pending_of_ne_write notWrite]; exact balance)
      (fun n at_ => absurd at_ (notRecv n)),
    inv.down.of_stream open_ rfl rfl (setUp_consumed _ _)⟩

theorem Inv.upRead (inv : pipe.Inv sock) {count : Nat}
    (taken : pipe.upStep sock source env (.read count) = some (next, last)) :
    next.Inv sock := by
  simp only [upStep] at taken
  split at taken
  · rename_i chosen
    obtain ⟨running, owed, notPanicked⟩ := selects_running chosen.1
    have open_ := inv.up.open_of_running running
    have balance := inv.up.whole notPanicked
    rw [owed] at balance
    split at taken
    · obtain ⟨entry, head, same⟩ := Option.map_eq_some_iff.mp taken
      cases same
      refine ⟨UpInv.setUp_whole open_ balance ?_,
        inv.down.of_stream open_ rfl rfl (setUp_consumed _ _)⟩
      intro n at_
      cases at_
      exact ⟨entry, head, rfl⟩
    · split at taken
      · rename_i admitted
        have enough := enough_of_admits admitted
        obtain rfl := congrArg Prod.fst (Option.some.inj taken)
        obtain ⟨down, written, consumed⟩ := afterRead_frame sock (pipe.take count enough) env
          ((((pipe.log.drop pipe.got).take count).flatMap sock.raw).take tunnelForwarderBufferSize)
        refine ⟨UpInv.afterRead open_ ?_, inv.down.of_stream open_ down written consumed⟩
        rw [carried_take, ← balance, List.append_nil]
        congr 1
        have length : ((pipe.log.drop pipe.got).take count).length = count := by
          rw [List.length_take, List.length_drop]
          omega
        rcases Bool.or_eq_true_iff.mp (Bool.and_eq_true_iff.mp admitted).2 with some_ | eof
        · exact sock.clip _ (by rw [length]; exact some_)
        · have zero := of_decide_eq_true (Bool.and_eq_true_iff.mp (Bool.and_eq_true_iff.mp eof).1).2
          rw [zero]
          rfl
      · cases taken
  · cases taken

theorem Inv.upRecv (inv : pipe.Inv sock)
    (taken : pipe.upStep sock source env .recv = some (next, last)) : next.Inv sock := by
  simp only [upStep] at taken
  split at taken
  · rename_i n entry at_ head
    split at taken
    · rename_i fits
      obtain rfl := congrArg Prod.fst (Option.some.inj taken)
      have open_ := inv.up.open_of_running (by rw [at_]; rfl)
      have balance := inv.up.whole (by rw [at_]; simp)
      rw [at_] at balance
      obtain ⟨down, written, consumed⟩ := afterRead_frame sock (pipe.take 1 fits.1) env
        ((sock.raw entry).take n)
      refine ⟨UpInv.afterRead open_ ?_, inv.down.of_stream open_ down written consumed⟩
      -- the head is still the peeked datagram, so `n` cuts it to the buffer
      obtain ⟨first, same, size⟩ := inv.up.peeked n at_
      rw [head] at same
      cases same
      have single : (pipe.log.drop pipe.got).take 1 = [entry] := by
        obtain ⟨inside, value⟩ := List.getElem?_eq_some_iff.mp head
        rw [List.drop_eq_getElem_cons inside, value]
        rfl
      have cut : (sock.raw entry).take n = sock.clipped entry := by
        rw [size, Sock.clipped]
        simp
      rw [carried_take, ← balance, single, cut]
      simp [Pc.pending, Pipe.take]
    · cases taken
  · cases taken

/-- After an error the task stands where it owes nothing, and no byte moved. -/
theorem Inv.upErr (inv : pipe.Inv sock) {task : Task} (running : pipe.up.pc.isDone = false)
    (owedBefore : pipe.up.pc.pending = []) (owedAfter : task.pc.pending = [])
    (notRecv : ∀ n, task.pc ≠ .recv n) (lost : Bool) :
    (pipe.clearError.setUp lost task).Inv sock := by
  have open_ := inv.up.open_of_running running
  have balance := inv.up.whole (by intro panicked; rw [panicked] at running; cases running)
  rw [owedBefore] at balance
  exact ⟨UpInv.setUp_whole open_ (by rw [owedAfter]; exact balance)
      (fun n at_ => absurd at_ (notRecv n)),
    inv.down.of_stream open_ rfl rfl (setUp_consumed _ _)⟩

theorem afterWrite_cases (rest : List UInt8) :
    Pc.afterWrite rest = .top ∨ Pc.afterWrite rest = .write rest := by
  unfold Pc.afterWrite
  split
  · exact .inl rfl
  · exact .inr rfl

theorem Inv.upWrite (inv : pipe.Inv sock) {count : Nat}
    (taken : pipe.upStep sock source env (.write count) = some (next, last)) :
    next.Inv sock := by
  simp only [upStep] at taken
  split at taken
  · rename_i rest at_
    split at taken
    · cases taken
      have open_ := inv.up.open_of_running (by rw [at_]; rfl)
      have balance : pipe.stream.accepted ++ rest = pipe.carried sock := by
        have whole := inv.up.whole (by rw [at_]; simp)
        rwa [at_] at whole
      refine ⟨UpInv.setUp_whole open_ ?_ ?_, inv.down.of_stream open_ rfl rfl ?_⟩
      · rw [Pc.pending_afterWrite]
        calc (pipe.stream.accepted ++ rest.take count) ++ rest.drop count
            = pipe.stream.accepted ++ rest := by rw [List.append_assoc, List.take_append_drop]
          _ = pipe.carried sock := balance
      · intro n impossible
        rcases afterWrite_cases (rest.drop count) with point | point <;>
          (rw [point] at impossible; cases impossible)
      · rw [setUp_consumed]
        exact Stream.write_consumed _ _
    · cases taken
  · cases taken

theorem Inv.upStep (inv : pipe.Inv sock) {act : Act}
    (taken : pipe.upStep sock source env act = some (next, last)) : next.Inv sock := by
  cases act with
  | control step => exact inv.upControl taken
  | read count => exact inv.upRead taken
  | recv => exact inv.upRecv taken
  | write count => exact inv.upWrite taken
  | readErr =>
      simp only [Pipe.upStep] at taken
      split at taken
      · rename_i deadline live at_
        split at taken
        · cases taken
          exact inv.upErr (by rw [at_]; rfl) (by rw [at_]; rfl) rfl (fun n => by simp) env.lost
        · cases taken
      · cases taken
  | recvErr =>
      simp only [Pipe.upStep] at taken
      split at taken
      · rename_i n at_
        split at taken
        · cases taken
          exact inv.upErr (by rw [at_]; rfl) (by rw [at_]; rfl) rfl (fun n => by simp) env.lost
        · cases taken
      · cases taken
  | writeErr =>
      simp only [Pipe.upStep] at taken
      split at taken
      · rename_i rest at_
        split at taken
        · rename_i cause
          cases taken
          have open_ := inv.up.open_of_running (by rw [at_]; rfl)
          exact ⟨UpInv.setUp_panicked inv.up open_ cause,
            inv.down.of_stream open_ rfl rfl (setUp_consumed _ _)⟩
        · cases taken
      · cases taken

/-- The lower task never touches what the upper half is about. -/
theorem UpInv.of_frame (inv : pipe.UpInv sock) (log : next.log = pipe.log)
    (got : next.got = pipe.got) (up : next.up = pipe.up)
    (accepted : next.stream.accepted = pipe.stream.accepted)
    (ending : next.stream.ending = pipe.stream.ending) : next.UpInv sock := by
  have carried : next.carried sock = pipe.carried sock := by rw [Pipe.carried, log, got, Pipe.carried]
  exact
    { leading := by rw [accepted, up, carried]; exact inv.leading
      whole := by rw [accepted, up, carried]; exact inv.whole
      peeked := by rw [log, got, up]; exact inv.peeked
      ended := by rw [ending, up]; exact inv.ended
      finished := by rw [ending, accepted, carried]; exact inv.finished }

/-- The lower task moves to a point where everything handed out so far is
written or owed. -/
theorem DownInv.setDown_whole {task : Task}
    (balance : pipe.written sock ++ task.pc.pending = pipe.stream.consumed)
    (closed : task.pc = .done .closed →
      pipe.stream.ending = some .fin ∧ pipe.stream.consumed = pipe.stream.accepted) :
    (pipe.setDown task).DownInv sock where
  leading := by
    simp only [setDown_written, setDown_down, setDown_consumed, balance, List.prefix_rfl]
  whole _ := by rw [setDown_written, setDown_down, setDown_consumed, balance]
  closed at_ := by
    rw [setDown_ending, setDown_consumed, setDown_accepted]
    exact closed at_

theorem Inv.downRead (inv : pipe.Inv sock) {count : Nat}
    (taken : pipe.downStep sock env (.read count) = some (next, last)) : next.Inv sock := by
  simp only [downStep] at taken
  split at taken
  · rename_i chosen
    obtain ⟨-, owed, notPanicked⟩ := selects_running chosen
    have balance := inv.down.whole notPanicked
    rw [owed, List.append_nil] at balance
    split at taken
    · split at taken
      · rename_i fits
        cases taken
        refine ⟨inv.up.of_frame rfl rfl rfl (setDown_accepted _) (setDown_ending _),
          DownInv.setDown_whole ?_ (fun impossible => by cases impossible)⟩
        dsimp only [Pc.pending]
        rw [Stream.read_consumed, ← balance]
        rfl
      · cases taken
    · rename_i ended
      split at taken
      · cases taken
        exact ⟨inv.up.of_frame rfl rfl rfl (setDown_accepted _) (setDown_ending _),
          DownInv.setDown_whole ((List.append_nil _).trans balance)
            (fun _ => pipe.stream.poll_finished ended)⟩
      · cases taken
    · cases taken
  · cases taken

theorem Inv.downWrite (inv : pipe.Inv sock) {count : Nat}
    (taken : pipe.downStep sock env (.write count) = some (next, last)) : next.Inv sock := by
  simp only [downStep] at taken
  split at taken
  · rename_i rest at_
    obtain ⟨⟨entries, left⟩, emitted, same⟩ := Option.map_eq_some_iff.mp taken
    cases same
    have balance : pipe.written sock ++ rest = pipe.stream.consumed := by
      have whole := inv.down.whole (by rw [at_]; simp)
      rwa [at_] at whole
    refine ⟨inv.up.of_frame rfl rfl rfl (setDown_accepted _) (setDown_ending _),
      DownInv.setDown_whole ?_ ?_⟩
    · rw [Pc.pending_afterWrite]
      calc (pipe.out ++ entries).flatMap sock.raw ++ left
          = pipe.out.flatMap sock.raw ++ (entries.flatMap sock.raw ++ left) := by
            rw [List.flatMap_append, List.append_assoc]
        _ = pipe.out.flatMap sock.raw ++ rest := by
            rw [sock.emit_raw rest count entries left emitted]
        _ = pipe.stream.consumed := balance
    · intro impossible
      rcases afterWrite_cases left with point | point <;>
        (rw [point] at impossible; cases impossible)
  · cases taken

theorem Inv.downStep (inv : pipe.Inv sock) {act : Act}
    (taken : pipe.downStep sock env act = some (next, last)) : next.Inv sock := by
  cases act with
  | read count => exact inv.downRead taken
  | write count => exact inv.downWrite taken
  | recv => cases taken
  | recvErr => cases taken
  | control step =>
      obtain ⟨task, moved, same⟩ := Option.map_eq_some_iff.mp taken
      cases same
      obtain ⟨notDone, owedBefore, notWrite, -, exits⟩ := Task.control_cases moved
      have balance := inv.down.whole (notDone _)
      rw [owedBefore] at balance
      refine ⟨inv.up.of_frame rfl rfl rfl (setDown_accepted _) (setDown_ending _),
        DownInv.setDown_whole (by rw [Pc.pending_of_ne_write notWrite]; exact balance) ?_⟩
      intro closed
      rcases exits _ closed with impossible | impossible <;> cases impossible
  | readErr =>
      simp only [Pipe.downStep] at taken
      split at taken
      · rename_i deadline live at_
        split at taken
        · cases taken
          have balance := inv.down.whole (by rw [at_]; simp)
          rw [at_] at balance
          exact ⟨inv.up.of_frame rfl rfl rfl (setDown_accepted _) (setDown_ending _),
            DownInv.setDown_whole balance (fun impossible => by cases impossible)⟩
        · cases taken
      · cases taken
  | writeErr =>
      simp only [Pipe.downStep] at taken
      split at taken
      · cases taken
        refine ⟨inv.up.of_frame rfl rfl rfl (setDown_accepted _) (setDown_ending _), ⟨?_, ?_, ?_⟩⟩
        · rw [setDown_written, setDown_down, setDown_consumed]
          simpa [Pc.pending] using (List.prefix_append _ _).trans inv.down.leading
        · intro different
          exact absurd rfl different
        · intro impossible
          cases impossible
      · cases taken

/-- The upper task touches nothing below the stream. -/
theorem upStep_frame {act : Act} (taken : pipe.upStep sock source env act = some (next, last)) :
    next.log = pipe.log ∧ next.out = pipe.out ∧ next.down = pipe.down := by
  cases act with
  | control step =>
      obtain ⟨task, -, same⟩ := Option.map_eq_some_iff.mp taken
      cases same
      exact ⟨rfl, rfl, rfl⟩
  | read count =>
      simp only [Pipe.upStep] at taken
      split at taken
      · split at taken
        · obtain ⟨entry, -, same⟩ := Option.map_eq_some_iff.mp taken
          cases same
          exact ⟨rfl, rfl, rfl⟩
        · split at taken
          · obtain rfl := congrArg Prod.fst (Option.some.inj taken)
            unfold Pipe.afterRead
            split <;> exact ⟨rfl, rfl, rfl⟩
          · cases taken
      · cases taken
  | recv =>
      simp only [Pipe.upStep] at taken
      split at taken
      · split at taken
        · obtain rfl := congrArg Prod.fst (Option.some.inj taken)
          unfold Pipe.afterRead
          split <;> exact ⟨rfl, rfl, rfl⟩
        · cases taken
      · cases taken
  | readErr | recvErr | write count | writeErr =>
      simp only [Pipe.upStep] at taken
      split at taken
      · split at taken <;> cases taken
        exact ⟨rfl, rfl, rfl⟩
      · cases taken

/-- Everything a step of the lower task can do to its own end: hand out a
chunk, pass a pending chunk on, or neither. -/
theorem downStep_cases {act : Act} (taken : pipe.downStep sock env act = some (next, last)) :
    next.log = pipe.log ∧
      ((∃ count chunk, act = .read count ∧ 0 < count ∧ count ≤ tunnelForwarderBufferSize ∧
          pipe.down.pc.pending = [] ∧ pipe.down.pc.isDone = false ∧ next.out = pipe.out ∧
          next.down.pc = .write chunk ∧ chunk.length = count) ∨
        (∃ count rest entries left, act = .write count ∧ pipe.down.pc = .write rest ∧
          sock.emit rest count = some (entries, left) ∧ next.out = pipe.out ++ entries ∧
          next.down.pc = Pc.afterWrite left) ∨
        ((∀ count, act = .read count → count = 0) ∧ (∀ count, act ≠ .write count) ∧
          next.out = pipe.out ∧
          (next.down.pc = .done .panicked ∨
            (pipe.down.pc.pending = [] ∧ pipe.down.pc.isDone = false ∧
              ∀ rest, next.down.pc ≠ .write rest)))) := by
  have running := (downStep_moves taken).running
  cases act with
  | control step =>
      obtain ⟨task, moved, same⟩ := Option.map_eq_some_iff.mp taken
      cases same
      obtain ⟨-, owedBefore, notWrite, -, -⟩ := Task.control_cases moved
      exact ⟨rfl, .inr (.inr ⟨by simp, by simp, rfl, .inr ⟨owedBefore, running, notWrite⟩⟩)⟩
  | read count =>
      simp only [Pipe.downStep] at taken
      split at taken
      · rename_i chosen
        obtain ⟨-, owed, -⟩ := selects_running chosen
        split at taken
        · split at taken
          · rename_i fits
            cases taken
            refine ⟨rfl, .inl ⟨count, _, rfl, fits.1, fits.2.1, owed, running, rfl, rfl, ?_⟩⟩
            have within := pipe.stream.arrived_le
            rw [Stream.chunk, List.length_take, List.length_drop]
            omega
          · cases taken
        · split at taken
          · rename_i zero
            cases taken
            refine ⟨rfl, .inr (.inr ⟨?_, by simp, rfl, .inr ⟨owed, running, by simp⟩⟩)⟩
            intro other same
            cases same
            exact zero
          · cases taken
        · cases taken
      · cases taken
  | write count =>
      simp only [Pipe.downStep] at taken
      split at taken
      · rename_i rest at_
        obtain ⟨⟨entries, left⟩, emitted, same⟩ := Option.map_eq_some_iff.mp taken
        cases same
        exact ⟨rfl, .inr (.inl ⟨count, rest, entries, left, rfl, at_, emitted, rfl, rfl⟩)⟩
      · cases taken
  | readErr =>
      simp only [Pipe.downStep] at taken
      split at taken
      · rename_i deadline live at_
        split at taken <;> cases taken
        exact ⟨rfl, .inr (.inr ⟨by simp, by simp, rfl, .inr ⟨by rw [at_]; rfl, running, by simp⟩⟩)⟩
      · cases taken
  | writeErr =>
      simp only [Pipe.downStep] at taken
      split at taken <;> cases taken
      exact ⟨rfl, .inr (.inr ⟨by simp, by simp, rfl, .inl rfl⟩)⟩
  | recv => cases taken
  | recvErr => cases taken

end Steps

end Pipe
end Net
end Lantun
