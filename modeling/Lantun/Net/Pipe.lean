import Lantun.Net.Forwarder

namespace Lantun
namespace Net

open Async

/-!
# One direction of a tunneled session

A direction starts at a local socket, is carried by one forwarder onto a QUIC
stream, and is carried by the forwarder at the other end into the socket there.
The two tasks run in different processes, so each sees the clock, stop channel,
`last_active` and connection of its own side.

A socket is described by what one read takes off it and what one write adds to
it.  A byte socket is read in pieces of any size up to the buffer and written
piecewise; a datagram socket gives one datagram per read, cut to the buffer,
and takes one per write.  Both descriptions carry the laws every later
statement about bytes rests on.
-/

/-- A kind of local socket, as a sequence of entries of type `α`. -/
structure Sock (α : Type) where
  raw : α → List UInt8
  /-- Whether one read may take this many entries. -/
  takes : Nat → Bool
  /-- One write call on `bytes` accepting `count` of them: the entries it adds
  and the bytes it leaves. -/
  emit : List UInt8 → Nat → Option (List α × List UInt8)
  /-- Whether the application can end its side. -/
  hasEof : Bool
  clip : ∀ entries : List α, takes entries.length = true →
    (entries.flatMap raw).take tunnelForwarderBufferSize =
      entries.flatMap (fun entry => (raw entry).take tunnelForwarderBufferSize)
  emit_raw : ∀ bytes count (entries : List α) rest, emit bytes count = some (entries, rest) →
    entries.flatMap raw ++ rest = bytes
  emit_shorter : ∀ bytes count (entries : List α) rest, emit bytes count = some (entries, rest) →
    rest = [] ∨ rest.length < bytes.length
  /-- One write call may accept everything. -/
  emit_whole : ∀ bytes, bytes ≠ [] → ∃ entries, emit bytes bytes.length = some (entries, [])

namespace Sock

/-- What the tunnel carries of one entry. -/
def clipped {α : Type} (sock : Sock α) (entry : α) : List UInt8 :=
  (sock.raw entry).take tunnelForwarderBufferSize

theorem flatMap_singleton (bytes : List UInt8) : bytes.flatMap (fun byte => [byte]) = bytes := by
  induction bytes with
  | nil => rfl
  | cons byte rest ih => rw [List.flatMap_cons, ih, List.singleton_append]

/-- A TCP socket: a byte stream. -/
def tcp : Sock UInt8 where
  raw byte := [byte]
  takes count := decide (0 < count) && decide (count ≤ tunnelForwarderBufferSize)
  emit bytes count :=
    if 0 < count ∧ count ≤ bytes.length then some (bytes.take count, bytes.drop count) else none
  hasEof := true
  clip entries within := by
    have parts := Bool.and_eq_true_iff.mp within
    have short := of_decide_eq_true parts.2
    rw [flatMap_singleton, List.take_of_length_le short]
    exact (flatMap_singleton entries).symm
  emit_raw bytes count entries rest emitted := by
    split at emitted
    · cases emitted
      rw [flatMap_singleton, List.take_append_drop]
    · cases emitted
  emit_shorter bytes count entries rest emitted := by
    split at emitted
    · rename_i fits
      cases emitted
      right
      rw [List.length_drop]
      omega
    · cases emitted
  emit_whole bytes some_ := by
    refine ⟨bytes, ?_⟩
    rw [if_pos ⟨List.length_pos_iff.mpr some_, Nat.le_refl _⟩, List.take_length, List.drop_length]

/-- A UDP socket: a sequence of datagrams. -/
def udp : Sock (List UInt8) where
  raw datagram := datagram
  takes count := decide (count = 1)
  emit bytes _ := some ([bytes], [])
  hasEof := false
  clip entries one := by
    have length := of_decide_eq_true one
    obtain ⟨datagram, rfl⟩ := List.length_eq_one_iff.mp length
    simp
  emit_raw bytes count entries rest emitted := by
    cases emitted
    simp
  emit_shorter bytes count entries rest emitted := by
    cases emitted
    exact Or.inl rfl
  emit_whole bytes _ := ⟨[bytes], rfl⟩

end Sock

/-- The state of one direction. -/
structure Pipe (α : Type) where
  /-- Everything the application at the source has sent into its socket. -/
  log : List α
  /-- How much of it has been received from the socket. -/
  got : Nat
  eof : Bool
  /-- An error the next socket read will report. -/
  sockError : Bool
  up : Task
  stream : Stream
  down : Task
  /-- Everything written to the socket at the far end. -/
  out : List α
  got_le : got ≤ log.length
  deriving DecidableEq

inductive Role where
  /-- Socket to tunnel. -/
  | up
  /-- Tunnel to socket. -/
  | down
  deriving DecidableEq, Repr

/-- A step of a forwarder, with what the surroundings decide for it. -/
inductive Act where
  | control (step : Control)
  /-- The read branch with a result of the given size. -/
  | read (count : Nat)
  /-- The read branch is ready with an error, so its pattern disables it. -/
  | readErr
  /-- The `recv` that follows a matching `peek_from`. -/
  | recv
  | recvErr
  /-- The pending write accepts the given number of bytes. -/
  | write (count : Nat)
  /-- The pending write fails and is unwrapped. -/
  | writeErr
  deriving DecidableEq, Repr

def Pc.isDone : Pc → Bool
  | .done _ => true
  | _ => false

/-- A task that ends without having read `None` drops an unread receive half. -/
def Pc.stopsReading : Pc → Bool
  | .done exit => decide (exit ≠ .closed)
  | _ => false

/-- Where a write leaves the task. -/
def Pc.afterWrite (rest : List UInt8) : Pc := if rest = [] then .top else .write rest

theorem Pc.pending_afterWrite (rest : List UInt8) : (Pc.afterWrite rest).pending = rest := by
  unfold afterWrite
  split
  · rename_i empty
    rw [empty]
    rfl
  · rfl

theorem Pc.ne_nil_of_afterWrite {left rest : List UInt8} (owes : Pc.afterWrite left = .write rest) :
    rest ≠ [] := by
  unfold afterWrite at owes
  split at owes <;> cases owes
  assumption

theorem Pc.afterWrite_ne_done (rest : List UInt8) (exit : Exit) : Pc.afterWrite rest ≠ .done exit := by
  unfold afterWrite
  split <;> simp

namespace Pipe

variable {α : Type}

/-- Before the session starts. -/
def start (seenUp seenDown : Nat) : Pipe α where
  log := []
  got := 0
  eof := false
  sockError := false
  up := ⟨.top, seenUp⟩
  stream := .opened
  down := ⟨.top, seenDown⟩
  out := []
  got_le := Nat.zero_le _

/-! ## What the application and the network do -/

def send (pipe : Pipe α) (entry : α) : Pipe α :=
  { pipe with
    log := pipe.log ++ [entry]
    got_le := Nat.le_trans pipe.got_le (by simp) }

def deliver (pipe : Pipe α) (count : Nat) : Pipe α := { pipe with stream := pipe.stream.deliver count }

def deliverEnd (pipe : Pipe α) : Pipe α := { pipe with stream := pipe.stream.deliverEnd }

/-! ## What the two tasks do -/

/-- Whether the socket read at the source would return at once.  Not every system wakes
a reader for the pending error of a datagram socket; where it does not, the error is met
in front of the next datagram. -/
def upReady (pipe : Pipe α) : Bool :=
  pipe.sockError || decide (pipe.got < pipe.log.length) || pipe.eof

def downReady (pipe : Pipe α) (lost : Bool) : Bool := decide (pipe.stream.poll lost ≠ .pending)

/-- Moving the upper task; when it ends, `tunnel_send` is dropped with it. -/
def setUp (pipe : Pipe α) (lost : Bool) (task : Task) : Pipe α :=
  { pipe with
    up := task
    stream := if task.pc.isDone then pipe.stream.dropSend lost else pipe.stream }

/-- Moving the lower task; when it ends, `tunnel_recv` is dropped with it. -/
def setDown (pipe : Pipe α) (task : Task) : Pipe α :=
  { pipe with
    down := task
    stream := if task.pc.stopsReading then pipe.stream.dropRecv else pipe.stream }

/-- The socket gives up its next `count` entries. -/
def take (pipe : Pipe α) (count : Nat) (enough : pipe.got + count ≤ pipe.log.length) : Pipe α :=
  { pipe with
    got := pipe.got + count
    got_le := enough }

/-- The socket has reported its error. -/
def clearError (pipe : Pipe α) : Pipe α := { pipe with sockError := false }

/-- The stream accepts `bytes`. -/
def accept (pipe : Pipe α) (bytes : List UInt8) : Pipe α :=
  { pipe with stream := pipe.stream.write bytes }

/-- The body of the upper read branch behind the receive: an empty chunk ends
the loop, anything else is noted as activity and then written. -/
def afterRead (pipe : Pipe α) (env : Env) (chunk : List UInt8) : Pipe α × Nat :=
  if chunk = [] then (pipe.setUp env.lost { pipe.up with pc := .done .empty }, env.lastActive)
  else (pipe.setUp env.lost { pipe.up with pc := .write chunk }, nowSecs env.clock)

/-- One read takes `count` entries, or is the end the application declared. -/
def admits (sock : Sock α) (pipe : Pipe α) (count : Nat) : Bool :=
  decide (pipe.got + count ≤ pipe.log.length) &&
    (sock.takes count ||
      (pipe.eof && decide (count = 0) && decide (pipe.got = pipe.log.length)))

theorem enough_of_admits {sock : Sock α} {pipe : Pipe α} {count : Nat}
    (admitted : pipe.admits sock count = true) : pipe.got + count ≤ pipe.log.length :=
  of_decide_eq_true (Bool.and_eq_true_iff.mp admitted).1

/-- A step of the socket-to-tunnel task, with the `last_active` it leaves. -/
def upStep (sock : Sock α) (source : SourceRead) (env : Env) (pipe : Pipe α) :
    Act → Option (Pipe α × Nat)
  | .control step =>
      (pipe.up.control env pipe.upReady step).map fun task =>
        (pipe.setUp env.lost task, env.lastActive)
  | .read count =>
      if pipe.up.selects env pipe.upReady = some .source ∧ pipe.sockError = false then
        match source with
        | .udpPeekFrom =>
            -- the datagram stays in the socket; only its clipped length is kept
            (pipe.log[pipe.got]?).map fun entry =>
              (pipe.setUp env.lost { pipe.up with pc := .recv (sock.clipped entry).length },
                env.lastActive)
        | _ =>
            if admitted : pipe.admits sock count = true then
              some ((pipe.take count (enough_of_admits admitted)).afterRead env
                ((((pipe.log.drop pipe.got).take count).flatMap sock.raw).take
                  tunnelForwarderBufferSize))
            else none
      else none
  | .readErr =>
      match pipe.up.pc with
      | .select deadline _ =>
          if pipe.up.selects env pipe.upReady = some .source ∧ pipe.sockError = true then
            some (pipe.clearError.setUp env.lost { pipe.up with pc := .select deadline false },
              env.lastActive)
          else none
      | _ => none
  | .recv =>
      match pipe.up.pc, pipe.log[pipe.got]? with
      | .recv n, some entry =>
          if fits : pipe.got + 1 ≤ pipe.log.length ∧ pipe.sockError = false then
            some ((pipe.take 1 fits.1).afterRead env ((sock.raw entry).take n))
          else none
      | _, _ => none
  | .recvErr =>
      match pipe.up.pc with
      | .recv _ =>
          if pipe.sockError = true then
            some (pipe.clearError.setUp env.lost { pipe.up with pc := .top }, env.lastActive)
          else none
      | _ => none
  | .write count =>
      match pipe.up.pc with
      | .write rest =>
          if 0 < count ∧ count ≤ rest.length ∧ env.lost = false then
            some ((pipe.accept (rest.take count)).setUp env.lost
              { pipe.up with pc := Pc.afterWrite (rest.drop count) }, env.lastActive)
          else none
      | _ => none
  | .writeErr =>
      match pipe.up.pc with
      | .write _ =>
          if pipe.stream.stopped || env.lost then
            some (pipe.setUp env.lost { pipe.up with pc := .done .panicked }, env.lastActive)
          else none
      | _ => none

/-- A step of the tunnel-to-socket task.  `read` never yields `Some(0)` into a
nonempty buffer, so the source's `n == 0` test has no case of its own. -/
def downStep (sock : Sock α) (env : Env) (pipe : Pipe α) : Act → Option (Pipe α × Nat)
  | .control step =>
      (pipe.down.control env (pipe.downReady env.lost) step).map fun task =>
        (pipe.setDown task, env.lastActive)
  | .read count =>
      if pipe.down.selects env (pipe.downReady env.lost) = some .source then
        match pipe.stream.poll env.lost with
        | .data =>
            if fits : 0 < count ∧ count ≤ tunnelForwarderBufferSize ∧
                count ≤ pipe.stream.arrived - pipe.stream.pos then
              some ({ pipe with stream := pipe.stream.read count fits.2.2 }.setDown
                { pipe.down with pc := .write (pipe.stream.chunk count) }, nowSecs env.clock)
            else none
        | .finished =>
            if count = 0 then
              some (pipe.setDown { pipe.down with pc := .done .closed }, env.lastActive)
            else none
        | _ => none
      else none
  | .readErr =>
      match pipe.down.pc with
      | .select deadline _ =>
          if pipe.down.selects env (pipe.downReady env.lost) = some .source ∧
              pipe.stream.poll env.lost = .failed then
            some (pipe.setDown { pipe.down with pc := .select deadline false }, env.lastActive)
          else none
      | _ => none
  | .write count =>
      match pipe.down.pc with
      | .write rest =>
          (sock.emit rest count).map fun (entries, left) =>
            ({ pipe with out := pipe.out ++ entries }.setDown
              { pipe.down with pc := Pc.afterWrite left }, env.lastActive)
      | _ => none
  | .writeErr =>
      match pipe.down.pc with
      | .write _ => some (pipe.setDown { pipe.down with pc := .done .panicked }, env.lastActive)
      | _ => none
  | _ => none

end Pipe

end Net
end Lantun
