import Lantun.Common
import Lantun.Net.Moves

namespace Lantun
namespace Client

open Async Net

/-!
# The one socket all UDP sessions of a client share

The UDP listener of a client binds one socket and hands it to every session it
starts.  A session's `udp_to_tunnel_forwader` finds its own datagrams by looking
first: `peek_from` leaves the datagram in the queue, and only where its source is
the session's application does a `recv` follow, as a step of its own.  Whatever
is in front of the queue by then is what that `recv` removes.

`SharedSocket` is the queue with the history of what has been received from it,
`Reader` is one such forwarder, and `Reader.Moves` says once what a step of a
reader can do to both.  The private pipes of a session in isolation take for
granted that a datagram reaches its own reader; here this has to be shown.
-/

structure Datagram where
  source : SocketAddr
  payload : List UInt8
  deriving DecidableEq, Repr

/-- The bytes that fit into `buf`. -/
def Datagram.clipped (datagram : Datagram) : List UInt8 :=
  datagram.payload.take tunnelForwarderBufferSize

/-- The receive queue.  `received` is history: every datagram removed so far with
the reader that removed it, in order. -/
structure SharedSocket where
  queue : List Datagram
  received : List (Nat × Datagram)
  /-- An error the next operation on the socket will report. -/
  error : Bool
  deriving DecidableEq, Repr

namespace SharedSocket

/-- A read would return at once. -/
def ready (socket : SharedSocket) : Bool := socket.error || !socket.queue.isEmpty

/-- A datagram joins the queue at its tail. -/
def arrive (socket : SharedSocket) (datagram : Datagram) : SharedSocket :=
  { socket with queue := socket.queue ++ [datagram] }

def clearError (socket : SharedSocket) : SharedSocket := { socket with error := false }

/-- `recv` by one reader. -/
def receive (socket : SharedSocket) (id : Nat) (datagram : Datagram) (rest : List Datagram) :
    SharedSocket :=
  { socket with
    queue := rest
    received := socket.received ++ [(id, datagram)] }

/-- Everything that has arrived. -/
def arrivals (socket : SharedSocket) : List Datagram :=
  socket.received.map Prod.snd ++ socket.queue

/-- What one reader has received. -/
def share (socket : SharedSocket) (id : Nat) : List Datagram :=
  (socket.received.filter fun entry => entry.1 = id).map Prod.snd

/-- What has been received of one source, by whomever. -/
def receivedFrom (socket : SharedSocket) (source : SocketAddr) : List Datagram :=
  (socket.received.map Prod.snd).filter fun datagram => datagram.source = source

theorem share_receive (socket : SharedSocket) (id other : Nat) (datagram : Datagram)
    (rest : List Datagram) :
    (socket.receive id datagram rest).share other =
      socket.share other ++ if id = other then [datagram] else [] := by
  by_cases same : id = other <;> simp [share, receive, List.filter_append, same]

theorem receivedFrom_receive (socket : SharedSocket) (id : Nat) (datagram : Datagram)
    (rest : List Datagram) (source : SocketAddr) :
    (socket.receive id datagram rest).receivedFrom source =
      socket.receivedFrom source ++ if datagram.source = source then [datagram] else [] := by
  by_cases same : datagram.source = source <;>
    simp [receivedFrom, receive, List.filter_append, same]

/-- What has been received of a source is a beginning of what has arrived of it. -/
theorem receivedFrom_prefix (socket : SharedSocket) (source : SocketAddr) :
    socket.receivedFrom source <+:
      socket.arrivals.filter (fun datagram => datagram.source = source) := by
  unfold arrivals receivedFrom
  rw [List.filter_append]
  exact List.prefix_append _ _

end SharedSocket

/-- What the tasks of one process share besides the socket. -/
structure Process where
  clock : Nat
  stop : Watch
  lost : Bool
  deriving DecidableEq, Repr

/-- The `udp_to_tunnel_forwader` of one `bi_udp_client`. -/
structure Reader where
  clientLocalAddr : SocketAddr
  task : Task
  /-- The bytes of `buf` that the last matching `peek_from` has filled. -/
  buf : List UInt8
  /-- `last_active`, which the other forwarder of the session stores as well. -/
  lastActive : Nat
  /-- The host does not read the stream any more. -/
  stopped : Bool
  /-- What `tunnel_send` has accepted. -/
  written : List UInt8
  /-- History: how many datagrams had been received when it last peeked. -/
  peeked : Nat
  deriving DecidableEq, Repr

namespace Reader

/-- Right after `tokio::spawn`. -/
def spawned (process : Process) (addr : SocketAddr) (seen : Nat) : Reader where
  clientLocalAddr := addr
  task := ⟨.top, seen⟩
  buf := []
  lastActive := nowSecs process.clock
  stopped := false
  written := []
  peeked := 0

def env (reader : Reader) (process : Process) : Env where
  clock := process.clock
  lastActive := reader.lastActive
  stop := process.stop
  lost := process.lost

def goto (reader : Reader) (pc : Pc) : Reader := { reader with task := { reader.task with pc } }

/-- The matching branch behind `peek_from`, up to the `recv`. -/
def peek (reader : Reader) (socket : SharedSocket) (datagram : Datagram) : Reader :=
  { reader.goto (.recv datagram.clipped.length) with
    buf := datagram.clipped
    peeked := socket.received.length }

/-- `buf[..n]` once a datagram has been received into it. -/
def chunk (reader : Reader) (n : Nat) (datagram : Datagram) : List UInt8 :=
  datagram.payload.take n ++ reader.buf.drop datagram.payload.length

/-- Behind the `recv` of `n` bytes.  Its result is only tested for an error, so
that `n` is still what `peek_from` has returned. -/
def afterRecv (reader : Reader) (process : Process) (n : Nat) (datagram : Datagram) : Reader :=
  if n = 0 then reader.goto (.done .empty)
  else { reader.goto (.write (reader.chunk n datagram)) with lastActive := nowSecs process.clock }

/-- One step of the task, named by its place among all readers of the socket. -/
def step (process : Process) (id : Nat) (socket : SharedSocket) (reader : Reader) :
    Act → Option (SharedSocket × Reader)
  | .control step =>
      (reader.task.control (reader.env process) socket.ready step).map fun task =>
        (socket, { reader with task })
  | .read _ =>
      if reader.task.selects (reader.env process) socket.ready = some .source ∧
          socket.error = false then
        match socket.queue with
        | datagram :: _ =>
            if datagram.source ≠ reader.clientLocalAddr then some (socket, reader.goto .top)
            else some (socket, reader.peek socket datagram)
        | [] => none
      else none
  | .readErr =>
      match reader.task.pc with
      | .select deadline _ =>
          if reader.task.selects (reader.env process) socket.ready = some .source ∧
              socket.error = true then
            some (socket.clearError, reader.goto (.select deadline false))
          else none
      | _ => none
  | .recv =>
      match reader.task.pc, socket.queue with
      | .recv n, datagram :: rest =>
          if socket.error then none
          else some (socket.receive id datagram rest, reader.afterRecv process n datagram)
      | _, _ => none
  | .recvErr =>
      match reader.task.pc with
      | .recv _ => if socket.error then some (socket.clearError, reader.goto .top) else none
      | _ => none
  | .write count =>
      match reader.task.pc with
      | .write rest =>
          if 0 < count ∧ count ≤ rest.length ∧ process.lost = false then
            some (socket, { reader.goto (Pc.afterWrite (rest.drop count)) with
              written := reader.written ++ rest.take count })
          else none
      | _ => none
  | .writeErr =>
      match reader.task.pc with
      | .write _ =>
          if reader.stopped || process.lost then some (socket, reader.goto (.done .panicked))
          else none
      | _ => none

/-- To its task a reader does what the forwarders over sockets of their own do. -/
theorem taskMoves_of_step {process : Process} {id : Nat} {socket after : SharedSocket}
    {reader next : Reader} {act : Act}
    (taken : reader.step process id socket act = some (after, next)) :
    Task.Moves (reader.env process) socket.ready reader.task act next.task next.lastActive := by
  cases act with
  | control step =>
      rcases Option.map_eq_some_iff.mp taken with ⟨task, moved, same⟩
      cases same
      exact .control moved
  | read count =>
      simp only [step] at taken
      split at taken
      · rename_i chosen
        split at taken
        · split at taken <;> cases taken
          · exact .foreign chosen.1
          · exact .peek chosen.1
        · cases taken
      · cases taken
  | readErr =>
      simp only [step] at taken
      split at taken
      · rename_i at_
        split at taken <;> cases taken
        rename_i chosen
        exact .readErr at_ chosen.1
      · cases taken
  | recv =>
      simp only [step] at taken
      split at taken
      · rename_i at_ _
        split at taken <;> cases taken
        unfold afterRecv
        split
        · exact .recvEmpty at_
        · exact .recv at_
      · cases taken
  | recvErr =>
      simp only [step] at taken
      split at taken
      · rename_i at_
        split at taken <;> cases taken
        exact .recvErr at_
      · cases taken
  | write count =>
      simp only [step] at taken
      split at taken
      · rename_i at_
        split at taken <;> cases taken
        rename_i accepts
        refine .write at_ (Or.inr ?_)
        rw [List.length_drop]
        omega
      · cases taken
  | writeErr =>
      simp only [step] at taken
      split at taken
      · rename_i at_
        split at taken <;> cases taken
        exact .writeErr at_
      · cases taken

/-- Everything a step of a reader can do. -/
inductive Moves (process : Process) (id : Nat) (socket : SharedSocket) (reader : Reader) :
    Act → SharedSocket → Reader → Prop where
  /-- It goes on without touching the queue, having nothing in hand. -/
  | idle {act : Act} {after : SharedSocket} {task : Task} :
      act ≠ .recv → after.queue = socket.queue → after.received = socket.received →
        reader.task.pc.isDone = false → reader.task.pc.pending = [] →
          (∀ bytes, task.pc ≠ .write bytes) → (∀ n, task.pc ≠ .recv n) →
            task.pc ≠ .done .panicked → Moves process id socket reader act after { reader with task }
  | peek {count : Nat} {datagram : Datagram} {rest : List Datagram} :
      socket.queue = datagram :: rest → datagram.source = reader.clientLocalAddr →
        reader.task.pc.isDone = false → reader.task.pc.pending = [] →
          Moves process id socket reader (.read count) socket (reader.peek socket datagram)
  | recv {n : Nat} {datagram : Datagram} {rest : List Datagram} :
      reader.task.pc = .recv n → socket.queue = datagram :: rest →
        Moves process id socket reader .recv (socket.receive id datagram rest)
          (reader.afterRecv process n datagram)
  | write {count : Nat} {bytes : List UInt8} :
      reader.task.pc = .write bytes →
        Moves process id socket reader (.write count) socket
          { reader.goto (Pc.afterWrite (bytes.drop count)) with
            written := reader.written ++ bytes.take count }
  | panic {bytes : List UInt8} :
      reader.task.pc = .write bytes →
        Moves process id socket reader .writeErr socket (reader.goto (.done .panicked))

theorem moves_of_step {process : Process} {id : Nat} {socket after : SharedSocket}
    {reader next : Reader} {act : Act}
    (taken : reader.step process id socket act = some (after, next)) :
    Moves process id socket reader act after next := by
  have running := (taskMoves_of_step taken).running
  cases act with
  | control step =>
      rcases Option.map_eq_some_iff.mp taken with ⟨task, moved, same⟩
      cases same
      rcases Task.control_cases moved with ⟨_, owes, noWrite, noRecv, exits⟩
      refine .idle (by simp) rfl rfl running owes noWrite noRecv ?_
      intro panicked
      rcases exits _ panicked with is | is <;> cases is
  | read count =>
      simp only [step] at taken
      split at taken
      · rename_i chosen
        rcases Task.selects_pc chosen.1 with ⟨deadline, live, at_⟩
        split at taken
        · rename_i datagram rest front
          split at taken <;> cases taken
          · exact .idle (by simp) rfl rfl running (by rw [at_]; rfl) (by simp) (by simp)
              (by simp)
          · rename_i matching
            exact .peek front (not_not.mp matching) running (by rw [at_]; rfl)
        · cases taken
      · cases taken
  | readErr =>
      simp only [step] at taken
      split at taken
      · rename_i at_
        split at taken <;> cases taken
        exact .idle (by simp) rfl rfl running (by rw [at_]; rfl) (by simp) (by simp)
          (by simp)
      · cases taken
  | recv =>
      simp only [step] at taken
      split at taken
      · rename_i at_ front
        split at taken <;> cases taken
        exact .recv at_ front
      · cases taken
  | recvErr =>
      simp only [step] at taken
      split at taken
      · rename_i at_
        split at taken <;> cases taken
        exact .idle (by simp) rfl rfl running (by rw [at_]; rfl) (by simp) (by simp)
          (by simp)
      · cases taken
  | write count =>
      simp only [step] at taken
      split at taken
      · rename_i at_
        split at taken <;> cases taken
        exact .write at_
      · cases taken
  | writeErr =>
      simp only [step] at taken
      split at taken
      · rename_i at_
        split at taken <;> cases taken
        exact .panic at_
      · cases taken

variable {process : Process} {id : Nat} {socket after : SharedSocket} {reader next : Reader}
  {act : Act}

@[simp] theorem clientLocalAddr_afterRecv (reader : Reader) (process : Process) (n : Nat)
    (datagram : Datagram) :
    (reader.afterRecv process n datagram).clientLocalAddr = reader.clientLocalAddr := by
  unfold afterRecv
  split <;> rfl

@[simp] theorem written_afterRecv (reader : Reader) (process : Process) (n : Nat)
    (datagram : Datagram) : (reader.afterRecv process n datagram).written = reader.written := by
  unfold afterRecv
  split <;> rfl

theorem Moves.addr (moves : Moves process id socket reader act after next) :
    next.clientLocalAddr = reader.clientLocalAddr := by
  cases moves with
  | recv at_ front => simp
  | _ => rfl

theorem Moves.running (moves : Moves process id socket reader act after next) :
    reader.task.pc.isDone = false := by
  cases moves with
  | idle _ _ _ running => exact running
  | peek _ _ running => exact running
  | recv at_ | write at_ | panic at_ =>
      rw [at_]
      rfl

end Reader

end Client
end Lantun
