import Lantun.Async.Watch
import Lantun.Async.Stream

namespace Lantun
namespace Net

open Async

/-!
# The forwarder loop

All eight forwarder tasks of `tcp.rs` and `udp.rs` are one loop.  Each round
reads the clock and the shared `last_active`, computes how long the session may
still stay idle, and then waits in a biased `select!` for the stop channel, for
data at its source, or for that time to run out.  The rounds differ in the
source they read and the sink they write, and `bi_udp_client` in how it takes a
datagram off the socket it shares.

This module has the part that is the same in every forwarder: the program
points, the timeout arithmetic, and the branches that touch no data.  The clock
counts nanoseconds, so that `now_secs` is a genuine truncation.
-/

/-- `TUNNEL_FORWARDER_BUFFER_SIZE`. -/
def tunnelForwarderBufferSize : Nat := 1024

/-- `CONNECTION_TIMEOUT_SECONDS`. -/
def connectionTimeoutSeconds : Nat := 20

def nanosPerSec : Nat := 1000000000

/-- `now_secs`: whole seconds of a clock that is finer than that. -/
def nowSecs (clock : Nat) : Nat := clock / nanosPerSec

/-- The idle time a forwarder still grants, in whole seconds.  The subtraction
`now.saturating_sub(last)` is truncated, the one below it never needs to be. -/
def timeout (now last : Nat) : Nat :=
  let elapsed := now - last
  if elapsed ≥ connectionTimeoutSeconds then 0 else connectionTimeoutSeconds - elapsed

/-- How a socket-to-tunnel loop reads its socket. -/
inductive SourceRead where
  /-- `tcp_read.read(&mut buf)`. -/
  | tcpRead
  /-- `udp_read.recv(&mut buf)` on a connected socket. -/
  | udpRecv
  /-- `udp_read.peek_from(&mut buf)`, then `recv(&mut buf[..n])`. -/
  | udpPeekFrom
  deriving DecidableEq, Repr

/-- How a forwarder task ended. -/
inductive Exit where
  /-- The stop channel carried `true`. -/
  | stopped
  /-- The tunnel stream returned `None`. -/
  | closed
  /-- A read returned zero bytes. -/
  | empty
  | timedOut
  /-- A write failed and its `unwrap` panicked. -/
  | panicked
  deriving DecidableEq, Repr

/-- Where a forwarder task stands. -/
inductive Pc where
  /-- Before `now_secs()` at the head of a round. -/
  | top
  /-- The clock is read, `last_active` is not. -/
  | loaded (now : Nat)
  /-- Suspended in `select!`; `live` is cleared once the read branch has been
  disabled by an error for this call. -/
  | select (deadline : Nat) (live : Bool)
  /-- A matching datagram of `n` buffered bytes was peeked, not yet received. -/
  | recv (n : Nat)
  /-- Bytes read from the source that the sink has not accepted yet. -/
  | write (rest : List UInt8)
  /-- The sleep ran out, the clock is not read again yet. -/
  | woken
  | recheck (now : Nat)
  | done (exit : Exit)
  deriving DecidableEq, Repr

/-- The bytes a task has taken from its source and still owes its sink. -/
def Pc.pending : Pc → List UInt8
  | .write rest => rest
  | _ => []

theorem Pc.pending_of_ne_write {pc : Pc} (other : ∀ rest, pc ≠ .write rest) : pc.pending = [] := by
  cases pc with
  | write rest => exact absurd rfl (other rest)
  | _ => rfl

/-- A task and the version of the stop channel its receiver has seen. -/
structure Task where
  pc : Pc
  seen : Nat
  deriving DecidableEq, Repr

/-- What a task can observe of its own process. -/
structure Env where
  clock : Nat
  lastActive : Nat
  stop : Watch
  /-- The QUIC connection is lost on this side. -/
  lost : Bool
  deriving DecidableEq, Repr

/-- The steps of a round that move no data. -/
inductive Control where
  | now
  | load
  | stop
  | sleep
  | wake
  | recheck
  deriving DecidableEq, Repr

namespace Task

/-- The branch a suspended task takes, given whether its source is ready. -/
def selects (env : Env) (ready : Bool) (task : Task) : Option Branch :=
  match task.pc with
  | .select deadline live =>
      biased (env.stop.ready task.seen) (live && ready) (decide (deadline ≤ env.clock))
  | _ => none

/-- One step that moves no data.  Where `stop_rx.changed()` completed without
the value `true`, the loop goes around. -/
def control (env : Env) (ready : Bool) (task : Task) : Control → Option Task
  | .now =>
      match task.pc with
      | .top => some { task with pc := .loaded (nowSecs env.clock) }
      | _ => none
  | .load =>
      match task.pc with
      | .loaded now =>
          some { task with
            pc := .select (env.clock + timeout now env.lastActive * nanosPerSec) true }
      | _ => none
  | .stop =>
      if task.selects env ready = some .stop then
        some ⟨if env.stop.value then .done .stopped else .top, env.stop.seenAfter task.seen⟩
      else none
  | .sleep =>
      if task.selects env ready = some .sleep then some { task with pc := .woken } else none
  | .wake =>
      match task.pc with
      | .woken => some { task with pc := .recheck (nowSecs env.clock) }
      | _ => none
  | .recheck =>
      match task.pc with
      | .recheck now =>
          some { task with
            pc := if now - env.lastActive ≥ connectionTimeoutSeconds then .done .timedOut else .top }
      | _ => none

/-- A branch is taken from inside `select!` only. -/
theorem selects_pc {env : Env} {ready : Bool} {task : Task} {branch : Branch}
    (chosen : task.selects env ready = some branch) :
    ∃ deadline live, task.pc = .select deadline live := by
  unfold selects at chosen
  split at chosen
  · rename_i deadline live at_
    exact ⟨deadline, live, at_⟩
  · cases chosen

/-- Everything a control step can do to the program point: it starts from a
point that owes no bytes, and ends at such a point, either further on in the
round or finished by the stop channel or the idle timeout. -/
theorem control_cases {env : Env} {ready : Bool} {task next : Task} {step : Control}
    (taken : task.control env ready step = some next) :
    (∀ exit, task.pc ≠ .done exit) ∧ task.pc.pending = [] ∧ (∀ rest, next.pc ≠ .write rest) ∧
      (∀ n, next.pc ≠ .recv n) ∧
      (∀ exit, next.pc = .done exit → exit = .stopped ∨ exit = .timedOut) := by
  cases step with
  | now | load | wake =>
      simp only [control] at taken
      split at taken
      · rename_i at_
        cases taken
        simp [at_, Pc.pending]
      · cases taken
  | stop =>
      simp only [control] at taken
      split at taken
      · rename_i chosen
        obtain ⟨deadline, live, at_⟩ := selects_pc chosen
        cases taken
        cases env.stop.value <;> simp [at_, Pc.pending]
      · cases taken
  | sleep =>
      simp only [control] at taken
      split at taken
      · rename_i chosen
        obtain ⟨deadline, live, at_⟩ := selects_pc chosen
        cases taken
        simp [at_, Pc.pending]
      · cases taken
  | recheck =>
      simp only [control] at taken
      split at taken
      · rename_i now at_
        cases taken
        by_cases idle : now - env.lastActive ≥ connectionTimeoutSeconds <;>
          simp [at_, idle, Pc.pending]
      · cases taken

end Task

end Net
end Lantun
