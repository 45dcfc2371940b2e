import Lantun.Common
import Lantun.Net.Join

namespace Lantun
namespace Client

open Async Net

/-!
# The listener task of a connected client tunnel

`ClientTunnel::connect` spawns one task, `connection_listener`.  It binds the
tunnel's socket, and then, one local application after the other, opens a
bidirectional stream, sends a `ConnReq` on a stream of its own, registers the
connection, and waits inside `bi_tcp_stream_client` or `bi_udp_client` until the
session is over.  Every `?` on the way ends the task, and nothing outside it is
told.

The two protocols have the same program points.  They differ at the selection:
TCP takes an application out of the accept queue, UDP only looks at the head of
its socket and goes around if that address has a session already.  An error of
either does not match the pattern `Ok(..)` of its branch.  It disables the branch
until the selection completes otherwise, and only the stop channel is left for that.
-/

/-- The variants of `ClientError` that this development meets. -/
inductive ClientError where
  | failedToCreateEndpoint (message : String)
  | ioError
  | tunnelAlreadyExists (addr : SocketAddr) (protocol : TunnelProtocol)
  | failedToConnect (message : String)
  | connectionError
  | alreadyConnected
  | notConnected
  deriving DecidableEq, Repr

/-- What the task's join handle will yield, where the task has ended. -/
inductive Ended where
  | ok
  | error (reason : ClientError)
  deriving DecidableEq, Repr

/-- Where the listener task stands. -/
inductive Listener where
  | binding
  | select
  /-- In its selection, with the accepting branch disabled by an error. -/
  | deaf
  /-- Waiting for `conn.open_bi`. -/
  | opening (addr : SocketAddr)
  /-- Waiting for `send_packet`. -/
  | sending (addr : SocketAddr)
  /-- Waiting for the forwarders of a session. -/
  | session (addr : SocketAddr) (forwarders : Forwarders)
  | ended (result : Ended)
  deriving DecidableEq, Repr

/-- What one successful `connect` has set up: the parts of
`RunningClientTunnelProps` that are shared with the spawned task, and the task. -/
structure Connected where
  localConnections : LocalConnections
  /-- The channel of `stop_tx`. -/
  stop : Watch
  /-- The version the listener's own receiver has seen. -/
  seen : Nat
  /-- The connection is closed by either side, or lost. -/
  closed : Bool
  listener : Listener
  /-- Forwarders that still run although their session has returned. -/
  detached : Nat
  deriving DecidableEq

inductive ListenerAct where
  | bound
  | bindFails
  /-- The branch `_ = stop_rx.changed()`. -/
  | stop
  /-- The branch that accepts, or peeks at, a local application. -/
  | incoming (addr : SocketAddr)
  /-- That branch gets an error. -/
  | incomingFails
  | opened
  | openFails
  | sent
  | sendFails
  /-- A forwarder of the current session ends. -/
  | forwarderEnds (role : Role) (status : TaskStatus)
  /-- `try_join!` returns, and `disconnect_local_connection` after it. -/
  | join
  | detachedEnds
  deriving DecidableEq, Repr

/-- The steps at which a `?` of the listener returns an error. -/
def ListenerAct.fails : ListenerAct → Bool
  | .bindFails | .openFails | .sendFails => true
  | _ => false

def Listener.isEnded : Listener → Bool
  | .ended _ => true
  | _ => false

/-- The task is suspended in its selection. -/
def Listener.selects : Listener → Bool
  | .select | .deaf => true
  | _ => false

theorem Listener.selects_cases {listener : Listener} (selects : listener.selects = true) :
    listener = .select ∨ listener = .deaf := by
  cases listener with
  | select => exact Or.inl rfl
  | deaf => exact Or.inr rfl
  | _ => cases selects

theorem Listener.running_of_selects {listener : Listener} (selects : listener.selects = true) :
    listener.isEnded = false := by
  rcases selects_cases selects with rfl | rfl <;> rfl

/-- The task lives, and is not inside `send_packet`. -/
def Listener.between : Listener → Bool
  | .sending _ | .ended _ => false
  | _ => true

namespace Connected

/-- Right after `tokio::spawn`. -/
def spawned : Connected where
  localConnections := ∅
  stop := Watch.channel false
  seen := 0
  closed := false
  listener := .binding
  detached := 0

/-- `LocalClientConnection` as the client fills it in. -/
def localConnection (addr : SocketAddr) : LocalClientConnection where
  clientLocalAddr := addr
  clientVirtualAddr := getUnspecified true

/-- Behind the accepting branch, up to the first wait. -/
def afterIncoming (protocol : TunnelProtocol) (connected : Connected) (addr : SocketAddr) :
    Connected :=
  match protocol with
  | .tcp => { connected with listener := .opening addr }
  | .udp =>
      if addr ∈ connected.localConnections then connected
      else { connected with listener := .opening addr }

/-- One step of the task, or of a forwarder it has spawned. -/
def step (protocol : TunnelProtocol) (connected : Connected) : ListenerAct → Option Connected
  | .bound =>
      match connected.listener with
      | .binding => some { connected with listener := .select }
      | _ => none
  | .bindFails =>
      match connected.listener with
      | .binding => some { connected with listener := .ended (.error .ioError) }
      | _ => none
  | .stop =>
      if connected.listener.selects = true ∧ connected.stop.ready connected.seen = true then
        some { connected with
          seen := connected.stop.seenAfter connected.seen
          listener := if connected.stop.value then .ended .ok else .select }
      else none
  | .incoming addr =>
      match connected.listener with
      | .select =>
          -- the selection is biased towards the stop channel
          if connected.stop.ready connected.seen then none
          else some (connected.afterIncoming protocol addr)
      | _ => none
  | .incomingFails =>
      match connected.listener with
      | .select =>
          if connected.stop.ready connected.seen then none
          else some { connected with listener := .deaf }
      | _ => none
  | .opened =>
      match connected.listener with
      | .opening addr =>
          if connected.closed then none else some { connected with listener := .sending addr }
      | _ => none
  | .openFails =>
      match connected.listener with
      | .opening _ =>
          if connected.closed then
            some { connected with listener := .ended (.error .connectionError) }
          else none
      | _ => none
  | .sent =>
      match connected.listener with
      | .sending addr =>
          if connected.closed then none
          else some { connected with
            localConnections := connected.localConnections.insert addr (localConnection addr)
            listener := .session addr Forwarders.spawned }
      | _ => none
  | .sendFails =>
      -- also open to a host that stops reading the control stream
      match connected.listener with
      | .sending _ => some { connected with listener := .ended (.error .ioError) }
      | _ => none
  | .forwarderEnds role status =>
      match connected.listener with
      | .session addr forwarders =>
          if forwarders.status role = .running ∧ status ≠ .running then
            some { connected with listener := .session addr (forwarders.setStatus role status) }
          else none
      | _ => none
  | .join =>
      match connected.listener with
      | .session addr forwarders =>
          if forwarders.joined then
            some { connected with
              localConnections := connected.localConnections.erase addr
              detached := connected.detached + forwarders.left
              listener := .select }
          else none
      | _ => none
  | .detachedEnds =>
      match connected.detached with
      | detached + 1 => some { connected with detached := detached }
      | 0 => none

/-- The receivers of the stop channel that are alive: the listener's own, and
one in every running forwarder. -/
def receivers (connected : Connected) : Nat :=
  connected.detached +
    match connected.listener with
    | .ended _ => 0
    | .session _ forwarders => 1 + forwarders.left
    | _ => 1

/-- Nobody is left to receive a stop: the listener has ended, and with it every
forwarder that had been abandoned before. -/
def Deserted (connected : Connected) : Prop :=
  connected.listener.isEnded = true ∧ connected.detached = 0

instance (connected : Connected) : Decidable connected.Deserted :=
  inferInstanceAs (Decidable (_ ∧ _))

theorem receivers_eq_zero {connected : Connected} :
    connected.receivers = 0 ↔ connected.Deserted := by
  cases at_ : connected.listener <;>
    simp [receivers, Deserted, Listener.isEnded, at_]

/-- A step leaves the stop channel and the closing of the connection to
others. -/
theorem step_frame {protocol : TunnelProtocol} {connected next : Connected} {act : ListenerAct}
    (taken : connected.step protocol act = some next) :
    next.stop = connected.stop ∧ next.closed = connected.closed := by
  cases act with
  | detachedEnds =>
      simp only [step] at taken
      split at taken <;> cases taken
      exact ⟨rfl, rfl⟩
  | bound | bindFails | sendFails =>
      simp only [step] at taken
      split at taken <;> cases taken
      exact ⟨rfl, rfl⟩
  | incoming addr =>
      simp only [step] at taken
      split at taken
      · split at taken <;> cases taken
        unfold afterIncoming
        split
        · exact ⟨rfl, rfl⟩
        · split <;> exact ⟨rfl, rfl⟩
      · cases taken
  | stop =>
      simp only [step] at taken
      split at taken <;> cases taken
      exact ⟨rfl, rfl⟩
  | incomingFails | opened | openFails | sent | forwarderEnds role status | join =>
      simp only [step] at taken
      split at taken
      · split at taken <;> cases taken
        exact ⟨rfl, rfl⟩
      · cases taken

/-- The steps behind `open_bi` and around `send_packet` apart, the listener stays
away from `send_packet`. -/
theorem step_between {protocol : TunnelProtocol} {connected next : Connected} {act : ListenerAct}
    (elsewhere : act ≠ .opened ∧ act ≠ .sent ∧ act ≠ .sendFails)
    (taken : connected.step protocol act = some next) :
    next.listener = connected.listener ∨
      (connected.listener.between = true ∧
        (next.listener.between = true ∨ next.listener.isEnded = true) ∧
        ∀ addr, next.listener = .opening addr → act = .incoming addr) := by
  cases act with
  | opened => exact absurd rfl elsewhere.1
  | sent => exact absurd rfl elsewhere.2.1
  | sendFails => exact absurd rfl elsewhere.2.2
  | detachedEnds =>
      simp only [step] at taken
      split at taken <;> cases taken
      exact .inl rfl
  | bound | bindFails =>
      simp only [step] at taken
      split at taken <;> cases taken
      rename_i at_
      exact .inr (by simp [Listener.between, Listener.isEnded, at_])
  | stop =>
      simp only [step] at taken
      split at taken <;> cases taken
      rename_i told
      have between : connected.listener.between = true := by
        rcases Listener.selects_cases told.1 with at_ | at_ <;> rw [at_] <;> rfl
      refine .inr ⟨between, ?_, ?_⟩ <;> split <;> simp [Listener.between, Listener.isEnded]
  | incoming addr =>
      simp only [step] at taken
      split at taken
      · rename_i at_
        split at taken <;> cases taken
        have opens : connected.listener.between = true ∧
            ((Listener.opening addr).between = true ∨ (Listener.opening addr).isEnded = true) ∧
              ∀ other, Listener.opening addr = .opening other →
                ListenerAct.incoming addr = .incoming other := by
          refine ⟨by rw [at_]; rfl, .inl rfl, ?_⟩
          intro other same
          cases same
          rfl
        unfold afterIncoming
        split
        · exact .inr opens
        · split
          · exact .inl rfl
          · exact .inr opens
      · cases taken
  | incomingFails | openFails | forwarderEnds role status | join =>
      simp only [step] at taken
      split at taken
      · rename_i at_
        split at taken <;> cases taken
        exact .inr (by simp [Listener.between, Listener.isEnded, at_])
      · cases taken

/-- While nothing has been sent on the stop channel, the listener does not look
at it, and it ends only where a `?` fails. -/
theorem step_quiet {protocol : TunnelProtocol} {connected next : Connected} {act : ListenerAct}
    (quiet : connected.stop.ready connected.seen = false)
    (taken : connected.step protocol act = some next) :
    next.seen = connected.seen ∧
      (next.listener.isEnded = true ↔ connected.listener.isEnded = true ∨ act.fails = true) := by
  cases act with
  | detachedEnds =>
      simp only [step] at taken
      split at taken <;> cases taken
      simp [ListenerAct.fails]
  | bound | bindFails | sendFails =>
      simp only [step] at taken
      split at taken <;> cases taken
      rename_i at_
      simp [ListenerAct.fails, Listener.isEnded, at_]
  | stop =>
      simp only [step, quiet, Bool.false_eq_true, and_false, if_false] at taken
      cases taken
  | incoming addr =>
      simp only [step, quiet] at taken
      split at taken
      · rename_i at_
        cases taken
        unfold afterIncoming
        split
        · simp [ListenerAct.fails, Listener.isEnded, at_]
        · split <;> simp [ListenerAct.fails, Listener.isEnded, at_]
      · cases taken
  | incomingFails | opened | openFails | sent | forwarderEnds role status | join =>
      simp only [step] at taken
      split at taken
      · rename_i at_
        split at taken <;> cases taken
        simp [ListenerAct.fails, Listener.isEnded, at_]
      · cases taken

end Connected

end Client
end Lantun
