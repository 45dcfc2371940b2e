import Lantun.EndToEnd.Tunnel
import Lantun.Pair.Agreement

namespace Lantun
namespace EndToEnd

open Async Client Net Pair

/-!
# Whose turn it is

Applications, streams and sessions are counted at several places of the two
programs, and each count is one step ahead of the next only while the listener or
the handler stands between the two statements that raise them.  `Turn` says once
what a step of the exchange can do to the points the two ends stand at; `Counts`
is how the counts hang together.
-/

/-- The listener is not in the middle of starting a session, and has not ended. -/
def settled : Listener → Bool
  | .opening _ | .sending _ | .ended _ => false
  | _ => true

/-- The handler has accepted a stream that is not registered yet. -/
def collecting : Handler → Bool
  | .acceptUni | .reading _ => true
  | _ => false

/-- The host stands where it stood. -/
def SameHost (before after : Exchange) : Prop :=
  after.handler = before.handler ∧ after.accepted = before.accepted ∧
    after.registered = before.registered

/-- The client stands where it stood. -/
def SameClient (before after : Exchange) : Prop :=
  after.client.listener = before.client.listener ∧ after.opened = before.opened

/-- Everything a step of the exchange can do to where the two ends stand. -/
inductive Turn (before after : Exchange) : ExchangeEvent → Prop where
  | accepts {addr : SocketAddr} :
      before.client.listener = .select → after.client.listener = .opening addr →
        after.opened = before.opened → SameHost before after →
          Turn before after (.listener (.incoming addr))
  | opens {addr : SocketAddr} :
      before.client.listener = .opening addr → after.client.listener = .sending addr →
        after.opened = before.opened ++ [addr] → SameHost before after →
          Turn before after (.listener .opened)
  | begins {addr : SocketAddr} :
      before.client.listener = .sending addr → settled after.client.listener = true →
        after.opened = before.opened → SameHost before after →
          Turn before after (.listener .sent)
  | gives {addr : SocketAddr} :
      before.client.listener = .sending addr → after.client.listener.isEnded = true →
        after.opened = before.opened → SameHost before after →
          Turn before after (.listener .sendFails)
  | listens {act : ListenerAct} :
      (∀ addr, act ≠ .incoming addr) → act ≠ .sent → act ≠ .sendFails →
        after.client.listener = before.client.listener ∨
          (before.client.listener.isEnded = false ∧ (after.client.listener.isEnded = true ∨
            settled before.client.listener = true ∧ settled after.client.listener = true)) →
          after.opened = before.opened → SameHost before after → Turn before after (.listener act)
  | hostAccepts :
      before.handler = .acceptBi → after.handler = .acceptUni →
        after.accepted = before.accepted + 1 → SameClient before after →
          Turn before after (.host .acceptBi)
  | hostReads {act : HandlerAct} :
      collecting before.handler = true → collecting after.handler = true →
        after.accepted = before.accepted → SameClient before after →
          Turn before after (.host act)
  | hostRegisters {addr : SocketAddr} {record : LocalClientConnection} :
      collecting before.handler = true → after.handler = .serving addr →
        after.accepted = before.accepted → record.clientLocalAddr = addr →
          (before.accepted - 1, record) ∈ after.registered → SameClient before after →
            Turn before after (.host .readEnd)
  | hostReturns {act : HandlerAct} :
      (act = .readEnd ∧ collecting before.handler = true) ∨ act = .fails →
        before.handler ≠ .returned → after.handler = .returned →
          after.accepted = before.accepted → SameClient before after → Turn before after (.host act)
  | hostFinishes {addr : SocketAddr} :
      before.handler = .serving addr → after.handler = .acceptBi →
        after.accepted = before.accepted → SameClient before after →
          Turn before after (.host .sessionEnds)
  | aside {event : ExchangeEvent} :
      (∀ act, event ≠ .listener act) → (∀ act, event ≠ .host act) → SameHost before after →
        SameClient before after → Turn before after event

theorem turn_of_listenerStep {exchange next : Exchange} {act : ListenerAct}
    (taken : exchange.listenerStep .tcp act = some next) : Turn exchange next (.listener act) := by
  have host : SameHost exchange next := by
    rcases Exchange.listenerStep_frame taken with ⟨handler, accepted, _, _, _, registered, _⟩
    exact ⟨handler, accepted, registered⟩
  rcases Option.bind_eq_some_iff.mp taken with ⟨client, moved, rest⟩
  cases act with
  | incoming addr =>
      simp only at rest
      cases rest
      simp only [Connected.step] at moved
      split at moved
      · rename_i at_
        split at moved <;> cases moved
        exact .accepts at_ rfl rfl host
      · cases moved
  | opened =>
      simp only [Connected.step] at moved
      split at moved
      · rename_i addr at_
        split at moved <;> cases moved
        simp only [at_] at rest
        cases rest
        exact .opens at_ rfl rfl host
      · cases moved
  | sent =>
      simp only [Connected.step] at moved
      split at moved
      · rename_i addr at_
        split at moved <;> cases moved
        simp only at rest
        split at rest
        · rcases Option.map_eq_some_iff.mp rest with ⟨stream, _, same⟩
          subst same
          exact .begins at_ rfl rfl host
        · cases rest
      · cases moved
  | sendFails =>
      simp only [Connected.step] at moved
      split at moved
      · rename_i addr at_
        cases moved
        simp only at rest
        split at rest
        · split at rest <;> cases rest
          exact .gives at_ rfl rfl host
        · rcases Option.bind_eq_some_iff.mp rest with ⟨stream, _, cut⟩
          split at cut <;> cases cut
          exact .gives at_ rfl rfl host
      · cases moved
  | detachedEnds =>
      simp only at rest
      cases rest
      simp only [Connected.step] at moved
      split at moved <;> cases moved
      exact .listens (by simp) (by simp) (by simp) (Or.inl rfl) rfl host
  | bound | bindFails =>
      simp only at rest
      cases rest
      simp only [Connected.step] at moved
      split at moved <;> cases moved
      rename_i at_
      refine .listens (by simp) (by simp) (by simp) (Or.inr ⟨by rw [at_]; rfl, ?_⟩) rfl host
      simp [Listener.isEnded, settled, at_]
  | stop =>
      simp only at rest
      cases rest
      simp only [Connected.step] at moved
      split at moved <;> cases moved
      rename_i told
      refine .listens (by simp) (by simp) (by simp)
        (Or.inr ⟨Listener.running_of_selects told.1, ?_⟩) rfl host
      rcases Listener.selects_cases told.1 with at_ | at_ <;>
        cases exchange.client.stop.value <;> simp [Listener.isEnded, settled, at_]
  | incomingFails | openFails | forwarderEnds role status | join =>
      simp only at rest
      cases rest
      simp only [Connected.step] at moved
      split at moved
      · rename_i at_
        split at moved <;> cases moved
        refine .listens (by simp) (by simp) (by simp) (Or.inr ⟨by rw [at_]; rfl, ?_⟩) rfl host
        simp [Listener.isEnded, settled, at_]
      · cases moved

theorem turn_of_hostStep {bincode : Bincode} {exchange next : Exchange} {act : HandlerAct}
    (taken : exchange.hostStep bincode act = some next) : Turn exchange next (.host act) := by
  cases act with
  | acceptBi =>
      simp only [Exchange.hostStep] at taken
      split at taken <;> cases taken
      rename_i here
      exact .hostAccepts here.1 rfl rfl ⟨rfl, rfl⟩
  | acceptUni =>
      simp only [Exchange.hostStep] at taken
      split at taken <;> cases taken
      rename_i here
      exact .hostReads (by rw [here.1]; rfl) rfl rfl ⟨rfl, rfl⟩
  | read count =>
      simp only [Exchange.hostStep] at taken
      split at taken
      · rename_i buf at_
        rcases Option.bind_eq_some_iff.mp taken with ⟨stream, _, rest⟩
        split at rest
        · split at rest <;> cases rest
          exact .hostReads (by rw [at_]; rfl) rfl rfl ⟨rfl, rfl⟩
        · cases rest
      · cases taken
  | readEnd =>
      simp only [Exchange.hostStep] at taken
      split at taken
      · rename_i buf at_
        rcases Option.bind_eq_some_iff.mp taken with ⟨stream, _, rest⟩
        split at rest
        · cases rest
          unfold Exchange.receive
          split
          · exact .hostRegisters (by rw [at_]; rfl) rfl rfl rfl
              (List.mem_append_right _ List.mem_cons_self) ⟨rfl, rfl⟩
          · exact .hostReturns (Or.inl ⟨rfl, by rw [at_]; rfl⟩)
              (by rw [at_]; exact Handler.noConfusion) rfl rfl ⟨rfl, rfl⟩
        · cases rest
      · cases taken
  | fails =>
      simp only [Exchange.hostStep] at taken
      split at taken
      · cases taken
      · rename_i at_
        rcases Option.map_eq_some_iff.mp taken with ⟨stream, _, same⟩
        subst same
        exact .hostReturns (Or.inr rfl) (by rw [at_]; exact Handler.noConfusion) rfl rfl ⟨rfl, rfl⟩
      · rename_i running _
        cases taken
        exact .hostReturns (Or.inr rfl) running rfl rfl ⟨rfl, rfl⟩
  | sessionEnds =>
      simp only [Exchange.hostStep] at taken
      split at taken
      · rename_i addr at_
        cases taken
        exact .hostFinishes at_ rfl rfl ⟨rfl, rfl⟩
      · cases taken

theorem turn_of_step {bincode : Bincode} {exchange next : Exchange} {event : ExchangeEvent}
    (taken : exchange.step bincode .tcp event = some next) : Turn exchange next event := by
  cases event with
  | listener act => exact turn_of_listenerStep taken
  | host act => exact turn_of_hostStep taken
  | uniOpened =>
      simp only [Exchange.step] at taken
      split at taken
      · split at taken <;> cases taken
        exact .aside (by simp) (by simp) ⟨rfl, rfl, rfl⟩ ⟨rfl, rfl⟩
      · cases taken
  | writes count =>
      simp only [Exchange.step] at taken
      split at taken
      · split at taken
        · rcases Option.map_eq_some_iff.mp taken with ⟨stream, _, same⟩
          subst same
          exact .aside (by simp) (by simp) ⟨rfl, rfl, rfl⟩ ⟨rfl, rfl⟩
        · cases taken
      · cases taken
  | announceBi | announceUni =>
      simp only [Exchange.step] at taken
      split at taken <;> cases taken
      exact .aside (by simp) (by simp) ⟨rfl, rfl, rfl⟩ ⟨rfl, rfl⟩
  | deliver control _ | deliverEnd control =>
      rcases Option.map_eq_some_iff.mp taken with ⟨stream, _, same⟩
      subst same
      exact .aside (by simp) (by simp) ⟨rfl, rfl, rfl⟩ ⟨rfl, rfl⟩
  | sendStop | dropStop | clientLoses | hostLoses =>
      cases taken
      exact .aside (by simp) (by simp) ⟨rfl, rfl, rfl⟩ ⟨rfl, rfl⟩

/-! ## How the counts hang together -/

/-- The addresses of the applications, in the order in which they have connected. -/
def Tunnel.addrs (tunnel : Tunnel) : List SocketAddr := tunnel.lines.map Line.addr

/-- The client's counts.  `taken` applications have been accepted, and `begun`
sessions have begun. -/
structure ClientCounts (exchange : Exchange) (addrs : List SocketAddr) (taken begun : Nat) :
    Prop where
  opened : exchange.opened <+: addrs
  settled : settled exchange.client.listener = true →
    taken = exchange.opened.length ∧ begun = exchange.opened.length
  opening : ∀ addr, exchange.client.listener = .opening addr →
    taken = exchange.opened.length + 1 ∧ begun = exchange.opened.length ∧
      addrs[exchange.opened.length]? = some addr
  sending : ∀ addr, exchange.client.listener = .sending addr →
    taken = exchange.opened.length ∧ begun + 1 = exchange.opened.length

/-- The host's. -/
structure HostCounts (exchange : Exchange) (begun : Nat) : Prop where
  idle : exchange.handler = .acceptBi → begun = exchange.accepted
  collecting : collecting exchange.handler = true → begun + 1 = exchange.accepted
  serving : ∀ addr, exchange.handler = .serving addr →
    (begun = exchange.accepted ∨ begun + 1 = exchange.accepted) ∧
      exchange.opened[exchange.accepted - 1]? = some addr

structure Counts (tunnel : Tunnel) : Prop where
  client : ClientCounts tunnel.exchange tunnel.addrs tunnel.taken (tunnel.begun .client)
  host : HostCounts tunnel.exchange (tunnel.begun .host)

section

variable {before after : Exchange} {addrs : List SocketAddr} {taken begun : Nat}

theorem ClientCounts.of_same (counts : ClientCounts before addrs taken begun)
    (same : SameClient before after) : ClientCounts after addrs taken begun := by
  rcases same with ⟨listener, opened⟩
  refine ⟨?_, ?_, ?_, ?_⟩
  · rw [opened]
    exact counts.opened
  · rw [listener, opened]
    exact counts.settled
  · rw [listener, opened]
    exact counts.opening
  · rw [listener, opened]
    exact counts.sending

theorem ClientCounts.dial (counts : ClientCounts before addrs taken begun) (addr : SocketAddr) :
    ClientCounts before (addrs ++ [addr]) taken begun where
  opened := counts.opened.trans (List.prefix_append _ _)
  settled := counts.settled
  opening other at_ := by
    rcases counts.opening other at_ with ⟨taken, begun, here⟩
    exact ⟨taken, begun, getElem?_append_of_found here _⟩
  sending := counts.sending

/-- Nothing is asked of a listener that has ended. -/
theorem ClientCounts.ended (opened : after.opened <+: addrs)
    (ended : after.client.listener.isEnded = true) : ClientCounts after addrs taken begun := by
  cases at_ : after.client.listener with
  | ended result =>
      refine ⟨opened, ?_, ?_, ?_⟩ <;> simp [at_, EndToEnd.settled]
  | _ =>
      rw [at_] at ended
      cases ended

/-- The listener accepts the next application. -/
theorem ClientCounts.accepts (counts : ClientCounts before addrs taken begun) {addr : SocketAddr}
    (at_ : before.client.listener = .select) (opens : after.client.listener = .opening addr)
    (opened : after.opened = before.opened) (front : addrs[taken]? = some addr) :
    ClientCounts after addrs (taken + 1) begun := by
  rcases counts.settled (by rw [at_]; rfl) with ⟨all, begun⟩
  refine ⟨by rw [opened]; exact counts.opened, ?_, ?_, ?_⟩
  · simp [opens, EndToEnd.settled]
  · intro other is
    cases opens.symm.trans is
    rw [opened]
    exact ⟨congrArg (· + 1) all, begun, all ▸ front⟩
  · simp [opens]

/-- Its stream is opened. -/
theorem ClientCounts.opens (counts : ClientCounts before addrs taken begun) {addr : SocketAddr}
    (at_ : before.client.listener = .opening addr) (sends : after.client.listener = .sending addr)
    (opened : after.opened = before.opened ++ [addr]) : ClientCounts after addrs taken begun := by
  rcases counts.opening addr at_ with ⟨one, same, front⟩
  refine ⟨?_, ?_, ?_, ?_⟩
  · rcases counts.opened with ⟨rest, whole⟩
    rw [opened, ← whole]
    rw [← whole, List.getElem?_append_right (Nat.le_refl _), Nat.sub_self] at front
    cases rest with
    | nil => cases front
    | cons first rest =>
        cases front
        exact ⟨rest, by simp⟩
  · simp [sends, EndToEnd.settled]
  · simp [sends]
  · intro _ _
    rw [opened, List.length_append]
    exact ⟨one, congrArg (· + 1) same⟩

/-- Its session begins. -/
theorem ClientCounts.begins (counts : ClientCounts before addrs taken begun) {addr : SocketAddr}
    (at_ : before.client.listener = .sending addr)
    (goes : EndToEnd.settled after.client.listener = true)
    (opened : after.opened = before.opened) : ClientCounts after addrs taken (begun + 1) := by
  refine ⟨by rw [opened]; exact counts.opened, fun _ => ?_, fun other is => ?_, fun other is => ?_⟩
  · rw [opened]
    exact counts.sending addr at_
  · simp [is, EndToEnd.settled] at goes
  · simp [is, EndToEnd.settled] at goes

/-- The listener moves where it starts no session. -/
theorem ClientCounts.listens (counts : ClientCounts before addrs taken begun)
    (moves : after.client.listener = before.client.listener ∨
      (before.client.listener.isEnded = false ∧ (after.client.listener.isEnded = true ∨
        EndToEnd.settled before.client.listener = true ∧
          EndToEnd.settled after.client.listener = true)))
    (opened : after.opened = before.opened) : ClientCounts after addrs taken begun := by
  rcases moves with stays | ⟨_, ends | ⟨from_, goes⟩⟩
  · exact counts.of_same ⟨stays, opened⟩
  · exact ClientCounts.ended (by rw [opened]; exact counts.opened) ends
  · refine ⟨by rw [opened]; exact counts.opened, fun _ => ?_, fun other is => ?_, fun other is => ?_⟩
    · rw [opened]
      exact counts.settled from_
    · simp [is, EndToEnd.settled] at goes
    · simp [is, EndToEnd.settled] at goes

/-- The client's steps leave the host where it was. -/
theorem HostCounts.of_same (counts : HostCounts before begun) (same : SameHost before after)
    (opened : before.opened <+: after.opened) : HostCounts after begun := by
  rcases same with ⟨handler, accepted, _⟩
  refine ⟨?_, ?_, ?_⟩
  · rw [handler, accepted]
    exact counts.idle
  · rw [handler, accepted]
    exact counts.collecting
  · rw [handler, accepted]
    intro addr at_
    rcases counts.serving addr at_ with ⟨place, here⟩
    rcases opened with ⟨more, whole⟩
    rw [← whole]
    exact ⟨place, getElem?_append_of_found here more⟩

/-- The handler accepts the next stream. -/
theorem HostCounts.accepts (counts : HostCounts before begun) (at_ : before.handler = .acceptBi)
    (goes : after.handler = .acceptUni) (accepted : after.accepted = before.accepted + 1) :
    HostCounts after begun := by
  refine ⟨by simp [goes], fun _ => ?_, by simp [goes]⟩
  rw [accepted, counts.idle at_]

/-- It goes on collecting the request. -/
theorem HostCounts.reads (counts : HostCounts before begun)
    (from_ : EndToEnd.collecting before.handler = true)
    (goes : EndToEnd.collecting after.handler = true)
    (accepted : after.accepted = before.accepted) : HostCounts after begun := by
  refine ⟨fun is => ?_, fun _ => ?_, fun addr is => ?_⟩
  · simp [is, EndToEnd.collecting] at goes
  · rw [accepted]
    exact counts.collecting from_
  · simp [is, EndToEnd.collecting] at goes

/-- The request has come, and is that of the stream accepted last. -/
theorem HostCounts.registers (counts : HostCounts before begun) {addr : SocketAddr}
    (from_ : EndToEnd.collecting before.handler = true) (goes : after.handler = .serving addr)
    (accepted : after.accepted = before.accepted)
    (own : after.opened[before.accepted - 1]? = some addr) : HostCounts after begun := by
  refine ⟨by simp [goes], by simp [goes, EndToEnd.collecting], fun other is => ?_⟩
  cases goes.symm.trans is
  rw [accepted]
  exact ⟨Or.inr (counts.collecting from_), own⟩

/-- The session is over. -/
theorem HostCounts.finishes (goes : after.handler = .acceptBi) (all : begun = after.accepted) :
    HostCounts after begun :=
  ⟨fun _ => all, by simp [goes, EndToEnd.collecting], by simp [goes]⟩

theorem HostCounts.returned (at_ : after.handler = .returned) : HostCounts after begun := by
  refine ⟨?_, ?_, ?_⟩ <;> simp [at_, EndToEnd.collecting]

end

namespace Tunnel

theorem addrs_onLine (tunnel : Tunnel) (index : Nat) {change : Line → Line}
    (keeps : ∀ line, (change line).addr = line.addr) :
    (tunnel.onLine index change).addrs = tunnel.addrs := by
  unfold addrs onLine
  dsimp only
  apply List.ext_getElem?
  intro place
  simp only [List.getElem?_map, List.getElem?_modify]
  cases tunnel.lines[place]? with
  | none => rfl
  | some line =>
      by_cases here : index = place <;> simp [here, keeps]

@[simp] theorem addrs_spawn (tunnel : Tunnel) (at_ : Side) (index seen : Nat) :
    (tunnel.spawn at_ index seen).addrs = tunnel.addrs :=
  tunnel.addrs_onLine index (fun _ => rfl)

@[simp] theorem after_exchange (tunnel : Tunnel) (event : ExchangeEvent) (exchange : Exchange) :
    (tunnel.after event exchange).exchange = exchange := by
  unfold after
  split
  · rfl
  · rfl
  · rfl
  · split <;> rfl
  · rfl

@[simp] theorem after_addrs (tunnel : Tunnel) (event : ExchangeEvent) (exchange : Exchange) :
    (tunnel.after event exchange).addrs = tunnel.addrs := by
  unfold after
  split
  · rfl
  · exact addrs_spawn _ _ _ _
  · exact addrs_onLine _ _ (fun line => (rfl : (line.drops _ _).addr = _))
  · split
    · exact addrs_onLine _ _ (fun line => (rfl : (line.drops _ _).addr = _))
    · rfl
  · rfl

theorem after_begun (tunnel : Tunnel) (exchange : Exchange) {event : ExchangeEvent}
    (other : event ≠ .listener .sent) : (tunnel.after event exchange).begun = tunnel.begun := by
  unfold after
  split
  · rfl
  · exact absurd rfl other
  · rfl
  · split <;> rfl
  · rfl

theorem after_taken (tunnel : Tunnel) (exchange : Exchange) {event : ExchangeEvent}
    (other : ∀ addr, event ≠ .listener (.incoming addr)) :
    (tunnel.after event exchange).taken = tunnel.taken := by
  unfold after
  split
  · exact absurd rfl (other _)
  · rfl
  · rfl
  · split <;> rfl
  · rfl

end Tunnel

/-- A step that the listener has no part in. -/
theorem Counts.afterHost {tunnel : Tunnel} {event : ExchangeEvent} {exchange : Exchange}
    (counts : Counts tunnel) (noListener : ∀ act, event ≠ .listener act)
    (client : SameClient tunnel.exchange exchange)
    (host : HostCounts exchange (tunnel.begun .host)) : Counts (tunnel.after event exchange) := by
  have begun := tunnel.after_begun exchange (noListener .sent)
  have taken := tunnel.after_taken exchange (fun addr => noListener (.incoming addr))
  refine ⟨?_, ?_⟩
  · rw [Tunnel.after_exchange, Tunnel.after_addrs, begun, taken]
    exact counts.client.of_same client
  · rw [Tunnel.after_exchange, begun]
    exact host

/-- A step that the handler has no part in. -/
theorem Counts.afterClient {tunnel : Tunnel} {event : ExchangeEvent} {exchange : Exchange}
    (counts : Counts tunnel) {taken begun : Nat}
    (counted : (tunnel.after event exchange).taken = taken ∧
      (tunnel.after event exchange).begun .client = begun ∧
        (tunnel.after event exchange).begun .host = tunnel.begun .host)
    (client : ClientCounts exchange tunnel.addrs taken begun)
    (same : SameHost tunnel.exchange exchange) (more : tunnel.exchange.opened <+: exchange.opened) :
    Counts (tunnel.after event exchange) := by
  rcases counted with ⟨all, ours, theirs⟩
  refine ⟨?_, ?_⟩
  · rw [Tunnel.after_exchange, Tunnel.after_addrs, all, ours]
    exact client
  · rw [Tunnel.after_exchange, theirs]
    exact counts.host.of_same same more

/-- A step of the exchange that the surroundings allow keeps the counts together. -/
theorem Counts.after {tunnel : Tunnel} {event : ExchangeEvent} {exchange : Exchange}
    (counts : Counts tunnel) (permitted : tunnel.permits event = true)
    (turn : Turn tunnel.exchange exchange event) (agrees : exchange.Agrees) :
    Counts (tunnel.after event exchange) := by
  have whole : exchange.opened = tunnel.exchange.opened →
      tunnel.exchange.opened <+: exchange.opened := fun same => same ▸ List.prefix_rfl
  cases turn with
  | @accepts addr at_ opens opened same =>
      have front : tunnel.addrs[tunnel.taken]? = some addr := by
        simpa [Tunnel.permits, Tunnel.addrs] using permitted
      exact counts.afterClient ⟨rfl, rfl, rfl⟩ (counts.client.accepts at_ opens opened front) same
        (whole opened)
  | @opens addr at_ sends opened same =>
      refine counts.afterClient ⟨rfl, rfl, rfl⟩ (counts.client.opens at_ sends opened) same ?_
      rw [opened]
      exact List.prefix_append _ _
  | @begins addr at_ goes opened same =>
      exact counts.afterClient ⟨rfl, rfl, rfl⟩ (counts.client.begins at_ goes opened) same
        (whole opened)
  | @gives addr at_ ends opened same =>
      refine counts.afterClient ⟨rfl, rfl, rfl⟩ (ClientCounts.ended ?_ ends) same (whole opened)
      rw [opened]
      exact counts.client.opened
  | @listens act noIncoming noSent noFail moves opened same =>
      have begun := tunnel.after_begun exchange
        (fun is : ExchangeEvent.listener act = .listener .sent => noSent (ExchangeEvent.listener.inj is))
      have taken := tunnel.after_taken exchange
        (fun addr (is : ExchangeEvent.listener act = _) => noIncoming addr (ExchangeEvent.listener.inj is))
      exact counts.afterClient ⟨taken, congrFun begun .client, congrFun begun .host⟩
        (counts.client.listens moves opened) same (whole opened)
  | hostAccepts at_ goes accepted same =>
      exact counts.afterHost (by simp) same (counts.host.accepts at_ goes accepted)
  | hostReads from_ goes accepted same =>
      exact counts.afterHost (by simp) same (counts.host.reads from_ goes accepted)
  | @hostRegisters addr record from_ goes accepted own listed same =>
      exact counts.afterHost (by simp) same
        (counts.host.registers from_ goes accepted (own ▸ agrees _ listed))
  | hostReturns _ _ goes _ same => exact counts.afterHost (by simp) same (HostCounts.returned goes)
  | @hostFinishes addr from_ goes accepted same =>
      simp only [Tunnel.permits, Bool.and_eq_true, decide_eq_true_eq] at permitted
      exact counts.afterHost (by simp) same
        (HostCounts.finishes goes (permitted.1.trans accepted.symm))
  | aside noListener _ host client =>
      exact counts.afterHost noListener client (counts.host.of_same host (whole client.2))

end EndToEnd
end Lantun
