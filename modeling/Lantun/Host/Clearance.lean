import Lantun.Machine.Progress
import Lantun.Host.Invariant

namespace Lantun
namespace Host

open Net

/-!
# What stands between a waiting client and its turn

The accept loop serves one connection at a time and awaits `handle_connection`
inline.  A client whose connection waits at the endpoint gets its turn only
when the handler running now has returned, and the handlers of everybody in
front of it have run and returned.  A handler returns when its client is gone or
when a step after the `ConnReq` fails; a client that is connected and silent, or
a session that is open and idle, keeps it.

What the service of another client's session does is no step of the host: whether
it takes a connection, sends something or closes its end is its own decision.
What it has sent already is there for the host to relay.

This module says which states let a given client through, as a predicate that is
computed from the state, and shows that no permitted step can turn a state that
does not into one that does.
-/

variable {Key : Type}

/-- The host takes the step by itself: the service has no part in it, and no time
goes by. -/
def HandlerAct.byHost : HandlerAct → Bool
  | .connectFails | .timesOut _ | .service _ => false
  | _ => true

namespace Inbound

/-- What the two forwarders can still read. -/
def unread (inbound : Inbound) : Nat := inbound.pending .up + inbound.pending .down

theorem exhausted_relay (inbound : Inbound) (count : Nat) (role other : Role) :
    (inbound.relay count role).exhausted other = inbound.exhausted other := by
  cases role <;> cases other <;> rfl

theorem pending_relay_le (inbound : Inbound) (count : Nat) (role other : Role) :
    (inbound.relay count role).pending other ≤ inbound.pending other := by
  cases role with
  | up =>
      cases other with
      | up => exact Nat.sub_le ..
      | down => exact Nat.le_refl _
  | down =>
      cases other with
      | up => exact Nat.le_refl _
      | down => cases reset : inbound.reset <;> simp [relay, pending, reset]

/-- A forwarder that reads all there is leaves less. -/
theorem unread_relay_lt {inbound : Inbound} {role : Role} (some_ : 0 < inbound.pending role) :
    (inbound.relay (inbound.pending role) role).unread < inbound.unread := by
  cases role with
  | up => simpa [unread, relay, pending] using some_
  | down =>
      cases reset : inbound.reset with
      | true => simp [pending, reset] at some_
      | false => simpa [unread, relay, pending, reset] using some_

end Inbound

namespace Conn

variable (protocol : TunnelProtocol) (tunnelAddr : SocketAddr)

/-- The control message of the next request has arrived completely. -/
def hasMessage (conn : Conn Key) : Bool :=
  match conn.nextControl with
  | some .arriving | none => false
  | some _ => true

/-- Everything `handle_connection` needs for one more request is there. -/
def asks (conn : Conn Key) : Bool := decide (conn.accepted < conn.streams.length) && conn.hasMessage

/-- `receive_packet` brings the handler to its return: the next request cannot be
read, or cannot be served, or will not come. -/
def rejects (conn : Conn Key) : Bool :=
  match conn.nextControl with
  | some (.packet (.connReq localAddr)) => !compatible protocol tunnelAddr localAddr
  | some .undecodable | some .reset => true
  | some .arriving | none => decide (conn.link = .closed)

/-- A handler that waits for a stream comes to its return by itself. -/
def departs (conn : Conn Key) : Bool :=
  if conn.accepted < conn.streams.length then conn.rejects protocol tunnelAddr
  else decide (conn.link = .closed)

/-- The forwarder has something to relay that is not taken any more. -/
def panics (conn : Conn Key) (inbound : Inbound) (forwarders : Forwarders) (role : Role) : Bool :=
  decide (forwarders.status role = .running) && decide (0 < inbound.pending role) &&
    conn.refuses inbound role

/-- The forwarder has met the end of its source, or will. -/
def finishes (inbound : Inbound) (forwarders : Forwarders) (role : Role) : Bool :=
  decide (forwarders.status role = .finished) ||
    (decide (forwarders.status role = .running) && inbound.exhausted role)

/-- What has arrived is enough for the session to end. -/
def yields (conn : Conn Key) (inbound : Inbound) (forwarders : Forwarders) : Bool :=
  conn.panics inbound forwarders .up || conn.panics inbound forwarders .down ||
    (finishes inbound forwarders .up && finishes inbound forwarders .down)

/-- The session can end by steps of the host alone. -/
def closes (conn : Conn Key) (stream : Nat) (forwarders : Forwarders) : Bool :=
  forwarders.joined || (conn.streams[stream]?).any fun inbound => conn.yields inbound forwarders

/-- The handler can return by steps of the host alone. -/
def leaves (conn : Conn Key) : Phase → Bool
  | .acceptBi => conn.departs protocol tunnelAddr
  | .receivePacket _ => conn.rejects protocol tunnelAddr
  | .connecting _ localAddr => !compatible protocol tunnelAddr localAddr
  | .session stream _ forwarders => conn.closes stream forwarders && conn.departs protocol tunnelAddr

/-- The handler will come to answer the request of its own client, who is free
to act. -/
def reaches (conn : Conn Key) : Phase → Bool
  | .acceptBi => decide (conn.link ≠ .closed) || conn.asks
  | .receivePacket _ => decide (conn.link ≠ .closed) || conn.hasMessage
  | _ => true

end Conn

/-! ## Steps of the handler, read backwards -/

namespace Conn

theorem panics_of_relay {conn : Conn Key} {inbound : Inbound} {forwarders : Forwarders}
    {count : Nat} {role other : Role}
    (panics : conn.panics (inbound.relay count role) forwarders other = true) :
    conn.panics inbound forwarders other = true := by
  simp only [Conn.panics, Bool.and_eq_true, decide_eq_true_eq] at panics ⊢
  refine ⟨⟨panics.1.1, Nat.lt_of_lt_of_le panics.1.2 (inbound.pending_relay_le ..)⟩, ?_⟩
  have refuses := panics.2
  cases role <;> exact refuses

theorem yields_of_panics {conn : Conn Key} {inbound : Inbound} {forwarders : Forwarders}
    {role : Role} (panics : conn.panics inbound forwarders role = true) :
    conn.yields inbound forwarders = true := by
  cases role <;> simp [yields, panics]

/-- If the session can end after a forwarder has moved, it could before. -/
theorem closes_of_forward {stopSent : Bool} {conn : Conn Key} {forwarders : Forwarders}
    {act : HandlerAct} {inbound after : Inbound} {role : Role} {status : TaskStatus}
    (moved : conn.forward stopSent inbound act = some (role, after, status))
    (running : forwarders.status role = .running) (own : act.byHost = true)
    (unstopped : stopSent = false)
    (ends : ((forwarders.setStatus role status).joined ||
      conn.yields after (forwarders.setStatus role status)) = true) :
    (forwarders.joined || conn.yields inbound forwarders) = true := by
  cases act with
  | relay role' count =>
      simp only [forward] at moved
      split at moved <;> cases moved
      rw [Forwarders.setStatus_running running] at ends
      rw [Bool.or_eq_true] at ends ⊢
      refine ends.imp_right fun yields => ?_
      simp only [Conn.yields, finishes, Inbound.exhausted_relay, Bool.or_eq_true] at yields ⊢
      rcases yields with (up | down) | both
      · exact Or.inl (Or.inl (panics_of_relay up))
      · exact Or.inl (Or.inr (panics_of_relay down))
      · exact Or.inr both
  | relayFails role' =>
      simp only [forward] at moved
      split at moved <;> cases moved
      rename_i guard
      have panics : conn.panics inbound forwarders role = true := by
        simp [Conn.panics, running, guard]
      rw [yields_of_panics panics, Bool.or_true]
  | ends role' =>
      simp only [forward] at moved
      split at moved <;> cases moved
      rename_i guard
      cases role with
      | up =>
          have up : forwarders.socketToTunnel = .running := running
          cases down : forwarders.tunnelToSocket <;>
            simp_all [Conn.yields, Conn.panics, finishes, Forwarders.setStatus, Forwarders.status,
              Forwarders.joined]
      | down =>
          have down : forwarders.tunnelToSocket = .running := running
          cases up : forwarders.socketToTunnel <;>
            simp_all [Conn.yields, Conn.panics, finishes, Forwarders.setStatus, Forwarders.status,
              Forwarders.joined]
  | stops role' => simp [forward, unstopped] at moved
  | timesOut role' | service act => cases own
  | _ => simp [forward] at moved

/-- A session that has just begun does not end by itself: it takes the service to move
first. -/
theorem closes_connected (conn : Conn Key) (stream : Nat) :
    ({ conn with streams := conn.streams.modify stream .connected, answered := true } :
      Conn Key).closes stream .spawned = false := by
  simp only [closes, List.getElem?_modify_eq]
  cases conn.streams[stream]? with
  | none => rfl
  | some inbound =>
      simp [yields, panics, finishes, refuses, Inbound.connected, Inbound.exhausted,
        Inbound.pending, Forwarders.joined, Forwarders.spawned, Forwarders.status]

variable {protocol : TunnelProtocol} {tunnelAddr : SocketAddr}

/-- If the handler can return after a step, or has just returned, it could
before. -/
theorem leaves_of_step {stopSent : Bool}
    {conn after : Conn Key} {phase : Phase} {act : HandlerAct} {registration : Registration}
    {outcome : Outcome}
    (taken : conn.handlerStep protocol tunnelAddr stopSent phase act =
      some (after, registration, outcome))
    (own : act.byHost = true) (unstopped : stopSent = false)
    (leaves : ∀ phase', outcome = .continues phase' →
      after.leaves protocol tunnelAddr phase' = true) :
    conn.leaves protocol tunnelAddr phase = true := by
  cases phase with
  | acceptBi =>
      cases act <;> simp only [handlerStep, acceptStep] at taken <;> try cases taken
      · split at taken <;> cases taken
        rename_i visible
        have more := leaves _ rfl
        simpa [Conn.leaves, departs, rejects, nextControl, visible] using more
      · split at taken <;> cases taken
        rename_i gone
        simp [Conn.leaves, departs, gone.2, Nat.not_lt_of_le gone.1]
  | receivePacket stream =>
      cases act <;> simp only [handlerStep, receiveStep] at taken <;> try cases taken
      · split at taken
        · rename_i found
          cases taken
          have more := leaves _ rfl
          simpa [Conn.leaves, rejects, found] using more
        · cases taken
      · split at taken
        · cases taken
        · rename_i found
          simp [Conn.leaves, rejects, found]
        · rename_i found
          simp [Conn.leaves, rejects, found]
        · rename_i found
          split at taken <;> cases taken
          rename_i gone
          simp [Conn.leaves, rejects, found, gone]
        · rename_i found
          split at taken <;> cases taken
          rename_i gone
          simp [Conn.leaves, rejects, found, gone]
  | connecting stream localAddr =>
      cases act <;> simp only [handlerStep, connectStep] at taken <;> try cases taken
      · split at taken <;> cases taken
        have more := leaves _ rfl
        rw [Conn.leaves, closes_connected conn stream, Bool.false_and] at more
        cases more
      · cases own
      · split at taken
        · cases taken
        · rename_i misfit
          simp [Conn.leaves, misfit]
  | session stream localAddr forwarders =>
      simp only [handlerStep, sessionStep] at taken
      split at taken
      · split at taken <;> cases taken
        rename_i joined
        have more := leaves _ rfl
        simpa [Conn.leaves, closes, joined] using more
      · rcases Option.bind_eq_some_iff.mp taken with ⟨inbound, found, rest⟩
        rcases Option.bind_eq_some_iff.mp rest with ⟨⟨role, changed, status⟩, moved, last⟩
        simp only at last
        split at last <;> cases last
        rename_i running
        have more := leaves _ rfl
        have there : (conn.streams.set stream changed)[stream]? = some changed :=
          List.getElem?_set_self (List.getElem?_eq_some_iff.mp found).1
        simp only [Conn.leaves, closes, there, found, Option.any_some, Bool.and_eq_true] at more ⊢
        refine ⟨closes_of_forward moved running own unstopped more.1, ?_⟩
        simpa [departs, rejects, nextControl] using more.2

/-- If the handler comes to answer its client after a step, or has just done
so, it was on the way before. -/
theorem reaches_of_step {protocol : TunnelProtocol} {tunnelAddr : SocketAddr} {stopSent : Bool}
    {conn after : Conn Key} {phase : Phase} {act : HandlerAct} {registration : Registration}
    {outcome : Outcome}
    (taken : conn.handlerStep protocol tunnelAddr stopSent phase act =
      some (after, registration, outcome))
    (reaches : (∃ phase', outcome = .continues phase' ∧ after.reaches phase' = true) ∨
      (after.answered = true ∧ conn.answered = false)) :
    conn.reaches phase = true := by
  cases phase with
  | acceptBi =>
      cases act <;> simp only [handlerStep, acceptStep] at taken <;> try cases taken
      · split at taken <;> cases taken
        rename_i visible
        rcases reaches with ⟨phase', is, more⟩ | ⟨answered, unanswered⟩
        · cases is
          simpa [Conn.reaches, asks, hasMessage, nextControl, visible] using more
        · rw [answered] at unanswered
          cases unanswered
      · split at taken <;> cases taken
        rcases reaches with ⟨phase', is, _⟩ | ⟨answered, unanswered⟩
        · cases is
        · rw [answered] at unanswered
          cases unanswered
  | receivePacket stream =>
      cases act <;> simp only [handlerStep, receiveStep] at taken <;> try cases taken
      · split at taken
        · rename_i found
          simp [Conn.reaches, hasMessage, found]
        · cases taken
      · split at taken
        · cases taken
        · rename_i found
          simp [Conn.reaches, hasMessage, found]
        · rename_i found
          simp [Conn.reaches, hasMessage, found]
        · split at taken <;> cases taken
          rcases reaches with ⟨phase', is, _⟩ | ⟨answered, unanswered⟩
          · cases is
          · rw [answered] at unanswered
            cases unanswered
        · split at taken <;> cases taken
          rcases reaches with ⟨phase', is, _⟩ | ⟨answered, unanswered⟩
          · cases is
          · rw [answered] at unanswered
            cases unanswered
  | connecting stream localAddr => rfl
  | session stream localAddr forwarders => rfl

end Conn

namespace HostTunnel

/-- The connections the loop has not decided about, in their order. -/
def queue (host : HostTunnel Key) : List (Conn Key) :=
  match host.loop with
  | .handshake index => host.conns.drop index
  | _ => host.conns.drop host.taken

/-- While the loop looks at a connection, that one heads the queue. -/
theorem Inv.queue_handshake {host : HostTunnel Key} (inv : host.Inv) {index : Nat}
    {conn : Conn Key} (at_ : host.loop = .handshake index)
    (found : host.conns[index]? = some conn) :
    host.queue = conn :: host.conns.drop host.taken := by
  rcases List.getElem?_eq_some_iff.mp found with ⟨bound, here⟩
  rw [queue, at_, ← inv.handshake index at_, ← here]
  exact List.drop_eq_getElem_cons bound

/-- The connection the loop is occupied with is not in the rest of the queue. -/
theorem drop_setConn {host : HostTunnel Key} {index : Nat} (conn : Conn Key)
    (last : index + 1 = host.taken) :
    (host.setConn index conn).conns.drop host.taken = host.conns.drop host.taken :=
  List.drop_set_of_lt (by omega)

/-- Whoever is not registered is not being served. -/
theorem Inv.client_ne {host : HostTunnel Key} (inv : host.Inv) {key : Key}
    (new : key ∉ host.tunnelClients) {index : Nat} {phase : Phase} {conn : Conn Key}
    (at_ : host.loop = .handling index phase) (found : host.conns[index]? = some conn) :
    conn.client ≠ key := by
  rcases inv.handling index phase at_ with ⟨_, other, there, serving⟩
  rw [found] at there
  cases there
  exact fun same => new (same ▸ inv.mem_of_serving found serving)

/-- The client is registered, and its first session request has been
answered. -/
def Answered (key : Key) (host : HostTunnel Key) : Prop :=
  key ∈ host.tunnelClients ∧ ∃ (index : Nat) (conn : Conn Key),
    host.conns[index]? = some conn ∧ conn.client = key ∧ conn.answered = true

/-- When one connection is replaced, an answered client was answered before, or
it is the one whose connection has just been answered. -/
theorem Inv.answered_of_setConn {host : HostTunnel Key} (inv : host.Inv) {index : Nat}
    {before after : Conn Key} (found : host.conns[index]? = some before)
    (client : after.client = before.client) {key : Key}
    (answered : ∃ (other : Nat) (conn : Conn Key),
      (host.setConn index after).conns[other]? = some conn ∧ conn.client = key ∧
        conn.answered = true) :
    host.Answered key ∨
      (before.client = key ∧ after.answered = true ∧ before.answered = false) := by
  have old : ∀ (other : Nat) (conn : Conn Key), host.conns[other]? = some conn →
      conn.client = key → conn.answered = true → host.Answered key := by
    intro other conn here owner answers
    refine ⟨(inv.registered key).mpr ⟨other, conn, here, owner, ?_⟩, other, conn, here, owner,
      answers⟩
    exact inv.answered other conn here answers
  rcases answered with ⟨other, conn, here, owner, answers⟩
  rw [getElem?_setConn found after] at here
  split at here
  · cases here
    have mine : before.client = key := client ▸ owner
    cases earlier : before.answered with
    | true => exact Or.inl (old index before found mine earlier)
    | false => exact Or.inr ⟨mine, answers, rfl⟩
  · exact Or.inl (old other conn here owner answers)

end HostTunnel

variable [DecidableEq Key]

section

variable (protocol : TunnelProtocol) (tunnelAddr : SocketAddr)

/-- The connections in front of the first usable one of this client all come and
go by themselves, given the clients registered so far.  A connection whose handshake
is not over waits for its client.  An empty queue is no obstacle: the client can
connect. -/
def queueClears (key : Key) : List Key → List (Conn Key) → Bool
  | _, [] => true
  | registered, conn :: rest =>
      match conn.link with
      | .failed => queueClears key registered rest
      | .pending => decide (conn.client = key)
      | .live | .closed =>
          if conn.client = key then decide (conn.link ≠ .closed) || conn.asks
          else if conn.client ∈ registered then queueClears key registered rest
          else
            conn.departs protocol tunnelAddr && queueClears key (conn.client :: registered) rest

end

variable {protocol : TunnelProtocol} {tunnelAddr : SocketAddr}

/-- A connection that has got through its handshake. -/
theorem queueClears_shaken {key : Key} {registered : List Key} {conn : Conn Key}
    {rest : List (Conn Key)} (shaken : conn.link.shaken = true) :
    queueClears protocol tunnelAddr key registered (conn :: rest) =
      if conn.client = key then decide (conn.link ≠ .closed) || conn.asks
      else if conn.client ∈ registered then queueClears protocol tunnelAddr key registered rest
      else
        conn.departs protocol tunnelAddr &&
          queueClears protocol tunnelAddr key (conn.client :: registered) rest := by
  cases link : conn.link <;> simp [link, Link.shaken] at shaken <;>
    simp only [queueClears, link]

/-- Only who is registered matters, not in which order. -/
theorem queueClears_congr {key : Key} {first second : List Key} {queue : List (Conn Key)}
    (same : ∀ other, other ∈ first ↔ other ∈ second) :
    queueClears protocol tunnelAddr key first queue =
      queueClears protocol tunnelAddr key second queue := by
  induction queue generalizing first second with
  | nil => rfl
  | cons conn rest ih =>
      have grown : ∀ other, other ∈ conn.client :: first ↔ other ∈ conn.client :: second := by
        intro other
        simp only [List.mem_cons, same other]
      simp only [queueClears, ih same, ih grown, same conn.client]

/-- A connection the client has just opened, at the end of the queue, is as good
as none. -/
theorem queueClears_append {key : Key} {registered : List Key} {queue : List (Conn Key)} :
    queueClears protocol tunnelAddr key registered (queue ++ [.incoming key]) =
      queueClears protocol tunnelAddr key registered queue := by
  induction queue generalizing registered with
  | nil => simp [queueClears, Conn.incoming]
  | cons conn rest ih => simp only [List.cons_append, queueClears, ih]

/-- The client itself cannot clear a queue by what it does to a connection. -/
theorem queueClears_of_set {key : Key} {registered : List Key} {queue : List (Conn Key)}
    {index : Nat} {before after : Conn Key} {act : ClientAct}
    (found : queue[index]? = some before) (owner : before.client = key)
    (moved : before.clientStep act = some after)
    (clears : queueClears protocol tunnelAddr key registered (queue.set index after) = true) :
    queueClears protocol tunnelAddr key registered queue = true := by
  have client := (Conn.clientStep_frame moved).1
  induction queue generalizing registered index with
  | nil => simp at found
  | cons conn rest ih =>
      cases index with
      | zero =>
          cases found
          cases link : before.link with
          | pending => simp [queueClears, link, owner]
          | live => simp [queueClears, link, owner]
          | failed =>
              cases act <;> simp [Conn.clientStep, link] at moved
          | closed =>
              cases act <;> simp [Conn.clientStep, link] at moved
      | succ index =>
          have there : rest[index]? = some before := by simpa using found
          simp only [List.set_cons_succ, queueClears] at clears ⊢
          cases link : conn.link with
          | pending =>
              simpa only [link] using clears
          | failed =>
              simp only [link] at clears ⊢
              exact ih there clears
          | live | closed =>
              simp only [link] at clears ⊢
              split
              · rename_i own
                simpa only [own, if_true] using clears
              · rename_i foreign
                simp only [foreign, if_false] at clears
                split
                · rename_i present
                  simp only [present, if_true] at clears
                  exact ih there clears
                · rename_i absent
                  simp only [absent, if_false, Bool.and_eq_true] at clears ⊢
                  exact ⟨clears.1, ih there clears.2⟩

namespace HostTunnel

section

variable (protocol : TunnelProtocol) (tunnelAddr : SocketAddr)

/-- The handler running now, if there is one, can return by itself. -/
def handlerLeaves (host : HostTunnel Key) : Bool :=
  match host.loop with
  | .handling index phase =>
      (host.conns[index]?).any fun conn => conn.leaves protocol tunnelAddr phase
  | .panicked => false
  | _ => true

/-- Nothing but the host stands between this client and its turn. -/
def clearFor (key : Key) (host : HostTunnel Key) : Bool :=
  host.handlerLeaves protocol tunnelAddr &&
    queueClears protocol tunnelAddr key host.tunnelClients.keys host.queue

end

/-- Who may move: the host and this client, with the service of its own sessions.
Nobody else acts, no other service does anything, no session of anybody else runs
into its idle timeout, and the tunnel is not stopped. -/
def ByHostAnd (key : Key) : Label Key → Prop
  | .dial other | .client other _ _ => other = key
  | .handler other act => other = key ∨ act.byHost = true
  | .accept | .handshakeEnds => True
  | .stop | .closeEndpoint => False

/-- The loop is serving this client, and will come to answer it. -/
def Serving (key : Key) (host : HostTunnel Key) : Prop :=
  ∃ index phase conn, host.loop = .handling index phase ∧ host.conns[index]? = some conn ∧
    conn.client = key ∧ conn.reaches phase = true

variable (protocol tunnelAddr) in
/-- The states from which the client is answered. -/
def Open (key : Key) (host : HostTunnel Key) : Prop :=
  host.Answered key ∨ host.Serving key ∨
    (key ∉ host.tunnelClients ∧ host.clearFor protocol tunnelAddr key = true)

/-! ## No permitted step opens the way -/

theorem Open.of_dial {host : HostTunnel Key} {key : Key} (inv : host.Inv)
    (open_ : Open protocol tunnelAddr key { host with conns := host.conns ++ [.incoming key] }) :
    host.Open protocol tunnelAddr key := by
  rcases open_ with ⟨registered, index, conn, here, client, answered⟩ |
      ⟨index, phase, conn, at_, here, client, reaches⟩ | ⟨new, clear⟩
  · refine Or.inl ⟨registered, index, conn, ?_, client, answered⟩
    rw [List.getElem?_append] at here
    split at here
    · exact here
    · rw [List.getElem?_singleton] at here
      split at here <;> cases here
      cases answered
  · have at_ : host.loop = .handling index phase := at_
    rcases inv.handling index phase at_ with ⟨_, old, there, _⟩
    rw [List.getElem?_append_left (List.getElem?_eq_some_iff.mp there).1] at here
    exact Or.inr (Or.inl ⟨index, phase, conn, at_, here, client, reaches⟩)
  · refine Or.inr (Or.inr ⟨new, ?_⟩)
    simp only [clearFor, Bool.and_eq_true] at clear ⊢
    constructor
    · cases at_ : host.loop with
      | handling index phase =>
          rcases inv.handling index phase at_ with ⟨_, old, there, _⟩
          have same : (host.conns ++ [Conn.incoming key])[index]? = host.conns[index]? :=
            List.getElem?_append_left (List.getElem?_eq_some_iff.mp there).1
          simpa only [handlerLeaves, at_, same] using clear.1
      | panicked => exact absurd at_ inv.notPanicked
      | _ => simp only [handlerLeaves, at_]
    · have appended : queue { host with conns := host.conns ++ [.incoming key] } =
          host.queue ++ [.incoming key] := by
        cases at_ : host.loop with
        | handshake index =>
            have last := inv.handshake index at_
            have bound := inv.taken_le
            simp only [queue, at_]
            exact List.drop_append_of_le_length (by omega)
        | _ =>
            simp only [queue, at_]
            exact List.drop_append_of_le_length inv.taken_le
      rw [appended, queueClears_append] at clear
      exact clear.2

theorem Open.of_client {host : HostTunnel Key} {key : Key} (inv : host.Inv) {index : Nat}
    {before after : Conn Key} {act : ClientAct} (found : host.conns[index]? = some before)
    (owner : before.client = key) (moved : before.clientStep act = some after)
    (open_ : Open protocol tunnelAddr key (host.setConn index after)) :
    host.Open protocol tunnelAddr key := by
  rcases Conn.clientStep_frame moved with ⟨same, _, _, _, answers, _⟩
  have lookup := getElem?_setConn found after
  have unclosed : before.link ≠ .closed := by
    intro closed
    cases act <;> simp [Conn.clientStep, closed] at moved
  rcases open_ with ⟨_, answered⟩ | ⟨other, phase, conn, at_, here, client, reaches⟩ | ⟨new, clear⟩
  · rcases inv.answered_of_setConn found same answered with earlier | ⟨_, now, unanswered⟩
    · exact Or.inl earlier
    · rw [answers, unanswered] at now
      cases now
  · refine Or.inr (Or.inl ?_)
    rw [lookup] at here
    split at here
    · rename_i is
      refine ⟨other, phase, before, at_, is ▸ found, owner, ?_⟩
      cases phase <;> simp [Conn.reaches, unclosed]
    · exact ⟨other, phase, conn, at_, here, client, reaches⟩
  · refine Or.inr (Or.inr ⟨new, ?_⟩)
    simp only [clearFor, Bool.and_eq_true] at clear ⊢
    constructor
    · cases at_ : host.loop with
      | handling other phase =>
          rcases inv.handling other phase at_ with ⟨_, old, there, _⟩
          have different : other ≠ index := by
            intro is
            subst is
            exact inv.client_ne new at_ found owner
          have same : (host.conns.set index after)[other]? = host.conns[other]? :=
            (lookup other).trans (if_neg different)
          simpa only [handlerLeaves, setConn, at_, same] using clear.1
      | panicked => exact absurd at_ inv.notPanicked
      | _ => simp only [handlerLeaves, at_]
    · have dropped : ∀ start, (host.conns.set index after).drop start =
          if index < start then host.conns.drop start
          else (host.conns.drop start).set (index - start) after := by
        intro start
        rw [List.drop_set]
      have start : ∃ start, host.queue = host.conns.drop start ∧
          queue (host.setConn index after) = (host.conns.set index after).drop start := by
        cases at_ : host.loop with
        | handshake at' => exact ⟨at', by simp [queue, at_], by simp [queue, setConn, at_]⟩
        | _ => exact ⟨host.taken, by simp [queue, at_], by simp [queue, setConn, at_]⟩
      rcases start with ⟨start, is, is'⟩
      rw [is', dropped] at clear
      rw [is]
      split at clear
      · exact clear.2
      · rename_i later
        refine queueClears_of_set ?_ owner moved clear.2
        rw [List.getElem?_drop]
        have sum : start + (index - start) = index := by omega
        rw [sum]
        exact found

theorem Open.of_handshakeEnds {host next : HostTunnel Key} {key : Key} (inv : host.Inv)
    {index : Nat} {conn : Conn Key} (at_ : host.loop = .handshake index)
    (found : host.conns[index]? = some conn) (admitted : host.afterHandshake index conn = some next)
    (open_ : next.Open protocol tunnelAddr key) : host.Open protocol tunnelAddr key := by
  have last := inv.handshake index at_
  have heads := inv.queue_handshake at_ found
  have free : host.handlerLeaves protocol tunnelAddr = true := by simp only [handlerLeaves, at_]
  have known : ∀ after : Conn Key, after.client = conn.client → after.answered = conn.answered →
      (∃ (other : Nat) (conn : Conn Key), (host.setConn index after).conns[other]? = some conn ∧
        conn.client = key ∧ conn.answered = true) → host.Answered key := by
    intro after client answers answered
    rcases inv.answered_of_setConn found client answered with earlier | ⟨_, now, unanswered⟩
    · exact earlier
    · rw [answers, unanswered] at now
      cases now
  rcases afterHandshake_cases admitted with ⟨failed, rfl⟩ | ⟨shaken, ⟨present, rfl⟩ | ⟨absent, rfl⟩⟩
  · rcases open_ with answered | ⟨_, _, _, at', _⟩ | ⟨new, clear⟩
    · exact Or.inl answered
    · cases at'
    · refine Or.inr (Or.inr ⟨new, ?_⟩)
      simp only [clearFor, Bool.and_eq_true] at clear ⊢
      refine ⟨free, ?_⟩
      rw [heads]
      simp only [queueClears, failed]
      exact clear.2
  · rcases open_ with ⟨_, answered⟩ | ⟨_, _, _, at', _⟩ | ⟨new, clear⟩
    · exact Or.inl (known { conn with life := .ignored, link := .closed } rfl rfl answered)
    · cases at'
    · refine Or.inr (Or.inr ⟨new, ?_⟩)
      simp only [clearFor, Bool.and_eq_true] at clear ⊢
      refine ⟨free, ?_⟩
      have foreign : conn.client ≠ key := fun is => new (is ▸ present)
      have rest : (host.ignore index conn).queue = host.conns.drop host.taken :=
        drop_setConn _ last
      have listed : conn.client ∈ host.tunnelClients.keys := AList.mem_keys.mp present
      rw [heads, queueClears_shaken shaken, if_neg foreign, if_pos listed, ← rest]
      exact clear.2
  · have rest : (host.enter index conn).queue = host.conns.drop host.taken := drop_setConn _ last
    have here : (host.enter index conn).conns[index]? = some { conn with life := .serving } :=
      (getElem?_setConn found _ index).trans (if_pos rfl)
    rcases open_ with ⟨_, answered⟩ | ⟨other, phase, conn', at', there, owner, reaches⟩ | ⟨new, clear⟩
    · exact Or.inl (known { conn with life := .serving } rfl rfl answered)
    · cases at'
      rw [here] at there
      cases there
      have own : conn.client = key := owner
      refine Or.inr (Or.inr ⟨own ▸ absent, ?_⟩)
      simp only [clearFor, Bool.and_eq_true]
      refine ⟨free, ?_⟩
      rw [heads, queueClears_shaken shaken, if_pos own]
      exact reaches
    · refine Or.inr (Or.inr ⟨fun present => new ((AList.mem_insert _).mpr (Or.inr present)), ?_⟩)
      simp only [clearFor, Bool.and_eq_true] at clear ⊢
      refine ⟨free, ?_⟩
      have foreign : conn.client ≠ key :=
        fun is => new ((AList.mem_insert _).mpr (Or.inl is.symm))
      have unlisted : conn.client ∉ host.tunnelClients.keys :=
        fun listed => absent (AList.mem_keys.mpr listed)
      rw [heads, queueClears_shaken shaken, if_neg foreign, if_neg unlisted, Bool.and_eq_true]
      rw [rest] at clear
      constructor
      · have leaves := clear.1
        rw [show (host.enter index conn).handlerLeaves protocol tunnelAddr =
          ((host.enter index conn).conns[index]?).any
            fun conn => conn.leaves protocol tunnelAddr .acceptBi from rfl, here] at leaves
        exact leaves
      · rw [← clear.2]
        apply queueClears_congr
        intro other
        rw [← AList.mem_keys, show other ∈ (host.enter index conn).tunnelClients ↔ _ from
          AList.mem_insert _, List.mem_cons, AList.mem_keys]

theorem Open.of_handler {host next : HostTunnel Key} {key other : Key} {act : HandlerAct}
    (inv : host.Inv)
    (unstopped : host.stopSent = false)
    (taken : step protocol tunnelAddr host (.handler other act) = some next)
    (permitted : ByHostAnd key (.handler other act)) (open_ : next.Open protocol tunnelAddr key) :
    host.Open protocol tunnelAddr key := by
  rcases handler_cases taken with
    ⟨index, phase, before, after, registration, outcome, at_, found, owner, moved, same⟩
  have kept := Conn.handlerStep_sameOwner moved
  rcases inv.handled_eq at_ found kept.client registration outcome with ⟨clients, members, is⟩
  rcases inv.handling index phase at_ with ⟨last, conn, there, serving⟩
  rw [found] at there
  cases there
  have registered := inv.mem_of_serving found serving
  have mine : before.reaches phase = true → before.client = key → host.Open protocol tunnelAddr key :=
    fun reaches own => Or.inr (Or.inl ⟨index, phase, before, at_, found, own, reaches⟩)
  have unmoved : ∀ final : Conn Key,
      (host.setConn index final).conns.drop host.taken = host.conns.drop host.taken :=
    fun final => drop_setConn final last
  have queued : host.queue = host.conns.drop host.taken := by simp only [queue, at_]
  -- for a stranger's handler it is enough that it can return
  have cleared : key ∉ clients → queueClears protocol tunnelAddr key clients.keys host.queue = true →
      (∀ phase', outcome = .continues phase' →
        after.leaves protocol tunnelAddr phase' = true) → host.Open protocol tunnelAddr key := by
    intro new clears leaves
    have new : key ∉ host.tunnelClients := fun present => new ((members key).mpr present)
    have foreign := inv.client_ne new at_ found
    have own : act.byHost = true := permitted.resolve_left fun is => foreign (owner.trans is)
    refine Or.inr (Or.inr ⟨new, ?_⟩)
    simp only [clearFor, handlerLeaves, at_, found, Option.any_some, Bool.and_eq_true]
    refine ⟨Conn.leaves_of_step moved own unstopped leaves, ?_⟩
    rw [← clears]
    apply queueClears_congr
    intro other
    rw [← AList.mem_keys, ← AList.mem_keys, members]
  cases outcome with
  | continues phase' =>
      subst same
      rw [is] at open_
      rcases open_ with ⟨_, answered⟩ | ⟨j, phase'', conn, at', here, own, reaches⟩ | ⟨new, clear⟩
      · rcases inv.answered_of_setConn found kept.client answered with earlier | ⟨own, now⟩
        · exact Or.inl earlier
        · exact mine (Conn.reaches_of_step moved (Or.inr now)) own
      · cases at'
        have now : (host.setConn index after).conns[index]? = some conn := here
        rw [getElem?_setConn found after, if_pos rfl] at now
        cases now
        exact mine (Conn.reaches_of_step moved (Or.inl ⟨phase', rfl, reaches⟩))
          (kept.client.symm.trans own)
      · simp only [clearFor, Bool.and_eq_true] at clear
        apply cleared new
        · rw [queued, ← unmoved after]
          exact clear.2
        · intro phase'' is'
          cases is'
          have leaves : ((host.setConn index after).conns[index]?).any
              (fun conn => conn.leaves protocol tunnelAddr phase') = true := clear.1
          rw [getElem?_setConn found after, if_pos rfl] at leaves
          exact leaves
  | returns error =>
      subst same
      rw [is] at open_
      rcases open_ with ⟨_, answered⟩ | ⟨j, phase'', conn, at', _⟩ | ⟨new, clear⟩
      · have client : ({ after with life := .returned error } : Conn Key).client = before.client :=
          kept.client
        rcases inv.answered_of_setConn found client answered with earlier | ⟨own, now⟩
        · exact Or.inl earlier
        · exact mine (Conn.reaches_of_step moved (Or.inr now)) own
      · cases at'
      · simp only [clearFor, Bool.and_eq_true] at clear
        apply cleared new
        · rw [queued, ← unmoved { after with life := .returned error }]
          exact clear.2
        · intro phase'' is'
          cases is'

/-- A permitted step of the running tunnel leads to an open state from open
states only. -/
theorem Open.of_step {host next : HostTunnel Key} {key : Key} {label : Label Key} (inv : host.Inv)
    (running : host.runningProps = true)
    (taken : step protocol tunnelAddr host label = some next) (permitted : ByHostAnd key label)
    (open_ : next.Open protocol tunnelAddr key) : host.Open protocol tunnelAddr key := by
  have alive := inv.running running
  cases label with
  | dial other =>
      simp only [step, alive.2] at taken
      cases taken
      have own : other = key := permitted
      subst own
      exact Open.of_dial inv open_
  | client other index act =>
      rcases Option.bind_eq_some_iff.mp taken with ⟨before, found, rest⟩
      split at rest
      · rename_i owner
        rcases Option.map_eq_some_iff.mp rest with ⟨after, moved, same⟩
        subst same
        exact Open.of_client inv found (owner.1.trans permitted) moved open_
      · cases rest
  | accept =>
      simp only [step] at taken
      split at taken
      · rename_i idle
        split at taken
        · cases taken
          rcases open_ with answered | ⟨_, _, _, at_, _⟩ | ⟨new, clear⟩
          · exact Or.inl answered
          · cases at_
          · refine Or.inr (Or.inr ⟨new, ?_⟩)
            simp only [clearFor, Bool.and_eq_true] at clear ⊢
            refine ⟨by simp only [handlerLeaves, idle], ?_⟩
            rw [queue, idle]
            exact clear.2
        · split at taken <;> cases taken
          exact open_
      · cases taken
  | handshakeEnds =>
      simp only [step] at taken
      split at taken
      · rename_i index at_
        rcases Option.bind_eq_some_iff.mp taken with ⟨conn, found, admitted⟩
        exact Open.of_handshakeEnds inv at_ found admitted open_
      · cases taken
  | handler other act => exact Open.of_handler inv alive.1 taken permitted open_
  | stop | closeEndpoint => exact permitted.elim

end HostTunnel

end Host
end Lantun
