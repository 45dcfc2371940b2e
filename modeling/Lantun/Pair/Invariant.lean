import Lantun.Host.Invariant
import Lantun.Pair.Parties

namespace Lantun
namespace Pair

open Client Net

/-!
# Where the two parties can be

Two counters tie the parties together.  On the client the listener's program
point says how many streams have been opened and how many requests sent; on
the host the handler's says how many streams and how many requests have been
taken, and these run in step because the handler takes one of each in turn.
From this follows which application a request the host reads is about.
-/

/-! ## Frames -/

/-- What a step of a forwarder can do to its application and its stream. -/
theorem forward_frame {lost : Bool} {app app' : App} {wire wire' : Wire} {role : Role}
    {act : Forward} {status : TaskStatus}
    (moved : forward lost app wire role act = some (app', wire', status)) :
    app'.addr = app.addr ∧ wire'.delivered = wire.delivered ∧ wire'.back ≤ wire.back ∧
      (role = .up → status ≠ .running → wire'.fin = true ∨ lost = true) ∧
      (role = .down → status = .panicked → 0 < wire.back) ∧
      (wire.fin = true → wire'.fin = true) ∧ (wire.announced = true → wire'.announced = true) ∧
      wire'.declined = wire.declined ∧ wire'.refused = wire.refused := by
  cases role with
  | up =>
      cases act with
      | relay count | relayFails | ends =>
          simp only [forward] at moved
          split at moved <;> cases moved
          cases lost <;> simp [Wire.dropSend, Wire.announced] <;> omega
      | timesOut =>
          cases moved
          cases lost <;> simp [Wire.dropSend, Wire.announced]
  | down =>
      cases act with
      | relay count | relayFails | ends =>
          simp only [forward] at moved
          split at moved <;> cases moved
          simp_all [Wire.announced]
      | timesOut =>
          cases moved
          simp [Wire.announced]

/-- A handler step keeps what the client relies on. -/
theorem effect_frame (act : Host.HandlerAct) (wire : Wire) :
    (effect act wire).announced = wire.announced ∧ (effect act wire).fin = wire.fin := by
  cases act with
  | relay role count => cases role <;> exact ⟨rfl, rfl⟩
  | relayFails role | ends role | timesOut role => cases role <;> exact ⟨rfl, rfl⟩
  | _ => exact ⟨rfl, rfl⟩

namespace Parties

/-! ## The invariant -/

/-- How far the listener has come with what it accepts, opens and sends. -/
def Position (parties : Parties) : Prop :=
  match parties.client.listener with
  | .binding | .select | .deaf =>
      parties.taken = parties.wires.length ∧ parties.requests = parties.wires.length
  | .opening addr =>
      parties.taken = parties.wires.length + 1 ∧ parties.requests = parties.wires.length ∧
        parties.addr? parties.wires.length = some addr
  | .sending addr =>
      parties.taken = parties.wires.length ∧ parties.requests + 1 = parties.wires.length ∧
        parties.addr? parties.requests = some addr
  | .session addr _ =>
      parties.taken = parties.wires.length ∧ parties.requests = parties.wires.length ∧
        0 < parties.wires.length ∧ parties.addr? (parties.wires.length - 1) = some addr
  | .ended _ => parties.requests ≤ parties.wires.length ∧ parties.wires.length ≤ parties.taken

/-- How far the handler has come with what it accepts, receives and serves. -/
def Progress (parties : Parties) : Prop :=
  match parties.handler with
  | .continues .acceptBi =>
      parties.conn.accepted = parties.established.length ∧
        parties.conn.received = parties.established.length
  | .continues (.receivePacket stream) =>
      stream = parties.established.length ∧ parties.conn.accepted = stream + 1 ∧
        parties.conn.received = stream
  | .continues (.connecting stream localAddr) =>
      stream = parties.established.length ∧ parties.conn.accepted = stream + 1 ∧
        parties.conn.received = stream + 1 ∧ parties.addr? stream = some localAddr
  | .continues (.session stream localAddr _) =>
      stream + 1 = parties.established.length ∧ parties.conn.accepted = stream + 1 ∧
        parties.conn.received = stream + 1 ∧ parties.addr? stream = some localAddr
  | .returns _ => parties.established.length ≤ parties.conn.accepted

structure Inv (parties : Parties) : Prop where
  quiet : parties.client.stop = Async.Watch.channel false ∧ parties.client.seen = 0
  taken_le : parties.taken ≤ parties.apps.length
  position : parties.Position
  progress : parties.Progress
  streams : parties.conn.accepted ≤ parties.conn.streams.length ∧
    parties.conn.streams.length ≤ parties.wires.length
  controls : parties.conn.received ≤ parties.conn.controls.length ∧
    parties.conn.controls.length ≤ parties.wires.length
  requested : ∀ (index : Nat) (control : Host.Control),
    parties.conn.controls[index]? = some control → control = .arriving ∨
      ∃ addr, parties.addr? index = some addr ∧ control = .packet (.connReq addr)
  shaken : parties.conn.link.shaken = true
  established : ∀ (index : Nat) (addr : SocketAddr),
    parties.established[index]? = some addr → parties.addr? index = some addr
  unserved : ∀ (index : Nat) (wire : Wire), parties.wires[index]? = some wire →
    parties.established.length ≤ index → wire.back = 0 ∧ wire.delivered = 0
  unaccepted : ∀ (index : Nat) (wire : Wire), parties.wires[index]? = some wire →
    parties.conn.accepted ≤ index → wire.declined = false ∧ wire.refused = false
  /-- A session that is over at the client before the host knows of it has
  announced its stream. -/
  past : ∀ (index : Nat) (wire : Wire), parties.wires[index]? = some wire →
    index < parties.requests → parties.established.length ≤ index →
      parties.client.closed = true ∨ wire.announced = true ∨
        (index + 1 = parties.wires.length ∧
          ∃ addr forwarders, parties.client.listener = .session addr forwarders)
  /-- A forwarder that has left the current session has left its mark. -/
  session : ∀ addr forwarders, parties.client.listener = .session addr forwarders →
    (forwarders.socketToTunnel ≠ .running → parties.client.closed = true ∨
      ∃ wire : Wire, parties.wires[parties.wires.length - 1]? = some wire ∧ wire.fin = true) ∧
    (forwarders.tunnelToSocket = .panicked → parties.wires.length ≤ parties.established.length)

theorem inv_started : started.Inv where
  quiet := ⟨rfl, rfl⟩
  taken_le := Nat.le_refl 0
  position := ⟨rfl, rfl⟩
  progress := ⟨rfl, rfl⟩
  streams := ⟨Nat.le_refl 0, Nat.le_refl 0⟩
  controls := ⟨Nat.le_refl 0, Nat.le_refl 0⟩
  requested index control here := by simp [started, Host.Conn.incoming] at here
  shaken := rfl
  established index addr here := by simp [started] at here
  unserved index wire here := by simp [started] at here
  unaccepted index wire here := by simp [started] at here
  past index wire here := by simp [started] at here
  session addr forwarders at_ := by cases at_

/-! ## Applications -/

/-- The applications change without any of them moving. -/
theorem Inv.of_apps {parties : Parties} (inv : parties.Inv) (apps : List App)
    (kept : ∀ (index : Nat) (addr : SocketAddr), parties.addr? index = some addr →
      addr? { parties with apps } index = some addr)
    (longer : parties.apps.length ≤ apps.length) : Inv { parties with apps } where
  quiet := inv.quiet
  taken_le := Nat.le_trans inv.taken_le longer
  position := by
    have position := inv.position
    unfold Position at position ⊢
    cases at_ : parties.client.listener with
    | opening addr | sending addr =>
        simp only [at_] at position ⊢
        exact ⟨position.1, position.2.1, kept _ _ position.2.2⟩
    | session addr forwarders =>
        simp only [at_] at position ⊢
        exact ⟨position.1, position.2.1, position.2.2.1, kept _ _ position.2.2.2⟩
    | _ => simpa only [at_] using position
  progress := by
    have progress := inv.progress
    unfold Progress at progress ⊢
    cases at_ : parties.handler with
    | returns error => simpa only [at_] using progress
    | continues phase =>
        cases phase with
        | connecting stream localAddr | session stream localAddr forwarders =>
            simp only [at_] at progress ⊢
            exact ⟨progress.1, progress.2.1, progress.2.2.1, kept _ _ progress.2.2.2⟩
        | _ => simpa only [at_] using progress
  streams := inv.streams
  controls := inv.controls
  requested index control here := by
    rcases inv.requested index control here with arriving | ⟨addr, there, is⟩
    · exact Or.inl arriving
    · exact Or.inr ⟨addr, kept index addr there, is⟩
  shaken := inv.shaken
  established index addr here := kept index addr (inv.established index addr here)
  unserved := inv.unserved
  unaccepted := inv.unaccepted
  past := inv.past
  session := inv.session

theorem addr?_setApp {parties : Parties} {index : Nat} {before after : App}
    (found : parties.apps[index]? = some before) (same : after.addr = before.addr)
    (other : Nat) : (parties.setApp index after).addr? other = parties.addr? other := by
  have bound := (List.getElem?_eq_some_iff.mp found).1
  unfold addr? setApp
  by_cases is : other = index
  · subst is
    rw [List.getElem?_set_self bound, found]
    exact congrArg some same
  · rw [List.getElem?_set_ne (Ne.symm is)]

theorem Inv.setApp {parties : Parties} (inv : parties.Inv) {index : Nat} {before after : App}
    (found : parties.apps[index]? = some before) (same : after.addr = before.addr) :
    (parties.setApp index after).Inv := by
  apply inv.of_apps
  · intro other addr here
    exact (addr?_setApp found same other).trans here
  · simp

theorem Inv.appStep {parties next : Parties} (inv : parties.Inv) {index : Nat} {act : AppAct}
    (taken : parties.appStep index act = some next) : next.Inv := by
  rcases Option.bind_eq_some_iff.mp taken with ⟨app, found, rest⟩
  split at rest
  · cases rest
  · cases act <;> cases rest <;> exact inv.setApp found rfl

/-! ## The listener -/

/-- The client moves, and opens at most one more stream. -/
theorem Inv.of_client {parties : Parties} (inv : parties.Inv) (client : Connected)
    (taken requests : Nat) (wires : List Wire)
    (quiet : client.stop = parties.client.stop ∧ client.seen = parties.client.seen)
    (taken_le : taken ≤ parties.apps.length)
    (position : Position { parties with client, taken, requests, wires })
    (grown : wires = parties.wires ∨ wires = parties.wires ++ [.opened])
    (past : ∀ (index : Nat) (wire : Wire), wires[index]? = some wire → index < requests →
      parties.established.length ≤ index → client.closed = true ∨ wire.announced = true ∨
        (index + 1 = wires.length ∧ ∃ addr forwarders, client.listener = .session addr forwarders))
    (session : ∀ addr forwarders, client.listener = .session addr forwarders →
      (forwarders.socketToTunnel ≠ .running → client.closed = true ∨
        ∃ wire : Wire, wires[wires.length - 1]? = some wire ∧ wire.fin = true) ∧
      (forwarders.tunnelToSocket = .panicked → wires.length ≤ parties.established.length)) :
    Inv { parties with client, taken, requests, wires } where
  quiet := ⟨quiet.1.trans inv.quiet.1, quiet.2.trans inv.quiet.2⟩
  taken_le := taken_le
  position := position
  progress := inv.progress
  streams := by
    refine ⟨inv.streams.1, ?_⟩
    have bound := inv.streams.2
    rcases grown with rfl | rfl
    · exact bound
    · simp only [List.length_append, List.length_singleton]
      omega
  controls := by
    refine ⟨inv.controls.1, ?_⟩
    have bound := inv.controls.2
    rcases grown with rfl | rfl
    · exact bound
    · simp only [List.length_append, List.length_singleton]
      omega
  requested := inv.requested
  shaken := inv.shaken
  established := inv.established
  unserved index wire here later := by
    rcases grown with rfl | rfl
    · exact inv.unserved index wire here later
    · rw [List.getElem?_append] at here
      split at here
      · exact inv.unserved index wire here later
      · rw [List.getElem?_singleton] at here
        split at here <;> cases here
        exact ⟨rfl, rfl⟩
  unaccepted index wire here later := by
    rcases grown with rfl | rfl
    · exact inv.unaccepted index wire here later
    · rw [List.getElem?_append] at here
      split at here
      · exact inv.unaccepted index wire here later
      · rw [List.getElem?_singleton] at here
        split at here <;> cases here
        exact ⟨rfl, rfl⟩
  past := past
  session := session

theorem Inv.not_ready {parties : Parties} (inv : parties.Inv) :
    parties.client.stop.ready parties.client.seen = false := by
  rw [inv.quiet.1, inv.quiet.2]
  rfl

/-- Outside a session every request sent is on an announced stream. -/
theorem Inv.past_idle {parties : Parties} (inv : parties.Inv)
    (idle : ∀ addr forwarders, parties.client.listener ≠ .session addr forwarders)
    {index : Nat} {wire : Wire} (here : parties.wires[index]? = some wire)
    (sent : index < parties.requests) (later : parties.established.length ≤ index) :
    parties.client.closed = true ∨ wire.announced = true := by
  rcases inv.past index wire here sent later with closed | announced | ⟨_, addr, forwarders, at_⟩
  · exact Or.inl closed
  · exact Or.inr announced
  · exact absurd at_ (idle addr forwarders)

/-- A session that can return has announced its stream. -/
theorem Inv.past_joined {parties : Parties} (inv : parties.Inv) {addr : SocketAddr}
    {forwarders : Forwarders} (at_ : parties.client.listener = .session addr forwarders)
    (joined : forwarders.joined = true) {index : Nat} {wire : Wire}
    (here : parties.wires[index]? = some wire) (sent : index < parties.requests)
    (later : parties.established.length ≤ index) :
    parties.client.closed = true ∨ wire.announced = true := by
  rcases inv.past index wire here sent later with closed | announced | ⟨last, _⟩
  · exact Or.inl closed
  · exact Or.inr announced
  · rcases inv.session addr forwarders at_ with ⟨up, down⟩
    have healthy : forwarders.tunnelToSocket ≠ .panicked := by
      intro panicked
      have served := down panicked
      omega
    have ended : forwarders.socketToTunnel ≠ .running := by
      intro running
      simp [Forwarders.joined, running, healthy] at joined
    rcases up ended with closed | ⟨old, there, finished⟩
    · exact Or.inl closed
    · have same : parties.wires.length - 1 = index := by omega
      rw [same, here] at there
      cases there
      exact Or.inr (by simp [Wire.announced, finished])

/-- The listener moves outside its sessions. -/
theorem Inv.of_outside {parties : Parties} (inv : parties.Inv) {client : Connected} {taken : Nat}
    (quiet : client.stop = parties.client.stop ∧ client.seen = parties.client.seen)
    (taken_le : taken ≤ parties.apps.length) (position : Position { parties with client, taken })
    (still : client.closed = parties.client.closed)
    (before : ∀ addr forwarders, parties.client.listener ≠ .session addr forwarders)
    (after : ∀ addr forwarders, client.listener ≠ .session addr forwarders) :
    Inv { parties with client, taken } := by
  refine inv.of_client client taken parties.requests parties.wires quiet taken_le position
    (Or.inl rfl) ?_ (fun addr forwarders at_ => absurd at_ (after addr forwarders))
  intro index wire here sent later
  rw [still]
  exact (inv.past_idle before here sent later).imp_right Or.inl

section Listener

variable {parties : Parties} {client : Connected}

theorem Inv.untouched (inv : parties.Inv) {act : ListenerAct}
    (moved : parties.client.step .tcp act = some client) :
    client.stop = parties.client.stop ∧ client.seen = parties.client.seen :=
  ⟨(Connected.step_frame moved).1, (Connected.step_quiet inv.not_ready moved).1⟩

theorem Inv.listener_binds (inv : parties.Inv) {act : ListenerAct}
    (binds : act = .bound ∨ act = .bindFails)
    (moved : parties.client.step .tcp act = some client) : Inv { parties with client } := by
  have quiet := inv.untouched moved
  have position := inv.position
  rcases binds with rfl | rfl <;>
  · simp only [Connected.step] at moved
    split at moved <;> cases moved
    rename_i at_
    simp only [Position, at_] at position
    apply inv.of_outside quiet inv.taken_le _ rfl (by simp [at_]) (by simp)
    simp only [Position]
    omega

theorem Inv.listener_incomingFails (inv : parties.Inv)
    (moved : parties.client.step .tcp .incomingFails = some client) :
    Inv { parties with client } := by
  have quiet := inv.untouched moved
  have position := inv.position
  simp only [Connected.step, inv.not_ready] at moved
  split at moved <;> cases moved
  rename_i at_
  simp only [Position, at_] at position
  exact inv.of_outside quiet inv.taken_le position rfl (by simp [at_]) (by simp)

theorem Inv.listener_accepts (inv : parties.Inv) {addr : SocketAddr}
    (moved : parties.client.step .tcp (.incoming addr) = some client)
    (first : parties.addr? parties.taken = some addr) :
    Inv { parties with client, taken := parties.taken + 1 } := by
  have quiet := inv.untouched moved
  have position := inv.position
  simp only [Connected.step, inv.not_ready] at moved
  split at moved <;> cases moved
  rename_i at_
  simp only [Position, at_] at position
  apply inv.of_outside quiet _ _ rfl (by simp [at_]) (by simp [Connected.afterIncoming])
  · rcases Option.map_eq_some_iff.mp first with ⟨app, here, _⟩
    exact (List.getElem?_eq_some_iff.mp here).1
  · exact ⟨congrArg (· + 1) position.1, position.2, position.1 ▸ first⟩

theorem Inv.listener_opened (inv : parties.Inv)
    (moved : parties.client.step .tcp .opened = some client) :
    Inv { parties with client, wires := parties.wires ++ [.opened] } := by
  have quiet := inv.untouched moved
  have position := inv.position
  simp only [Connected.step] at moved
  split at moved
  · split at moved <;> cases moved
    rename_i addr at_ _
    simp only [Position, at_] at position
    refine inv.of_client _ _ _ _ quiet inv.taken_le ?_ (Or.inr rfl) ?_ (fun _ _ is => by cases is)
    · refine ⟨?_, ?_, position.2.1 ▸ position.2.2⟩
      · simpa using position.1
      · simpa using position.2.1
    · intro index wire here sent later
      rw [List.getElem?_append_left (position.2.1 ▸ sent)] at here
      exact (inv.past_idle (by simp [at_]) here sent later).imp_right Or.inl
  · cases moved

theorem Inv.listener_openFails (inv : parties.Inv)
    (moved : parties.client.step .tcp .openFails = some client) : Inv { parties with client } := by
  have quiet := inv.untouched moved
  have position := inv.position
  simp only [Connected.step] at moved
  split at moved
  · split at moved <;> cases moved
    rename_i addr at_ _
    simp only [Position, at_] at position
    apply inv.of_outside quiet inv.taken_le _ rfl (by simp [at_]) (by simp)
    simp only [Position]
    omega
  · cases moved

theorem Inv.listener_sent (inv : parties.Inv)
    (moved : parties.client.step .tcp .sent = some client) :
    Inv { parties with client, requests := parties.requests + 1 } := by
  have quiet := inv.untouched moved
  have position := inv.position
  simp only [Connected.step] at moved
  split at moved
  · split at moved <;> cases moved
    rename_i addr at_ _
    simp only [Position, at_] at position
    have opened : parties.requests + 1 = parties.wires.length := position.2.1
    refine inv.of_client _ _ _ _ quiet inv.taken_le ?_ (Or.inl rfl) ?_ ?_
    · refine ⟨position.1, opened, opened ▸ Nat.succ_pos _, ?_⟩
      have last : parties.wires.length - 1 = parties.requests := by omega
      exact (congrArg parties.addr? last).trans position.2.2
    · intro index wire here sent later
      by_cases last : index + 1 = parties.wires.length
      · exact Or.inr (Or.inr ⟨last, addr, Forwarders.spawned, rfl⟩)
      · have earlier : index < parties.requests := by omega
        exact (inv.past_idle (by simp [at_]) here earlier later).imp_right Or.inl
    · intro addr forwarders is
      cases is
      simp [Forwarders.spawned]
  · cases moved

theorem Inv.listener_sendFails (inv : parties.Inv)
    (moved : parties.client.step .tcp .sendFails = some client) : Inv { parties with client } := by
  have quiet := inv.untouched moved
  have position := inv.position
  simp only [Connected.step] at moved
  split at moved <;> cases moved
  rename_i addr at_
  simp only [Position, at_] at position
  apply inv.of_outside quiet inv.taken_le _ rfl (by simp [at_]) (by simp)
  simp only [Position]
  omega

theorem Inv.listener_joins (inv : parties.Inv)
    (moved : parties.client.step .tcp .join = some client) : Inv { parties with client } := by
  have quiet := inv.untouched moved
  have position := inv.position
  simp only [Connected.step] at moved
  split at moved
  · split at moved <;> cases moved
    rename_i addr forwarders at_ joined
    simp only [Position, at_] at position
    refine inv.of_client _ _ _ _ quiet inv.taken_le ⟨position.1, position.2.1⟩ (Or.inl rfl) ?_
      (fun _ _ is => by cases is)
    intro index wire here sent later
    exact (inv.past_joined at_ joined here sent later).imp_right Or.inl
  · cases moved

end Listener

theorem Inv.listenerStep {parties next : Parties} (inv : parties.Inv) {act : ListenerAct}
    (taken : parties.listenerStep act = some next) : next.Inv := by
  rcases Option.bind_eq_some_iff.mp taken with ⟨client, moved, rest⟩
  cases act with
  | bound =>
      cases rest
      exact inv.listener_binds (Or.inl rfl) moved
  | bindFails =>
      cases rest
      exact inv.listener_binds (Or.inr rfl) moved
  | stop =>
      simp only [Connected.step, inv.not_ready, Bool.false_eq_true, and_false, if_false] at moved
      cases moved
  | incomingFails =>
      cases rest
      exact inv.listener_incomingFails moved
  | incoming addr =>
      simp only at rest
      split at rest <;> cases rest
      rename_i first
      exact inv.listener_accepts moved first
  | opened =>
      cases rest
      exact inv.listener_opened moved
  | openFails =>
      cases rest
      exact inv.listener_openFails moved
  | sent =>
      cases rest
      exact inv.listener_sent moved
  | sendFails =>
      simp only at rest
      split at rest <;> cases rest
      exact inv.listener_sendFails moved
  | forwarderEnds role status | detachedEnds => cases rest
  | join =>
      cases rest
      exact inv.listener_joins moved

/-! ## The forwarders of the client -/

theorem Inv.setWire {parties : Parties} (inv : parties.Inv) {index : Nat} {before after : Wire}
    (found : parties.wires[index]? = some before)
    (unserved : parties.established.length ≤ index → before.back = 0 → before.delivered = 0 →
      after.back = 0 ∧ after.delivered = 0)
    (fin : before.fin = true → after.fin = true)
    (announced : before.announced = true → after.announced = true)
    (unaccepted : parties.conn.accepted ≤ index → before.declined = false →
      before.refused = false → after.declined = false ∧ after.refused = false) :
    (parties.setWire index after).Inv := by
  have bound := (List.getElem?_eq_some_iff.mp found).1
  have length : (parties.wires.set index after).length = parties.wires.length := List.length_set
  have lookup : ∀ (other : Nat) (wire : Wire), (parties.wires.set index after)[other]? = some wire →
      (other = index ∧ wire = after) ∨ parties.wires[other]? = some wire := by
    intro other wire here
    by_cases is : other = index
    · subst is
      rw [List.getElem?_set_self bound] at here
      exact Or.inl ⟨rfl, (Option.some.inj here).symm⟩
    · rw [List.getElem?_set_ne (Ne.symm is)] at here
      exact Or.inr here
  exact
    { quiet := inv.quiet
      taken_le := inv.taken_le
      position := by
        have position := inv.position
        unfold Position at position ⊢
        simpa only [Parties.setWire, length, addr?] using position
      progress := inv.progress
      streams := ⟨inv.streams.1, Nat.le_trans inv.streams.2 (Nat.le_of_eq length.symm)⟩
      controls := ⟨inv.controls.1, Nat.le_trans inv.controls.2 (Nat.le_of_eq length.symm)⟩
      requested := inv.requested
      shaken := inv.shaken
      established := inv.established
      unserved := by
        intro other wire here later
        rcases lookup other wire here with ⟨is, same⟩ | there
        · subst is same
          have old := inv.unserved other before found later
          exact unserved later old.1 old.2
        · exact inv.unserved other wire there later
      unaccepted := by
        intro other wire here later
        rcases lookup other wire here with ⟨is, same⟩ | there
        · subst is same
          have old := inv.unaccepted other before found later
          exact unaccepted later old.1 old.2
        · exact inv.unaccepted other wire there later
      past := by
        intro other wire here sent later
        have last : (parties.setWire index after).wires.length = parties.wires.length := length
        rw [last]
        rcases lookup other wire here with ⟨is, same⟩ | there
        · subst is same
          rcases inv.past other before found sent later with closed | old | current
          · exact Or.inl closed
          · exact Or.inr (Or.inl (announced old))
          · exact Or.inr (Or.inr current)
        · exact inv.past other wire there sent later
      session := by
        intro addr forwarders at_
        rcases inv.session addr forwarders at_ with ⟨up, down⟩
        refine ⟨fun ended => ?_, fun panicked => ?_⟩
        · rcases up ended with closed | ⟨wire, here, finished⟩
          · exact Or.inl closed
          · refine Or.inr ?_
            have last : (parties.setWire index after).wires.length - 1 = parties.wires.length - 1 :=
              congrArg (· - 1) length
            rw [last]
            by_cases is : parties.wires.length - 1 = index
            · subst is
              rw [found] at here
              cases here
              exact ⟨after, List.getElem?_set_self bound, fin finished⟩
            · exact ⟨wire, (List.getElem?_set_ne (Ne.symm is)).trans here, finished⟩
        · exact Nat.le_trans (Nat.le_of_eq length) (down panicked) }

/-- How the listener changes when a forwarder of its session moves. -/
theorem settle_cases {client next : Connected} {role : Role} {status : TaskStatus}
    {addr : SocketAddr} {forwarders : Forwarders} (at_ : client.listener = .session addr forwarders)
    (running : forwarders.status role = .running) (settled : settle client role status = some next) :
    next = { client with listener := .session addr (forwarders.setStatus role status) } := by
  cases status with
  | running =>
      cases settled
      have same : forwarders.setStatus role .running = forwarders := by
        cases role
        · exact congrArg (Forwarders.mk forwarders.tunnelToSocket) running.symm
        · exact congrArg (Forwarders.mk · forwarders.socketToTunnel) running.symm
      rw [same, ← at_]
  | finished | panicked =>
      simp only [settle, Connected.step, at_, running] at settled
      split at settled <;> cases settled
      rfl

/-- A forwarder's step, taken apart. -/
theorem forwarder_cases {parties next : Parties} {role : Role} {act : Forward}
    (taken : parties.forwarderStep role act = some next) :
    ∃ addr forwarders app app' wire wire' status,
      parties.client.listener = .session addr forwarders ∧ forwarders.status role = .running ∧
      parties.apps[parties.wires.length - 1]? = some app ∧
      parties.wires[parties.wires.length - 1]? = some wire ∧
      forward parties.client.closed app wire role act = some (app', wire', status) ∧
      next = { (parties.setApp (parties.wires.length - 1) app').setWire
          (parties.wires.length - 1) wire' with
        client := { parties.client with
          listener := .session addr (forwarders.setStatus role status) } } := by
  unfold forwarderStep at taken
  split at taken
  · rename_i addr forwarders at_
    split at taken
    · rename_i running
      rcases Option.bind_eq_some_iff.mp taken with ⟨app, foundApp, rest⟩
      rcases Option.bind_eq_some_iff.mp rest with ⟨wire, foundWire, rest⟩
      rcases Option.bind_eq_some_iff.mp rest with ⟨⟨app', wire', status⟩, moved, last⟩
      rcases Option.map_eq_some_iff.mp last with ⟨client, settled, same⟩
      have is := settle_cases at_ running settled
      refine ⟨addr, forwarders, app, app', wire, wire', status, at_, running, foundApp, foundWire,
        moved, ?_⟩
      rw [← same, is]
    · cases taken
  · cases taken

theorem Inv.forwarderStep {parties next : Parties} (inv : parties.Inv) {role : Role}
    {act : Forward} (taken : parties.forwarderStep role act = some next) : next.Inv := by
  rcases forwarder_cases taken with
    ⟨addr, forwarders, app, app', wire, wire', status, at_, running, foundApp, foundWire, moved,
      same⟩
  rcases forward_frame moved with
    ⟨owner, delivered, back, up, down, fin, announced, declined, refused⟩
  have changed : ((parties.setApp (parties.wires.length - 1) app').setWire
      (parties.wires.length - 1) wire').Inv := by
    refine (inv.setApp foundApp owner).setWire foundWire (fun _ noBack none_ => ?_) fin announced
      (fun _ undeclined unrefused => ⟨declined.trans undeclined, refused.trans unrefused⟩)
    exact ⟨by omega, delivered.trans none_⟩
  have last : ((parties.setApp (parties.wires.length - 1) app').setWire
      (parties.wires.length - 1) wire').wires.length = parties.wires.length := List.length_set
  have here : ((parties.setApp (parties.wires.length - 1) app').setWire
      (parties.wires.length - 1) wire').wires[parties.wires.length - 1]? = some wire' :=
    List.getElem?_set_self (List.getElem?_eq_some_iff.mp foundWire).1
  subst same
  have position := changed.position
  simp only [Position, Parties.setWire, Parties.setApp, at_] at position
  refine changed.of_client _ _ _ _ ⟨rfl, rfl⟩ changed.taken_le ?_ (Or.inl rfl) ?_ ?_
  · exact position
  · intro index wire here sent later
    rcases changed.past index wire here sent later with closed | old | ⟨final, _⟩
    · exact Or.inl closed
    · exact Or.inr (Or.inl old)
    · exact Or.inr (Or.inr ⟨final, addr, forwarders.setStatus role status, rfl⟩)
  · intro addr' forwarders' is
    cases is
    rcases inv.session addr forwarders at_ with ⟨wasUp, wasDown⟩
    rw [last]
    constructor
    · intro ended
      cases role with
      | up =>
          rcases up rfl ended with finished | lost
          · exact Or.inr ⟨wire', here, finished⟩
          · exact Or.inl lost
      | down =>
          rcases wasUp ended with closed | ⟨old, there, finished⟩
          · exact Or.inl closed
          · rw [foundWire] at there
            cases there
            exact Or.inr ⟨wire', here, fin finished⟩
    · intro panicked
      cases role with
      | up => exact wasDown panicked
      | down =>
          have some_ := down rfl panicked
          by_cases early : parties.established.length ≤ parties.wires.length - 1
          · have none_ := (inv.unserved _ wire foundWire early).1
            omega
          · have bound := (List.getElem?_eq_some_iff.mp foundWire).1
            show parties.wires.length ≤ parties.established.length
            omega

/-! ## The handler -/

theorem length_onStream (parties : Parties) (act : Host.HandlerAct) (stream : Option Nat) :
    (parties.onStream act stream).wires.length = parties.wires.length := by
  cases stream with
  | none => rfl
  | some stream => exact List.length_modify ..

/-- What a step of the handler does to a stream. -/
theorem Inv.onStream {parties : Parties} (inv : parties.Inv) {act : Host.HandlerAct}
    {stream : Option Nat} (covered : ∀ index, stream = some index → index < parties.conn.accepted)
    (unserved : ∀ (index : Nat) (wire : Wire), stream = some index →
      parties.established.length ≤ index → wire.back = 0 ∧ wire.delivered = 0 →
        (effect act wire).back = 0 ∧ (effect act wire).delivered = 0) :
    (parties.onStream act stream).Inv := by
  cases stream with
  | none => exact inv
  | some index =>
      cases found : parties.wires[index]? with
      | none =>
          have same : parties.wires.modify index (effect act) = parties.wires :=
            List.modify_eq_self (List.getElem?_eq_none_iff.mp found)
          simp only [Parties.onStream, same]
          exact inv
      | some wire =>
          have same : parties.onStream act (some index) = parties.setWire index (effect act wire) := by
            simp [Parties.onStream, Parties.setWire, List.modify_eq_set_getElem?, found]
          rw [same]
          refine inv.setWire found ?_ ?_ ?_ ?_
          · exact fun later noBack none_ => unserved index wire rfl later ⟨noBack, none_⟩
          · exact fun fin => (effect_frame act wire).2.trans fin
          · exact fun announced => (effect_frame act wire).1.trans announced
          · exact fun later => absurd (covered index rfl) (Nat.not_lt_of_le later)

/-- The handler takes something of its connection. -/
theorem Inv.of_handler {parties : Parties} (inv : parties.Inv) {conn : Host.Conn Unit}
    (handler : Host.Outcome) (registry : LocalConnections) (established : List SocketAddr)
    (same : Host.Conn.SameOwner parties.conn conn) (accepted : parties.conn.accepted ≤ conn.accepted)
    (counted : conn.accepted ≤ conn.streams.length ∧ conn.received ≤ conn.controls.length)
    (progress : Progress { parties with conn, handler, registry, established })
    (grown : established = parties.established ∨
      ∃ addr, established = parties.established ++ [addr] ∧
        parties.addr? parties.established.length = some addr) :
    Inv { parties with conn, handler, registry, established } := by
  have longer : parties.established.length ≤ established.length := by
    rcases grown with rfl | ⟨addr, rfl, _⟩
    · exact Nat.le_refl _
    · simp
  exact
    { quiet := inv.quiet
      taken_le := inv.taken_le
      position := inv.position
      progress := progress
      streams := ⟨counted.1, same.streams ▸ inv.streams.2⟩
      controls := ⟨counted.2, same.controls ▸ inv.controls.2⟩
      requested := fun index control here => inv.requested index control (same.controls ▸ here)
      shaken := same.link ▸ inv.shaken
      established := by
        intro index addr here
        rcases grown with rfl | ⟨new, rfl, known⟩
        · exact inv.established index addr here
        · rcases getElem?_concat_cases here with old | ⟨is, rfl⟩
          · exact inv.established index addr old
          · exact is ▸ known
      unserved := fun index wire here later =>
        inv.unserved index wire here (Nat.le_trans longer later)
      unaccepted := fun index wire here later =>
        inv.unaccepted index wire here (Nat.le_trans accepted later)
      past := fun index wire here sent later =>
        inv.past index wire here sent (Nat.le_trans longer later)
      session := by
        intro addr forwarders at_
        rcases inv.session addr forwarders at_ with ⟨up, down⟩
        exact ⟨up, fun panicked => Nat.le_trans (down panicked) longer⟩ }

/-- The handler takes something of its connection and of the current stream. -/
theorem Inv.of_host {parties : Parties} (inv : parties.Inv) {act : Host.HandlerAct}
    {stream : Option Nat} {conn : Host.Conn Unit} (handler : Host.Outcome)
    (registry : LocalConnections) (established : List SocketAddr)
    (same : Host.Conn.SameOwner parties.conn conn) (accepted : parties.conn.accepted ≤ conn.accepted)
    (covered : ∀ index, stream = some index → index < conn.accepted)
    (counted : conn.accepted ≤ conn.streams.length ∧ conn.received ≤ conn.controls.length)
    (progress : Progress { parties with conn, handler, registry, established })
    (grown : established = parties.established ∨
      ∃ addr, established = parties.established ++ [addr] ∧
        parties.addr? parties.established.length = some addr)
    (unserved : ∀ (index : Nat) (wire : Wire), stream = some index → established.length ≤ index →
      wire.back = 0 ∧ wire.delivered = 0 →
        (effect act wire).back = 0 ∧ (effect act wire).delivered = 0) :
    Inv { parties.onStream act stream with conn, handler, registry, established } := by
  have handled := inv.of_handler handler registry established same accepted counted progress grown
  have moved := handled.onStream covered unserved
  cases stream <;> exact moved

/-- A handler step, taken apart. -/
theorem host_cases {tunnelAddr : SocketAddr} {parties next : Parties} {act : Host.HandlerAct}
    (taken : parties.hostStep tunnelAddr act = some next) :
    ∃ phase conn registration outcome, parties.handler = .continues phase ∧
      parties.conn.handlerStep .tcp tunnelAddr false phase act =
        some (conn, registration, outcome) ∧
      next = { parties.onStream act (stream phase) with
        conn
        handler := outcome
        registry := register parties.registry registration
        established := parties.established ++ (connects phase act).toList } := by
  unfold hostStep at taken
  split at taken
  · cases taken
  · rename_i phase at_
    rcases Option.map_eq_some_iff.mp taken with ⟨⟨conn, registration, outcome⟩, moved, same⟩
    exact ⟨phase, conn, registration, outcome, at_, moved, same.symm⟩

section Handler

variable {tunnelAddr : SocketAddr} {parties : Parties} {conn : Host.Conn Unit}
  {act : Host.HandlerAct} {registration : Host.Registration} {outcome : Host.Outcome}
  (registry : LocalConnections)

theorem Inv.progress_acceptBi (inv : parties.Inv) (at_ : parties.handler = .continues .acceptBi)
    (moved : parties.conn.handlerStep .tcp tunnelAddr false .acceptBi act =
      some (conn, registration, outcome)) :
    Progress { parties with conn, handler := outcome, registry } := by
  have progress := inv.progress
  simp only [Progress, at_] at progress
  cases act <;> simp only [Host.Conn.handlerStep, Host.Conn.acceptStep] at moved <;> try cases moved
  · split at moved <;> cases moved
    exact ⟨progress.1, rfl, progress.2.trans progress.1.symm⟩
  · split at moved <;> cases moved
    exact Nat.le_of_eq progress.1.symm

/-- The request that is read is about the application whose stream was taken. -/
theorem Inv.progress_receivePacket (inv : parties.Inv) {stream : Nat}
    (at_ : parties.handler = .continues (.receivePacket stream))
    (moved : parties.conn.handlerStep .tcp tunnelAddr false (.receivePacket stream) act =
      some (conn, registration, outcome)) :
    Progress { parties with conn, handler := outcome, registry } := by
  have progress := inv.progress
  simp only [Progress, at_] at progress
  have later : parties.established.length ≤ parties.conn.accepted := by omega
  cases act <;> simp only [Host.Conn.handlerStep, Host.Conn.receiveStep] at moved <;>
    try cases moved
  · split at moved <;> cases moved
    rename_i localAddr found
    have here : parties.conn.controls[parties.conn.received]? =
        some (.packet (.connReq localAddr)) := found
    rcases inv.requested _ _ here with arriving | ⟨addr, there, is⟩
    · cases arriving
    · cases is
      exact ⟨progress.1, progress.2.1, congrArg (· + 1) progress.2.2, progress.2.2 ▸ there⟩
  · split at moved
    · cases moved
    · cases moved
      exact later
    · cases moved
      exact later
    · split at moved <;> cases moved
      exact later
    · split at moved <;> cases moved
      exact later

theorem Inv.progress_connecting (inv : parties.Inv) {stream : Nat} {localAddr : SocketAddr}
    (at_ : parties.handler = .continues (.connecting stream localAddr))
    (moved : parties.conn.handlerStep .tcp tunnelAddr false (.connecting stream localAddr) act =
      some (conn, registration, outcome)) :
    Progress { parties with
      conn
      handler := outcome
      registry
      established := parties.established ++ (connects (.connecting stream localAddr) act).toList } := by
  have progress := inv.progress
  simp only [Progress, at_] at progress
  cases act <;> simp only [Host.Conn.handlerStep, Host.Conn.connectStep] at moved <;>
    try cases moved
  · split at moved <;> cases moved
    simp only [Progress, connects, Option.toList_some, List.length_append, List.length_singleton]
    exact ⟨by omega, progress.2⟩
  all_goals
    split at moved <;> cases moved
    simp only [Progress, connects, Option.toList_none, List.append_nil]
    omega

theorem Inv.progress_session (inv : parties.Inv) {stream : Nat} {localAddr : SocketAddr}
    {forwarders : Forwarders} (at_ : parties.handler = .continues (.session stream localAddr forwarders))
    (moved : parties.conn.handlerStep .tcp tunnelAddr false (.session stream localAddr forwarders)
      act = some (conn, registration, outcome)) :
    Progress { parties with conn, handler := outcome, registry } := by
  have progress := inv.progress
  simp only [Progress, at_] at progress
  simp only [Host.Conn.handlerStep, Host.Conn.sessionStep] at moved
  split at moved
  · split at moved <;> cases moved
    simp only [Progress]
    omega
  · rcases Option.bind_eq_some_iff.mp moved with ⟨inbound, _, rest⟩
    rcases Option.bind_eq_some_iff.mp rest with ⟨⟨role, after, status⟩, _, last⟩
    simp only at last
    split at last <;> cases last
    exact progress

end Handler

theorem Inv.hostStep {tunnelAddr : SocketAddr} {parties next : Parties} (inv : parties.Inv)
    {act : Host.HandlerAct} (taken : parties.hostStep tunnelAddr act = some next) : next.Inv := by
  rcases host_cases taken with ⟨phase, conn, registration, outcome, at_, moved, is⟩
  have same := Host.Conn.handlerStep_sameOwner moved
  have counted := Host.Conn.handlerStep_counted moved ⟨inv.streams.1, inv.controls.1⟩
  have accepted := Host.Conn.handlerStep_accepted moved
  have progress := inv.progress
  simp only [Progress, at_] at progress
  subst is
  cases phase with
  | acceptBi =>
      have progress' := inv.progress_acceptBi (register parties.registry registration) at_ moved
      refine inv.of_host _ _ _ same accepted (fun _ none_ => by cases none_) counted ?_
        (Or.inl (List.append_nil _)) (fun _ _ none_ => by cases none_)
      simpa only [connects, Option.toList_none, List.append_nil] using progress'
  | receivePacket stream' =>
      have progress' := inv.progress_receivePacket (register parties.registry registration) at_ moved
      refine inv.of_host _ _ _ same accepted ?_ counted ?_ (Or.inl (List.append_nil _)) ?_
      · intro index is
        cases is
        omega
      · simpa only [connects, Option.toList_none, List.append_nil] using progress'
      · intro index wire _ _ unserved
        cases act <;> simp only [Host.Conn.handlerStep, Host.Conn.receiveStep] at moved <;>
          try cases moved
        · exact unserved
        · exact unserved
  | connecting stream' localAddr =>
      have progress' := inv.progress_connecting (register parties.registry registration) at_ moved
      refine inv.of_host _ _ _ same accepted ?_ counted progress' ?_ ?_
      · intro index is
        cases is
        omega
      · cases act with
        | connect => exact Or.inr ⟨localAddr, rfl, progress.1 ▸ progress.2.2.2⟩
        | _ => exact Or.inl (List.append_nil _)
      · intro index wire _ _ unserved
        cases act <;> simp only [Host.Conn.handlerStep, Host.Conn.connectStep] at moved <;>
          try cases moved
        all_goals exact unserved
  | session stream' localAddr forwarders =>
      have progress' := inv.progress_session (register parties.registry registration) at_ moved
      refine inv.of_host _ _ _ same accepted ?_ counted ?_ (Or.inl (List.append_nil _)) ?_
      · intro index is
        cases is
        omega
      · simpa only [connects, Option.toList_none, List.append_nil] using progress'
      · intro index wire is later _
        cases is
        simp only [connects, Option.toList_none, List.append_nil] at later
        omega

/-! ## The network -/

/-- The host comes to know more of what the client has sent. -/
theorem Inv.of_conn {parties : Parties} (inv : parties.Inv) {conn : Host.Conn Unit}
    {act : Host.ClientAct} (moved : parties.conn.clientStep act = some conn)
    (streams : conn.streams.length ≤ parties.wires.length)
    (controls : conn.controls.length ≤ parties.wires.length)
    (requested : ∀ (index : Nat) (control : Host.Control),
      conn.controls[index]? = some control → control = .arriving ∨
        ∃ addr, parties.addr? index = some addr ∧ control = .packet (.connReq addr)) :
    Inv { parties with conn } := by
  rcases Host.Conn.clientStep_frame moved with ⟨_, _, accepted, received, _, shaken⟩
  rcases Host.Conn.clientStep_counted moved with ⟨moreStreams, moreControls⟩
  exact
    { quiet := inv.quiet
      taken_le := inv.taken_le
      position := inv.position
      progress := by
        have progress := inv.progress
        unfold Progress at progress ⊢
        simpa only [accepted, received, addr?] using progress
      streams := ⟨accepted ▸ Nat.le_trans inv.streams.1 moreStreams, streams⟩
      controls := ⟨received ▸ Nat.le_trans inv.controls.1 moreControls, controls⟩
      requested := requested
      shaken := shaken inv.shaken
      established := inv.established
      unserved := inv.unserved
      unaccepted := fun index wire here later =>
        inv.unaccepted index wire here (accepted ▸ later)
      past := inv.past
      session := inv.session }

/-- What happens to a stream does not touch the requests. -/
theorem onStream_frame {conn next : Host.Conn Unit} {index : Nat}
    {change : Host.Inbound → Host.Inbound} (moved : conn.onStream index change = some next) :
    next.streams.length = conn.streams.length ∧ next.controls = conn.controls ∧
      next.accepted = conn.accepted ∧ next.received = conn.received ∧ next.link = conn.link := by
  rcases Option.map_eq_some_iff.mp moved with ⟨inbound, _, same⟩
  subst same
  exact ⟨List.length_set, rfl, rfl, rfl, rfl⟩

/-- Something becomes known of a stream. -/
theorem Inv.onConnStream {parties : Parties} (inv : parties.Inv) {conn : Host.Conn Unit}
    {act : Host.ClientAct} (moved : parties.conn.clientStep act = some conn) {index : Nat}
    {change : Host.Inbound → Host.Inbound}
    (changes : parties.conn.onStream index change = some conn) : Inv { parties with conn } := by
  rcases onStream_frame changes with ⟨streams, controls, _⟩
  refine inv.of_conn moved ?_ ?_ ?_
  · rw [streams]
    exact inv.streams.2
  · rw [controls]
    exact inv.controls.2
  · rw [controls]
    exact inv.requested

theorem Inv.announce {parties : Parties} (inv : parties.Inv) {conn : Host.Conn Unit}
    (more : (parties.wires.drop parties.conn.streams.length).any Wire.announced = true)
    (moved : parties.conn.clientStep .announceBi = some conn) : Inv { parties with conn } := by
  have room : parties.conn.streams.length < parties.wires.length := by
    rcases List.any_eq_true.mp more with ⟨wire, member, _⟩
    have some_ := List.length_pos_of_mem member
    rw [List.length_drop] at some_
    omega
  have is := moved
  simp only [Host.Conn.clientStep] at is
  split at is <;> cases is
  refine inv.of_conn moved ?_ inv.controls.2 inv.requested
  simp only [List.length_append, List.length_singleton]
  exact room

theorem Inv.data {parties : Parties} (inv : parties.Inv) {conn : Host.Conn Unit} {index count : Nat}
    {wire : Wire} (found : parties.wires[index]? = some wire)
    (moved : parties.conn.clientStep (.data index count) = some conn) :
    Inv { parties.setWire index { wire with arrived := wire.arrived + count } with conn } := by
  have changed : (parties.setWire index { wire with arrived := wire.arrived + count }).Inv :=
    inv.setWire found (fun _ noBack none_ => ⟨noBack, none_⟩) id id
      (fun _ undeclined unrefused => ⟨undeclined, unrefused⟩)
  have is := moved
  simp only [Host.Conn.clientStep] at is
  split at is
  · exact changed.onConnStream moved is
  · cases is

theorem Inv.openUni {parties : Parties} (inv : parties.Inv) {conn : Host.Conn Unit}
    (room : parties.conn.controls.length < parties.wires.length)
    (moved : parties.conn.clientStep .openUni = some conn) : Inv { parties with conn } := by
  have is := moved
  simp only [Host.Conn.clientStep] at is
  split at is <;> cases is
  refine inv.of_conn moved inv.streams.2 ?_ fun index control here => ?_
  · simp only [List.length_append, List.length_singleton]
    exact room
  · rw [List.getElem?_append] at here
    split at here
    · exact inv.requested index control here
    · rw [List.getElem?_singleton] at here
      split at here <;> cases here
      exact Or.inl rfl

/-- A request arrives, and it is that of its application. -/
theorem Inv.request {parties : Parties} (inv : parties.Inv) {conn : Host.Conn Unit} {index : Nat}
    {addr : SocketAddr} (known : parties.addr? index = some addr)
    (moved : parties.conn.clientStep (.control index (.packet (.connReq addr))) = some conn) :
    Inv { parties with conn } := by
  have is := moved
  simp only [Host.Conn.clientStep] at is
  split at is
  · split at is <;> cases is
    rename_i waiting
    refine inv.of_conn moved inv.streams.2 ?_ fun other control here => ?_
    · simpa using inv.controls.2
    · by_cases same : other = index
      · subst same
        rw [List.getElem?_set_self (List.getElem?_eq_some_iff.mp waiting).1] at here
        exact Or.inr ⟨addr, known, (Option.some.inj here).symm⟩
      · rw [List.getElem?_set_ne (Ne.symm same)] at here
        exact inv.requested other control here
  · cases is

theorem Inv.networkStep {parties next : Parties} (inv : parties.Inv) {delivery : Delivery}
    (taken : parties.networkStep delivery = some next) : next.Inv := by
  unfold Parties.networkStep at taken
  split at taken
  · cases delivery with
    | announce =>
        simp only at taken
        split at taken
        · rename_i more
          rcases Option.map_eq_some_iff.mp taken with ⟨conn, moved, same⟩
          exact same ▸ inv.announce more moved
        · cases taken
    | data index count =>
        rcases Option.bind_eq_some_iff.mp taken with ⟨wire, found, rest⟩
        split at rest
        · rcases Option.map_eq_some_iff.mp rest with ⟨conn, moved, same⟩
          exact same ▸ inv.data found moved
        · cases rest
    | finish index | stopReading index =>
        rcases Option.bind_eq_some_iff.mp taken with ⟨wire, found, rest⟩
        split at rest
        · rcases Option.map_eq_some_iff.mp rest with ⟨conn, moved, same⟩
          have is := moved
          simp only [Host.Conn.clientStep] at is
          split at is
          · exact same ▸ inv.onConnStream moved is
          · cases is
        · cases rest
    | openUni =>
        simp only at taken
        split at taken
        · rename_i room
          rcases Option.map_eq_some_iff.mp taken with ⟨conn, moved, same⟩
          exact same ▸ inv.openUni room moved
        · cases taken
    | request index =>
        simp only at taken
        split at taken
        · rcases Option.bind_eq_some_iff.mp taken with ⟨addr, known, rest⟩
          rcases Option.map_eq_some_iff.mp rest with ⟨conn, moved, same⟩
          exact same ▸ inv.request known moved
        · cases taken
    | refuse index =>
        rcases Option.bind_eq_some_iff.mp taken with ⟨wire, found, rest⟩
        split at rest <;> cases rest
        rename_i declined
        refine inv.setWire found (fun _ noBack none_ => ⟨noBack, none_⟩) id id ?_
        intro _ undeclined _
        rw [undeclined] at declined
        cases declined
  · cases taken

/-! ## Every step -/

theorem inductive_inv (tunnelAddr : SocketAddr) : (machine tunnelAddr).Inductive Inv where
  start parties first := by
    rw [show parties = started from first]
    exact inv_started
  step parties label next inv taken := by
    cases label with
    | dial addr =>
        simp only [machine, step] at taken
        split at taken <;> cases taken
        apply inv.of_apps
        · intro index known here
          rcases Option.map_eq_some_iff.mp here with ⟨app, there, same⟩
          unfold addr?
          rw [getElem?_append_of_found there]
          exact congrArg some same
        · simp
    | app index act => exact inv.appStep taken
    | listener act => exact inv.listenerStep taken
    | forwarder session role act =>
        simp only [machine, step] at taken
        split at taken
        · exact inv.forwarderStep taken
        · cases taken
    | host session act =>
        simp only [machine, step] at taken
        split at taken
        · exact inv.hostStep taken
        · cases taken
    | network delivery => exact inv.networkStep taken
    | clientLoses =>
        cases taken
        exact
          { inv with
            position := inv.position
            progress := inv.progress
            past := fun _ _ _ _ _ => Or.inl rfl
            session := fun addr forwarders at_ =>
              ⟨fun _ => Or.inl rfl, (inv.session addr forwarders at_).2⟩ }
    | hostLoses =>
        cases taken
        exact { inv with position := inv.position, progress := inv.progress, shaken := rfl }

end Parties

end Pair
end Lantun
