import Lantun.Host.Tunnel
import Lantun.Data.Places

namespace Lantun
namespace Host

open Net

/-!
# What holds of every started host tunnel

Connections are taken in order, at most one is being served, and it is the last
one taken.  The registry has an entry for every client one of whose connections
was ever admitted, whatever has become of the connection since; this is the
exact content of `tunnel_clients`, and the lookup with two `unwrap`s in
`handle_connection` cannot fail because of it.
-/

/-- The connection has been registered. -/
def Life.admitted : Life → Bool
  | .serving | .returned _ => true
  | _ => false

namespace Conn

variable {Key : Type}

/-- What a handler step leaves as it was. -/
structure SameOwner (before after : Conn Key) : Prop where
  client : after.client = before.client
  link : after.link = before.link
  life : after.life = before.life
  controls : after.controls = before.controls
  streams : after.streams.length = before.streams.length
  answered : before.answered = true → after.answered = true

theorem SameOwner.refl (conn : Conn Key) : SameOwner conn conn :=
  ⟨rfl, rfl, rfl, rfl, rfl, id⟩

theorem handlerStep_sameOwner {protocol : TunnelProtocol} {tunnelAddr : SocketAddr}
    {stopSent : Bool} {conn next : Conn Key} {phase : Phase} {act : HandlerAct}
    {registration : Registration} {outcome : Outcome}
    (taken : conn.handlerStep protocol tunnelAddr stopSent phase act =
      some (next, registration, outcome)) : SameOwner conn next := by
  cases phase with
  | acceptBi =>
      cases act <;> simp only [handlerStep, acceptStep] at taken <;> try cases taken
      all_goals
        split at taken <;> cases taken
        exact ⟨rfl, rfl, rfl, rfl, rfl, id⟩
  | receivePacket stream =>
      cases act <;> simp only [handlerStep, receiveStep] at taken <;> try cases taken
      · split at taken <;> cases taken
        exact ⟨rfl, rfl, rfl, rfl, rfl, id⟩
      · split at taken
        · cases taken
        · cases taken
          exact ⟨rfl, rfl, rfl, rfl, rfl, fun _ => rfl⟩
        · cases taken
          exact ⟨rfl, rfl, rfl, rfl, rfl, fun _ => rfl⟩
        · split at taken <;> cases taken
          exact SameOwner.refl conn
        · split at taken <;> cases taken
          exact SameOwner.refl conn
  | connecting stream localAddr =>
      cases act <;> simp only [handlerStep, connectStep] at taken <;> try cases taken
      · split at taken <;> cases taken
        exact ⟨rfl, rfl, rfl, rfl, List.length_modify .., fun _ => rfl⟩
      · split at taken <;> cases taken
        exact SameOwner.refl conn
      · split at taken <;> cases taken
        exact ⟨rfl, rfl, rfl, rfl, rfl, fun _ => rfl⟩
  | session stream localAddr forwarders =>
      simp only [handlerStep, sessionStep] at taken
      split at taken
      · split at taken <;> cases taken
        exact SameOwner.refl conn
      · rcases Option.bind_eq_some_iff.mp taken with ⟨inbound, _, rest⟩
        rcases Option.bind_eq_some_iff.mp rest with ⟨⟨role, after, status⟩, _, last⟩
        simp only at last
        split at last <;> cases last
        exact ⟨rfl, rfl, rfl, rfl, List.length_set, id⟩

/-- `handle_connection` returns where a `?` fails, and nowhere else. -/
theorem returns_iff_fails {protocol : TunnelProtocol} {tunnelAddr : SocketAddr}
    {stopSent : Bool} {conn next : Conn Key} {phase : Phase} {act : HandlerAct}
    {registration : Registration} {outcome : Outcome}
    (taken : conn.handlerStep protocol tunnelAddr stopSent phase act =
      some (next, registration, outcome)) :
    (∃ error, outcome = .returns error) ↔ act.fails = true := by
  cases phase with
  | acceptBi =>
      cases act <;> simp only [handlerStep, acceptStep] at taken <;> try cases taken
      all_goals
        split at taken <;> cases taken
        simp [HandlerAct.fails]
  | receivePacket stream =>
      cases act <;> simp only [handlerStep, receiveStep] at taken <;> try cases taken
      · split at taken <;> cases taken
        simp [HandlerAct.fails]
      · split at taken
        · cases taken
        · cases taken
          simp [HandlerAct.fails]
        · cases taken
          simp [HandlerAct.fails]
        · split at taken <;> cases taken
          simp [HandlerAct.fails]
        · split at taken <;> cases taken
          simp [HandlerAct.fails]
  | connecting stream localAddr =>
      cases act <;> simp only [handlerStep, connectStep] at taken <;> try cases taken
      all_goals
        split at taken <;> cases taken
        simp [HandlerAct.fails]
  | session stream localAddr forwarders =>
      simp only [handlerStep, sessionStep] at taken
      split at taken
      · rename_i is
        split at taken <;> cases taken
        simp [is, HandlerAct.fails]
      · rcases Option.bind_eq_some_iff.mp taken with ⟨inbound, _, rest⟩
        rcases Option.bind_eq_some_iff.mp rest with ⟨⟨role, after, status⟩, moved, last⟩
        simp only at last
        split at last <;> cases last
        cases act with
        | relay | relayFails | ends | timesOut | stops | service | join => simp [HandlerAct.fails]
        | _ => cases moved

/-- A client never changes whose connection it is or what the host has made of
it. -/
theorem clientStep_frame {conn next : Conn Key} {act : ClientAct}
    (taken : conn.clientStep act = some next) :
    next.client = conn.client ∧ next.life = conn.life ∧ next.accepted = conn.accepted ∧
      next.received = conn.received ∧ next.answered = conn.answered ∧
      (conn.link.shaken = true → next.link.shaken = true) := by
  have onStream : ∀ stream change, conn.onStream stream change = some next →
      next.client = conn.client ∧ next.life = conn.life ∧ next.accepted = conn.accepted ∧
        next.received = conn.received ∧ next.answered = conn.answered ∧
        (conn.link.shaken = true → next.link.shaken = true) := by
    intro stream change changed
    rcases Option.map_eq_some_iff.mp changed with ⟨inbound, _, same⟩
    subst same
    exact ⟨rfl, rfl, rfl, rfl, rfl, id⟩
  cases act with
  | handshake succeeds =>
      simp only [clientStep] at taken
      split at taken <;> cases taken
      rename_i pending
      exact ⟨rfl, rfl, rfl, rfl, rfl, fun shaken => by rw [pending] at shaken; cases shaken⟩
  | close =>
      simp only [clientStep] at taken
      split at taken <;> cases taken
      exact ⟨rfl, rfl, rfl, rfl, rfl, fun _ => rfl⟩
  | announceBi | openUni =>
      simp only [clientStep] at taken
      split at taken <;> cases taken
      exact ⟨rfl, rfl, rfl, rfl, rfl, id⟩
  | control index outcome =>
      simp only [clientStep] at taken
      split at taken
      · split at taken <;> cases taken
        exact ⟨rfl, rfl, rfl, rfl, rfl, id⟩
      · cases taken
  | data stream count | finish stream | reset stream | stopReading stream =>
      simp only [clientStep] at taken
      split at taken
      · exact onStream _ _ taken
      · cases taken

/-- Streams and messages that have become visible stay so. -/
theorem clientStep_counted {conn next : Conn Key} {act : ClientAct}
    (taken : conn.clientStep act = some next) :
    conn.streams.length ≤ next.streams.length ∧ conn.controls.length ≤ next.controls.length := by
  cases act with
  | handshake succeeds | close | announceBi | openUni =>
      simp only [clientStep] at taken
      split at taken <;> cases taken
      simp
  | control index outcome =>
      simp only [clientStep] at taken
      split at taken
      · split at taken <;> cases taken
        simp
      · cases taken
  | data stream count | finish stream | reset stream | stopReading stream =>
      simp only [clientStep] at taken
      split at taken
      · rcases Option.map_eq_some_iff.mp taken with ⟨inbound, _, same⟩
        subst same
        simp
      · cases taken

/-- No more is accepted than is visible. -/
theorem handlerStep_counted {protocol : TunnelProtocol} {tunnelAddr : SocketAddr}
    {stopSent : Bool} {conn next : Conn Key} {phase : Phase} {act : HandlerAct}
    {registration : Registration} {outcome : Outcome}
    (taken : conn.handlerStep protocol tunnelAddr stopSent phase act =
      some (next, registration, outcome))
    (counted : conn.accepted ≤ conn.streams.length ∧ conn.received ≤ conn.controls.length) :
    next.accepted ≤ next.streams.length ∧ next.received ≤ next.controls.length := by
  have more : ∀ control, conn.nextControl = some control →
      conn.received + 1 ≤ conn.controls.length :=
    fun control found => (List.getElem?_eq_some_iff.mp found).1
  cases phase with
  | acceptBi =>
      cases act <;> simp only [handlerStep, acceptStep] at taken <;> try cases taken
      · split at taken <;> cases taken
        rename_i visible
        exact ⟨visible, counted.2⟩
      · split at taken <;> cases taken
        exact counted
  | receivePacket stream =>
      cases act <;> simp only [handlerStep, receiveStep] at taken <;> try cases taken
      · split at taken <;> cases taken
        rename_i found
        exact ⟨counted.1, more _ found⟩
      · split at taken
        · cases taken
        · rename_i found
          cases taken
          exact ⟨counted.1, more _ found⟩
        · rename_i found
          cases taken
          exact ⟨counted.1, more _ found⟩
        · split at taken <;> cases taken
          exact counted
        · split at taken <;> cases taken
          exact counted
  | connecting stream localAddr =>
      cases act <;> simp only [handlerStep, connectStep] at taken <;> try cases taken
      all_goals
        split at taken <;> cases taken
        simpa using counted
  | session stream localAddr forwarders =>
      simp only [handlerStep, sessionStep] at taken
      split at taken
      · split at taken <;> cases taken
        exact counted
      · rcases Option.bind_eq_some_iff.mp taken with ⟨inbound, _, rest⟩
        rcases Option.bind_eq_some_iff.mp rest with ⟨⟨role, after, status⟩, _, last⟩
        simp only at last
        split at last <;> cases last
        simpa using counted

/-- Nothing that has been accepted is given back. -/
theorem handlerStep_accepted {protocol : TunnelProtocol} {tunnelAddr : SocketAddr}
    {stopSent : Bool} {conn next : Conn Key} {phase : Phase} {act : HandlerAct}
    {registration : Registration} {outcome : Outcome}
    (taken : conn.handlerStep protocol tunnelAddr stopSent phase act =
      some (next, registration, outcome)) : conn.accepted ≤ next.accepted := by
  cases phase with
  | acceptBi =>
      cases act <;> simp only [handlerStep, acceptStep] at taken <;> try cases taken
      all_goals
        split at taken <;> cases taken
        simp
  | receivePacket stream =>
      cases act <;> simp only [handlerStep, receiveStep] at taken <;> try cases taken
      · split at taken <;> cases taken
        exact Nat.le_refl _
      · split at taken
        · cases taken
        · cases taken
          exact Nat.le_refl _
        · cases taken
          exact Nat.le_refl _
        · split at taken <;> cases taken
          exact Nat.le_refl _
        · split at taken <;> cases taken
          exact Nat.le_refl _
  | connecting stream localAddr =>
      cases act <;> simp only [handlerStep, connectStep] at taken <;> try cases taken
      all_goals
        split at taken <;> cases taken
        exact Nat.le_refl _
  | session stream localAddr forwarders =>
      simp only [handlerStep, sessionStep] at taken
      split at taken
      · split at taken <;> cases taken
        exact Nat.le_refl _
      · rcases Option.bind_eq_some_iff.mp taken with ⟨inbound, _, rest⟩
        rcases Option.bind_eq_some_iff.mp rest with ⟨⟨role, after, status⟩, _, last⟩
        simp only at last
        split at last <;> cases last
        exact Nat.le_refl _

end Conn

variable {Key : Type}

theorem HostTunnel.getElem?_setConn {host : HostTunnel Key} {index : Nat} {before : Conn Key}
    (found : host.conns[index]? = some before) (after : Conn Key) (other : Nat) :
    (host.setConn index after).conns[other]? =
      if other = index then some after else host.conns[other]? := by
  by_cases same : other = index
  · subst other
    rw [if_pos rfl]
    exact List.getElem?_set_self (List.getElem?_eq_some_iff.mp found).1
  · rw [if_neg same]
    exact List.getElem?_set_ne (Ne.symm same)

namespace HostTunnel

/-- The invariant of the accept loop, its connections and its registry. -/
structure Inv (host : HostTunnel Key) : Prop where
  taken_le : host.taken ≤ host.conns.length
  queued : ∀ (index : Nat) (conn : Conn Key), host.conns[index]? = some conn →
    (host.taken ≤ index ∨ host.loop = .handshake index) → conn.life = .incoming
  handshake : ∀ index, host.loop = .handshake index → index + 1 = host.taken
  handling : ∀ index phase, host.loop = .handling index phase →
    index + 1 = host.taken ∧ ∃ conn : Conn Key, host.conns[index]? = some conn ∧ conn.life = .serving
  serving : ∀ (index : Nat) (conn : Conn Key), host.conns[index]? = some conn → conn.life = .serving →
    ∃ phase, host.loop = .handling index phase
  shaken : ∀ (index : Nat) (conn : Conn Key), host.conns[index]? = some conn →
    conn.life = .serving → conn.link.shaken = true
  untouched : ∀ (index : Nat) (conn : Conn Key), host.conns[index]? = some conn → conn.life = .incoming →
    conn.accepted = 0 ∧ conn.received = 0
  answered : ∀ (index : Nat) (conn : Conn Key), host.conns[index]? = some conn → conn.answered = true →
    conn.life.admitted = true
  registered : ∀ key, key ∈ host.tunnelClients ↔
    ∃ (index : Nat) (conn : Conn Key), host.conns[index]? = some conn ∧ conn.client = key ∧
      conn.life.admitted = true
  notPanicked : host.loop ≠ .panicked
  running : host.runningProps = true → host.stopSent = false ∧ host.endpointClosed = false

/-- Whose connection it is. -/
def owner (host : HostTunnel Key) (index : Nat) : Option Key :=
  (host.conns[index]?).map Conn.client

theorem owner_setConn {host : HostTunnel Key} {index : Nat} {before : Conn Key}
    (found : host.conns[index]? = some before) (after : Conn Key)
    (client : after.client = before.client) (other : Nat) : (host.setConn index after).owner other = host.owner other := by
  unfold owner
  rw [getElem?_setConn found after other]
  split
  · rename_i same
    rw [same, found]
    exact congrArg some client
  · rfl

/-- Whoever is admitted stays admitted when one connection is replaced. -/
theorem admitted_setConn {host : HostTunnel Key} {index : Nat} {before after : Conn Key}
    (found : host.conns[index]? = some before) (client : after.client = before.client)
    (kept : before.life.admitted = true → after.life.admitted = true) (key : Key) :
    (∃ (other : Nat) (conn : Conn Key), (host.setConn index after).conns[other]? = some conn ∧
        conn.client = key ∧ conn.life.admitted = true) ↔
      (∃ (other : Nat) (conn : Conn Key), host.conns[other]? = some conn ∧
        conn.client = key ∧ conn.life.admitted = true) ∨
        (after.life.admitted = true ∧ key = before.client) := by
  have lookup := getElem?_setConn found after
  constructor
  · rintro ⟨other, conn, here, is, admitted⟩
    rw [lookup] at here
    split at here
    · cases here
      exact Or.inr ⟨admitted, is ▸ client⟩
    · exact Or.inl ⟨other, conn, here, is, admitted⟩
  · rintro (⟨other, conn, here, is, admitted⟩ | ⟨admitted, is⟩)
    · by_cases same : other = index
      · subst other
        rw [found] at here
        cases here
        exact ⟨index, after, by rw [lookup, if_pos rfl], client.trans is, kept admitted⟩
      · exact ⟨other, conn, by rw [lookup, if_neg same]; exact here, is, admitted⟩
    · exact ⟨index, after, by rw [lookup, if_pos rfl], client.trans is.symm, admitted⟩

/-- Changing one connection without changing what the loop has made of it. -/
theorem Inv.setConn {host : HostTunnel Key} (inv : host.Inv) {index : Nat}
    {before after : Conn Key} (found : host.conns[index]? = some before)
    (client : after.client = before.client) (life : after.life = before.life)
    (shaken : before.link.shaken = true → after.link.shaken = true)
    (untouched : before.life = .incoming →
      after.accepted = before.accepted ∧ after.received = before.received)
    (answered : after.answered = true → before.answered = true) :
    (host.setConn index after).Inv := by
  have lookup := getElem?_setConn found after
  have back : ∀ (other : Nat) (conn : Conn Key),
      (host.setConn index after).conns[other]? = some conn →
      ∃ old : Conn Key, host.conns[other]? = some old ∧ conn.life = old.life ∧
        (old.link.shaken = true → conn.link.shaken = true) ∧
        (old.life = .incoming → conn.accepted = old.accepted ∧ conn.received = old.received) ∧
        (conn.answered = true → old.answered = true) := by
    intro other conn here
    rw [lookup] at here
    split at here
    · rename_i same
      cases here
      exact ⟨before, same ▸ found, life, shaken, untouched, answered⟩
    · exact ⟨conn, here, rfl, id, fun _ => ⟨rfl, rfl⟩, id⟩
  refine
    { taken_le := by simpa [HostTunnel.setConn] using inv.taken_le
      queued := ?_
      handshake := inv.handshake
      handling := ?_
      serving := ?_
      shaken := ?_
      untouched := ?_
      answered := ?_
      registered := ?_
      notPanicked := inv.notPanicked
      running := inv.running }
  · intro other conn here waiting
    rcases back other conn here with ⟨old, there, same, _⟩
    rw [same]
    exact inv.queued other old there waiting
  · intro other phase at_
    rcases inv.handling other phase at_ with ⟨last, old, there, serving⟩
    refine ⟨last, ?_⟩
    by_cases same : other = index
    · subst other
      rw [found] at there
      cases there
      exact ⟨after, by rw [lookup, if_pos rfl], life.trans serving⟩
    · exact ⟨old, by rw [lookup, if_neg same]; exact there, serving⟩
  · intro other conn here serving
    rcases back other conn here with ⟨old, there, same, _⟩
    exact inv.serving other old there (same ▸ serving)
  · intro other conn here serving
    rcases back other conn here with ⟨old, there, same, keeps, _⟩
    exact keeps (inv.shaken other old there (same ▸ serving))
  · intro other conn here incoming
    rcases back other conn here with ⟨old, there, same, _, counts, _⟩
    have counted := counts (same ▸ incoming)
    rw [counted.1, counted.2]
    exact inv.untouched other old there (same ▸ incoming)
  · intro other conn here answers
    rcases back other conn here with ⟨old, there, same, _, _, earlier⟩
    rw [same]
    exact inv.answered other old there (earlier answers)
  · intro key
    rw [admitted_setConn found client (fun admitted => life ▸ admitted) key]
    refine (inv.registered key).trans (or_iff_left_of_imp ?_).symm
    rintro ⟨admitted, is⟩
    exact ⟨index, before, found, is.symm, life ▸ admitted⟩

/-- The connection that the loop is occupied with moves on. -/
theorem Inv.advance {host : HostTunnel Key} (inv : host.Inv) {index : Nat}
    {before after : Conn Key} {clients : ConnectedClients Key} {loop : Loop}
    (found : host.conns[index]? = some before) (last : index + 1 = host.taken)
    (current : host.loop = .handshake index ∨ ∃ phase, host.loop = .handling index phase)
    (client : after.client = before.client) (known : after.life ≠ .incoming)
    (kept : before.life.admitted = true → after.life.admitted = true)
    (answered : after.answered = true → after.life.admitted = true)
    (members : ∀ key, key ∈ clients ↔
      key ∈ host.tunnelClients ∨ (after.life.admitted = true ∧ key = before.client))
    (shaken : after.life = .serving → after.link.shaken = true)
    (next : (∃ phase, loop = .handling index phase ∧ after.life = .serving) ∨
      (loop = .accept ∧ after.life ≠ .serving)) :
    Inv { host.setConn index after with
      tunnelClients := clients
      loop := loop } := by
  have lookup := getElem?_setConn found after
  have notHandshake : ∀ other, loop ≠ .handshake other := by
    intro other at_
    rcases next with ⟨phase, is, _⟩ | ⟨is, _⟩ <;> simp [is] at at_
  have occupied : ∀ other phase, host.loop = .handling other phase → other = index := by
    intro other phase at_
    rcases current with is | ⟨phase', is⟩
    · rw [is] at at_
      cases at_
    · rw [is] at at_
      cases at_
      rfl
  refine
    { taken_le := by simpa [HostTunnel.setConn] using inv.taken_le
      queued := ?_
      handshake := fun other at_ => absurd at_ (notHandshake other)
      handling := ?_
      serving := ?_
      shaken := ?_
      untouched := ?_
      answered := ?_
      registered := ?_
      notPanicked := ?_
      running := inv.running }
  · intro other conn here waiting
    rcases waiting with later | at_
    · have later : host.taken ≤ other := later
      have different : other ≠ index := by omega
      have there : host.conns[other]? = some conn := by
        rw [← here]
        exact ((lookup other).trans (if_neg different)).symm
      exact inv.queued other conn there (Or.inl later)
    · exact absurd at_ (notHandshake other)
  · intro other phase at_
    rcases next with ⟨phase', is, serving⟩ | ⟨is, _⟩
    · have at_ : loop = .handling other phase := at_
      rw [is] at at_
      cases at_
      exact ⟨last, after, (lookup index).trans (if_pos rfl), serving⟩
    · have at_ : loop = .handling other phase := at_
      rw [is] at at_
      cases at_
  · intro other conn here serving
    have now := (lookup other).symm.trans here
    split at now
    · rename_i same
      cases now
      rw [same]
      rcases next with ⟨phase, is, _⟩ | ⟨_, not⟩
      · exact ⟨phase, is⟩
      · exact absurd serving not
    · rename_i different
      rcases inv.serving other conn now serving with ⟨phase, at_⟩
      exact absurd (occupied other phase at_) different
  · intro other conn here serving
    have now := (lookup other).symm.trans here
    split at now
    · cases now
      exact shaken serving
    · exact inv.shaken other conn now serving
  · intro other conn here incoming
    have now := (lookup other).symm.trans here
    split at now
    · cases now
      exact absurd incoming known
    · exact inv.untouched other conn now incoming
  · intro other conn here answers
    have now := (lookup other).symm.trans here
    split at now
    · cases now
      exact answered answers
    · exact inv.answered other conn now answers
  · intro key
    refine (members key).trans ?_
    rw [inv.registered key]
    exact (admitted_setConn found client kept key).symm
  · intro at_
    rcases next with ⟨phase, is, _⟩ | ⟨is, _⟩ <;> simp [is] at at_

/-- Whom the handler serves is registered. -/
theorem Inv.mem_of_serving {host : HostTunnel Key} (inv : host.Inv) {index : Nat}
    {conn : Conn Key} (found : host.conns[index]? = some conn) (serving : conn.life = .serving) :
    conn.client ∈ host.tunnelClients :=
  (inv.registered conn.client).mpr ⟨index, conn, found, rfl, by rw [serving]; rfl⟩

theorem Inv.dial {host : HostTunnel Key} (inv : host.Inv) (key : Key) :
    Inv { host with conns := host.conns ++ [.incoming key] } := by
  have back : ∀ (index : Nat) (conn : Conn Key),
      (host.conns ++ [Conn.incoming key])[index]? = some conn →
      host.conns[index]? = some conn ∨ (index = host.conns.length ∧ conn = .incoming key) := by
    intro index conn here
    rw [List.getElem?_append] at here
    split at here
    · exact Or.inl here
    · rename_i beyond
      rw [List.getElem?_singleton] at here
      split at here
      · rename_i first
        exact Or.inr ⟨by omega, (Option.some.inj here).symm⟩
      · cases here
  have there : ∀ (index : Nat) (conn : Conn Key), host.conns[index]? = some conn →
      (host.conns ++ [Conn.incoming key])[index]? = some conn := by
    intro index conn here
    exact getElem?_append_of_found here _
  refine
    { taken_le := ?_
      queued := ?_
      handshake := inv.handshake
      handling := ?_
      serving := ?_
      shaken := ?_
      untouched := ?_
      answered := ?_
      registered := ?_
      notPanicked := inv.notPanicked
      running := inv.running }
  · exact Nat.le_trans inv.taken_le (by simp)
  · intro index conn here waiting
    rcases back index conn here with old | ⟨_, new⟩
    · exact inv.queued index conn old waiting
    · exact new ▸ rfl
  · intro index phase at_
    rcases inv.handling index phase at_ with ⟨last, conn, here, serving⟩
    exact ⟨last, conn, there index conn here, serving⟩
  · intro index conn here serving
    rcases back index conn here with old | ⟨_, new⟩
    · exact inv.serving index conn old serving
    · subst new
      cases serving
  · intro index conn here serving
    rcases back index conn here with old | ⟨_, new⟩
    · exact inv.shaken index conn old serving
    · subst new
      cases serving
  · intro index conn here incoming
    rcases back index conn here with old | ⟨_, new⟩
    · exact inv.untouched index conn old incoming
    · subst new
      exact ⟨rfl, rfl⟩
  · intro index conn here answers
    rcases back index conn here with old | ⟨_, new⟩
    · exact inv.answered index conn old answers
    · subst new
      cases answers
  · intro other
    refine (inv.registered other).trans ?_
    constructor
    · rintro ⟨index, conn, here, is, admitted⟩
      exact ⟨index, conn, there index conn here, is, admitted⟩
    · rintro ⟨index, conn, here, is, admitted⟩
      rcases back index conn here with old | ⟨_, new⟩
      · exact ⟨index, conn, old, is, admitted⟩
      · subst new
        cases admitted

theorem Inv.shut {host : HostTunnel Key} (inv : host.Inv) (stopped : host.runningProps = false) :
    Inv { host with
      isOpen := false
      endpointClosed := true
      conns := host.conns.map Conn.shut } := by
  have back : ∀ (index : Nat) (conn : Conn Key), (host.conns.map Conn.shut)[index]? = some conn →
      ∃ old : Conn Key, host.conns[index]? = some old ∧ conn = old.shut := by
    intro index conn here
    rw [List.getElem?_map] at here
    rcases Option.map_eq_some_iff.mp here with ⟨old, there, same⟩
    exact ⟨old, there, same.symm⟩
  refine
    { taken_le := by simpa using inv.taken_le
      queued := ?_
      handshake := inv.handshake
      handling := ?_
      serving := ?_
      shaken := ?_
      untouched := ?_
      answered := ?_
      registered := ?_
      notPanicked := inv.notPanicked
      running := fun on => ?_ }
  · intro index conn here waiting
    rcases back index conn here with ⟨old, there, rfl⟩
    exact inv.queued index old there waiting
  · intro index phase at_
    rcases inv.handling index phase at_ with ⟨last, conn, there, serving⟩
    refine ⟨last, conn.shut, ?_, serving⟩
    rw [List.getElem?_map, there]
    rfl
  · intro index conn here serving
    rcases back index conn here with ⟨old, there, rfl⟩
    exact inv.serving index old there serving
  · intro index conn here serving
    rcases back index conn here with ⟨old, there, rfl⟩
    have shaken := inv.shaken index old there serving
    unfold Conn.shut
    cases link : old.link <;> simp [link, Link.shaken] at shaken ⊢
  · intro index conn here incoming
    rcases back index conn here with ⟨old, there, rfl⟩
    exact inv.untouched index old there incoming
  · intro index conn here answers
    rcases back index conn here with ⟨old, there, rfl⟩
    exact inv.answered index old there answers
  · intro key
    refine (inv.registered key).trans ?_
    constructor
    · rintro ⟨index, conn, there, is, admitted⟩
      refine ⟨index, conn.shut, ?_, is, admitted⟩
      rw [List.getElem?_map, there]
      rfl
    · rintro ⟨index, conn, here, is, admitted⟩
      rcases back index conn here with ⟨old, there, rfl⟩
      exact ⟨index, old, there, is, admitted⟩
  · have on : host.runningProps = true := on
    rw [stopped] at on
    cases on

end HostTunnel

variable [DecidableEq Key]

/-- Registering or unregistering a local connection keeps the set of
clients. -/
theorem ConnectedClients.mem_register {clients next : ConnectedClients Key} {key other : Key}
    {registration : Registration} (changed : clients.register key registration = some next) :
    other ∈ next ↔ other ∈ clients := by
  cases registration with
  | keep =>
      cases changed
      exact Iff.rfl
  | insert virtualAddr connection =>
      rcases Option.map_eq_some_iff.mp changed with ⟨client, found, same⟩
      subst same
      have present : key ∈ clients := AList.lookup_isSome.mp (by rw [found]; rfl)
      rw [AList.mem_insert]
      exact or_iff_right_of_imp (fun same => same ▸ present)
  | remove virtualAddr =>
      simp only [register] at changed
      split at changed
      · rename_i client found
        cases changed
        have present : key ∈ clients := AList.lookup_isSome.mp (by rw [found]; rfl)
        rw [AList.mem_insert]
        exact or_iff_right_of_imp (fun same => same ▸ present)
      · cases changed
        exact Iff.rfl

/-- A registered client is always found. -/
theorem ConnectedClients.register_isSome {clients : ConnectedClients Key} {key : Key}
    (present : key ∈ clients) (registration : Registration) :
    ∃ next, clients.register key registration = some next := by
  rcases Option.isSome_iff_exists.mp (AList.lookup_isSome.mpr present) with ⟨client, found⟩
  cases registration <;> simp [register, found]

namespace HostTunnel

theorem Inv.afterHandshake {host next : HostTunnel Key} (inv : host.Inv) {index : Nat} {conn : Conn Key}
    (at_ : host.loop = .handshake index) (found : host.conns[index]? = some conn)
    (admitted : host.afterHandshake index conn = some next) : next.Inv := by
  have last := inv.handshake index at_
  have incoming := inv.queued index conn found (Or.inr at_)
  have fresh : conn.answered = true → False := by
    intro answers
    have early := inv.answered index conn found answers
    rw [incoming] at early
    cases early
  rcases afterHandshake_cases admitted with ⟨_, rfl⟩ | ⟨shaken, ⟨present, rfl⟩ | ⟨absent, rfl⟩⟩
  · refine
      { taken_le := inv.taken_le
        queued := fun other conn here waiting => ?_
        handshake := fun other is => by cases is
        handling := fun other phase is => by cases is
        serving := fun other conn here serving => ?_
        shaken := inv.shaken
        untouched := inv.untouched
        answered := inv.answered
        registered := inv.registered
        notPanicked := fun is => by cases is
        running := inv.running }
    · rcases waiting with later | is
      · exact inv.queued other conn here (Or.inl later)
      · cases is
    · rcases inv.serving other conn here serving with ⟨phase, is⟩
      rw [at_] at is
      cases is
  · refine inv.advance found last (Or.inl at_) rfl (fun is => by cases is) ?_
      (fun answers => (fresh answers).elim) ?_ (fun is => by cases is)
      (Or.inr ⟨rfl, fun is => by cases is⟩)
    · intro early
      rw [incoming] at early
      cases early
    · intro key
      exact (or_iff_left_of_imp (fun both => by cases both.1)).symm
  · refine inv.advance found last (Or.inl at_) rfl (fun is => by cases is) (fun _ => rfl)
      (fun _ => rfl) ?_ (fun _ => shaken) (Or.inl ⟨.acceptBi, rfl, rfl⟩)
    intro key
    rw [AList.mem_insert]
    constructor
    · rintro (same | here)
      · exact Or.inr ⟨rfl, same⟩
      · exact Or.inl here
    · rintro (here | ⟨_, same⟩)
      · exact Or.inr here
      · exact Or.inl same

/-- A step of the handler is written back whole: the lookup in the registry
succeeds, and the set of registered clients stays. -/
theorem Inv.handled_eq {host : HostTunnel Key} (inv : host.Inv) {index : Nat} {phase : Phase}
    {before after : Conn Key} (at_ : host.loop = .handling index phase)
    (found : host.conns[index]? = some before) (client : after.client = before.client)
    (registration : Registration) (outcome : Outcome) :
    ∃ clients : ConnectedClients Key, (∀ key, key ∈ clients ↔ key ∈ host.tunnelClients) ∧
      host.handled index after registration outcome =
        match outcome with
        | .continues phase =>
            { host.setConn index after with
              tunnelClients := clients
              loop := .handling index phase }
        | .returns error =>
            { host.setConn index { after with life := .returned error } with
              tunnelClients := clients
              loop := .accept } := by
  rcases inv.handling index phase at_ with ⟨_, conn, there, serving⟩
  rw [found] at there
  cases there
  have present := inv.mem_of_serving found serving
  rw [← client] at present
  rcases ConnectedClients.register_isSome present registration with ⟨clients, changed⟩
  refine ⟨clients, fun key => ConnectedClients.mem_register changed, ?_⟩
  cases outcome <;> simp only [HostTunnel.handled, changed]

theorem Inv.handled {host : HostTunnel Key} (inv : host.Inv) {index : Nat} {phase : Phase}
    {before after : Conn Key} (at_ : host.loop = .handling index phase)
    (found : host.conns[index]? = some before) (same : Conn.SameOwner before after)
    (registration : Registration) (outcome : Outcome) :
    (host.handled index after registration outcome).Inv := by
  rcases inv.handling index phase at_ with ⟨last, conn, there, serving⟩
  rw [found] at there
  cases there
  have present := inv.mem_of_serving found serving
  have life : after.life = .serving := same.life.trans serving
  rcases inv.handled_eq at_ found same.client registration outcome with ⟨clients, members, is⟩
  rw [is]
  have members' : ∀ key, key ∈ clients ↔
      key ∈ host.tunnelClients ∨ (True ∧ key = before.client) := by
    intro key
    rw [members key]
    exact (or_iff_left_of_imp (fun both => both.2 ▸ present)).symm
  cases outcome with
  | continues phase' =>
      refine inv.advance found last (Or.inr ⟨phase, at_⟩) same.client (by simp [life])
        (fun _ => by rw [life]; rfl) (fun _ => by rw [life]; rfl) ?_
        (fun _ => same.link ▸ inv.shaken index before found serving) (Or.inl ⟨phase', rfl, life⟩)
      simpa [life, Life.admitted] using members'
  | returns error =>
      refine inv.advance found last (Or.inr ⟨phase, at_⟩) same.client (fun is => by cases is)
        (fun _ => rfl) (fun _ => rfl) ?_ (fun is => by cases is)
        (Or.inr ⟨rfl, fun is => by cases is⟩)
      simpa [Life.admitted] using members'

theorem inductive_inv (protocol : TunnelProtocol) (tunnelAddr : SocketAddr) :
    (machine protocol tunnelAddr : Machine (HostTunnel Key) (Label Key)).Inductive Inv where
  start host first := by
    rw [show host = started from first]
    refine
      { taken_le := Nat.le_refl 0
        queued := fun index conn here => by simp [started] at here
        handshake := fun index at_ => by cases at_
        handling := fun index phase at_ => by cases at_
        serving := fun index conn here => by simp [started] at here
        shaken := fun index conn here => by simp [started] at here
        untouched := fun index conn here => by simp [started] at here
        answered := fun index conn here => by simp [started] at here
        registered := fun key => by simp [started]
        notPanicked := fun at_ => by cases at_
        running := fun _ => ⟨rfl, rfl⟩ }
  step host label next inv taken := by
    cases label with
    | dial key =>
        simp only [machine, step] at taken
        split at taken <;> cases taken
        exact inv.dial key
    | client key index act =>
        rcases Option.bind_eq_some_iff.mp taken with ⟨conn, found, rest⟩
        split at rest
        · rcases Option.map_eq_some_iff.mp rest with ⟨after, moved, same⟩
          subst same
          rcases Conn.clientStep_frame moved with
            ⟨client, life, accepted, received, answered, shaken⟩
          exact inv.setConn found client life shaken (fun _ => ⟨accepted, received⟩)
            (fun answers => answered ▸ answers)
        · cases rest
    | accept =>
        simp only [machine, step] at taken
        split at taken
        · rename_i idle
          split at taken
          · rename_i more
            cases taken
            refine
              { taken_le := more
                queued := fun index conn here waiting => ?_
                handshake := fun index at_ => by cases at_; rfl
                handling := fun index phase at_ => by cases at_
                serving := fun index conn here serving => ?_
                shaken := inv.shaken
                untouched := inv.untouched
                answered := inv.answered
                registered := inv.registered
                notPanicked := fun at_ => by cases at_
                running := inv.running }
            · rcases waiting with later | at_
              · exact inv.queued index conn here (Or.inl (Nat.le_of_succ_le later))
              · cases at_
                exact inv.queued _ conn here (Or.inl (Nat.le_refl _))
            · rcases inv.serving index conn here serving with ⟨phase, at_⟩
              rw [idle] at at_
              cases at_
          · split at taken <;> cases taken
            exact inv
        · cases taken
    | handshakeEnds =>
        simp only [machine, step] at taken
        split at taken
        · rename_i index at_
          rcases Option.bind_eq_some_iff.mp taken with ⟨conn, found, admitted⟩
          exact inv.afterHandshake at_ found admitted
        · cases taken
    | handler key act =>
        rcases handler_cases taken with
          ⟨index, phase, before, after, registration, outcome, at_, found, _, moved, same⟩
        subst same
        exact inv.handled at_ found (Conn.handlerStep_sameOwner moved) registration outcome
    | stop =>
        simp only [machine, step] at taken
        split at taken
        · split at taken <;> cases taken
          exact { inv with running := fun on => by cases on }
        · cases taken
          exact inv
    | closeEndpoint =>
        simp only [machine, step] at taken
        split at taken
        · rename_i mid
          cases taken
          exact inv.shut mid.2
        · cases taken

theorem Inv.after {protocol : TunnelProtocol} {tunnelAddr : SocketAddr}
    {host next : HostTunnel Key} {label : Label Key} (inv : host.Inv)
    (taken : step protocol tunnelAddr host label = some next) : next.Inv :=
  (inductive_inv protocol tunnelAddr).step host label next inv taken

/-- A handler step and what it makes of the tunnel. -/
theorem Inv.handler_step {protocol : TunnelProtocol} {tunnelAddr : SocketAddr}
    {host : HostTunnel Key} (inv : host.Inv) {index : Nat} {phase : Phase}
    {before after : Conn Key} {act : HandlerAct} {registration : Registration}
    {outcome : Outcome} (at_ : host.loop = .handling index phase)
    (found : host.conns[index]? = some before)
    (moved : before.handlerStep protocol tunnelAddr host.stopSent phase act =
      some (after, registration, outcome)) :
    ∃ next final, step protocol tunnelAddr host (.handler before.client act) = some next ∧
      next.taken = host.taken ∧ next.conns = (host.setConn index final).conns ∧
      (∀ key, key ∈ next.tunnelClients ↔ key ∈ host.tunnelClients) ∧
      final.client = before.client ∧ final.answered = after.answered ∧
      ((∃ phase', outcome = .continues phase' ∧ next.loop = .handling index phase' ∧
          final = after) ∨
        ((∃ error, outcome = .returns error) ∧ next.loop = .accept)) := by
  have client := (Conn.handlerStep_sameOwner moved).client
  rcases inv.handled_eq at_ found client registration outcome with ⟨clients, members, is⟩
  have taken : step protocol tunnelAddr host (.handler before.client act) =
      some (host.handled index after registration outcome) := by
    simp [step, at_, found, moved]
  rw [is] at taken
  cases outcome with
  | continues phase' =>
      exact ⟨_, after, taken, rfl, rfl, members, client, rfl, Or.inl ⟨phase', rfl, rfl, rfl⟩⟩
  | returns error =>
      exact ⟨_, { after with life := .returned error }, taken, rfl, rfl, members, client, rfl,
        Or.inr ⟨⟨error, rfl⟩, rfl⟩⟩

/-! ## What no step undoes -/

/-- Connections keep their numbers and their owners. -/
theorem Inv.owner_of_step {protocol : TunnelProtocol} {tunnelAddr : SocketAddr}
    {host next : HostTunnel Key} {label : Label Key} (inv : host.Inv)
    (taken : step protocol tunnelAddr host label = some next) {index : Nat} {key : Key}
    (owns : host.owner index = some key) : next.owner index = some key := by
  cases label with
  | dial other =>
      simp only [step] at taken
      split at taken <;> cases taken
      rcases Option.map_eq_some_iff.mp owns with ⟨conn, here, client⟩
      unfold owner
      rw [getElem?_append_of_found here]
      exact congrArg some client
  | client other at_ act =>
      rcases Option.bind_eq_some_iff.mp taken with ⟨before, found, rest⟩
      split at rest
      · rcases Option.map_eq_some_iff.mp rest with ⟨after, moved, same⟩
        subst same
        rw [owner_setConn found after (Conn.clientStep_frame moved).1]
        exact owns
      · cases rest
  | accept =>
      simp only [step] at taken
      split at taken
      · split at taken
        · cases taken
          exact owns
        · split at taken <;> cases taken
          exact owns
      · cases taken
  | handshakeEnds =>
      simp only [step] at taken
      split at taken
      · rcases Option.bind_eq_some_iff.mp taken with ⟨before, found, admitted⟩
        rcases afterHandshake_cases admitted with ⟨_, rfl⟩ | ⟨_, ⟨_, rfl⟩ | ⟨_, rfl⟩⟩
        · exact owns
        · exact (owner_setConn found { before with life := .ignored, link := .closed } rfl
            index).trans owns
        · exact (owner_setConn found { before with life := .serving } rfl index).trans owns
      · cases taken
  | handler other act =>
      rcases handler_cases taken with
        ⟨at_, phase, before, after, registration, outcome, handling, found, _, moved, same⟩
      have client := (Conn.handlerStep_sameOwner moved).client
      rcases inv.handled_eq handling found client registration outcome with ⟨clients, _, is⟩
      rw [same, is]
      cases outcome with
      | continues phase' => exact (owner_setConn found after client index).trans owns
      | returns error =>
          exact (owner_setConn found { after with life := .returned error } client index).trans owns
  | stop =>
      simp only [step] at taken
      split at taken
      · split at taken <;> cases taken
        exact owns
      · cases taken
        exact owns
  | closeEndpoint =>
      simp only [step] at taken
      split at taken <;> cases taken
      rcases Option.map_eq_some_iff.mp owns with ⟨conn, here, client⟩
      unfold owner
      rw [List.getElem?_map, here]
      exact congrArg some client

/-- Nobody leaves the registry, and the loop turns to a new connection only if
its client is not in it. -/
theorem Inv.registry_of_step {protocol : TunnelProtocol} {tunnelAddr : SocketAddr}
    {host next : HostTunnel Key} {label : Label Key} (inv : host.Inv)
    (taken : step protocol tunnelAddr host label = some next) :
    (∀ key, key ∈ host.tunnelClients → key ∈ next.tunnelClients) ∧
      ∀ index phase, next.loop = .handling index phase →
        (∃ phase', host.loop = .handling index phase') ∨
          ∃ key, host.owner index = some key ∧ key ∉ host.tunnelClients := by
  cases label with
  | dial other =>
      simp only [step] at taken
      split at taken <;> cases taken
      exact ⟨fun _ => id, fun index phase at_ => Or.inl ⟨phase, at_⟩⟩
  | client other at_ act =>
      rcases Option.bind_eq_some_iff.mp taken with ⟨before, found, rest⟩
      split at rest
      · rcases Option.map_eq_some_iff.mp rest with ⟨after, _, same⟩
        subst same
        exact ⟨fun _ => id, fun index phase at_ => Or.inl ⟨phase, at_⟩⟩
      · cases rest
  | accept =>
      simp only [step] at taken
      split at taken
      · split at taken
        · cases taken
          exact ⟨fun _ => id, fun index phase at_ => (by cases at_)⟩
        · split at taken <;> cases taken
          exact ⟨fun _ => id, fun index phase at_ => Or.inl ⟨phase, at_⟩⟩
      · cases taken
  | handshakeEnds =>
      simp only [step] at taken
      split at taken
      · rcases Option.bind_eq_some_iff.mp taken with ⟨before, found, admitted⟩
        rcases afterHandshake_cases admitted with ⟨_, rfl⟩ | ⟨_, ⟨_, rfl⟩ | ⟨absent, rfl⟩⟩
        · exact ⟨fun _ => id, fun index phase at_ => (by cases at_)⟩
        · exact ⟨fun _ => id, fun index phase at_ => (by cases at_)⟩
        · refine ⟨fun key present => (AList.mem_insert _).mpr (Or.inr present), ?_⟩
          intro index phase at_
          cases at_
          exact Or.inr ⟨before.client, congrArg (Option.map Conn.client) found, absent⟩
      · cases taken
  | handler other act =>
      rcases handler_cases taken with
        ⟨at_, phase, before, after, registration, outcome, handling, found, _, moved, same⟩
      have client := (Conn.handlerStep_sameOwner moved).client
      rcases inv.handled_eq handling found client registration outcome with ⟨clients, members, is⟩
      rw [same, is]
      cases outcome with
      | continues phase' =>
          refine ⟨fun key present => (members key).mpr present, fun index phase'' at_ => ?_⟩
          cases at_
          exact Or.inl ⟨phase, handling⟩
      | returns error =>
          exact ⟨fun key present => (members key).mpr present, fun index phase'' at_ => by cases at_⟩
  | stop =>
      simp only [step] at taken
      split at taken
      · split at taken <;> cases taken
        exact ⟨fun _ => id, fun index phase at_ => Or.inl ⟨phase, at_⟩⟩
      · cases taken
        exact ⟨fun _ => id, fun index phase at_ => Or.inl ⟨phase, at_⟩⟩
  | closeEndpoint =>
      simp only [step] at taken
      split at taken <;> cases taken
      exact ⟨fun _ => id, fun index phase at_ => Or.inl ⟨phase, at_⟩⟩

end HostTunnel

end Host
end Lantun
