import Lantun.Machine.Run
import Lantun.Data.Values
import Lantun.Data.Places
import Lantun.Host.Connection

namespace Lantun
namespace Host

/-!
# The registry of one client's sessions

`handle_connection` registers a session under the address of its virtual client
socket and `disconnect_local_client_connection` removes what it finds there.
That address is the unspecified one of the family of the application's address:
its port is zero for every session, since the registry is filled before the
socket is bound.  So there is one key for each family.

Here registrations and disconnections come in any order and number, as they
would if a handler served its sessions side by side.  A session is the shared
connection record made when it was registered, and the registry is followed by
which session's record it holds.
-/

/-- The sessions of one client. -/
structure Sessions where
  /-- The registry: under each address the session whose record is there. -/
  localConnections : AList fun _ : SocketAddr => Nat
  /-- The records of all sessions registered so far. -/
  registered : List LocalClientConnection
  /-- The sessions registered and not yet disconnected. -/
  live : List Nat
  deriving DecidableEq

inductive SessionCall where
  | register (localAddr : SocketAddr)
  | disconnect (session : Nat)
  deriving DecidableEq, Repr

/-- The record `handle_connection` makes for a `ConnReq`. -/
def sessionRecord (localAddr : SocketAddr) : LocalClientConnection where
  clientLocalAddr := localAddr
  clientVirtualAddr := getUnspecified localAddr.isIpv4

namespace Sessions

def empty : Sessions := ⟨∅, [], []⟩

/-- The registration in `handle_connection`. -/
def register (sessions : Sessions) (localAddr : SocketAddr) : Sessions where
  localConnections :=
    sessions.localConnections.insert (sessionRecord localAddr).clientVirtualAddr
      sessions.registered.length
  registered := sessions.registered ++ [sessionRecord localAddr]
  live := sessions.live ++ [sessions.registered.length]

/-- `HostTunnel::disconnect_local_client_connection` on the record of a session. -/
def disconnectLocalClientConnection (sessions : Sessions) (session : Nat)
    (connection : LocalClientConnection) : Bool × Sessions :=
  if connection.clientVirtualAddr ∈ sessions.localConnections then
    (true, { sessions with
      localConnections := sessions.localConnections.erase connection.clientVirtualAddr
      live := sessions.live.erase session })
  else (false, { sessions with live := sessions.live.erase session })

/-- `HostTunnel::num_active_connections` of a running tunnel. -/
def numActiveConnections (clients : List Sessions) : Nat :=
  clients.foldl (fun count client => count + (values client.localConnections).length) 0

def machine : Machine Sessions SessionCall where
  initial sessions := sessions = empty
  step sessions
    | .register localAddr => some (sessions.register localAddr)
    | .disconnect session =>
        (sessions.registered[session]?).map fun connection =>
          (sessions.disconnectLocalClientConnection session connection).2

/-- The registry holds every live session once and nothing else. -/
structure Exact (sessions : Sessions) : Prop where
  entries : (values sessions.localConnections).Perm sessions.live
  count : numActiveConnections [sessions] = sessions.live.length

/-- The call leaves an exact registry, and a live session that it disconnects is
found and loses its own entry only. -/
def Separate (before : Sessions) (call : SessionCall) (after : Sessions) : Prop :=
  after.Exact ∧ ∀ session connection, call = .disconnect session → session ∈ before.live →
    before.registered[session]? = some connection →
    (before.disconnectLocalClientConnection session connection).1 = true ∧
      ∀ addr other, after.localConnections.lookup addr = some other ↔
        before.localConnections.lookup addr = some other ∧ other ≠ session

/-- No live session has an application's address of this family. -/
def NoneOf (sessions : Sessions) (ip4 : Bool) : Prop :=
  ∀ session ∈ sessions.live, ∀ connection, sessions.registered[session]? = some connection →
    connection.clientLocalAddr.isIpv4 ≠ ip4

/-- A session is registered only while no other of its family is live, and a
session is disconnected again only while none of its family is. -/
def Alone (before : Sessions) (call : SessionCall) (_after : Sessions) : Prop :=
  match call with
  | .register localAddr => before.NoneOf localAddr.isIpv4
  | .disconnect session =>
      session ∈ before.live ∨ ∀ connection, before.registered[session]? = some connection →
        before.NoneOf connection.clientLocalAddr.isIpv4

/-! ## Keys and families -/

theorem getUnspecified_inj {first second : Bool}
    (same : getUnspecified first = getUnspecified second) : first = second := by
  cases first <;> cases second <;> first | rfl | cases same

/-- What holds of the registry whatever is called: it refers to registered
sessions, each under the key of its own record. -/
structure Filed (sessions : Sessions) : Prop where
  nodup : sessions.live.Nodup
  known : ∀ session ∈ sessions.live, session < sessions.registered.length
  recorded : ∀ (session : Nat) (connection : LocalClientConnection),
    sessions.registered[session]? = some connection →
    connection = sessionRecord connection.clientLocalAddr
  keyed : ∀ addr session, sessions.localConnections.lookup addr = some session →
    ∃ connection, sessions.registered[session]? = some connection ∧
      connection.clientVirtualAddr = addr

variable {sessions : Sessions}

theorem Filed.register (filed : sessions.Filed) (localAddr : SocketAddr) :
    (sessions.register localAddr).Filed where
  nodup := by
    refine List.nodup_append.mpr ⟨filed.nodup, List.nodup_singleton _, ?_⟩
    intro session live new only
    rw [List.mem_singleton.mp only]
    exact Nat.ne_of_lt (filed.known session live)
  known session live := by
    simp only [Sessions.register, List.length_append, List.length_singleton]
    rcases List.mem_append.mp live with old | new
    · exact Nat.lt_succ_of_lt (filed.known session old)
    · rw [List.mem_singleton.mp new]
      exact Nat.lt_succ_self _
  recorded session connection here := by
    rcases getElem?_concat_cases here with old | ⟨_, rfl⟩
    · exact filed.recorded session connection old
    · rfl
  keyed addr session found := by
    by_cases same : addr = (sessionRecord localAddr).clientVirtualAddr
    · subst same
      cases (AList.lookup_insert _).symm.trans found
      exact ⟨_, List.getElem?_concat_length, rfl⟩
    · rcases filed.keyed addr session ((AList.lookup_insert_ne same).symm.trans found) with
        ⟨connection, here, key⟩
      refine ⟨connection, ?_, key⟩
      exact getElem?_append_of_found here _

theorem Filed.disconnect (filed : sessions.Filed) (session : Nat)
    (connection : LocalClientConnection) :
    (sessions.disconnectLocalClientConnection session connection).2.Filed := by
  have known : ∀ other ∈ sessions.live.erase session, other < sessions.registered.length :=
    fun other live => filed.known other (List.mem_of_mem_erase live)
  unfold disconnectLocalClientConnection
  split
  · refine ⟨filed.nodup.erase session, known, filed.recorded, fun addr other found => ?_⟩
    have different : addr ≠ connection.clientVirtualAddr := by
      intro same
      rw [same] at found
      cases (AList.lookup_erase _ _).symm.trans found
    exact filed.keyed addr other ((AList.lookup_erase_ne different).symm.trans found)
  · exact ⟨filed.nodup.erase session, known, filed.recorded, filed.keyed⟩

theorem inductive_filed : machine.Inductive Filed where
  start sessions first := by
    rw [show sessions = empty from first]
    refine ⟨List.nodup_nil, ?_, ?_, ?_⟩
    · intro session live
      cases live
    · intro session connection here
      cases here
    · intro addr session found
      cases found
  step sessions call next filed taken := by
    cases call with
    | register localAddr =>
        cases taken
        exact filed.register localAddr
    | disconnect session =>
        rcases Option.map_eq_some_iff.mp taken with ⟨connection, _, same⟩
        exact same ▸ filed.disconnect session connection

/-! ## When the registry is exact -/

/-- The count of one client is the size of its registry. -/
theorem numActiveConnections_singleton (sessions : Sessions) :
    numActiveConnections [sessions] = (values sessions.localConnections).length := by
  simp [numActiveConnections]

theorem exact_iff :
    sessions.Exact ↔ (values sessions.localConnections).Perm sessions.live :=
  ⟨fun exact_ => exact_.entries, fun entries =>
    ⟨entries, (numActiveConnections_singleton sessions).trans entries.length_eq⟩⟩

/-- In an exact registry a live session is stored under its key. -/
theorem Filed.lookup_of_live (filed : sessions.Filed) (exact_ : sessions.Exact) {session : Nat}
    (live : session ∈ sessions.live) {connection : LocalClientConnection}
    (here : sessions.registered[session]? = some connection) :
    sessions.localConnections.lookup connection.clientVirtualAddr = some session := by
  rcases mem_values.mp (exact_.entries.mem_iff.mpr live) with ⟨addr, found⟩
  rcases filed.keyed addr session found with ⟨other, there, key⟩
  cases here.symm.trans there
  exact key ▸ found

/-- In an exact registry the key of a family is free exactly while no session of
it is live. -/
theorem Filed.free_iff (filed : sessions.Filed) (exact_ : sessions.Exact) (ip4 : Bool) :
    getUnspecified ip4 ∉ sessions.localConnections ↔ sessions.NoneOf ip4 := by
  constructor
  · intro free session live connection here family
    have found := filed.lookup_of_live exact_ live here
    have key : connection.clientVirtualAddr = getUnspecified ip4 := by
      rw [filed.recorded session connection here]
      exact congrArg getUnspecified family
    exact free (mem_of_lookup (key ▸ found))
  · intro none_ taken
    rcases Option.isSome_iff_exists.mp (AList.lookup_isSome.mpr taken) with ⟨session, found⟩
    have live := exact_.entries.mem_iff.mp (mem_values.mpr ⟨_, found⟩)
    rcases filed.keyed _ session found with ⟨connection, here, key⟩
    rw [filed.recorded session connection here] at key
    exact none_ session live connection here (getUnspecified_inj key)

theorem Filed.register_exact_iff (filed : sessions.Filed) (exact_ : sessions.Exact)
    (localAddr : SocketAddr) :
    (sessions.register localAddr).Exact ↔ sessions.NoneOf localAddr.isIpv4 := by
  rw [← filed.free_iff exact_, exact_iff]
  constructor
  · intro entries taken
    have lengths := entries.length_eq
    have grown := length_values_insert taken sessions.registered.length
    have before := exact_.entries.length_eq
    simp only [Sessions.register, sessionRecord, List.length_append, List.length_singleton]
      at lengths
    omega
  · intro free
    rw [Sessions.register, sessionRecord, values_insert free]
    exact (exact_.entries.cons _).trans (List.perm_append_singleton _ _).symm

/-- A live session is disconnected by taking its own entry. -/
theorem Filed.disconnect_live (filed : sessions.Filed) (exact_ : sessions.Exact) {session : Nat}
    (live : session ∈ sessions.live) {connection : LocalClientConnection}
    (here : sessions.registered[session]? = some connection) :
    (sessions.disconnectLocalClientConnection session connection).1 = true ∧
      (sessions.disconnectLocalClientConnection session connection).2.Exact ∧
      ∀ addr other,
        (sessions.disconnectLocalClientConnection session connection).2.localConnections.lookup
            addr = some other ↔
          sessions.localConnections.lookup addr = some other ∧ other ≠ session := by
  have found := filed.lookup_of_live exact_ live here
  have erased := values_erase found
  unfold disconnectLocalClientConnection
  rw [if_pos (mem_of_lookup found)]
  refine ⟨rfl, exact_iff.mpr ?_, fun addr other => ?_⟩
  · exact (erased.symm.trans (exact_.entries.trans (List.perm_cons_erase live))).cons_inv
  · by_cases same : addr = connection.clientVirtualAddr
    · subst same
      simp only [AList.lookup_erase, found, Option.some.injEq, reduceCtorEq, false_iff, not_and,
        not_not]
      exact fun is => is.symm
    · rw [AList.lookup_erase_ne same]
      refine (and_iff_left_of_imp fun there => ?_).symm
      rintro rfl
      rcases filed.keyed addr other there with ⟨record_, at_, key⟩
      cases here.symm.trans at_
      exact same key.symm

/-- Disconnecting a session once more leaves the registry exact only if nothing
is stored under its key. -/
theorem Filed.disconnect_gone (exact_ : sessions.Exact) {session : Nat}
    (gone : session ∉ sessions.live) (connection : LocalClientConnection) :
    (sessions.disconnectLocalClientConnection session connection).2.Exact ↔
      connection.clientVirtualAddr ∉ sessions.localConnections := by
  rw [exact_iff]
  unfold disconnectLocalClientConnection
  by_cases taken : connection.clientVirtualAddr ∈ sessions.localConnections
  · rw [if_pos taken]
    refine iff_of_false (fun entries => ?_) (not_not.mpr taken)
    rcases Option.isSome_iff_exists.mp (AList.lookup_isSome.mpr taken) with ⟨other, found⟩
    have lengths := entries.length_eq
    have erased := (values_erase found).length_eq
    have before := exact_.entries.length_eq
    rw [List.length_cons] at erased
    simp only [List.erase_of_not_mem gone] at lengths
    omega
  · rw [if_neg taken]
    refine iff_of_true ?_ taken
    simpa only [List.erase_of_not_mem gone] using exact_.entries

theorem separate_iff_alone {sessions next : Sessions} {call : SessionCall} (filed : sessions.Filed)
    (exact_ : sessions.Exact) (taken : machine.step sessions call = some next) :
    Separate sessions call next ↔ Alone sessions call next := by
  cases call with
  | register localAddr =>
      cases taken
      rw [Separate, filed.register_exact_iff exact_ localAddr]
      refine and_iff_left ?_
      rintro session connection ⟨⟩
  | disconnect session =>
      rcases Option.map_eq_some_iff.mp taken with ⟨connection, here, same⟩
      subst same
      by_cases live : session ∈ sessions.live
      · rcases filed.disconnect_live exact_ live here with ⟨returned, kept, own⟩
        refine iff_of_true ⟨kept, ?_⟩ (Or.inl live)
        rintro other record_ ⟨⟩ _ there
        cases here.symm.trans there
        exact ⟨returned, own⟩
      · have key : connection.clientVirtualAddr =
            getUnspecified connection.clientLocalAddr.isIpv4 :=
          congrArg LocalClientConnection.clientVirtualAddr (filed.recorded session connection here)
        constructor
        · rintro ⟨kept, _⟩
          refine Or.inr fun record_ there => ?_
          cases here.symm.trans there
          rw [← filed.free_iff exact_, ← key]
          exact (Filed.disconnect_gone exact_ live connection).mp kept
        · rintro (again | none_)
          · exact absurd again live
          · refine ⟨(Filed.disconnect_gone exact_ live connection).mpr ?_, ?_⟩
            · rw [key, filed.free_iff exact_]
              exact none_ connection here
            · rintro other record_ ⟨⟩ again
              exact absurd again live

/-- What a handler does to the registry of its client is a registration or a
disconnection as they are here. -/
theorem registration_of_handlerStep {Key : Type} {protocol : TunnelProtocol}
    {tunnelAddr : SocketAddr} {stopSent : Bool} {conn next : Conn Key} {phase : Phase}
    {act : HandlerAct} {registration : Registration} {outcome : Outcome}
    (taken : conn.handlerStep protocol tunnelAddr stopSent phase act =
      some (next, registration, outcome)) :
    registration = .keep ∨ ∃ localAddr,
      registration = .insert (sessionRecord localAddr).clientVirtualAddr (sessionRecord localAddr) ∨
        registration = .remove (sessionRecord localAddr).clientVirtualAddr := by
  cases phase with
  | acceptBi =>
      cases act <;> simp only [Conn.handlerStep, Conn.acceptStep] at taken <;> try cases taken
      all_goals
        split at taken <;> cases taken
        exact Or.inl rfl
  | receivePacket stream =>
      cases act <;> simp only [Conn.handlerStep, Conn.receiveStep] at taken <;> try cases taken
      · split at taken
        · rename_i localAddr _
          cases taken
          exact Or.inr ⟨localAddr, Or.inl rfl⟩
        · cases taken
      · split at taken
        · cases taken
        · cases taken
          exact Or.inl rfl
        · cases taken
          exact Or.inl rfl
        · split at taken <;> cases taken
          exact Or.inl rfl
        · split at taken <;> cases taken
          exact Or.inl rfl
  | connecting stream localAddr =>
      cases act <;> simp only [Conn.handlerStep, Conn.connectStep] at taken <;> try cases taken
      all_goals
        split at taken <;> cases taken
        exact Or.inl rfl
  | session stream localAddr forwarders =>
      simp only [Conn.handlerStep, Conn.sessionStep] at taken
      split at taken
      · split at taken <;> cases taken
        exact Or.inr ⟨localAddr, Or.inr rfl⟩
      · rcases Option.bind_eq_some_iff.mp taken with ⟨inbound, _, rest⟩
        rcases Option.bind_eq_some_iff.mp rest with ⟨⟨role, after, status⟩, _, last⟩
        simp only at last
        split at last <;> cases last
        exact Or.inl rfl

/-- In every sequence of registrations and disconnections of one client's
sessions the registry treats them separately if and only if no session is
registered, and none disconnected once more, while another of its address family
is live. -/
theorem separate_iff_families_alone (calls : List SessionCall) :
    machine.EveryStep Separate calls empty ↔ machine.EveryStep Alone calls empty := by
  apply Machine.everyStep_congr_of_kept (I := fun sessions => sessions.Filed ∧ sessions.Exact)
  · exact fun sessions call next both taken separate =>
      ⟨inductive_filed.step sessions call next both.1 taken, separate.1⟩
  · exact fun sessions call next both taken => separate_iff_alone both.1 both.2 taken
  · exact ⟨inductive_filed.start empty rfl, exact_iff.mpr (List.Perm.refl _)⟩

/-- Two applications of one family. -/
def twoApps : List SessionCall :=
  [.register (.v4 0 5000), .register (.v4 0 6000), .disconnect 0]

theorem twoApps_share : ¬ ∀ calls, machine.EveryStep Separate calls empty := by
  intro always
  have exact_ := ((always twoApps _ rfl).2 _ rfl).1.1
  exact absurd exact_.count (by decide)

/-- The first session's disconnection takes the second session's entry. -/
example : (machine.run twoApps empty).map (fun sessions =>
    (sessions.live, numActiveConnections [sessions])) = some ([1], 0) := by decide

end Sessions

end Host
end Lantun
