import Lantun.Client.Tunnel

namespace Lantun
namespace Client

/-!
# The connections a client tunnel reports

The listener registers an application behind `send_packet` and takes it out again
when the forwarders of its session are joined, and it looks at the next application
only behind that.  So its map is a function of where it stands: at most one entry,
and none at the selection.

What is asked of the tunnel is answered from the map that the running properties
hold.  These are taken by the first thing `disconnect` does, while the listener that
has been serving goes on by itself.
-/

/-- The application of the session that the listener waits for. -/
def Listener.serves : Listener → Option SocketAddr
  | .session addr _ => some addr
  | _ => none

/-- The applications that are registered while the listener stands here. -/
def Listener.registers (listener : Listener) : LocalConnections :=
  match listener.serves with
  | some addr => (∅ : LocalConnections).insert addr (Connected.localConnection addr)
  | none => ∅

theorem Listener.mem_registers {listener : Listener} {addr : SocketAddr} :
    addr ∈ listener.registers ↔ listener.serves = some addr := by
  unfold registers
  cases listener.serves with
  | none => simp
  | some other =>
      rw [AList.mem_insert]
      simp [eq_comm]

theorem Listener.length_registers (listener : Listener) :
    listener.registers.keys.length = listener.serves.toList.length := by
  unfold registers
  cases listener.serves with
  | none => rfl
  | some addr => rfl

theorem erase_registers (addr : SocketAddr) (connection : LocalClientConnection) :
    ((∅ : LocalConnections).insert addr connection).erase addr = ∅ := by
  apply AList.ext
  exact List.kerase_cons_eq rfl

namespace Connected

/-- The map follows the listener. -/
theorem registered_of_step {protocol : TunnelProtocol} {connected next : Connected} {act : ListenerAct}
    (registered : connected.localConnections = connected.listener.registers)
    (taken : connected.step protocol act = some next) :
    next.localConnections = next.listener.registers := by
  cases act with
  | detachedEnds =>
      simp only [step] at taken
      split at taken <;> cases taken
      exact registered
  | bound | bindFails | sendFails =>
      simp only [step] at taken
      split at taken <;> cases taken
      rename_i at_
      rw [at_] at registered
      exact registered
  | incoming addr =>
      simp only [step] at taken
      split at taken
      · rename_i at_
        split at taken <;> cases taken
        have none_ : connected.localConnections = ∅ := by
          rw [registered, at_]
          rfl
        unfold afterIncoming
        split
        · exact none_
        · split
          · exact registered
          · exact none_
      · cases taken
  | stop =>
      simp only [step] at taken
      split at taken <;> cases taken
      rename_i told
      have none_ : connected.localConnections = ∅ := by
        rw [registered]
        rcases Listener.selects_cases told.1 with at_ | at_ <;> rw [at_] <;> rfl
      rw [none_]
      cases connected.stop.value <;> rfl
  | sent =>
      simp only [step] at taken
      split at taken
      · rename_i at_
        split at taken <;> cases taken
        rw [at_] at registered
        simp only [registered]
        rfl
      · cases taken
  | join =>
      simp only [step] at taken
      split at taken
      · rename_i at_
        split at taken <;> cases taken
        rw [at_] at registered
        simp only [registered]
        exact erase_registers _ _
      · cases taken
  | incomingFails | opened | openFails | forwarderEnds role status =>
      simp only [step] at taken
      split at taken
      · rename_i at_
        split at taken <;> cases taken
        rw [at_] at registered
        exact registered
      · cases taken

/-- Nobody is registered at the selection, so a UDP listener that looks whether an
application is goes on as a TCP listener does. -/
theorem incoming_alike {connected : Connected}
    (registered : connected.localConnections = connected.listener.registers) (addr : SocketAddr) :
    connected.step .udp (.incoming addr) = connected.step .tcp (.incoming addr) := by
  simp only [step]
  split
  · rename_i at_
    have vacant : addr ∉ connected.localConnections := by
      rw [registered, at_, Listener.mem_registers]
      simp [Listener.serves]
    split
    · rfl
    · simp only [afterIncoming, if_neg vacant]
  · rfl

end Connected

namespace ClientTunnel

/-- What the running properties belong to. -/
def current (tunnel : ClientTunnel) : Option Connected :=
  tunnel.runningProps.bind fun index => tunnel.connects[index]?

/-- The map that the running properties hold. -/
def localConnections (tunnel : ClientTunnel) : LocalConnections :=
  match tunnel.current with
  | some connected => connected.localConnections
  | none => ∅

def numActiveConnections (tunnel : ClientTunnel) : Nat := tunnel.localConnections.keys.length

/-- The application whose session the listener of the running properties waits for. -/
def serves (tunnel : ClientTunnel) : Option SocketAddr :=
  tunnel.current.bind fun connected => connected.listener.serves

/-- The map of every listener, of the present one and of those before it, is that of
where the listener stands. -/
def Registered (tunnel : ClientTunnel) : Prop :=
  ∀ connected ∈ tunnel.connects, connected.localConnections = connected.listener.registers

theorem Registered.setConnect {tunnel : ClientTunnel} (registered : tunnel.Registered) (index : Nat)
    {after : Connected} (kept : after.localConnections = after.listener.registers) :
    (tunnel.setConnect index after).Registered := by
  intro connected member
  rcases List.mem_or_eq_of_mem_set member with old | new
  · exact registered connected old
  · exact new ▸ kept

theorem Registered.connect {tunnel : ClientTunnel} (registered : tunnel.Registered)
    (outcome : ConnectOutcome) : (tunnel.connect outcome).Registered := by
  unfold ClientTunnel.connect
  split
  · exact registered
  · cases outcome with
    | endpointFails _ | connectFails _ => exact registered
    | connected =>
        intro connected member
        rcases List.mem_append.mp member with old | new
        · exact registered connected old
        · rw [List.mem_singleton.mp new]
          rfl

theorem Registered.disconnect {tunnel : ClientTunnel} (registered : tunnel.Registered) :
    tunnel.disconnect.Registered := by
  unfold ClientTunnel.disconnect
  split
  · split <;> exact registered
  · exact registered

theorem inductive_registered (protocol : TunnelProtocol) : (machine protocol).Inductive Registered where
  start tunnel first := by
    rw [show tunnel = created from first]
    exact fun _ member => nomatch member
  step tunnel label next registered taken := by
    -- signalling, closing and being closed leave the listener and its map
    have aside : ∀ {index : Nat} {before after : Connected}, tunnel.connects[index]? = some before →
        after.localConnections = before.localConnections → after.listener = before.listener →
        (tunnel.setConnect index after).Registered := by
      intro index before after found map listener
      apply registered.setConnect
      rw [map, listener]
      exact registered before (List.mem_of_getElem? found)
    cases label with
    | connect outcome =>
        simp only [machine, step] at taken
        split at taken <;> cases taken
        exact registered.connect outcome
    | disconnect =>
        simp only [machine, step] at taken
        split at taken <;> cases taken
        exact registered.disconnect
    | sendStop =>
        simp only [machine, step] at taken
        split at taken
        · rcases Option.map_eq_some_iff.mp taken with ⟨connected, found, same⟩
          subst same
          split <;> exact aside found rfl rfl
        · cases taken
    | closeConnection | endpointClosed =>
        simp only [machine, step] at taken
        split at taken
        · rcases Option.map_eq_some_iff.mp taken with ⟨connected, found, same⟩
          subst same
          exact aside found rfl rfl
        · cases taken
    | closedByPeer index =>
        rcases Option.map_eq_some_iff.mp taken with ⟨connected, found, same⟩
        subst same
        exact aside found rfl rfl
    | listener index act =>
        rcases Option.bind_eq_some_iff.mp taken with ⟨before, found, moved⟩
        rcases Option.map_eq_some_iff.mp moved with ⟨after, acted, same⟩
        subst same
        apply registered.setConnect
        exact Connected.registered_of_step (registered before (List.mem_of_getElem? found)) acted

theorem Registered.localConnections_eq {tunnel : ClientTunnel} (registered : tunnel.Registered)
    {connected : Connected} (current : tunnel.current = some connected) :
    tunnel.localConnections = connected.listener.registers := by
  rcases Option.bind_eq_some_iff.mp current with ⟨index, _, found⟩
  rw [localConnections, current]
  exact registered connected (List.mem_of_getElem? found)

/-- The properties are those of the last `connect` that has succeeded. -/
theorem Inv.current_last {tunnel : ClientTunnel} (inv : tunnel.Inv) {connected : Connected}
    (current : tunnel.current = some connected) : tunnel.connects.getLast? = some connected := by
  rcases Option.bind_eq_some_iff.mp current with ⟨index, props, found⟩
  rw [List.getLast?_eq_getElem?, ← inv.latest index props, Nat.add_sub_cancel]
  exact found

/-- In every reachable state, over any number of `connect` and `disconnect` calls, a
client tunnel reports the session that the listener of its last `connect` waits for
and nothing else: no connection when there is none, when it is not connected or when
a `disconnect` has begun, and never more than one.  No listener ever finds an
application registered that it looks at. -/
theorem reports_session {protocol : TunnelProtocol} {tunnel : ClientTunnel}
    (reached : (machine protocol).Reachable tunnel) :
    (∀ addr, addr ∈ tunnel.localConnections ↔ tunnel.serves = some addr) ∧
      tunnel.numActiveConnections = tunnel.serves.toList.length ∧
      (∀ connected, tunnel.current = some connected → tunnel.connects.getLast? = some connected) ∧
      (tunnel.isRunning = false ∨ tunnel.call ≠ .idle → tunnel.numActiveConnections = 0) ∧
      ∀ connected ∈ tunnel.connects, ∀ addr,
        connected.step .udp (.incoming addr) = connected.step .tcp (.incoming addr) := by
  have inv := (inductive_inv protocol).of_reachable reached
  have registered := (inductive_registered protocol).of_reachable reached
  refine ⟨?_, ?_, fun _ current => inv.current_last current, ?_, ?_⟩
  · intro addr
    cases current : tunnel.current with
    | none => simp [localConnections, serves, current]
    | some connected =>
        rw [registered.localConnections_eq current, Listener.mem_registers, serves, current]
        rfl
  · cases current : tunnel.current with
    | none =>
        simp only [numActiveConnections, localConnections, serves, current]
        rfl
    | some connected =>
        rw [numActiveConnections, registered.localConnections_eq current,
          Listener.length_registers, serves, current]
        rfl
  · intro off
    have none_ : tunnel.runningProps = none := by
      rcases off with stopped | busy
      · exact (inv.stopped stopped).1
      · exact inv.calling busy
    simp only [numActiveConnections, localConnections, current, none_]
    rfl
  · intro connected member addr
    exact Connected.incoming_alike (registered connected member) addr

/-- One application is being served. -/
def servingRun : List Label :=
  [.connect .connected, .listener 0 .bound, .listener 0 (.incoming (.v4 0 5000)),
    .listener 0 .opened, .listener 0 .sent]

theorem reports_session_servingRun : ∃ tunnel, (machine .udp).run servingRun created = some tunnel ∧
    tunnel.serves = some (.v4 0 5000) ∧ tunnel.numActiveConnections = 1 := by
  have ends : ((machine .udp).run servingRun created).any (fun tunnel =>
      decide (tunnel.serves = some (.v4 0 5000))) = true := by decide
  rcases (Option.any_eq_true ..).mp ends with ⟨tunnel, ran, point⟩
  have serves := of_decide_eq_true point
  refine ⟨tunnel, ran, serves, ?_⟩
  rw [(reports_session ⟨created, servingRun, rfl, ran⟩).2.1, serves]
  rfl

/-- A `disconnect` has begun, and the session goes on unreported. -/
example : ((machine .udp).run (servingRun ++ [.disconnect]) created).map (fun tunnel =>
    (tunnel.numActiveConnections, tunnel.connects.map fun connected => connected.listener.serves)) =
      some (0, [some (.v4 0 5000)]) := by decide

end ClientTunnel

end Client
end Lantun
