import Lantun.Net.Session

namespace Lantun
namespace Net

open Async

/-!
# What a UDP session does to datagrams

The client end peeks and receives one datagram at a time, cuts it to the
buffer and writes its bytes onto the stream without any mark where it ended.
The host end sends whatever one read of the stream returns as one datagram, and
the way back is the same.  So the bytes are right and the boundaries are those
of the reads.

The datagrams come out as they went in exactly when the network hands the
stream to the receiving forwarder in reads whose sizes are the lengths of the
datagrams sent, one by one.  That relation speaks about the input of a run only:
the datagrams of its `send` events and the sizes of its stream reads.
-/

namespace Session

/-- The datagrams the application at `side` sends during a run. -/
def offered (side : Side) (events : List (Event (List UInt8))) : List (List UInt8) :=
  events.filterMap fun
    | .send at_ datagram => if at_ = side then some datagram else none
    | _ => none

/-- The sizes of the stream reads of the direction that starts at `side`. -/
def readSizes (side : Side) (events : List (Event (List UInt8))) : List Nat :=
  events.filterMap fun
    | .task at_ .down (.read count) => if at_ = side ∧ 0 < count then some count else none
    | _ => none

/-- How many of the chunks read were accepted by the socket at the far end. -/
def sends (side : Side) (events : List (Event (List UInt8))) : Nat :=
  events.countP fun
    | .task at_ .down (.write _) => at_ = side
    | _ => false

/-- The sizes in which the network handed over the bytes that were sent on. -/
def chunkSizes (side : Side) (events : List (Event (List UInt8))) : List Nat :=
  (readSizes side events).take (sends side events)

/-! ## The labels of a run and the state it ends in -/

/-- The size of the one chunk that was read but not yet, or never, sent on. -/
def Owes (sizes : List Nat) : Pc → Prop
  | .write rest => sizes = [rest.length] ∧ 0 < rest.length ∧
      rest.length ≤ tunnelForwarderBufferSize
  | .done .panicked => sizes.length ≤ 1
  | _ => sizes = []

/-- What the events of a run tell about one direction at its end. -/
structure Traced (side : Side) (events : List (Event (List UInt8))) (pipe : Pipe (List UInt8)) :
    Prop where
  log : pipe.log = offered side events
  sent : pipe.out.length = sends side events
  read : ∃ owed, readSizes side events = pipe.out.map List.length ++ owed ∧ Owes owed pipe.down.pc
  sizes : ∀ datagram ∈ pipe.out, 0 < datagram.length ∧ datagram.length ≤ tunnelForwarderBufferSize

theorem Traced.chunkSizes_eq {side : Side} {events : List (Event (List UInt8))}
    {pipe : Pipe (List UInt8)} (traced : Traced side events pipe) :
    chunkSizes side events = pipe.out.map List.length := by
  obtain ⟨owed, sizes, -⟩ := traced.read
  rw [chunkSizes, sizes, ← traced.sent]
  simp

theorem Owes.eq_nil {sizes : List Nat} {pc : Pc} (owes : Owes sizes pc) (idle : pc.pending = [])
    (running : pc.isDone = false) : sizes = [] := by
  cases pc with
  | write rest =>
      have empty : rest = [] := idle
      subst empty
      exact absurd owes.2.1 (Nat.lt_irrefl 0)
  | done exit => cases running
  | _ => exact owes

theorem owes_nil {pc : Pc} (notWrite : ∀ rest, pc ≠ .write rest) : Owes [] pc := by
  cases pc with
  | write rest => exact absurd rfl (notWrite rest)
  | done exit => cases exit <;> simp [Owes]
  | _ => simp [Owes]

theorem Owes.length_le {sizes : List Nat} {pc : Pc} (owes : Owes sizes pc) : sizes.length ≤ 1 := by
  cases pc with
  | write rest => rw [owes.1]; simp
  | done exit => cases exit <;> simp_all [Owes]
  | _ => simp_all [Owes]

/-- An event that neither reads a chunk nor writes one in this direction, nor
sends into it, adds nothing to the three label sequences. -/
def Silent (side : Side) (event : Event (List UInt8)) : Prop :=
  offered side [event] = [] ∧ readSizes side [event] = [] ∧ sends side [event] = 0

theorem silent_of_aside {side : Side} {event : Event (List UInt8)}
    (unsent : ∀ datagram, event ≠ .send side datagram)
    (idle : ∀ role act, event ≠ .task side role act) : Silent side event := by
  cases event with
  | send at_ datagram =>
      have away : at_ ≠ side := fun same => unsent datagram (same ▸ rfl)
      simp [Silent, offered, readSizes, sends, away]
  | task at_ role act =>
      have away : at_ ≠ side := fun same => idle role act (same ▸ rfl)
      cases role <;> cases act <;> simp [Silent, offered, readSizes, sends, away]
  | _ => exact ⟨rfl, rfl, rfl⟩

theorem Traced.quiet {side : Side} {events : List (Event (List UInt8))}
    {pipe next : Pipe (List UInt8)} {event : Event (List UInt8)} (traced : Traced side events pipe)
    (silent : Silent side event) (log : next.log = pipe.log) (out : next.out = pipe.out)
    (down : ∀ owed, Owes owed pipe.down.pc → Owes owed next.down.pc) :
    Traced side (events ++ [event]) next where
  log := by
    rw [log, traced.log, offered, offered, List.filterMap_append]
    change _ = _ ++ offered side [event]
    rw [silent.1, List.append_nil]
  sent := by
    rw [out, traced.sent, sends, sends, List.countP_append]
    change _ = _ + sends side [event]
    rw [silent.2.2, Nat.add_zero]
  read := by
    obtain ⟨owed, sizes, owes⟩ := traced.read
    refine ⟨owed, ?_, down owed owes⟩
    rw [out, ← sizes, readSizes, readSizes, List.filterMap_append]
    change _ ++ readSizes side [event] = _
    rw [silent.2.1, List.append_nil]
  sizes := by
    rw [out]
    exact traced.sizes

theorem Traced.send {side : Side} {events : List (Event (List UInt8))}
    {pipe : Pipe (List UInt8)} (traced : Traced side events pipe) (datagram : List UInt8) :
    Traced side (events ++ [.send side datagram]) (pipe.send datagram) where
  log := by
    change pipe.log ++ [datagram] = _
    rw [traced.log, offered, offered, List.filterMap_append]
    simp
  sent := by
    change pipe.out.length = _
    rw [traced.sent, sends, sends, List.countP_append]
    simp
  read := by
    obtain ⟨owed, sizes, owes⟩ := traced.read
    refine ⟨owed, ?_, owes⟩
    change _ = pipe.out.map List.length ++ owed
    rw [← sizes, readSizes, readSizes, List.filterMap_append]
    simp
  sizes := traced.sizes

/-- One step of the lower task, seen through its label. -/
theorem Traced.downStep {side : Side} {events : List (Event (List UInt8))} {env : Env}
    {pipe next : Pipe (List UInt8)} {last : Nat} {act : Act} (traced : Traced side events pipe)
    (taken : pipe.downStep Sock.udp env act = some (next, last)) :
    Traced side (events ++ [.task side .down act]) next := by
  obtain ⟨log, reads | writes | quiet⟩ := Pipe.downStep_cases taken
  · obtain ⟨count, chunk, rfl, positive, fits, idle, running, out, point, length⟩ := reads
    obtain ⟨owed, sizes, owes⟩ := traced.read
    have none_ := owes.eq_nil idle running
    refine ⟨?_, ?_, ⟨[count], ?_, ?_⟩, ?_⟩
    · rw [log, traced.log, offered, offered, List.filterMap_append]
      simp
    · rw [out, traced.sent, sends, sends, List.countP_append]
      simp
    · rw [none_, List.append_nil] at sizes
      rw [out, ← sizes, readSizes, readSizes, List.filterMap_append]
      simp [positive]
    · rw [point]
      exact ⟨by rw [length], by rw [length]; exact positive, by rw [length]; exact fits⟩
    · rw [out]
      exact traced.sizes
  · obtain ⟨count, rest, entries, left, rfl, at_, emitted, out, point⟩ := writes
    -- a datagram write takes everything that is pending
    obtain ⟨rfl, rfl⟩ : [rest] = entries ∧ [] = left := Prod.mk.inj (Option.some.inj emitted)
    obtain ⟨owed, sizes, owes⟩ := traced.read
    rw [at_] at owes
    obtain ⟨rfl, positive, fits⟩ := owes
    refine ⟨?_, ?_, ⟨[], ?_, ?_⟩, ?_⟩
    · rw [log, traced.log, offered, offered, List.filterMap_append]
      simp
    · rw [out, List.length_append, traced.sent, sends, sends, List.countP_append]
      simp
    · rw [out, readSizes, List.filterMap_append]
      change readSizes side events ++ _ = _
      rw [sizes]
      simp
    · rw [point]
      simp [Pc.afterWrite, Owes]
    · intro datagram member
      rw [out] at member
      rcases List.mem_append.mp member with before | new
      · exact traced.sizes datagram before
      · rw [List.mem_singleton.mp new]
        exact ⟨positive, fits⟩
  · obtain ⟨noRead, noWrite, out, after⟩ := quiet
    refine traced.quiet ⟨rfl, ?_, ?_⟩ log out ?_
    · cases act with
      | read count =>
          have zero := noRead count rfl
          subst zero
          simp [readSizes]
      | _ => rfl
    · cases act with
      | write count => exact absurd rfl (noWrite count)
      | _ => rfl
    · intro owed owes
      rcases after with panicked | ⟨idle, running, notWrite⟩
      · rw [panicked]
        exact owes.length_le
      · obtain rfl := owes.eq_nil idle running
        exact owes_nil notWrite

theorem traced_start (side : Side) (seenUp seenDown : Nat) :
    Traced side [] (Pipe.start seenUp seenDown) where
  log := rfl
  sent := rfl
  read := ⟨[], rfl, rfl⟩
  sizes := by simp [Pipe.start]

theorem traced_run {start session : Session (List UInt8)} {events : List (Event (List UInt8))}
    (starts : Starts start) (ran : (machine Bi.udp).run events start = some session) (side : Side) :
    Traced side events (session.pipe side) := by
  refine Machine.run_induction (motive := fun events session =>
    Traced side events (session.pipe side)) ?_ ?_ ran
  · obtain ⟨seenUp, seenDown, same⟩ := starts.1 side
    rw [same]
    exact traced_start side seenUp seenDown
  · intro events session event next traced taken
    cases pipe_of_step taken side with
    | aside unsent idle is =>
        rw [is]
        exact traced.quiet (silent_of_aside unsent idle) rfl rfl (fun _ owes => owes)
    | send is =>
        rw [is]
        exact traced.send _
    | close ends _ => cases ends
    | sockError is | deliver _ is | deliverEnd _ is =>
        rw [is]
        exact traced.quiet ⟨rfl, rfl, rfl⟩ rfl rfl (fun _ owes => owes)
    | up moved =>
        obtain ⟨log, out, down⟩ := Pipe.upStep_frame moved
        exact traced.quiet ⟨rfl, rfl, rfl⟩ log out (fun _ owes => down ▸ owes)
    | down moved => exact traced.downStep moved

/-! ## From sizes back to datagrams -/

/-- Bytes in the right order, cut where the datagrams were cut, are the
datagrams. -/
theorem isPrefix_of_sizes {out log : List (List UInt8)}
    (bytes : out.flatten <+: log.flatMap Sock.udp.clipped)
    (fits : ∀ datagram ∈ out, datagram.length ≤ tunnelForwarderBufferSize)
    (sizes : out.map List.length <+: log.map List.length) : out <+: log := by
  induction out generalizing log with
  | nil => exact List.nil_prefix
  | cons first rest ih =>
      cases log with
      | nil => exact absurd (List.eq_nil_of_prefix_nil sizes) (by simp)
      | cons sent more =>
          rw [List.map_cons, List.map_cons, List.cons_prefix_cons] at sizes
          have short := fits first List.mem_cons_self
          have uncut : Sock.udp.clipped sent = sent :=
            List.take_of_length_le (sizes.1 ▸ short)
          rw [List.flatten_cons, List.flatMap_cons, uncut] at bytes
          have same : first = sent := by
            have left : first <+: sent ++ more.flatMap Sock.udp.clipped :=
              (List.prefix_append _ _).trans bytes
            exact (List.prefix_of_prefix_length_le left (List.prefix_append _ _)
              (Nat.le_of_eq sizes.1)).eq_of_length sizes.1
          subst same
          refine List.cons_prefix_cons.mpr ⟨rfl, ih ?_ ?_ sizes.2⟩
          · exact (List.prefix_append_right_inj first).mp bytes
          · exact fun datagram member => fits datagram (List.mem_cons_of_mem _ member)

/-- At the end of every run of a UDP session the datagrams sent on in each
direction are a leading part of the datagrams offered there if and only if the
stream was handed over in reads of exactly their sizes.  Every state of a run
is the end of one, so this is a statement about every moment.

It is one per session.  An empty datagram ends the session's upper task, and what
the same application sends behind it stays in the shared socket of a client for
the session that is opened next. -/
theorem udp_delivers_iff {start session : Session (List UInt8)}
    {events : List (Event (List UInt8))} (starts : Starts start)
    (ran : (machine Bi.udp).run events start = some session) :
    (∀ side, (session.pipe side).out <+: (session.pipe side).log) ↔
      ∀ side, chunkSizes side events <+: (offered side events).map List.length := by
  have reached : (machine Bi.udp).Reachable session := ⟨start, events, starts, ran⟩
  refine forall_congr' fun side => ?_
  have traced := traced_run starts ran side
  rw [traced.chunkSizes_eq, ← traced.log]
  constructor
  · exact fun leading => leading.map List.length
  · intro sizes
    have inv := (inductive_inv Bi.udp).of_reachable reached side
    have bytes := inv.written_isPrefix_carried.trans (Pipe.carried_isPrefix _ _)
    rw [Pipe.written, List.flatMap_def] at bytes
    exact isPrefix_of_sizes (by simpa [Bi.udp, Sock.udp] using bytes)
      (fun datagram member => (traced.sizes datagram member).2) sizes

/-- One datagram of two bytes, read back in one piece. -/
def matchingRun : List (Event (List UInt8)) :=
  [.send .client [7, 8]] ++ enterSelect .client .up ++
    [.task .client .up (.read 1), .task .client .up .recv, .task .client .up (.write 2),
      .deliver .client 2] ++
    enterSelect .client .down ++ [.task .client .down (.read 2), .task .client .down (.write 2)]

theorem udp_delivers_matchingRun :
    ∃ session, (machine Bi.udp).run matchingRun fresh = some session ∧
      ∀ side, (session.pipe side).out <+: (session.pipe side).log := by
  have ends : ((machine Bi.udp).run matchingRun fresh).isSome = true := by decide
  obtain ⟨session, ran⟩ := Option.isSome_iff_exists.mp ends
  refine ⟨session, ran, (udp_delivers_iff fresh_starts ran).mpr ?_⟩
  intro side
  cases side <;> decide

/-- Two datagrams of one byte each, both on the stream before it is read. -/
def coalescingRun : List (Event (List UInt8)) :=
  [.send .client [7], .send .client [8]] ++
    enterSelect .client .up ++
    [.task .client .up (.read 1), .task .client .up .recv, .task .client .up (.write 1)] ++
    enterSelect .client .up ++
    [.task .client .up (.read 1), .task .client .up .recv, .task .client .up (.write 1),
      .deliver .client 2] ++
    enterSelect .client .down ++ [.task .client .down (.read 2), .task .client .down (.write 2)]

/-- The service gets the datagram `[7, 8]`, which nobody sent. -/
theorem udp_coalesces :
    ¬ ∀ session, (machine Bi.udp).Reachable session →
      ∀ side, (session.pipe side).out <+: (session.pipe side).log := by
  intro delivers
  have ends : ((machine Bi.udp).run coalescingRun fresh).map
      (fun session => ((session.pipe .client).out, (session.pipe .client).log)) =
        some ([[7, 8]], [[7], [8]]) := by decide
  obtain ⟨session, ran, point⟩ := Option.map_eq_some_iff.mp ends
  obtain ⟨out, log⟩ := Prod.mk.inj point
  have leading := delivers session ⟨fresh, coalescingRun, fresh_starts, ran⟩ .client
  rw [out, log] at leading
  exact absurd leading (by decide)

end Session

end Net
end Lantun
