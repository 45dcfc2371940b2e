import Lantun.Net.Disabled
import Lantun.Net.Join
import Lantun.Net.UdpFidelity

namespace Lantun
namespace Net

/-!
# What a UDP session keeps of its datagrams

The boundaries between datagrams are lost on the stream, the bytes are not: what
comes out, joined together, is a leading part of what the application has sent,
each of its datagrams cut to the buffer.

A datagram without bytes is a datagram to the sockets, and the end of the source to
the forwarder: the test that tells the end of a TCP stream is made here too.  So one
empty datagram ends the direction, and nothing that is sent behind it is ever
received.
-/

namespace Pipe

/-- The datagrams in front of the first empty one. -/
def speech (log : List (List UInt8)) : List (List UInt8) := log.takeWhile (· ≠ [])

theorem take_isPrefix_speech {log : List (List UInt8)} {count : Nat}
    (spoken : [] ∉ log.take count) : log.take count <+: speech log := by
  induction log generalizing count with
  | nil => simp
  | cons first rest ih =>
      cases count with
      | zero => exact List.nil_prefix
      | succ count =>
          rw [List.take_succ_cons] at spoken ⊢
          rcases not_or.mp (fun is => spoken (List.mem_cons.mpr is)) with ⟨head, tail⟩
          rw [speech, List.takeWhile_cons_of_pos (by simpa using Ne.symm head)]
          exact List.cons_prefix_cons.mpr ⟨rfl, ih tail⟩

theorem udp_clipped_eq_nil {datagram : List UInt8} : Sock.udp.clipped datagram = [] ↔ datagram = [] := by
  change datagram.take tunnelForwarderBufferSize = [] ↔ _
  simp [List.take_eq_nil_iff, tunnelForwarderBufferSize]

section Step

variable {source : SourceRead} {env : Env} {pipe next : Pipe (List UInt8)} {act : Act} {last : Nat}

theorem afterRead_point (pipe : Pipe (List UInt8)) (env : Env) (chunk : List UInt8) :
    (pipe.afterRead env chunk).1.up.pc = .done .empty ↔ chunk = [] := by
  unfold afterRead
  split
  · rename_i empty
    simp [empty]
  · rename_i full
    simp [full]

theorem afterRead_got (pipe : Pipe (List UInt8)) (env : Env) (chunk : List UInt8) :
    (pipe.afterRead env chunk).1.got = pipe.got ∧ (pipe.afterRead env chunk).1.eof = pipe.eof := by
  unfold afterRead
  split <;> exact ⟨rfl, rfl⟩

/-- A step of the upper task leaves the socket alone, or takes the next datagram out
of it and ends if that is empty. -/
theorem upStep_receives (inv : pipe.UpInv Sock.udp) (open_ : pipe.eof = false)
    (taken : pipe.upStep Sock.udp source env act = some (next, last)) :
    next.eof = pipe.eof ∧
      ((next.got = pipe.got ∧ next.up.pc ≠ .done .empty) ∨
        ∃ datagram, pipe.log[pipe.got]? = some datagram ∧ next.got = pipe.got + 1 ∧
          (next.up.pc = .done .empty ↔ datagram = [])) := by
  cases act with
  | control step =>
      rcases Option.map_eq_some_iff.mp taken with ⟨task, moved, same⟩
      cases same
      refine ⟨rfl, .inl ⟨rfl, fun ended => ?_⟩⟩
      have exits := (Task.control_cases moved).2.2.2.2 .empty ended
      simp at exits
  | read count =>
      simp only [upStep] at taken
      split at taken
      · split at taken
        · rcases Option.map_eq_some_iff.mp taken with ⟨datagram, _, same⟩
          cases same
          exact ⟨rfl, .inl ⟨rfl, by simp⟩⟩
        · split at taken
          · rename_i admitted
            obtain rfl := congrArg Prod.fst (Option.some.inj taken)
            have one : count = 1 := by
              have takes := (Bool.and_eq_true_iff.mp admitted).2
              rw [open_] at takes
              simpa [Sock.udp] using takes
            subst one
            have inside : pipe.got < pipe.log.length := enough_of_admits admitted
            have head : (pipe.log.drop pipe.got).take 1 = [pipe.log[pipe.got]] := by
              rw [List.drop_eq_getElem_cons inside]
              rfl
            have chunk : (((pipe.log.drop pipe.got).take 1).flatMap Sock.udp.raw).take
                tunnelForwarderBufferSize = Sock.udp.clipped pipe.log[pipe.got] := by
              rw [head, List.flatMap_singleton, Sock.clipped]
            rw [chunk]
            have kept := afterRead_got (pipe.take 1 inside) env (Sock.udp.clipped pipe.log[pipe.got])
            refine ⟨kept.2, .inr ⟨pipe.log[pipe.got], List.getElem?_eq_getElem inside, kept.1, ?_⟩⟩
            rw [afterRead_point]
            exact udp_clipped_eq_nil
          · cases taken
      · cases taken
  | recv =>
      simp only [upStep] at taken
      split at taken
      · rename_i n datagram at_ head
        split at taken
        · rename_i fits
          obtain rfl := congrArg Prod.fst (Option.some.inj taken)
          have kept := afterRead_got (pipe.take 1 fits.1) env ((Sock.udp.raw datagram).take n)
          refine ⟨kept.2, .inr ⟨datagram, head, kept.1, ?_⟩⟩
          -- the datagram in front is still the one that was peeked
          rcases inv.peeked n at_ with ⟨first, found, size⟩
          rw [head] at found
          cases found
          have chunk : (Sock.udp.raw datagram).take n = Sock.udp.clipped datagram := by
            rw [size, Sock.clipped]
            simp
          rw [afterRead_point, chunk]
          exact udp_clipped_eq_nil
        · cases taken
      · cases taken
  | readErr | recvErr | writeErr =>
      simp only [upStep] at taken
      split at taken
      · split at taken <;> cases taken
        exact ⟨rfl, .inl ⟨rfl, by simp⟩⟩
      · cases taken
  | write count =>
      simp only [upStep] at taken
      split at taken
      · split at taken <;> cases taken
        exact ⟨rfl, .inl ⟨rfl, Pc.afterWrite_ne_done _ _⟩⟩
      · cases taken

theorem downStep_eof (taken : pipe.downStep Sock.udp env act = some (next, last)) :
    next.eof = pipe.eof := by
  cases act with
  | control step =>
      rcases Option.map_eq_some_iff.mp taken with ⟨task, _, same⟩
      cases same
      rfl
  | read count =>
      simp only [downStep] at taken
      split at taken
      · split at taken
        · split at taken <;> cases taken
          rfl
        · split at taken <;> cases taken
          rfl
        · cases taken
      · cases taken
  | readErr =>
      simp only [downStep] at taken
      split at taken
      · split at taken <;> cases taken
        rfl
      · cases taken
  | write count =>
      simp only [downStep] at taken
      split at taken
      · rcases Option.map_eq_some_iff.mp taken with ⟨⟨entries, left⟩, _, same⟩
        cases same
        rfl
      · cases taken
  | writeErr =>
      simp only [downStep] at taken
      split at taken <;> cases taken
      rfl
  | recv | recvErr => cases taken

/-- The upper task has received datagrams with bytes, and has ended if one more
without any came behind them. -/
structure Spoken (pipe : Pipe (List UInt8)) : Prop where
  open_ : pipe.eof = false
  running : pipe.up.pc ≠ .done .empty → [] ∉ pipe.log.take pipe.got
  ended : pipe.up.pc = .done .empty → ∃ before, pipe.got = before + 1 ∧
    pipe.log[before]? = some [] ∧ [] ∉ pipe.log.take before

theorem Spoken.of_same (spoken : pipe.Spoken) (eof : next.eof = pipe.eof) (got : next.got = pipe.got)
    (point : next.up = pipe.up) {later : List (List UInt8)} (log : next.log = pipe.log ++ later) :
    next.Spoken where
  open_ := eof.trans spoken.open_
  running other := by
    rw [log, got, List.take_append_of_le_length pipe.got_le]
    exact spoken.running (point ▸ other)
  ended at_ := by
    rcases spoken.ended (point ▸ at_) with ⟨before, here, empty, none_⟩
    have inside : before < pipe.log.length := (List.getElem?_eq_some_iff.mp empty).1
    refine ⟨before, got.trans here, ?_, ?_⟩
    · rw [log, List.getElem?_append_left inside, empty]
    · rwa [log, List.take_append_of_le_length (Nat.le_of_lt inside)]

theorem Spoken.upStep (spoken : pipe.Spoken) (inv : pipe.UpInv Sock.udp)
    (taken : pipe.upStep Sock.udp source env act = some (next, last)) : next.Spoken := by
  have log := (upStep_frame taken).1
  have before : [] ∉ pipe.log.take pipe.got := by
    apply spoken.running
    intro ended
    have ran := (upStep_moves taken).running
    rw [ended] at ran
    cases ran
  rcases upStep_receives inv spoken.open_ taken with ⟨eof, ⟨got, point⟩ | ⟨datagram, head, got, point⟩⟩
  · refine ⟨eof.trans spoken.open_, fun _ => ?_, fun ended => absurd ended point⟩
    rwa [log, got]
  · refine ⟨eof.trans spoken.open_, fun other => ?_, fun ended => ⟨pipe.got, got, ?_, ?_⟩⟩
    · have inside := List.getElem?_eq_some_iff.mp head
      rw [log, got, List.take_add_one, head]
      intro member
      rcases List.mem_append.mp member with old | new
      · exact before old
      · exact other (point.mpr (List.mem_singleton.mp new).symm)
    · rw [log, head, point.mp ended]
    · rwa [log]

/-- What was received is a leading part of the datagrams in front of the first empty
one, but for that one itself. -/
theorem Spoken.carried_isPrefix (spoken : pipe.Spoken) :
    pipe.carried Sock.udp <+: (speech pipe.log).flatMap Sock.udp.clipped := by
  have cut : ∀ {count : Nat}, [] ∉ pipe.log.take count →
      (pipe.log.take count).flatMap Sock.udp.clipped <+: (speech pipe.log).flatMap Sock.udp.clipped := by
    intro count none_
    rcases take_isPrefix_speech none_ with ⟨more, whole⟩
    exact ⟨more.flatMap Sock.udp.clipped, by rw [← List.flatMap_append, whole]⟩
  by_cases ended : pipe.up.pc = .done .empty
  · rcases spoken.ended ended with ⟨before, got, empty, none_⟩
    have same : pipe.carried Sock.udp = (pipe.log.take before).flatMap Sock.udp.clipped := by
      rw [carried, got, List.take_add_one, empty, List.flatMap_append]
      simp [Sock.clipped, Sock.udp]
    exact same ▸ cut none_
  · exact cut (spoken.running ended)

theorem Spoken.ended_iff (spoken : pipe.Spoken) :
    pipe.up.pc = .done .empty ↔ [] ∈ pipe.log.take pipe.got := by
  constructor
  · intro ended
    rcases spoken.ended ended with ⟨before, got, empty, _⟩
    rw [got, List.take_add_one, empty]
    exact List.mem_append_right _ List.mem_cons_self
  · intro member
    by_contra running
    exact spoken.running running member

theorem Spoken.got_le (spoken : pipe.Spoken) : pipe.got ≤ (speech pipe.log).length + 1 := by
  have short : ∀ {count : Nat}, count ≤ pipe.log.length → [] ∉ pipe.log.take count →
      count ≤ (speech pipe.log).length := by
    intro count within none_
    have leading := (take_isPrefix_speech none_).length_le
    rwa [List.length_take, Nat.min_eq_left within] at leading
  by_cases ended : pipe.up.pc = .done .empty
  · rcases spoken.ended ended with ⟨before, got, empty, none_⟩
    have inside := (List.getElem?_eq_some_iff.mp empty).1
    rw [got]
    exact Nat.succ_le_succ (short (Nat.le_of_lt inside) none_)
  · exact Nat.le_succ_of_le (short pipe.got_le (spoken.running ended))

end Step

end Pipe

namespace Session

/-- Both directions. -/
def Spoken (session : Session (List UInt8)) : Prop := ∀ side, (session.pipe side).Spoken

theorem inductive_spoken :
    (machine Bi.udp).Inductive fun session => Inv Bi.udp session ∧ Spoken session where
  start session starts := by
    refine ⟨(inductive_inv Bi.udp).start session starts, fun side => ?_⟩
    rcases starts.1 side with ⟨seenUp, seenDown, same⟩
    rw [same]
    exact ⟨rfl, fun _ => List.not_mem_nil, fun ended => by cases ended⟩
  step session event next holds taken := by
    refine ⟨(inductive_inv Bi.udp).step session event next holds.1 taken, fun side => ?_⟩
    have spoken := holds.2 side
    cases pipe_of_step taken side with
    | aside _ _ is =>
        rw [is]
        exact spoken
    | @send datagram is =>
        rw [is]
        exact spoken.of_same rfl rfl rfl rfl
    | close ends _ => cases ends
    | sockError is | deliver _ is | deliverEnd _ is =>
        rw [is]
        exact spoken.of_same rfl rfl rfl (List.append_nil _).symm
    | up moved => exact spoken.upStep (holds.1 side).up moved
    | down moved =>
        rcases Pipe.downStep_source moved with ⟨log, got, _⟩
        exact spoken.of_same (Pipe.downStep_eof moved) got (Pipe.downStep_up moved)
          (log.trans (List.append_nil _).symm)

/-- In every reachable state of a UDP session and in both directions: what has come
out, joined together, is a leading part of the datagrams the application sent in
front of its first empty one, each cut to the buffer and joined; it is all of what was
received once the receiving forwarder has ended on `None`; and every datagram that
comes out has between one byte and a full buffer.  The sending forwarder ends on an
empty datagram as soon as it has received one, and receives nothing behind it. -/
theorem udp_keeps_bytes {session : Session (List UInt8)}
    (reached : (machine Bi.udp).Reachable session) (side : Side) :
    (session.pipe side).out.flatten <+:
        (Pipe.speech (session.pipe side).log).flatMap (List.take tunnelForwarderBufferSize) ∧
      ((session.pipe side).down.pc = .done .closed → (session.pipe side).out.flatten =
        ((session.pipe side).log.take (session.pipe side).got).flatMap
          (List.take tunnelForwarderBufferSize)) ∧
      (∀ datagram ∈ (session.pipe side).out,
        0 < datagram.length ∧ datagram.length ≤ tunnelForwarderBufferSize) ∧
      ((session.pipe side).up.pc = .done .empty ↔
        [] ∈ (session.pipe side).log.take (session.pipe side).got) ∧
      (session.pipe side).got ≤ (Pipe.speech (session.pipe side).log).length + 1 := by
  have holds := inductive_spoken.of_reachable reached
  have spoken := holds.2 side
  have written : (session.pipe side).written Sock.udp = (session.pipe side).out.flatten := by
    rw [Pipe.written, List.flatMap_def]
    exact congrArg List.flatten (List.map_id _)
  refine ⟨?_, ?_, ?_, spoken.ended_iff, spoken.got_le⟩
  · rw [← written]
    exact (holds.1 side).written_isPrefix_carried.trans spoken.carried_isPrefix
  · intro closed
    rw [← written]
    exact (holds.1 side).written_of_closed closed
  · rcases reached with ⟨start, events, starts, ran⟩
    exact (traced_run starts ran side).sizes

/-- An empty datagram between two others. -/
def pausedRun : List (Event (List UInt8)) :=
  [.send .host [7], .send .host [], .send .host [8]] ++ enterSelect .host .up ++
    [.task .host .up (.read 1), .task .host .up (.write 1)] ++ enterSelect .host .up ++
    [.task .host .up (.read 1)]

theorem udp_keeps_bytes_pausedRun :
    ∃ session, (machine Bi.udp).run pausedRun fresh = some session ∧
      (session.pipe .host).log = [[7], [], [8]] ∧ (session.pipe .host).up.pc = .done .empty := by
  have ends : ((machine Bi.udp).run pausedRun fresh).any (fun session =>
      decide ((session.pipe .host).log = [[7], [], [8]]) &&
        decide ((session.pipe .host).got = 2)) = true := by decide
  rcases (Option.any_eq_true ..).mp ends with ⟨session, ran, point⟩
  simp only [Bool.and_eq_true, decide_eq_true_eq] at point
  refine ⟨session, ran, point.1, ?_⟩
  have kept := udp_keeps_bytes ⟨fresh, pausedRun, fresh_starts, ran⟩ .host
  refine kept.2.2.2.1.mpr ?_
  rw [point.1, point.2]
  decide

end Session

end Net
end Lantun
