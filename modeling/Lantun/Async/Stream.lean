import Mathlib.Data.List.Basic

namespace Lantun
namespace Async

/-!
# One direction of a reliable, ordered byte stream

The sender appends bytes; the network makes a growing initial part of them
available at the receiver; the receiver consumes that part in whatever pieces
it is handed.  Write boundaries leave no trace.  A send half that is dropped
finishes the stream behind the bytes already accepted, resets it when the
receiver had stopped reading, and does nothing on a lost connection.  The
receiver sees the end only after the last byte of a finished stream.

The three offsets are ordered by construction, so no later proof has to carry
that order along.
-/

/-- How the sender left the stream. -/
inductive Ending where
  | fin
  | reset
  deriving DecidableEq, Repr

structure Stream where
  /-- Every byte the send half has accepted so far. -/
  accepted : List UInt8
  /-- How many of them the network has made available at the receiver. -/
  arrived : Nat
  /-- How many of them the receiver has consumed. -/
  pos : Nat
  ending : Option Ending
  endArrived : Bool
  /-- The receive half was dropped before the end had been read. -/
  stopped : Bool
  pos_le : pos ≤ arrived
  arrived_le : arrived ≤ accepted.length
  ending_of_arrived : endArrived = true → ending.isSome = true
  deriving DecidableEq

/-- What a poll of the receive half finds. -/
inductive RecvPoll where
  | pending
  | data
  | finished
  | failed
  deriving DecidableEq, Repr

namespace Stream

/-- A freshly opened stream. -/
def opened : Stream where
  accepted := []
  arrived := 0
  pos := 0
  ending := none
  endArrived := false
  stopped := false
  pos_le := Nat.le_refl 0
  arrived_le := Nat.le_refl 0
  ending_of_arrived := fun absurd => by cases absurd

/-- The send half accepts `bytes`. -/
def write (stream : Stream) (bytes : List UInt8) : Stream :=
  { stream with
    accepted := stream.accepted ++ bytes
    arrived_le := Nat.le_trans stream.arrived_le (by simp) }

/-- Dropping the send half.  A stream keeps the first ending it gets. -/
def dropSend (stream : Stream) (lost : Bool) : Stream :=
  if lost then stream
  else
    { stream with
      ending := stream.ending.or (some (if stream.stopped then .reset else .fin))
      ending_of_arrived := fun _ => by cases stream.ending <;> rfl }

/-- Dropping the receive half before the end was read. -/
def dropRecv (stream : Stream) : Stream := { stream with stopped := true }

/-- The network makes up to `count` further bytes available. -/
def deliver (stream : Stream) (count : Nat) : Stream :=
  { stream with
    arrived := min (stream.arrived + count) stream.accepted.length
    pos_le := Nat.le_trans stream.pos_le
      (Nat.le_min.mpr ⟨Nat.le_add_right _ _, stream.arrived_le⟩)
    arrived_le := Nat.min_le_right _ _ }

/-- The network tells the receiver how the stream ended, once it has. -/
def deliverEnd (stream : Stream) : Stream :=
  { stream with
    endArrived := stream.ending.isSome
    ending_of_arrived := id }

/-- `RecvStream::read` before it picks a size: a reset is reported at once,
buffered bytes come before a lost connection, the end comes after the last
byte. -/
def poll (stream : Stream) (lost : Bool) : RecvPoll :=
  if stream.endArrived && stream.ending == some .reset then .failed
  else if stream.pos < stream.arrived then .data
  else if stream.endArrived && decide (stream.pos = stream.accepted.length) then .finished
  else if lost then .failed
  else .pending

/-- The receive half hands out the next `count` available bytes. -/
def read (stream : Stream) (count : Nat) (enough : count ≤ stream.arrived - stream.pos) : Stream :=
  { stream with
    pos := stream.pos + count
    pos_le := by have := stream.pos_le; omega }

/-- The bytes a read of `count` hands out. -/
def chunk (stream : Stream) (count : Nat) : List UInt8 :=
  (stream.accepted.drop stream.pos).take count

/-- There are bytes behind what is available. -/
theorem chunk_ne_nil (stream : Stream) {count : Nat} (some_ : 0 < count)
    (enough : count ≤ stream.arrived - stream.pos) : stream.chunk count ≠ [] := by
  have behind := stream.arrived_le
  apply List.ne_nil_of_length_pos
  simp only [chunk, List.length_take, List.length_drop]
  omega

/-- The bytes handed out so far. -/
def consumed (stream : Stream) : List UInt8 := stream.accepted.take stream.pos

/-! ## What each operation does to the two byte sequences -/

section Effects

variable (stream : Stream)

@[simp] theorem write_accepted (bytes : List UInt8) :
    (stream.write bytes).accepted = stream.accepted ++ bytes := rfl

@[simp] theorem write_ending (bytes : List UInt8) : (stream.write bytes).ending = stream.ending := rfl

@[simp] theorem write_pos (bytes : List UInt8) : (stream.write bytes).pos = stream.pos := rfl

/-- A write never changes what has been handed out already. -/
@[simp] theorem write_consumed (bytes : List UInt8) :
    (stream.write bytes).consumed = stream.consumed :=
  List.take_append_of_le_length (Nat.le_trans stream.pos_le stream.arrived_le)

@[simp] theorem dropSend_accepted (lost : Bool) :
    (stream.dropSend lost).accepted = stream.accepted := by
  unfold dropSend
  split <;> rfl

@[simp] theorem dropSend_pos (lost : Bool) : (stream.dropSend lost).pos = stream.pos := by
  unfold dropSend
  split <;> rfl

@[simp] theorem dropSend_consumed (lost : Bool) :
    (stream.dropSend lost).consumed = stream.consumed := by
  simp only [consumed, dropSend_accepted, dropSend_pos]

theorem dropSend_ending (lost : Bool) :
    (stream.dropSend lost).ending =
      if lost then stream.ending
      else stream.ending.or (some (if stream.stopped then .reset else .fin)) := by
  unfold dropSend
  split <;> rfl

/-- A stream finishes through a drop only if it was neither lost nor stopped. -/
theorem dropSend_fin {lost : Bool} (finished : (stream.dropSend lost).ending = some .fin) :
    stream.ending = some .fin ∨ (lost = false ∧ stream.stopped = false) := by
  rw [dropSend_ending] at finished
  cases lost with
  | true => exact .inl finished
  | false =>
      cases before : stream.ending with
      | some ending =>
          rw [before] at finished
          exact .inl finished
      | none =>
          cases stops : stream.stopped with
          | false => exact .inr ⟨rfl, rfl⟩
          | true => simp [before, stops] at finished

@[simp] theorem dropRecv_accepted : stream.dropRecv.accepted = stream.accepted := rfl
@[simp] theorem dropRecv_pos : stream.dropRecv.pos = stream.pos := rfl
@[simp] theorem dropRecv_ending : stream.dropRecv.ending = stream.ending := rfl
@[simp] theorem dropRecv_consumed : stream.dropRecv.consumed = stream.consumed := rfl

@[simp] theorem deliver_accepted (count : Nat) :
    (stream.deliver count).accepted = stream.accepted := rfl
@[simp] theorem deliver_pos (count : Nat) : (stream.deliver count).pos = stream.pos := rfl
@[simp] theorem deliver_ending (count : Nat) : (stream.deliver count).ending = stream.ending := rfl
@[simp] theorem deliver_consumed (count : Nat) :
    (stream.deliver count).consumed = stream.consumed := rfl

@[simp] theorem deliverEnd_accepted : stream.deliverEnd.accepted = stream.accepted := rfl
@[simp] theorem deliverEnd_pos : stream.deliverEnd.pos = stream.pos := rfl
@[simp] theorem deliverEnd_ending : stream.deliverEnd.ending = stream.ending := rfl
@[simp] theorem deliverEnd_consumed : stream.deliverEnd.consumed = stream.consumed := rfl

@[simp] theorem read_accepted (count : Nat) (enough : count ≤ stream.arrived - stream.pos) :
    (stream.read count enough).accepted = stream.accepted := rfl
@[simp] theorem read_ending (count : Nat) (enough : count ≤ stream.arrived - stream.pos) :
    (stream.read count enough).ending = stream.ending := rfl
@[simp] theorem read_pos (count : Nat) (enough : count ≤ stream.arrived - stream.pos) :
    (stream.read count enough).pos = stream.pos + count := rfl

/-- What is handed out grows by exactly the chunk that was read. -/
theorem read_consumed (count : Nat) (enough : count ≤ stream.arrived - stream.pos) :
    (stream.read count enough).consumed = stream.consumed ++ stream.chunk count := by
  simp only [consumed, chunk, read_accepted, read_pos]
  exact List.take_add

theorem consumed_isPrefix : stream.consumed <+: stream.accepted := List.take_prefix _ _

theorem lt_of_poll_data {lost : Bool} (data : stream.poll lost = .data) :
    stream.pos < stream.arrived := by
  unfold poll at data
  split at data
  · cases data
  · split at data
    · assumption
    · split at data
      · cases data
      · split at data <;> cases data

/-- A read fails on a stream that was reset, and on a lost connection once what
has arrived is read, unless that is the end. -/
theorem poll_failed_iff {lost : Bool} :
    stream.poll lost = .failed ↔
      (stream.endArrived = true ∧ stream.ending = some .reset) ∨
        (lost = true ∧ ¬ stream.pos < stream.arrived ∧
          ¬ (stream.endArrived = true ∧ stream.pos = stream.accepted.length)) := by
  unfold poll
  split
  · rename_i reset
    simp only [Bool.and_eq_true, beq_iff_eq] at reset
    exact iff_of_true rfl (Or.inl reset)
  · rename_i whole
    simp only [Bool.and_eq_true, beq_iff_eq] at whole
    refine Iff.trans ?_ (or_iff_right whole).symm
    split
    · rename_i more
      exact iff_of_false (by simp) (fun failed => failed.2.1 more)
    · rename_i read
      split
      · rename_i finished
        simp only [Bool.and_eq_true, decide_eq_true_eq] at finished
        exact iff_of_false (by simp) (fun failed => failed.2.2 finished)
      · rename_i unfinished
        simp only [Bool.and_eq_true, decide_eq_true_eq] at unfinished
        cases lost with
        | true => exact iff_of_true rfl ⟨rfl, read, unfinished⟩
        | false => exact iff_of_false (by simp) (fun failed => by cases failed.1)

/-! ### A failed read fails again -/

section Failed

variable {stream} {lost : Bool} (failed : stream.poll lost = .failed)

include failed

theorem poll_failed_write (bytes : List UInt8) : (stream.write bytes).poll lost = .failed := by
  rw [poll_failed_iff] at failed ⊢
  rcases failed with reset | ⟨gone, read, unfinished⟩
  · exact Or.inl reset
  · refine Or.inr ⟨gone, read, ?_⟩
    rintro ⟨arrived, whole⟩
    refine unfinished ⟨arrived, ?_⟩
    have behind := Nat.le_trans stream.pos_le stream.arrived_le
    simp only [write_pos, write_accepted, List.length_append] at whole
    omega

theorem poll_failed_dropSend (dropped : Bool) : (stream.dropSend dropped).poll lost = .failed := by
  cases dropped with
  | true => exact failed
  | false =>
      rw [poll_failed_iff] at failed ⊢
      rcases failed with ⟨arrived, reset⟩ | gone
      · refine Or.inl ⟨arrived, ?_⟩
        rw [dropSend_ending, reset]
        rfl
      · exact Or.inr gone

/-- A loss makes no difference to it. -/
theorem poll_failed_lose : stream.poll true = .failed := by
  rw [poll_failed_iff] at failed ⊢
  exact failed.imp_right fun gone => ⟨rfl, gone.2⟩

/-- Nor does what is still to be delivered, which is nothing but the end where
the connection is not lost. -/
theorem poll_failed_deliver (open_ : lost = false) (count : Nat) :
    (stream.deliver count).poll lost = .failed := by
  rw [poll_failed_iff] at failed ⊢
  rcases failed with reset | ⟨gone, _⟩
  · exact Or.inl reset
  · rw [open_] at gone
    cases gone

theorem poll_failed_deliverEnd (open_ : lost = false) :
    stream.deliverEnd.poll lost = .failed := by
  rw [poll_failed_iff] at failed ⊢
  rcases failed with ⟨_, reset⟩ | ⟨gone, _⟩
  · refine Or.inl ⟨?_, reset⟩
    simp only [deliverEnd, reset, Option.isSome_some]
  · rw [open_] at gone
    cases gone

end Failed

/-- `None` is only read behind the last byte of a finished stream. -/
theorem poll_finished {lost : Bool} (finished : stream.poll lost = .finished) :
    stream.ending = some .fin ∧ stream.consumed = stream.accepted := by
  unfold poll at finished
  split at finished
  · cases finished
  · rename_i notReset
    split at finished
    · cases finished
    · split at finished
      · rename_i last
        have parts := Bool.and_eq_true_iff.mp last
        have atEnd := of_decide_eq_true parts.2
        refine ⟨?_, ?_⟩
        · have isSome := stream.ending_of_arrived parts.1
          cases kind : stream.ending with
          | none => rw [kind] at isSome; cases isSome
          | some ending =>
              cases ending with
              | fin => rfl
              | reset => exact absurd (by rw [parts.1, kind]; rfl) notReset
        · rw [consumed, atEnd, List.take_length]
      · split at finished <;> cases finished

end Effects

end Stream

end Async
end Lantun
