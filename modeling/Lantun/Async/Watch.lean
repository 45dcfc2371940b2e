import Mathlib.Data.List.Basic

namespace Lantun
namespace Async

/-!
# A watch channel and a biased selection

Two pieces of the asynchronous runtime that every loop of the tunnel leans on.
A watch channel keeps one value with a version; each receiver remembers the
version it has last seen, and `changed` completes once per unseen version.
After the sender is gone and nothing is unseen, it completes immediately with
an error, again and again.  A biased selection polls its branches in textual
order and takes the first that is ready.
-/

/-- The sender's half of a watch channel over a Boolean, as a receiver sees it. -/
structure Watch where
  value : Bool
  version : Nat
  closed : Bool
  deriving DecidableEq, Repr

/-- What polling `changed` on one receiver yields. -/
inductive Changed where
  | pending
  | unseen (version : Nat)
  | senderGone
  deriving DecidableEq, Repr

namespace Watch

/-- `watch::channel(value)`. -/
def channel (value : Bool) : Watch := ⟨value, 0, false⟩

/-- `Sender::send`; whether a receiver is left is the caller's concern. -/
def send (watch : Watch) (value : Bool) : Watch := { watch with value, version := watch.version + 1 }

def dropSender (watch : Watch) : Watch := { watch with closed := true }

/-- `Receiver::changed` for a receiver that has seen `seen`.  An unseen version
is reported before the closed state. -/
def changed (watch : Watch) (seen : Nat) : Changed :=
  if seen ≠ watch.version then .unseen watch.version
  else if watch.closed then .senderGone
  else .pending

/-- Whether the branch `_ = stop_rx.changed()` is ready: its pattern accepts
the error as well. -/
def ready (watch : Watch) (seen : Nat) : Bool := decide (watch.changed seen ≠ .pending)

/-- The version the receiver remembers after `changed` completed. -/
def seenAfter (watch : Watch) (seen : Nat) : Nat :=
  match watch.changed seen with
  | .unseen version => version
  | _ => seen

/-- A value that has not been seen makes the branch ready. -/
theorem ready_of_ne {watch : Watch} {seen : Nat} (unseen : seen ≠ watch.version) :
    watch.ready seen = true := by
  simp [ready, changed, unseen]

/-- So does a sender that is gone, whatever has been seen. -/
theorem ready_of_closed {watch : Watch} (closed : watch.closed = true) (seen : Nat) :
    watch.ready seen = true := by
  unfold ready changed
  split
  · rfl
  · rfl

/-- How a receiver of the channel comes about: the first is made with the
channel, a clone remembers what the cloned one has seen, and a loop that has
seen `false` goes on with its receiver and may hand out clones of it. -/
inductive Received : Watch → Nat → Prop where
  | channel : Received (channel false) 0
  | send {watch : Watch} {seen : Nat} : Received watch seen → Received (watch.send true) seen
  | dropSender {watch : Watch} {seen : Nat} : Received watch seen → Received watch.dropSender seen
  | changed {watch : Watch} {seen : Nat} : Received watch seen → watch.value = false →
      Received watch (watch.seenAfter seen)

/-- What one step of anything can do to a channel that is only used to stop. -/
inductive Moves (before : Watch) : Watch → Prop where
  | stays : Moves before before
  | sent : before.closed = false → Moves before (before.send true)
  | dropped : Moves before before.dropSender

/-- The value `true` is never taken back. -/
theorem Moves.value {before after : Watch} (moves : before.Moves after)
    (value : before.value = true) : after.value = true := by
  cases moves with
  | stays | dropped => exact value
  | sent _ => rfl

/-- Nothing is sent any more where the sender is gone. -/
theorem Moves.of_closed {before after : Watch} (moves : before.Moves after)
    (closed : before.closed = true) : after.closed = true ∧ after.value = before.value := by
  cases moves with
  | stays => exact ⟨closed, rfl⟩
  | dropped => exact ⟨rfl, rfl⟩
  | sent open_ =>
      rw [open_] at closed
      cases closed

/-- A receiver that has nothing to look at has seen what there is. -/
theorem seen_of_quiet {watch : Watch} {seen : Nat} (quiet : watch.ready seen = false) :
    seen = watch.version := by
  by_contra unseen
  rw [ready_of_ne unseen] at quiet
  cases quiet

theorem Moves.version_le {before after : Watch} (moves : before.Moves after) :
    before.version ≤ after.version := by
  cases moves with
  | stays | dropped => exact Nat.le_refl _
  | sent _ => exact Nat.le_succ _

/-- What there is to look at does not go away by itself. -/
theorem Moves.ready {before after : Watch} {seen : Nat} (moves : before.Moves after)
    (behind : seen ≤ before.version) (ready : before.ready seen = true) :
    after.ready seen = true := by
  cases moves with
  | stays => exact ready
  | sent _ =>
      apply ready_of_ne
      simp only [send]
      omega
  | dropped => exact ready_of_closed rfl seen

theorem seenAfter_le {watch : Watch} {seen : Nat} (behind : seen ≤ watch.version) :
    watch.seenAfter seen ≤ watch.version := by
  unfold seenAfter changed
  split
  · rename_i version is
    split at is
    · cases is
      exact Nat.le_refl _
    · split at is <;> cases is
  · exact behind

/-- No such receiver has seen the value `true`. -/
theorem Received.attentive {watch : Watch} {seen : Nat} (received : Received watch seen) :
    seen ≤ watch.version ∧ (watch.value = true → seen ≠ watch.version) := by
  induction received with
  | channel => exact ⟨Nat.le_refl _, (fun told => by cases told)⟩
  | send _ ih =>
      simp only [Watch.send]
      exact ⟨by omega, fun _ => by omega⟩
  | dropSender _ ih => exact ih
  | changed _ value ih => exact ⟨seenAfter_le ih.1, (fun told => by rw [value] at told; cases told)⟩

end Watch

/-- The branches of a forwarder's `select!`, in textual order. -/
inductive Branch where
  | stop
  | source
  | sleep
  deriving DecidableEq, Repr

/-- `select! { biased; ... }`: the first ready branch, if any. -/
def biased (stop source sleep : Bool) : Option Branch :=
  if stop then some .stop
  else if source then some .source
  else if sleep then some .sleep
  else none

end Async
end Lantun
