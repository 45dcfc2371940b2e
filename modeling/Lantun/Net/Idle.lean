import Lantun.Net.Stopping

namespace Lantun
namespace Net

open Async

/-!
# The idle timer that two forwarders share

The two forwarders of one end of a session share `last_active`.  Each stores the
current second there with every chunk it reads, and each leaves its loop where a
sleep of its own has run out and what it then finds there is too old.

A sleep is computed from two whole seconds, yet begins and ends between seconds.
What makes the truncation harmless is one relation between where a forwarder
stands and the second `last_active` holds, `Pc.Late`: a sleep ends in or after
the second that is `CONNECTION_TIMEOUT_SECONDS` above it.  It holds from the
moment the sleep is computed for as long as nothing is stored.
-/

/-- The forwarder takes a chunk from its source. -/
def Pc.Reads (before after : Pc) : Prop :=
  (∃ chunk, after = .write chunk) ∧ ∀ rest, before ≠ .write rest

/-- Suspended in `select!`, or in the branch with data. -/
def Pc.Selecting : Pc → Prop
  | .select _ _ | .recv _ | .write _ => True
  | _ => False

/-- Where the branches that leave the timer alone lead. -/
def Pc.Untimed : Pc → Prop
  | .top | .recv _ | .write _ => True
  | .done exit => exit ≠ .timedOut
  | _ => False

/-- A step of a forwarder as the timer sees it, with the `last_active` it leaves. -/
inductive Round (clock active : Nat) : Pc → Pc → Nat → Prop where
  | now : Round clock active .top (.loaded (nowSecs clock)) active
  | load {now : Nat} :
      Round clock active (.loaded now) (.select (clock + timeout now active * nanosPerSec) true)
        active
  | sleep {deadline : Nat} {live : Bool} :
      deadline ≤ clock → Round clock active (.select deadline live) .woken active
  | wake : Round clock active .woken (.recheck (nowSecs clock)) active
  | recheck {now : Nat} :
      Round clock active (.recheck now)
        (if now - active ≥ connectionTimeoutSeconds then .done .timedOut else .top) active
  | disable {deadline : Nat} {live : Bool} :
      Round clock active (.select deadline live) (.select deadline false) active
  | read {before : Pc} {chunk : List UInt8} :
      before.Selecting → before.Reads (.write chunk) →
        Round clock active before (.write chunk) (nowSecs clock)
  | branch {before after : Pc} :
      before.Selecting → after.Untimed → ¬ before.Reads after → Round clock active before after active

/-- The sleep is the branch taken only once it has run out. -/
theorem Task.due_of_selects {env : Env} {ready : Bool} {task : Task}
    (chosen : task.selects env ready = some .sleep) :
    ∃ deadline live, task.pc = .select deadline live ∧ deadline ≤ env.clock := by
  rcases selects_pc chosen with ⟨deadline, live, at_⟩
  refine ⟨deadline, live, at_, ?_⟩
  simp only [selects, at_, biased] at chosen
  split at chosen
  · cases chosen
  · split at chosen
    · cases chosen
    · split at chosen
      · rename_i due
        exact of_decide_eq_true due
      · cases chosen

/-- Every step of a forwarder is one of these. -/
theorem Task.Moves.round {env : Env} {ready : Bool} {task next : Task} {act : Act} {last : Nat}
    (moves : Moves env ready task act next last) :
    Round env.clock env.lastActive task.pc next.pc last := by
  have selecting : ∀ {branch : Branch}, task.selects env ready = some branch →
      task.pc.Selecting ∧ ∀ rest, task.pc ≠ .write rest := by
    intro branch chosen
    rcases selects_pc chosen with ⟨deadline, live, at_⟩
    rw [at_]
    exact ⟨trivial, fun rest => by simp⟩
  cases moves with
  | @control step after taken =>
      cases step with
      | now | load | wake | recheck =>
          simp only [Task.control] at taken
          split at taken
          · rename_i at_
            cases taken
            rw [at_]
            constructor
          · cases taken
      | stop =>
          simp only [Task.control] at taken
          split at taken <;> cases taken
          rename_i chosen
          refine .branch (selecting chosen).1 ?_ ?_
          · cases env.stop.value <;> simp [Pc.Untimed]
          · cases env.stop.value <;> simp [Pc.Reads]
      | sleep =>
          simp only [Task.control] at taken
          split at taken <;> cases taken
          rename_i chosen
          rcases due_of_selects chosen with ⟨deadline, live, at_, due⟩
          rw [at_]
          exact .sleep due
  | read chosen => exact .read (selecting chosen).1 ⟨⟨_, rfl⟩, (selecting chosen).2⟩
  | ends chosen exits =>
      refine .branch (selecting chosen).1 ?_ (by simp [Pc.Reads])
      rcases exits with rfl | rfl <;> simp [Pc.Untimed]
  | peek chosen | foreign chosen => exact .branch (selecting chosen).1 trivial (by simp [Pc.Reads])
  | readErr at_ _ =>
      rw [at_]
      exact .disable
  | recv at_ =>
      rw [at_]
      exact .read trivial ⟨⟨_, rfl⟩, fun rest => by simp⟩
  | recvEmpty at_ =>
      rw [at_]
      exact .branch trivial (by simp [Pc.Untimed]) (by simp [Pc.Reads])
  | recvErr at_ =>
      rw [at_]
      exact .branch trivial trivial (by simp [Pc.Reads])
  | write at_ =>
      rw [at_]
      refine .branch trivial ?_ (by simp [Pc.Reads])
      unfold Pc.afterWrite
      split <;> trivial
  | writeErr at_ =>
      rw [at_]
      exact .branch trivial (by simp [Pc.Untimed]) (by simp [Pc.Reads])

/-! ## What a stored second means for a forwarder -/

/-- A second the forwarder has read off the clock is not ahead of it. -/
def Pc.Timely (clock : Nat) : Pc → Prop
  | .loaded now | .recheck now => now ≤ nowSecs clock
  | _ => True

/-- A sleep of the forwarder ends, or has ended, no earlier than in the second
that is `CONNECTION_TIMEOUT_SECONDS` above `active`. -/
def Pc.Late (clock active : Nat) : Pc → Prop
  | .select deadline _ => active + connectionTimeoutSeconds ≤ nowSecs deadline
  | .woken => active + connectionTimeoutSeconds ≤ nowSecs clock
  | .recheck now => active + connectionTimeoutSeconds ≤ now
  | _ => True

theorem nowSecs_mono {clock later : Nat} (mono : clock ≤ later) : nowSecs clock ≤ nowSecs later :=
  Nat.div_le_div_right mono

/-- A sleep of whole seconds keeps the phase at which it begins. -/
theorem nowSecs_add (clock secs : Nat) : nowSecs (clock + secs * nanosPerSec) = nowSecs clock + secs := by
  unfold nowSecs
  exact Nat.add_mul_div_right clock secs (by unfold nanosPerSec; omega)

/-- The clock gets past any second. -/
theorem exists_late (clock now : Nat) : ∃ nanos, now ≤ nowSecs (clock + nanos) := by
  refine ⟨now * nanosPerSec, ?_⟩
  rw [nowSecs_add]
  exact Nat.le_add_left _ _

/-- Where a second's truncation could matter, it does not: however much later in
the second the sleep begins, it does not end too early. -/
theorem late_timeout {clock now active : Nat} (read : now ≤ nowSecs clock)
    (stored : active ≤ nowSecs clock) :
    active + connectionTimeoutSeconds ≤ nowSecs (clock + timeout now active * nanosPerSec) := by
  rw [nowSecs_add]
  simp only [timeout]
  split
  · rename_i old
    simp only [connectionTimeoutSeconds] at old ⊢
    omega
  · simp only [connectionTimeoutSeconds]
    omega

theorem Pc.Timely.mono {clock later : Nat} {pc : Pc} (timely : pc.Timely clock)
    (mono : clock ≤ later) : pc.Timely later := by
  cases pc with
  | loaded now | recheck now => exact Nat.le_trans timely (nowSecs_mono mono)
  | _ => trivial

theorem Pc.Late.mono {clock later active : Nat} {pc : Pc} (late : pc.Late clock active)
    (mono : clock ≤ later) : pc.Late later active := by
  cases pc with
  | woken => exact Nat.le_trans late (nowSecs_mono mono)
  | _ => exact late

namespace Round

variable {clock active last : Nat} {before after : Pc}

/-- What a step leaves in `last_active`. -/
theorem stores (round : Round clock active before after last) :
    (before.Reads after ∧ last = nowSecs clock) ∨ (¬ before.Reads after ∧ last = active) := by
  cases round with
  | read _ reads => exact Or.inl ⟨reads, rfl⟩
  | branch _ _ other => exact Or.inr ⟨other, rfl⟩
  | recheck =>
      refine Or.inr ⟨?_, rfl⟩
      rintro ⟨⟨chunk, is⟩, _⟩
      split at is <;> cases is
  | _ => exact Or.inr ⟨by simp [Pc.Reads], rfl⟩

theorem timely (round : Round clock active before after last) : after.Timely clock := by
  cases round with
  | now | wake => exact Nat.le_refl _
  | branch _ untimed _ => cases after <;> trivial
  | recheck => split <;> trivial
  | _ => trivial

/-- While nothing is stored, the step keeps the forwarder late. -/
theorem late (round : Round clock active before after last) (timely : before.Timely clock)
    (stored : active ≤ nowSecs clock) (late : before.Late clock active) :
    after.Late clock active := by
  cases round with
  | load => exact late_timeout timely stored
  | sleep due => exact Nat.le_trans late (nowSecs_mono due)
  | wake | disable => exact late
  | branch _ untimed _ => cases after <;> trivial
  | recheck => split <;> trivial
  | _ => trivial

/-- The sleep a forwarder enters lasts for the timeout it has computed. -/
theorem deadline_eq {now deadline : Nat} {live : Bool}
    (round : Round clock active (.loaded now) (.select deadline live) last) :
    deadline = clock + timeout now active * nanosPerSec := by
  cases round with
  | load => rfl
  | branch selecting _ _ => cases selecting

/-- One that goes around has found `last_active` recent. -/
theorem young_of_top {now : Nat} (round : Round clock active (.recheck now) .top last) :
    ¬ now - active ≥ connectionTimeoutSeconds := by
  generalize is : Pc.top = after at round
  cases round with
  | recheck =>
      split at is
      · cases is
      · assumption
  | read selecting _ | branch selecting _ _ => cases selecting

/-- A forwarder that times out has found `last_active` too old. -/
theorem of_timedOut (round : Round clock active before (.done .timedOut) last) :
    ∃ now, before = .recheck now ∧ active + connectionTimeoutSeconds ≤ now := by
  generalize is : Pc.done .timedOut = after at round
  cases round with
  | recheck =>
      rename_i now
      split at is
      · rename_i old
        refine ⟨now, rfl, ?_⟩
        simp only [connectionTimeoutSeconds] at old ⊢
        omega
      · cases is
  | branch _ untimed _ =>
      rw [← is] at untimed
      exact absurd rfl untimed
  | _ => cases is

/-- A late forwarder that looks again times out. -/
theorem timedOut_of_late {now : Nat} (round : Round clock active (.recheck now) after last)
    (late : Pc.Late clock active (.recheck now)) : after = .done .timedOut := by
  cases round with
  | recheck =>
      rw [if_pos]
      simp only [Pc.Late, connectionTimeoutSeconds] at late ⊢
      omega
  | read selecting _ | branch selecting _ _ => cases selecting

end Round

end Net
end Lantun
