import Mathlib.Data.List.Induction

namespace Lantun

universe u v

/-!
# Labelled machines and their finite runs

A concurrent program is read here as a partial step function: at a state, a
label names one task together with whatever the surroundings decide for it
(how many bytes a read returns, whether a connect is refused), and the step
either produces the next state or is not available.  All nondeterminism sits
in the choice of the label, so a run is a list of labels and can be evaluated.

Nothing in this module names a particular program.  A statement about every
reachable state is obtained from `Machine.Inductive`.  A statement about every
step of a run is an `EveryStep`, and two of them are compared one step at a
time, under an invariant, by `everyStep_congr`.
-/

/-- A partial, labelled step function with its possible starting states. -/
structure Machine (State : Type u) (Label : Type v) where
  initial : State → Prop
  step : State → Label → Option State

namespace Machine

variable {State : Type u} {Label : Type v}

/-- Take the labelled steps in order; `none` as soon as one is unavailable. -/
def run (M : Machine State Label) : List Label → State → Option State
  | [], s => some s
  | l :: ls, s => (M.step s l).bind (M.run ls)

variable (M : Machine State Label)

@[simp] theorem run_nil (s : State) : M.run [] s = some s := rfl

theorem run_cons (l : Label) (ls : List Label) (s : State) :
    M.run (l :: ls) s = (M.step s l).bind (M.run ls) := rfl

theorem run_cons_eq_some {l : Label} {ls : List Label} {s t : State} :
    M.run (l :: ls) s = some t ↔ ∃ m, M.step s l = some m ∧ M.run ls m = some t := by
  rw [run_cons, Option.bind_eq_some_iff]

theorem run_append (first second : List Label) (s : State) :
    M.run (first ++ second) s = (M.run first s).bind (M.run second) := by
  induction first generalizing s with
  | nil => rfl
  | cons l ls ih =>
      rw [List.cons_append, run_cons, run_cons, Option.bind_assoc]
      exact congrArg (Option.bind (M.step s l)) (funext ih)

theorem run_append_eq_some {first second : List Label} {s t : State} :
    M.run (first ++ second) s = some t ↔
      ∃ m, M.run first s = some m ∧ M.run second m = some t := by
  rw [run_append, Option.bind_eq_some_iff]

theorem run_singleton (l : Label) (s : State) : M.run [l] s = M.step s l := by
  rw [run_cons]
  cases M.step s l <;> rfl

/-- A state at the end of some run from a starting state. -/
def Reachable (s : State) : Prop :=
  ∃ start ls, M.initial start ∧ M.run ls start = some s

theorem Reachable.run {M : Machine State Label} {s t : State} {ls : List Label}
    (reached : M.Reachable s) (taken : M.run ls s = some t) : M.Reachable t := by
  obtain ⟨start, before, first, ran⟩ := reached
  exact ⟨start, before ++ ls, first, (M.run_append_eq_some).mpr ⟨s, ran, taken⟩⟩

/-- What holds at the start and survives every step. -/
structure Inductive (I : State → Prop) : Prop where
  start : ∀ s, M.initial s → I s
  step : ∀ s l t, I s → M.step s l = some t → I t

theorem Inductive.run {M : Machine State Label} {I : State → Prop} (inductive_I : M.Inductive I)
    {ls : List Label} {s t : State} (holds : I s) (taken : M.run ls s = some t) : I t := by
  induction ls generalizing s with
  | nil =>
      rw [run_nil] at taken
      exact Option.some.inj taken ▸ holds
  | cons l ls ih =>
      obtain ⟨m, first, rest⟩ := M.run_cons_eq_some.mp taken
      exact ih (inductive_I.step s l m holds first) rest

theorem Inductive.of_reachable {M : Machine State Label} {I : State → Prop}
    (inductive_I : M.Inductive I) {s : State} (reached : M.Reachable s) : I s := by
  obtain ⟨start, ls, first, taken⟩ := reached
  exact inductive_I.run (inductive_I.start start first) taken

/-- An invariant may be used while proving the next one inductive. -/
theorem Inductive.and_of {M : Machine State Label} {I J : State → Prop} (inductive_I : M.Inductive I)
    (start : ∀ s, M.initial s → J s)
    (step : ∀ s l t, I s → J s → M.step s l = some t → J t) :
    M.Inductive (fun s => I s ∧ J s) where
  start s first := ⟨inductive_I.start s first, start s first⟩
  step s l t holds taken :=
    ⟨inductive_I.step s l t holds.1 taken, step s l t holds.1 holds.2 taken⟩

/-- Induct over a run from its start, seeing the labels taken so far. -/
theorem run_induction {M : Machine State Label} {motive : List Label → State → Prop} {start : State}
    (base : motive [] start)
    (next : ∀ ls s l t, motive ls s → M.step s l = some t → motive (ls ++ [l]) t)
    {ls : List Label} {s : State} (taken : M.run ls start = some s) : motive ls s := by
  induction ls using List.reverseRecOn generalizing s with
  | nil => exact Option.some.inj taken ▸ base
  | append_singleton ls l ih =>
      obtain ⟨m, before, last⟩ := M.run_append_eq_some.mp taken
      exact next ls m l s (ih before) ((M.run_singleton l m).symm.trans last)

/-! ## Properties of the steps and the states of one run -/

/-- Every step the labels `ls` take from `s` satisfies `P`. -/
def EveryStep (P : State → Label → State → Prop) : List Label → State → Prop
  | [], _ => True
  | l :: ls, s => ∀ t, M.step s l = some t → P s l t ∧ EveryStep P ls t

/-- Every state the labels `ls` pass through from `s`, both ends included. -/
def EveryState (P : State → Prop) : List Label → State → Prop
  | [], s => P s
  | l :: ls, s => P s ∧ ∀ t, M.step s l = some t → EveryState P ls t

/-- The property of one step of a run. -/
theorem EveryStep.of_run {M : Machine State Label} {P : State → Label → State → Prop}
    {before after : List Label} {l : Label} {start s t : State}
    (every : M.EveryStep P (before ++ l :: after) start) (ran : M.run before start = some s)
    (taken : M.step s l = some t) : P s l t := by
  induction before generalizing start with
  | nil =>
      cases ran
      exact (every t taken).1
  | cons first before ih =>
      rcases M.run_cons_eq_some.mp ran with ⟨m, head, rest⟩
      exact ih (every m head).2 rest

/-- The property at the end of a run. -/
theorem EveryState.of_run {M : Machine State Label} {P : State → Prop} {ls : List Label}
    {start s : State} (every : M.EveryState P ls start) (ran : M.run ls start = some s) : P s := by
  induction ls generalizing start with
  | nil =>
      cases ran
      exact every
  | cons first ls ih =>
      rcases M.run_cons_eq_some.mp ran with ⟨m, head, rest⟩
      exact ih (every.2 m head) rest

theorem EveryState.imp {M : Machine State Label} {P Q : State → Prop} {ls : List Label} {s : State}
    (every : M.EveryState P ls s) (weaken : ∀ s, P s → Q s) : M.EveryState Q ls s := by
  induction ls generalizing s with
  | nil => exact weaken s every
  | cons l ls ih => exact ⟨weaken s every.1, fun t taken => ih (every.2 t taken)⟩

theorem EveryState.and {M : Machine State Label} {P Q : State → Prop} {ls : List Label} {s : State}
    (first : M.EveryState P ls s) (second : M.EveryState Q ls s) :
    M.EveryState (fun s => P s ∧ Q s) ls s := by
  induction ls generalizing s with
  | nil => exact ⟨first, second⟩
  | cons l ls ih =>
      exact ⟨⟨first.1, second.1⟩, fun t taken => ih (first.2 t taken) (second.2 t taken)⟩

/-- A property that survives each of the labels of a run holds all along it. -/
theorem everyState_of_steps {M : Machine State Label} {P : State → Prop} {ls : List Label}
    (survives : ∀ l ∈ ls, ∀ s t, P s → M.step s l = some t → P t) {s : State} (holds : P s) :
    M.EveryState P ls s := by
  induction ls generalizing s with
  | nil => exact holds
  | cons l ls ih =>
      refine ⟨holds, fun t taken => ih ?_ (survives l List.mem_cons_self s t holds taken)⟩
      exact fun later listed => survives later (List.mem_cons_of_mem l listed)

/-- An invariant holds in every state of a run. -/
theorem Inductive.everyState {M : Machine State Label} {I : State → Prop}
    (inductive_I : M.Inductive I) (ls : List Label) {s : State} (holds : I s) :
    M.EveryState I ls s :=
  everyState_of_steps (fun l _ s t => inductive_I.step s l t) holds

/-- What every step from an invariant state satisfies, every step of a run
satisfies. -/
theorem Inductive.everyStep {M : Machine State Label} {I : State → Prop}
    {P : State → Label → State → Prop} (inductive_I : M.Inductive I)
    (each : ∀ s l t, I s → M.step s l = some t → P s l t)
    (ls : List Label) {s : State} (holds : I s) : M.EveryStep P ls s := by
  induction ls generalizing s with
  | nil => trivial
  | cons l ls ih =>
      exact fun t taken => ⟨each s l t holds taken, ih (inductive_I.step s l t holds taken)⟩

/-- What survives every step of a run holds at its end. -/
theorem EveryStep.kept {M : Machine State Label} {I : State → Prop}
    {P : State → Label → State → Prop} {ls : List Label} {s t : State}
    (every : M.EveryStep P ls s) (survives : ∀ s l t, I s → M.step s l = some t → P s l t → I t)
    (holds : I s) (taken : M.run ls s = some t) : I t := by
  induction ls generalizing s with
  | nil =>
      cases taken
      exact holds
  | cons l ls ih =>
      rcases M.run_cons_eq_some.mp taken with ⟨m, first, rest⟩
      rcases every m first with ⟨here, later⟩
      exact ih later (survives s l m holds first here) rest

/-- Two step properties that agree at every step agree on whole runs.  The
side condition `I` need only survive the steps that satisfy them. -/
theorem everyStep_congr_of_kept {M : Machine State Label} {I : State → Prop}
    {P Q : State → Label → State → Prop}
    (kept : ∀ s l t, I s → M.step s l = some t → P s l t → I t)
    (agree : ∀ s l t, I s → M.step s l = some t → (P s l t ↔ Q s l t))
    (ls : List Label) {s : State} (holds : I s) :
    M.EveryStep P ls s ↔ M.EveryStep Q ls s := by
  induction ls generalizing s with
  | nil => exact Iff.rfl
  | cons l ls ih =>
      refine forall_congr' fun t => forall_congr' fun taken => ?_
      constructor
      · rintro ⟨here, rest⟩
        exact ⟨(agree s l t holds taken).mp here, (ih (kept s l t holds taken here)).mp rest⟩
      · rintro ⟨here, rest⟩
        have back := (agree s l t holds taken).mpr here
        exact ⟨back, (ih (kept s l t holds taken back)).mpr rest⟩

/-- The same under an invariant. -/
theorem everyStep_congr {M : Machine State Label} {I : State → Prop}
    {P Q : State → Label → State → Prop} (inductive_I : M.Inductive I)
    (agree : ∀ s l t, I s → M.step s l = some t → (P s l t ↔ Q s l t))
    (ls : List Label) {s : State} (holds : I s) :
    M.EveryStep P ls s ↔ M.EveryStep Q ls s :=
  everyStep_congr_of_kept (fun s l t holds taken _ => inductive_I.step s l t holds taken) agree ls
    holds

/-- A state property that holds at the start of a run holds all along it
exactly when every step satisfies a property that decides whether it is
preserved.  The side condition `I` need only survive while the property does. -/
theorem everyState_iff_everyStep {M : Machine State Label} {I P : State → Prop}
    {Q : State → Label → State → Prop}
    (kept : ∀ s l t, I s → M.step s l = some t → P t → I t)
    (agree : ∀ s l t, I s → P s → M.step s l = some t → (P t ↔ Q s l t))
    (ls : List Label) {s : State} (inv : I s) (holds : P s) :
    M.EveryState P ls s ↔ M.EveryStep Q ls s := by
  induction ls generalizing s with
  | nil => exact iff_of_true holds trivial
  | cons l ls ih =>
      constructor
      · intro along t taken
        have rest := along.2 t taken
        have next : P t := by
          cases ls with
          | nil => exact rest
          | cons _ _ => exact rest.1
        exact ⟨(agree s l t inv holds taken).mp next,
          (ih (kept s l t inv taken next) next).mp rest⟩
      · intro steps
        refine ⟨holds, fun t taken => ?_⟩
        have next : P t := (agree s l t inv holds taken).mpr (steps t taken).1
        exact (ih (kept s l t inv taken next) next).mpr (steps t taken).2

end Machine

end Lantun
