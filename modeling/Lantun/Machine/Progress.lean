import Lantun.Machine.Run

namespace Lantun

universe u v w x

/-!
# What a chosen set of steps can still bring about

A progress question about a concurrent program fixes who may move: some tasks,
the network, one peer.  `CanReach allowed goal s` says that a finite run using
allowed labels only leads from `s` to the goal.

There are two ways to settle such a question.  A positive answer is put
together from single steps by `CanReach.step` and `CanReach.andThen`.  A
negative answer needs a set of states that no allowed step leaves and that
the goal avoids: a `Trap`.  A trap is an invariant relative to the allowed labels,
so it may itself rest on facts about all reachable states.
-/

namespace Machine

variable {State : Type u} {Label : Type v} (M : Machine State Label)

/-- Some run of allowed labels leads from `s` to a state satisfying `goal`. -/
def CanReach (allowed : Label → Prop) (goal : State → Prop) (s : State) : Prop :=
  ∃ ls t, (∀ l ∈ ls, allowed l) ∧ M.run ls s = some t ∧ goal t

variable {M} {allowed : Label → Prop} {goal : State → Prop}

theorem CanReach.here {s : State} (done : goal s) : M.CanReach allowed goal s :=
  ⟨[], s, by simp, rfl, done⟩

theorem CanReach.step {s t : State} {l : Label} (taken : M.step s l = some t)
    (permitted : allowed l) (rest : M.CanReach allowed goal t) : M.CanReach allowed goal s := by
  obtain ⟨ls, final, allowedLs, ran, done⟩ := rest
  refine ⟨l :: ls, final, ?_, M.run_cons_eq_some.mpr ⟨t, taken, ran⟩, done⟩
  intro other member
  rcases List.mem_cons.mp member with same | later
  · exact same ▸ permitted
  · exact allowedLs other later

/-- Reach a waypoint first, then the goal from wherever the waypoint was met. -/
theorem CanReach.andThen {way : State → Prop} {s : State} (first : M.CanReach allowed way s)
    (second : ∀ t, way t → M.CanReach allowed goal t) : M.CanReach allowed goal s := by
  obtain ⟨before, t, allowedBefore, ranBefore, met⟩ := first
  obtain ⟨after, final, allowedAfter, ranAfter, done⟩ := second t met
  refine ⟨before ++ after, final, ?_, M.run_append_eq_some.mpr ⟨t, ranBefore, ranAfter⟩, done⟩
  intro l member
  exact (List.mem_append.mp member).elim (allowedBefore l) (allowedAfter l)

theorem CanReach.mono {other : State → Prop} {s : State} (reach : M.CanReach allowed goal s)
    (weaker : ∀ t, goal t → other t) : M.CanReach allowed other s := by
  obtain ⟨ls, t, allowedLs, ran, done⟩ := reach
  exact ⟨ls, t, allowedLs, ran, weaker t done⟩

/-- Whoever else may move need not. -/
theorem CanReach.widen {more : Label → Prop} {s : State} (reach : M.CanReach allowed goal s)
    (also : ∀ l, allowed l → more l) : M.CanReach more goal s := by
  obtain ⟨ls, t, allowedLs, ran, done⟩ := reach
  exact ⟨ls, t, fun l member => also l (allowedLs l member), ran, done⟩

/-- Carry an invariant of all steps to the state where the goal is met. -/
theorem CanReach.keeping {I : State → Prop} (inductive_I : M.Inductive I) {s : State}
    (holds : I s) (reach : M.CanReach allowed goal s) :
    M.CanReach allowed (fun t => I t ∧ goal t) s := by
  obtain ⟨ls, t, allowedLs, ran, done⟩ := reach
  exact ⟨ls, t, allowedLs, ran, inductive_I.run holds ran, done⟩

/-- Carry what the allowed steps keep. -/
theorem CanReach.keepingAllowed {I : State → Prop}
    (kept : ∀ s l t, allowed l → I s → M.step s l = some t → I t) {s : State} (holds : I s)
    (reach : M.CanReach allowed goal s) : M.CanReach allowed (fun t => I t ∧ goal t) s := by
  obtain ⟨ls, t, allowedLs, ran, done⟩ := reach
  induction ls generalizing s with
  | nil =>
      cases ran
      exact .here ⟨holds, done⟩
  | cons l ls ih =>
      rcases M.run_cons_eq_some.mp ran with ⟨m, taken, rest⟩
      have permitted := allowedLs l List.mem_cons_self
      refine .step taken permitted (ih (kept s l m permitted holds taken) ?_ rest)
      exact fun other member => allowedLs other (List.mem_cons_of_mem l member)

/-- What a part of a system can reach by itself, the system can, if it can do every
step that is allowed there. -/
theorem CanReach.simulate {State' : Type w} {Label' : Type x} {N : Machine State' Label'}
    {permitted : Label' → Prop} {R : State → State' → Prop}
    (follows : ∀ s l s' t, allowed l → M.step s l = some s' → R s t →
      ∃ l' t', permitted l' ∧ N.step t l' = some t' ∧ R s' t')
    {s : State} {t : State'} (reach : M.CanReach allowed goal s) (related : R s t) :
    N.CanReach permitted (fun t' => ∃ s', goal s' ∧ R s' t') t := by
  obtain ⟨ls, final, allowedLs, ran, done⟩ := reach
  induction ls generalizing s t with
  | nil =>
      cases ran
      exact .here ⟨_, done, related⟩
  | cons l ls ih =>
      rcases M.run_cons_eq_some.mp ran with ⟨m, taken, rest⟩
      rcases follows s l m t (allowedLs l List.mem_cons_self) taken related with
        ⟨l', t', permits, taken', related'⟩
      refine .step taken' permits (ih related' ?_ rest)
      exact fun other member => allowedLs other (List.mem_cons_of_mem l member)

/-- While a measured condition holds, some allowed step keeps it and lowers the
measure, or the goal is reached from there. -/
theorem CanReach.descend {while_ : State → Prop} (measure : State → Nat)
    (next : ∀ s, while_ s → M.CanReach allowed goal s ∨
      ∃ l t, allowed l ∧ M.step s l = some t ∧ while_ t ∧ measure t < measure s)
    {s : State} (holds : while_ s) : M.CanReach allowed goal s := by
  generalize bound : measure s = n
  induction n using Nat.strongRecOn generalizing s with
  | ind n ih =>
      rcases next s holds with reached | ⟨l, t, permitted, taken, kept, smaller⟩
      · exact reached
      · exact (ih (measure t) (bound ▸ smaller) kept rfl).step taken permitted

/-- If every run from a set of states can be continued to the set through a step
that counts, then such steps can be repeated without bound. -/
theorem exists_run_counting {counts : Label → Bool} {T : State → Prop}
    (again : ∀ s, T s → ∃ ls t, (∀ l ∈ ls, allowed l) ∧ M.run ls s = some t ∧ T t ∧
      0 < ls.countP counts)
    (bound : Nat) {s : State} (inside : T s) :
    ∃ ls t, (∀ l ∈ ls, allowed l) ∧ M.run ls s = some t ∧ T t ∧ bound ≤ ls.countP counts := by
  induction bound with
  | zero =>
      rcases again s inside with ⟨ls, t, permitted, ran, kept, _⟩
      exact ⟨ls, t, permitted, ran, kept, Nat.zero_le _⟩
  | succ bound ih =>
      rcases ih with ⟨before, t, permitted, ran, kept, enough⟩
      rcases again t kept with ⟨after, u, permitted', ran', kept', more⟩
      refine ⟨before ++ after, u, ?_, M.run_append_eq_some.mpr ⟨t, ran, ran'⟩, kept', ?_⟩
      · intro l member
        exact (List.mem_append.mp member).elim (permitted l) (permitted' l)
      · rw [List.countP_append]
        omega

/-- A set of states closed under the allowed steps and disjoint from the goal. -/
structure Trap (M : Machine State Label) (allowed : Label → Prop) (goal T : State → Prop) : Prop where
  closed : ∀ s l t, T s → allowed l → M.step s l = some t → T t
  avoids : ∀ s, T s → ¬ goal s

theorem Trap.run {T : State → Prop} (trap : Trap M allowed goal T) {ls : List Label} {s t : State}
    (inside : T s) (permitted : ∀ l ∈ ls, allowed l) (taken : M.run ls s = some t) : T t := by
  induction ls generalizing s with
  | nil =>
      rw [run_nil] at taken
      exact Option.some.inj taken ▸ inside
  | cons l ls ih =>
      obtain ⟨m, first, rest⟩ := M.run_cons_eq_some.mp taken
      have kept := trap.closed s l m inside (permitted l List.mem_cons_self) first
      exact ih kept (fun other later => permitted other (List.mem_cons_of_mem l later)) rest

theorem Trap.not_canReach {T : State → Prop} (trap : Trap M allowed goal T) {s : State}
    (inside : T s) : ¬ M.CanReach allowed goal s := by
  rintro ⟨ls, t, permitted, taken, done⟩
  exact trap.avoids t (trap.run inside permitted taken) done

/-- From every state of a trap that may use an invariant of all steps. -/
theorem Trap.of_invariant {I T : State → Prop} (inductive_I : M.Inductive I)
    (closed : ∀ s l t, I s → T s → allowed l → M.step s l = some t → T t)
    (avoids : ∀ s, I s → T s → ¬ goal s) :
    Trap M allowed goal (fun s => I s ∧ T s) where
  closed s l t inside permitted taken :=
    ⟨inductive_I.step s l t inside.1 taken, closed s l t inside.1 inside.2 permitted taken⟩
  avoids s inside := avoids s inside.1 inside.2

end Machine

end Lantun
