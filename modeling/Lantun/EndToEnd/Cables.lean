import Lantun.Machine.Run
import Lantun.Net.Session

namespace Lantun
namespace EndToEnd

open Net

/-!
# What a tunnel is for

Seen from outside, a tunnel for TCP is a bundle of cables.  Every application that
connects on the client's side gets one; its other end is plugged into the service
by a connection made for that application, and the applications get their turns
in the order in which they have come.  Each way of a cable is a queue: what is
said at one end is heard at the other, in pieces of any size, and nothing that is
said on one cable is heard on another.

This is a statement of purpose.  It has no streams, tasks, timers or failures; a
cable may simply go silent, but it never says anything of its own.
-/

universe u v

/-- One way of a cable, with what has come out of it so far. -/
structure Lane (α : Type v) where
  heard : List α
  underway : List α
  deriving DecidableEq

namespace Lane

variable {α : Type v}

def empty : Lane α := ⟨[], []⟩

/-- Everything that was ever put in. -/
def said (lane : Lane α) : List α := lane.heard ++ lane.underway

def say (lane : Lane α) (entry : α) : Lane α := { lane with underway := lane.underway ++ [entry] }

/-- The next entries come out, if they are these. -/
def hear [DecidableEq α] (lane : Lane α) (entries : List α) : Option (Lane α) :=
  if entries <+: lane.underway then
    some ⟨lane.heard ++ entries, lane.underway.drop entries.length⟩
  else none

@[simp] theorem said_say (lane : Lane α) (entry : α) : (lane.say entry).said = lane.said ++ [entry] :=
  (List.append_assoc _ _ _).symm

@[simp] theorem heard_say (lane : Lane α) (entry : α) : (lane.say entry).heard = lane.heard := rfl

/-- Hearing changes where the entries are, and not what they are. -/
theorem of_hear [DecidableEq α] {lane next : Lane α} {entries : List α}
    (taken : lane.hear entries = some next) :
    next.heard = lane.heard ++ entries ∧ next.said = lane.said := by
  unfold hear at taken
  split at taken
  · rename_i first
    cases taken
    refine ⟨rfl, ?_⟩
    rcases first with ⟨rest, whole⟩
    simp only [said, ← whole, List.drop_left, List.append_assoc]
  · cases taken

theorem heard_isPrefix_said (lane : Lane α) : lane.heard <+: lane.said := List.prefix_append _ _

end Lane

/-- A place where something can be said: a cable, and one of its two ends. -/
abbrev Place := Nat × Side

/-- What can be seen of a tunnel from outside. -/
inductive Show (Addr : Type u) (α : Type v) where
  /-- An application connects. -/
  | dialed (addr : Addr)
  /-- The service is connected to, for the application of the given number, which
  is taken to have the given address. -/
  | plugged (index : Nat) (addr : Addr)
  /-- Something is said at a place. -/
  | said (place : Place) (entry : α)
  /-- Something that was said at a place comes out at the other end. -/
  | heard (place : Place) (entries : List α)
  deriving DecidableEq

/-- All cables.  The applications are kept in the order in which they have come;
the first `plugged` of them reach the service. -/
structure Cables (Addr : Type u) (α : Type v) where
  addrs : List Addr
  plugged : Nat
  lane : Place → Lane α

namespace Cables

variable {Addr : Type u} {α : Type v}

def unused : Cables Addr α := ⟨[], 0, fun _ => .empty⟩

def setLane (cables : Cables Addr α) (place : Place) (lane : Lane α) : Cables Addr α :=
  { cables with lane := Function.update cables.lane place lane }

def step [DecidableEq Addr] [DecidableEq α] (cables : Cables Addr α) :
    Show Addr α → Option (Cables Addr α)
  | .dialed addr => some { cables with addrs := cables.addrs ++ [addr] }
  | .plugged index addr =>
      if index = cables.plugged ∧ cables.addrs[index]? = some addr then
        some { cables with plugged := cables.plugged + 1 }
      else none
  | .said place entry =>
      -- the service is there once the cable is plugged in
      if place.1 < cables.addrs.length ∧ (place.2 = .client ∨ place.1 < cables.plugged) then
        some (cables.setLane place ((cables.lane place).say entry))
      else none
  | .heard place entries =>
      if place.1 < cables.plugged then
        ((cables.lane place).hear entries).map (cables.setLane place)
      else none

def machine [DecidableEq Addr] [DecidableEq α] : Machine (Cables Addr α) (Show Addr α) where
  initial cables := cables = unused
  step := step

/-! ## What is seen of it -/

/-- The addresses of the applications that have connected. -/
def dialedBy (shows : List (Show Addr α)) : List Addr :=
  shows.filterMap fun
    | .dialed addr => some addr
    | _ => none

/-- The addresses for which the service was connected to. -/
def pluggedFor (shows : List (Show Addr α)) : List Addr :=
  shows.filterMap fun
    | .plugged _ addr => some addr
    | _ => none

/-- All that was said at a place. -/
def saidAt (place : Place) (shows : List (Show Addr α)) : List α :=
  shows.flatMap fun
    | .said at_ entry => if at_ = place then [entry] else []
    | _ => []

/-- All that has come out of it at the other end. -/
def heardFrom (place : Place) (shows : List (Show Addr α)) : List α :=
  shows.flatMap fun
    | .heard at_ entries => if at_ = place then entries else []
    | _ => []

/-- The state of the cables, told from what has been seen. -/
structure Tells (shows : List (Show Addr α)) (cables : Cables Addr α) : Prop where
  addrs : cables.addrs = dialedBy shows
  plugs : cables.addrs.take cables.plugged = pluggedFor shows
  within : cables.plugged ≤ cables.addrs.length
  said : ∀ place, (cables.lane place).said = saidAt place shows
  heard : ∀ place, (cables.lane place).heard = heardFrom place shows

/-- A lane has changed, and nothing else. -/
theorem Tells.setLane {shows : List (Show Addr α)} {cables : Cables Addr α}
    (tells : Tells shows cables) {place : Place} {lane : Lane α} {now : Show Addr α}
    (dials : dialedBy [now] = []) (plugs : pluggedFor [now] = [])
    (said : ∀ other, saidAt other [now] = if place = other then saidAt place [now] else [])
    (heard : ∀ other, heardFrom other [now] = if place = other then heardFrom place [now] else [])
    (saidHere : lane.said = (cables.lane place).said ++ saidAt place [now])
    (heardHere : lane.heard = (cables.lane place).heard ++ heardFrom place [now]) :
    Tells (shows ++ [now]) (cables.setLane place lane) where
  addrs := by
    change cables.addrs = _
    rw [dialedBy, List.filterMap_append, ← dialedBy, ← dialedBy, dials, List.append_nil]
    exact tells.addrs
  plugs := by
    change cables.addrs.take cables.plugged = _
    rw [pluggedFor, List.filterMap_append, ← pluggedFor, ← pluggedFor, plugs, List.append_nil]
    exact tells.plugs
  within := tells.within
  said other := by
    rw [saidAt, List.flatMap_append, ← saidAt, ← saidAt, said other, ← tells.said other]
    by_cases same : place = other
    · subst same
      simp [Cables.setLane, saidHere]
    · simp [Cables.setLane, same, Function.update_of_ne (Ne.symm same)]
  heard other := by
    rw [heardFrom, List.flatMap_append, ← heardFrom, ← heardFrom, heard other, ← tells.heard other]
    by_cases same : place = other
    · subst same
      simp [Cables.setLane, heardHere]
    · simp [Cables.setLane, same, Function.update_of_ne (Ne.symm same)]

section Runs

variable [DecidableEq Addr] [DecidableEq α]

theorem Tells.step {shows : List (Show Addr α)} {cables next : Cables Addr α}
    (tells : Tells shows cables) {now : Show Addr α} (taken : cables.step now = some next) :
    Tells (shows ++ [now]) next := by
  cases now with
  | dialed addr =>
      cases taken
      refine ⟨?_, ?_, ?_, ?_, ?_⟩
      · rw [dialedBy, List.filterMap_append, ← dialedBy, ← tells.addrs]
        rfl
      · rw [pluggedFor, List.filterMap_append, ← pluggedFor, ← tells.plugs,
          List.take_append_of_le_length tells.within]
        exact (List.append_nil _).symm
      · exact Nat.le_trans tells.within (by simp)
      · intro place
        rw [saidAt, List.flatMap_append, ← saidAt, ← tells.said]
        exact (List.append_nil _).symm
      · intro place
        rw [heardFrom, List.flatMap_append, ← heardFrom, ← tells.heard]
        exact (List.append_nil _).symm
  | plugged index addr =>
      simp only [Cables.step] at taken
      split at taken <;> cases taken
      rename_i here
      rcases here with ⟨rfl, at_⟩
      have bound := (List.getElem?_eq_some_iff.mp at_).1
      refine ⟨?_, ?_, bound, ?_, ?_⟩
      · rw [dialedBy, List.filterMap_append, ← dialedBy, ← tells.addrs]
        exact (List.append_nil _).symm
      · rw [pluggedFor, List.filterMap_append, ← pluggedFor, ← tells.plugs]
        simp only [List.take_add_one, at_]
        rfl
      · intro place
        rw [saidAt, List.flatMap_append, ← saidAt, ← tells.said]
        exact (List.append_nil _).symm
      · intro place
        rw [heardFrom, List.flatMap_append, ← heardFrom, ← tells.heard]
        exact (List.append_nil _).symm
  | said place entry =>
      simp only [Cables.step] at taken
      split at taken <;> cases taken
      refine tells.setLane rfl rfl ?_ ?_ ?_ ?_
      · intro other
        by_cases same : place = other <;> simp [saidAt, same]
      · intro other
        simp [heardFrom]
      · simp [saidAt]
      · simp [heardFrom]
  | heard place entries =>
      simp only [Cables.step] at taken
      split at taken
      · rcases Option.map_eq_some_iff.mp taken with ⟨lane, hears, same⟩
        subst same
        rcases Lane.of_hear hears with ⟨heard, said⟩
        refine tells.setLane rfl rfl ?_ ?_ ?_ ?_
        · intro other
          simp [saidAt]
        · intro other
          by_cases same : place = other <;> simp [heardFrom, same]
        · simp [saidAt, said]
        · simp [heardFrom, heard]
      · cases taken

theorem tells_run {shows : List (Show Addr α)} {cables : Cables Addr α}
    (ran : machine.run shows unused = some cables) : Tells shows cables :=
  Machine.run_induction ⟨rfl, rfl, Nat.le_refl 0, fun _ => rfl, fun _ => rfl⟩
    (fun _ _ _ _ tells taken => tells.step taken) ran

/-- What cables show: at every place what comes out is a leading part of what was
said there, and the service is connected to for the applications in turn. -/
theorem faithful_of_run {shows : List (Show Addr α)} {cables : Cables Addr α}
    (ran : machine.run shows unused = some cables) :
    (∀ place, heardFrom place shows <+: saidAt place shows) ∧ pluggedFor shows <+: dialedBy shows := by
  have tells := tells_run ran
  refine ⟨fun place => ?_, ?_⟩
  · rw [← tells.said, ← tells.heard]
    exact Lane.heard_isPrefix_said _
  · rw [← tells.plugs, ← tells.addrs]
    exact List.take_prefix _ _

end Runs

end Cables

end EndToEnd
end Lantun
