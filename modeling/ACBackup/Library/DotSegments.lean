import Mathlib

/-!
Walks through a tree of directories that may stand still or go up. A name and a
later step up cancel each other, so that a walk comes down to a number of steps up
followed by names. Going up from the top stays there.
-/

namespace ACBackup.Library.DotSegments

set_option autoImplicit false

universe u

inductive Segment (Name : Type u) where
  | here
  | up
  | name (name : Name)
  deriving DecidableEq, Repr

variable {Name : Type u}

def move (location : List Name) : Segment Name → List Name
  | .here => location
  | .up => location.dropLast
  | .name name => location ++ [name]

def resolve (location : List Name) (segments : List (Segment Name)) : List Name :=
  segments.foldl move location

structure Walk (Name : Type u) where
  climbs : Nat
  names : List Name
  deriving DecidableEq, Repr

namespace Walk

def add (walk : Walk Name) : Segment Name → Walk Name
  | .here => walk
  | .up =>
      if walk.names = [] then { walk with climbs := walk.climbs + 1 }
      else { walk with names := walk.names.dropLast }
  | .name name => { walk with names := walk.names ++ [name] }

def startingAt (walk : Walk Name) (location : List Name) : List Name :=
  location.take (location.length - walk.climbs) ++ walk.names

end Walk

def reduced (segments : List (Segment Name)) : Walk Name :=
  segments.foldl Walk.add { climbs := 0, names := [] }

theorem add_moves (walk : Walk Name) (location : List Name) (segment : Segment Name) :
    (walk.add segment).startingAt location = move (walk.startingAt location) segment := by
  cases segment with
  | here => rfl
  | name name => simp [Walk.add, Walk.startingAt, move]
  | up =>
      by_cases none : walk.names = []
      · simp only [Walk.add, Walk.startingAt, move, none, if_true, List.append_nil]
        rw [List.dropLast_eq_take, List.length_take, List.take_take]
        congr 1
        omega
      · simp only [Walk.add, Walk.startingAt, move, if_neg none]
        exact (List.dropLast_append_of_ne_nil none).symm

/-- Resolving is going up and then along what is left. -/
theorem resolve_reduced (location : List Name) (segments : List (Segment Name)) :
    resolve location segments = (reduced segments).startingAt location := by
  have fold : ∀ (walk : Walk Name), resolve (walk.startingAt location) segments =
      (segments.foldl Walk.add walk).startingAt location := by
    unfold resolve
    induction segments with
    | nil =>
        intro walk
        rfl
    | cons segment rest induction =>
        intro walk
        rw [List.foldl_cons, List.foldl_cons, ← induction, add_moves]
  have start : ({ climbs := 0, names := [] } : Walk Name).startingAt location = location := by
    simp [Walk.startingAt]
  rw [reduced, ← fold, start]

theorem resolve_append (location : List Name) (first second : List (Segment Name)) :
    resolve location (first ++ second) = resolve (resolve location first) second :=
  List.foldl_append

theorem resolve_names (location names : List Name) :
    resolve location (names.map .name) = location ++ names := by
  induction names generalizing location with
  | nil => simp [resolve]
  | cons name rest induction =>
      have later := induction (location ++ [name])
      simpa [resolve, move] using later

/-- A walk ends inside where it started exactly when its names lead down again what
it went up. -/
theorem starting_at_inside_iff (walk : Walk Name) (location : List Name) :
    location <+: walk.startingAt location ↔
      location.drop (location.length - walk.climbs) <+: walk.names := by
  have cut := @List.prefix_append_right_inj _ (location.drop (location.length - walk.climbs))
    walk.names (location.take (location.length - walk.climbs))
  rw [List.take_append_drop] at cut
  exact cut

end ACBackup.Library.DotSegments
