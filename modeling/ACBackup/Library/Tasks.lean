import Mathlib

/-!
Tasks that a thread pool takes in any order, each under one lock. The order is a
parameter; a collection that every task only adds its own findings to does not
depend on it.
-/

namespace ACBackup.Library.Tasks

set_option autoImplicit false

universe u v

/-- The order in which the tasks of one batch come to the lock. -/
structure TaskOrder (Task : Type u) where
  order : List Task → List Task
  perm : ∀ tasks, (order tasks).Perm tasks

variable {Task : Type u}

def inSequence : TaskOrder Task where
  order tasks := tasks
  perm _ := List.Perm.refl _

theorem mem_order (tasks : TaskOrder Task) (list : List Task) (task : Task) :
    task ∈ tasks.order list ↔ task ∈ list :=
  (tasks.perm list).mem_iff

def insertWhen (chosen : Nat → Bool) (set : Std.TreeSet Nat) (task : Nat) : Std.TreeSet Nat :=
  if chosen task then set.insert task else set

theorem mem_insert_when (chosen : Nat → Bool) (list : List Nat) (start : Std.TreeSet Nat)
    (task : Nat) :
    task ∈ list.foldl (insertWhen chosen) start ↔
      task ∈ start ∨ (task ∈ list ∧ chosen task = true) := by
  induction list generalizing start with
  | nil => simp
  | cons first rest induction =>
      rw [List.foldl_cons, induction]
      unfold insertWhen
      by_cases included : chosen first = true
      · rw [if_pos included, Std.TreeSet.mem_insert, Std.compare_eq_iff_eq]
        constructor
        · intro member
          rcases member with (same | before) | later
          · exact .inr ⟨by simp [same], same ▸ included⟩
          · exact .inl before
          · exact .inr ⟨List.mem_cons_of_mem _ later.1, later.2⟩
        · intro member
          rcases member with before | ⟨listed, yes⟩
          · exact .inl (.inr before)
          · rcases List.mem_cons.mp listed with same | later
            · exact .inl (.inl same.symm)
            · exact .inr ⟨later, yes⟩
      · rw [if_neg included]
        constructor
        · intro member
          rcases member with before | later
          · exact .inl before
          · exact .inr ⟨List.mem_cons_of_mem _ later.1, later.2⟩
        · intro member
          rcases member with before | ⟨listed, yes⟩
          · exact .inl before
          · rcases List.mem_cons.mp listed with same | later
            · exact absurd (same ▸ yes) included
            · exact .inr ⟨later, yes⟩

theorem numbered_filter_map {Item : Type u} {Output : Type v} (items : List Item)
    (perform : Item → Option Output) :
    ((List.range items.length).filterMap fun task => (items[task]?).bind perform) =
      items.filterMap perform := by
  have numbered : ((List.range items.length).map fun task => items[task]?) = items.map some := by
    apply List.ext_getElem
    · simp
    · intro position inRange inItems
      rw [List.length_map] at inItems
      simp only [List.getElem_map, List.getElem_range, List.getElem?_eq_getElem inItems]
  have performed := congrArg (List.filterMap fun found => found.bind perform) numbered
  rw [List.filterMap_map, List.filterMap_map] at performed
  exact performed

section Interleavings

variable {Action : Type u}

/-- What has happened at some moment while workers perform the actions of tasks: every
task in its own order, and any task next. -/
inductive Interleaving : List (List Action) → List Action → Prop
  | stop (tasks : List (List Action)) : Interleaving tasks []
  | next (before after : List (List Action)) (action : Action) (task : List Action)
      {actions : List Action} (rest : Interleaving (before ++ task :: after) actions) :
      Interleaving (before ++ (action :: task) :: after) (action :: actions)

theorem interleaving_idle {tasks : List (List Action)} {actions : List Action}
    (moment : Interleaving tasks actions) : Interleaving ([] :: tasks) actions := by
  induction moment with
  | stop tasks => exact .stop _
  | next before after action task _ induction =>
      exact .next ([] :: before) after action task induction

theorem interleaving_flatten (tasks : List (List Action)) :
    Interleaving tasks tasks.flatten := by
  induction tasks with
  | nil => exact .stop _
  | cons task tasks others =>
      rw [List.flatten_cons]
      induction task with
      | nil => exact interleaving_idle others
      | cons action task induction => exact .next [] tasks action task induction

theorem interleaving_part {tasks : List (List Action)} {actions : List Action}
    (moment : Interleaving tasks actions) :
    ∃ rest, (actions ++ rest).Perm tasks.flatten := by
  induction moment with
  | stop tasks => exact ⟨tasks.flatten, List.Perm.refl _⟩
  | next before after action task _ induction =>
      obtain ⟨rest, same⟩ := induction
      refine ⟨rest, ?_⟩
      rw [List.flatten_append, List.flatten_cons] at same ⊢
      rw [List.cons_append, List.cons_append]
      exact (same.cons action).trans List.perm_middle.symm

theorem interleaving_begun {tasks : List (List Action)} (first second : List Action)
    (moment : Interleaving tasks (first ++ second)) : Interleaving tasks first := by
  generalize actions_eq : first ++ second = actions at moment
  induction moment generalizing first with
  | stop tasks =>
      rw [(List.append_eq_nil_iff.mp actions_eq).1]
      exact .stop tasks
  | next before after action task _ induction =>
      cases first with
      | nil => exact .stop _
      | cons head first =>
          rw [List.cons_append, List.cons.injEq] at actions_eq
          rw [actions_eq.1]
          exact .next before after action task (induction first actions_eq.2)

end Interleavings

end ACBackup.Library.Tasks
