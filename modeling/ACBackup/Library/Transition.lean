import Mathlib

/-!
Labelled systems whose step is a partial function. A label carries every choice
of the environment (which party moves, how much of a request succeeds, what the
clock shows), so that the runs of a system are the lists of its labels. The
steps of a run may be restricted by a predicate on the state before the step.
-/

namespace ACBackup.Library.Transition

set_option autoImplicit false

universe u v

structure System (State : Type u) (Label : Type v) where
  initial : State
  step : State → Label → Option State

variable {State : Type u} {Label : Type v}

namespace System

def run (system : System State Label) : State → List Label → Option State
  | state, [] => some state
  | state, label :: rest =>
      match system.step state label with
      | none => none
      | some next => run system next rest

/-- A run that stops before the first step that is not possible. -/
def runUntil (system : System State Label) : State → List Label → State
  | state, [] => state
  | state, label :: rest =>
      match system.step state label with
      | none => state
      | some next => runUntil system next rest

/-- The states of the runs all of whose steps are `allowed`. -/
inductive Reachable (system : System State Label) (allowed : State → Label → Prop) :
    State → Prop
  | start : Reachable system allowed system.initial
  | step {state next : State} {label : Label} (before : Reachable system allowed state)
      (permitted : allowed state label) (taken : system.step state label = some next) :
      Reachable system allowed next

def anyStep : State → Label → Prop := fun _ _ => True

/-- The step lemma of an invariant gives the run lemma. The step may use that
the state before it is itself reachable. -/
theorem reachable_invariant {system : System State Label} {allowed : State → Label → Prop}
    (invariant : State → Prop) (initial : invariant system.initial)
    (preserved : ∀ state next label, Reachable system allowed state → invariant state →
      allowed state label → system.step state label = some next → invariant next)
    {state : State} (reachable : Reachable system allowed state) : invariant state := by
  induction reachable with
  | start => exact initial
  | step before permitted taken induction =>
      exact preserved _ _ _ before induction permitted taken

theorem reachable_mono {system : System State Label} {allowed further : State → Label → Prop}
    (weaker : ∀ state label, allowed state label → further state label) {state : State}
    (reachable : Reachable system allowed state) : Reachable system further state := by
  induction reachable with
  | start => exact .start
  | step before permitted taken induction =>
      exact .step induction (weaker _ _ permitted) taken

theorem run_cons_some {system : System State Label} {label : Label} {rest : List Label}
    {state final : State} (run : system.run state (label :: rest) = some final) :
    ∃ next, system.step state label = some next ∧ system.run next rest = some final := by
  cases taken : system.step state label with
  | none => simp [System.run, taken] at run
  | some next =>
      simp only [System.run, taken] at run
      exact ⟨next, rfl, run⟩

theorem run_append (system : System State Label) (first second : List Label) (state : State) :
    system.run state (first ++ second) =
      (system.run state first).bind fun middle => system.run middle second := by
  induction first generalizing state with
  | nil => rfl
  | cons label rest induction =>
      simp only [List.cons_append, run]
      cases system.step state label with
      | none => rfl
      | some next => exact induction next

theorem run_until_append (system : System State Label) (first second : List Label)
    (state : State) :
    system.runUntil state (first ++ second) =
      match system.run state first with
      | some middle => system.runUntil middle second
      | none => system.runUntil state first := by
  induction first generalizing state with
  | nil => rfl
  | cons label rest induction =>
      simp only [List.cons_append, runUntil, run]
      cases system.step state label with
      | none => rfl
      | some next => exact induction next

theorem run_until_of_run {system : System State Label} {labels : List Label}
    {state final : State} (complete : system.run state labels = some final) :
    system.runUntil state labels = final := by
  have whole := run_until_append system labels [] state
  rw [List.append_nil, complete] at whole
  exact whole

theorem run_until_prefix (system : System State Label) (labels : List Label) (state : State) :
    ∃ count, system.run state (labels.take count) = some (system.runUntil state labels) := by
  induction labels generalizing state with
  | nil => exact ⟨0, rfl⟩
  | cons label rest induction =>
      cases taken : system.step state label with
      | none => exact ⟨0, by simp only [List.take_zero, run, runUntil, taken]⟩
      | some next =>
          obtain ⟨count, stopped⟩ := induction next
          refine ⟨count + 1, ?_⟩
          simp only [List.take_succ_cons, run, runUntil, taken]
          exact stopped

/-- What every step of the labels keeps is kept wherever the run stops. -/
theorem run_until_invariant {system : System State Label} (property : State → Prop)
    (labels : List Label)
    (preserved : ∀ label ∈ labels, ∀ state next, system.step state label = some next →
      property state → property next)
    {state : State} (initial : property state) : property (system.runUntil state labels) := by
  induction labels generalizing state with
  | nil => exact initial
  | cons label rest induction =>
      have later := fun other inside => preserved other (List.mem_cons_of_mem _ inside)
      cases taken : system.step state label with
      | none =>
          simp only [runUntil, taken]
          exact initial
      | some next =>
          simp only [runUntil, taken]
          exact induction later (preserved label (List.mem_cons_self ..) state next taken initial)

theorem run_until_append_related {system : System State Label} {related : State → State → Prop}
    (transitive : ∀ first second third, related first second → related second third →
      related first third) {first second : List Label}
    (firstRelated : ∀ state count, related state (system.runUntil state (first.take count)))
    (secondRelated : ∀ state count, related state (system.runUntil state (second.take count)))
    (state : State) (count : Nat) :
    related state (system.runUntil state ((first ++ second).take count)) := by
  rw [List.take_append, run_until_append]
  cases run : system.run state (first.take count) with
  | none => exact firstRelated state count
  | some middle =>
      have reached := firstRelated state count
      rw [run_until_of_run run] at reached
      exact transitive _ _ _ reached (secondRelated middle _)

theorem reachable_of_permitted {system : System State Label} {allowed : State → Label → Prop}
    (labels : List Label) {state final : State} (before : Reachable system allowed state)
    (permitted : ∀ state, ∀ label ∈ labels, allowed state label)
    (run : system.run state labels = some final) : Reachable system allowed final := by
  induction labels generalizing state with
  | nil =>
      simp only [System.run, Option.some.injEq] at run
      exact run ▸ before
  | cons label rest induction =>
      obtain ⟨next, taken, later⟩ := run_cons_some run
      have first := permitted state label (List.mem_cons_self ..)
      apply induction (.step before first taken) _ later
      intro other inside member
      exact permitted other inside (List.mem_cons_of_mem _ member)

theorem reachable_of_run_from {system : System State Label} (labels : List Label)
    {state final : State} (before : Reachable system anyStep state)
    (run : system.run state labels = some final) : Reachable system anyStep final :=
  reachable_of_permitted labels before (fun _ _ _ => trivial) run

theorem reachable_of_run {system : System State Label} (labels : List Label) {final : State}
    (run : system.run system.initial labels = some final) : Reachable system anyStep final :=
  reachable_of_run_from labels .start run

/-- Every step of a run meets a condition on the state before it. -/
def Throughout (system : System State Label) (condition : State → Label → Prop) :
    State → List Label → Prop
  | _, [] => True
  | state, label :: rest =>
      condition state label ∧
        match system.step state label with
        | none => True
        | some next => Throughout system condition next rest

instance decidableThroughout (system : System State Label) (condition : State → Label → Prop)
    [∀ state label, Decidable (condition state label)] (state : State) :
    ∀ labels, Decidable (system.Throughout condition state labels)
  | [] => inferInstanceAs (Decidable True)
  | label :: rest =>
      have : Decidable (match system.step state label with
          | none => True
          | some next => system.Throughout condition next rest) :=
        match system.step state label with
        | none => inferInstanceAs (Decidable True)
        | some next => decidableThroughout system condition next rest
      inferInstanceAs (Decidable (_ ∧ _))

theorem reachable_of_throughout {system : System State Label} {allowed : State → Label → Prop}
    (labels : List Label) {state final : State} (before : Reachable system allowed state)
    (permitted : system.Throughout allowed state labels)
    (run : system.run state labels = some final) : Reachable system allowed final := by
  induction labels generalizing state with
  | nil =>
      rw [System.run, Option.some.injEq] at run
      exact run ▸ before
  | cons label rest induction =>
      obtain ⟨next, taken, later⟩ := run_cons_some run
      obtain ⟨here, further⟩ := permitted
      rw [taken] at further
      exact induction (.step before here taken) further later

theorem throughout_append {system : System State Label} {condition : State → Label → Prop}
    (first second : List Label) {state middle : State}
    (run : system.run state first = some middle) :
    system.Throughout condition state (first ++ second) ↔
      system.Throughout condition state first ∧ system.Throughout condition middle second := by
  induction first generalizing state with
  | nil =>
      rw [System.run, Option.some.injEq] at run
      simp [run, Throughout]
  | cons label rest induction =>
      obtain ⟨next, taken, later⟩ := run_cons_some run
      simp only [List.cons_append, Throughout, taken, induction later, and_assoc]

/-- When a step keeps a property exactly under a condition, a run does so exactly
when all its steps meet the condition. The step may use an invariant. -/
theorem throughout_iff_under {system : System State Label} {condition : State → Label → Prop}
    (invariant property : State → Prop)
    (preserved : ∀ state next label, invariant state → system.step state label = some next →
      invariant next)
    (exact : ∀ state next label, invariant state → system.step state label = some next →
      (property next ↔ property state ∧ condition state label))
    (labels : List Label) {state final : State} (initial : invariant state)
    (run : system.run state labels = some final) :
    property final ↔ property state ∧ system.Throughout condition state labels := by
  induction labels generalizing state with
  | nil =>
      simp only [System.run, Option.some.injEq] at run
      simp [run, Throughout]
  | cons label rest induction =>
      obtain ⟨next, taken, later⟩ := run_cons_some run
      have tail := induction (preserved state next label initial taken) later
      simp only [tail, exact state next label initial taken, Throughout, taken, and_assoc]

theorem throughout_iff {system : System State Label} {condition : State → Label → Prop}
    (property : State → Prop)
    (exact : ∀ state next label, system.step state label = some next →
      (property next ↔ property state ∧ condition state label))
    (labels : List Label) {state final : State} (run : system.run state labels = some final) :
    property final ↔ property state ∧ system.Throughout condition state labels :=
  throughout_iff_under (fun _ => True) property (fun _ _ _ _ _ => trivial)
    (fun state next label _ taken => exact state next label taken) labels trivial run

/-- Conditions that agree where an invariant holds agree on whole runs. -/
theorem throughout_congr {system : System State Label} {first second : State → Label → Prop}
    (invariant : State → Prop)
    (preserved : ∀ state next label, invariant state → system.step state label = some next →
      invariant next)
    (agree : ∀ state next label, invariant state → system.step state label = some next →
      (first state label ↔ second state label))
    (labels : List Label) {state final : State} (initial : invariant state)
    (run : system.run state labels = some final) :
    system.Throughout first state labels ↔ system.Throughout second state labels := by
  induction labels generalizing state with
  | nil => exact Iff.rfl
  | cons label rest induction =>
      obtain ⟨next, taken, later⟩ := run_cons_some run
      simp only [Throughout, taken, agree state next label initial taken,
        induction (preserved state next label initial taken) later]

section Measure

variable {system : System State Label} {allowed : State → Label → Prop}
  {working : Label → Prop} {measure : State → Nat}

structure Lowers (system : System State Label) (allowed : State → Label → Prop)
    (working : Label → Prop) (measure : State → Nat) : Prop where
  permitted : ∀ state label, working label → allowed state label
  lower : ∀ state next label, Reachable system allowed state → working label →
    system.step state label = some next → measure next < measure state

theorem run_length_bounded (lowers : Lowers system allowed working measure)
    (labels : List Label) {state final : State} (reachable : Reachable system allowed state)
    (works : ∀ label ∈ labels, working label) (run : system.run state labels = some final) :
    Reachable system allowed final ∧ labels.length + measure final ≤ measure state := by
  induction labels generalizing state with
  | nil =>
      simp only [System.run, Option.some.injEq] at run
      subst run
      exact ⟨reachable, by simp⟩
  | cons label rest induction =>
      obtain ⟨next, taken, later⟩ := run_cons_some run
      have works' := List.forall_mem_cons.mp works
      have permitted := lowers.permitted state label works'.1
      have less := lowers.lower state next label reachable works'.1 taken
      obtain ⟨reached, bounded⟩ := induction (.step reachable permitted taken) works'.2 later
      refine ⟨reached, ?_⟩
      rw [List.length_cons]
      omega

/-- A run that goes on as long as it can comes to its end. -/
theorem run_settles (lowers : Lowers system allowed working measure) {state : State}
    (reachable : Reachable system allowed state) :
    ∃ labels final, (∀ label ∈ labels, working label) ∧
      system.run state labels = some final ∧
      ∀ label, working label → system.step final label = none := by
  induction bound : measure state using Nat.strong_induction_on generalizing state with
  | _ bound' induction =>
      by_cases stopped : ∀ label, working label → system.step state label = none
      · exact ⟨[], state, by simp, rfl, stopped⟩
      · push Not at stopped
        obtain ⟨label, works, moves⟩ := stopped
        obtain ⟨next, taken⟩ := Option.ne_none_iff_exists'.mp moves
        have less := lowers.lower state next label reachable works taken
        have permitted := lowers.permitted state label works
        obtain ⟨labels, final, allWork, run, ended⟩ :=
          induction (measure next) (bound ▸ less) (.step reachable permitted taken) rfl
        refine ⟨label :: labels, final, List.forall_mem_cons.mpr ⟨works, allWork⟩, ?_, ended⟩
        simp only [System.run, taken]
        exact run

end Measure

end System

end ACBackup.Library.Transition
