import Mathlib

/-!
Computations that may run for ever and may fail, with an explicit budget of
loop passes. Running out of budget is `none` and is never confused with a result
or with a fault. A loop body receives the remaining budget, so that a loop may
stand inside the body of another one. The rules below relate what a loop finishes
with to what its body finishes with, so that a proof about one need not count.
-/

namespace ACBackup.Library.Loop

set_option autoImplicit false

universe u v w

/-- One pass of a loop body either goes round again or leaves the loop. -/
inductive Pass (State : Type u) (Result : Type v) where
  | again (next : State)
  | done (result : Result)
  deriving DecidableEq

/-- `none` is an exhausted budget, `error` a fault, `ok` a result. -/
abbrev Attempt (Fault : Type u) (Result : Type v) := Option (Except Fault Result)

def Attempt.andThen {Fault : Type u} {First : Type v} {Second : Type w} (attempt : Attempt Fault First)
    (next : First → Attempt Fault Second) : Attempt Fault Second :=
  match attempt with
  | none => none
  | some (.error fault) => some (.error fault)
  | some (.ok value) => next value

def loop {State : Type u} {Result : Type v} {Fault : Type w}
    (body : Nat → State → Attempt Fault (Pass State Result)) :
    Nat → State → Attempt Fault Result
  | 0, _ => none
  | fuel + 1, state =>
      match body fuel state with
      | none => none
      | some (.error fault) => some (.error fault)
      | some (.ok (.done result)) => some (.ok result)
      | some (.ok (.again next)) => loop body fuel next

def collect {Task : Type u} {Fault : Type v} (check : Task → Attempt Fault Bool) :
    List Task → Attempt Fault (List Task)
  | [] => some (.ok [])
  | task :: rest =>
      (check task).andThen fun chosen =>
        (collect check rest).andThen fun tasks =>
          some (.ok (if chosen then task :: tasks else tasks))

def gather {Task : Type u} {Output : Type v} {Fault : Type w} (perform : Task → Attempt Fault Output) :
    List Task → Attempt Fault (List Output)
  | [] => some (.ok [])
  | task :: rest =>
      (perform task).andThen fun output =>
        (gather perform rest).andThen fun outputs => some (.ok (output :: outputs))

/-- A larger budget never changes an answer that a smaller one reached. -/
def Steady {Output : Type u} (run : Nat → Option Output) : Prop :=
  ∀ fuel more output, fuel ≤ more → run fuel = some output → run more = some output

/-- Some budget is enough. A run that finishes with nothing runs for ever. -/
def Finishes {Output : Type u} (run : Nat → Option Output) (output : Output) : Prop :=
  ∃ fuel, run fuel = some output

section Runs

variable {Output : Type u} {First : Type u} {Second : Type w} {Fault : Type v}

theorem steady_constant (output : Option Output) : Steady fun _ => output := by
  intro fuel more result _ run
  exact run

theorem finishes_constant (outcome output : Output) :
    Finishes (fun _ => some outcome) output ↔ output = outcome := by
  constructor
  · intro finishes
    obtain ⟨fuel, run⟩ := finishes
    exact (Option.some.inj run).symm
  · intro same
    exact ⟨0, by rw [same]⟩

theorem finishes_unique {run : Nat → Option Output} (steady : Steady run) {first second : Output}
    (left : Finishes run first) (right : Finishes run second) : first = second := by
  obtain ⟨leftFuel, leftRun⟩ := left
  obtain ⟨rightFuel, rightRun⟩ := right
  have leftLarge := steady leftFuel (max leftFuel rightFuel) first (Nat.le_max_left _ _) leftRun
  have rightLarge :=
    steady rightFuel (max leftFuel rightFuel) second (Nat.le_max_right _ _) rightRun
  exact Option.some.inj (leftLarge.symm.trans rightLarge)

theorem finishes_iff {run : Nat → Option Output} (steady : Steady run) {outcome : Output}
    (finishes : Finishes run outcome) (output : Output) :
    Finishes run output ↔ output = outcome := by
  constructor
  · intro other
    exact finishes_unique steady other finishes
  · intro same
    rw [same]
    exact finishes

theorem and_then_mono {attempt further : Attempt Fault First}
    (answers : ∀ outcome, attempt = some outcome → further = some outcome)
    {next later : First → Attempt Fault Second}
    (nextAnswers : ∀ value outcome, next value = some outcome → later value = some outcome)
    {outcome : Except Fault Second} (run : attempt.andThen next = some outcome) :
    further.andThen later = some outcome := by
  cases first : attempt with
  | none => simp [first, Attempt.andThen] at run
  | some reached =>
      rw [answers reached first]
      rw [first] at run
      cases reached with
      | error fault => exact run
      | ok value => exact nextAnswers value outcome run

theorem steady_and_then {run : Nat → Attempt Fault First} {next : First → Nat → Attempt Fault Second}
    (steady : Steady run) (nextSteady : ∀ value, Steady (next value)) :
    Steady fun fuel => (run fuel).andThen fun value => next value fuel := by
  intro fuel more output larger result
  exact and_then_mono (fun outcome => steady fuel more outcome larger)
    (fun value outcome => nextSteady value fuel more outcome larger) result

theorem finishes_and_then {run : Nat → Attempt Fault First}
    {next : First → Nat → Attempt Fault Second} (steady : Steady run)
    (nextSteady : ∀ value, Steady (next value)) {value : First}
    (finishes : Finishes run (.ok value)) (output : Except Fault Second) :
    Finishes (fun fuel => (run fuel).andThen fun value => next value fuel) output ↔
      Finishes (next value) output := by
  obtain ⟨enough, first⟩ := finishes
  constructor
  · intro both
    obtain ⟨fuel, result⟩ := both
    have large := steady_and_then steady nextSteady fuel (max fuel enough) output
      (Nat.le_max_left _ _) result
    have firstLarge := steady enough (max fuel enough) _ (Nat.le_max_right _ _) first
    simp only [firstLarge, Attempt.andThen] at large
    exact ⟨max fuel enough, large⟩
  · intro second
    obtain ⟨fuel, result⟩ := second
    have large := nextSteady value fuel (max fuel enough) output (Nat.le_max_left _ _) result
    have firstLarge := steady enough (max fuel enough) _ (Nat.le_max_right _ _) first
    exact ⟨max fuel enough, by simp only [firstLarge, Attempt.andThen, large]⟩

theorem finishes_first {run : Nat → Attempt Fault First}
    {next : First → Nat → Attempt Fault Second} {output : Except Fault Second}
    (finishes : Finishes (fun fuel => (run fuel).andThen fun value => next value fuel) output) :
    ∃ outcome, Finishes run outcome := by
  obtain ⟨fuel, result⟩ := finishes
  cases first : run fuel with
  | none => simp [first, Attempt.andThen] at result
  | some outcome => exact ⟨outcome, fuel, first⟩

theorem steady_map {Source : Type u} {run : Nat → Option Source} (steady : Steady run)
    (f : Source → Output) : Steady fun fuel => (run fuel).map f := by
  intro fuel more output larger result
  obtain ⟨source, first, same⟩ := Option.map_eq_some_iff.mp result
  have later : run more = some source := steady fuel more source larger first
  simp only [later, Option.map_some, same]

theorem finishes_map {Source : Type u} (run : Nat → Option Source) (f : Source → Output)
    (output : Output) :
    Finishes (fun fuel => (run fuel).map f) output ↔
      ∃ source, Finishes run source ∧ output = f source := by
  constructor
  · intro finishes
    obtain ⟨fuel, result⟩ := finishes
    obtain ⟨source, first, same⟩ := Option.map_eq_some_iff.mp result
    exact ⟨source, ⟨fuel, first⟩, same.symm⟩
  · intro described
    obtain ⟨source, ⟨fuel, first⟩, same⟩ := described
    exact ⟨fuel, by simp only [first, Option.map_some, same]⟩

end Runs

section Collections

variable {Task : Type u} {Fault : Type v}

theorem and_then_ok {First Second : Type u} {attempt : Attempt Fault First}
    {next : First → Attempt Fault Second} {result : Second}
    (run : attempt.andThen next = some (.ok result)) :
    ∃ value, attempt = some (.ok value) ∧ next value = some (.ok result) := by
  cases attempt with
  | none => simp [Attempt.andThen] at run
  | some outcome =>
      cases outcome with
      | error fault => simp [Attempt.andThen] at run
      | ok value => exact ⟨value, rfl, run⟩

/-- A collection that ends without a fault has an answer for every task, and
holds the tasks that were answered with yes. -/
theorem collect_ok {check : Task → Attempt Fault Bool} {list chosen : List Task}
    (run : collect check list = some (.ok chosen)) :
    (∀ task ∈ list, ∃ answer, check task = some (.ok answer)) ∧
      ∀ task, task ∈ chosen ↔ task ∈ list ∧ check task = some (.ok true) := by
  induction list generalizing chosen with
  | nil =>
      simp only [collect, Option.some.injEq, Except.ok.injEq] at run
      simp [← run]
  | cons first rest induction =>
      simp only [collect] at run
      cases answered : check first with
      | none => simp [answered, Attempt.andThen] at run
      | some outcome =>
          cases outcome with
          | error fault => simp [answered, Attempt.andThen] at run
          | ok answer =>
              simp only [answered, Attempt.andThen] at run
              obtain ⟨tasks, later, same⟩ := and_then_ok run
              obtain ⟨answers, members⟩ := induction later
              simp only [Option.some.injEq, Except.ok.injEq] at same
              refine ⟨?_, ?_⟩
              · intro task member
                rcases List.mem_cons.mp member with rfl | inside
                · exact ⟨answer, answered⟩
                · exact answers task inside
              · intro task
                rw [← same, List.mem_cons]
                cases answer with
                | false =>
                    rw [if_neg Bool.false_ne_true, members]
                    constructor
                    · intro chosen
                      exact ⟨.inr chosen.1, chosen.2⟩
                    · intro chosen
                      rcases chosen.1 with rfl | inside
                      · simp [answered] at chosen
                      · exact ⟨inside, chosen.2⟩
                | true =>
                    rw [if_pos rfl, List.mem_cons, members]
                    constructor
                    · intro chosen
                      rcases chosen with rfl | later
                      · exact ⟨.inl rfl, answered⟩
                      · exact ⟨.inr later.1, later.2⟩
                    · intro chosen
                      rcases chosen.1 with same | inside
                      · exact .inl same
                      · exact .inr ⟨inside, chosen.2⟩

theorem collect_steady {check : Task → Nat → Attempt Fault Bool}
    (steady : ∀ task, Steady (check task)) (list : List Task) :
    Steady fun fuel => collect (fun task => check task fuel) list := by
  induction list with
  | nil => exact steady_constant _
  | cons task rest induction =>
      apply steady_and_then (steady task)
      intro chosen
      apply steady_and_then induction
      intro tasks
      exact steady_constant _

theorem collect_finishes {check : Task → Nat → Attempt Fault Bool}
    (steady : ∀ task, Steady (check task)) {list : List Task}
    (answers : ∀ task ∈ list, ∃ answer, Finishes (check task) (.ok answer)) :
    ∃ chosen, Finishes (fun fuel => collect (fun task => check task fuel) list) (.ok chosen) := by
  induction list with
  | nil => exact ⟨[], 0, rfl⟩
  | cons task rest induction =>
      obtain ⟨answer, enough, answered⟩ := answers task (List.mem_cons_self ..)
      obtain ⟨tasks, others, collected⟩ :=
        induction fun other member => answers other (List.mem_cons_of_mem _ member)
      have first := steady task enough (max enough others) _ (Nat.le_max_left _ _) answered
      have later := collect_steady steady rest others (max enough others) _
        (Nat.le_max_right _ _) collected
      exact ⟨if answer then task :: tasks else tasks, max enough others,
        by simp only [collect, first, later, Attempt.andThen]⟩

theorem mem_collect {check : Task → Nat → Attempt Fault Bool}
    (steady : ∀ task, Steady (check task)) {list chosen : List Task}
    (finished : Finishes (fun fuel => collect (fun task => check task fuel) list) (.ok chosen)) :
    (∀ task ∈ list, ∃ answer, Finishes (check task) (.ok answer)) ∧
      ∀ task, task ∈ chosen ↔ task ∈ list ∧ Finishes (check task) (.ok true) := by
  obtain ⟨fuel, run⟩ := finished
  obtain ⟨answers, members⟩ := collect_ok run
  refine ⟨?_, ?_⟩
  · intro task member
    obtain ⟨answer, answered⟩ := answers task member
    exact ⟨answer, fuel, answered⟩
  · intro task
    rw [members]
    apply and_congr_right
    intro member
    constructor
    · intro answered
      exact ⟨fuel, answered⟩
    · intro yes
      obtain ⟨answer, answered⟩ := answers task member
      have same := finishes_unique (steady task) ⟨fuel, answered⟩ yes
      rw [answered, same]

/-- A list of tasks ends without a fault when every task does. -/
theorem gather_ok_iff {Output : Type u} (perform : Task → Attempt Fault Output) (list : List Task)
    (outputs : List Output) :
    gather perform list = some (.ok outputs) ↔
      List.Forall₂ (fun task output => perform task = some (.ok output)) list outputs := by
  induction list generalizing outputs with
  | nil =>
      rw [List.forall₂_nil_left_iff]
      simp [gather, eq_comm]
  | cons task rest induction =>
      rw [List.forall₂_cons_left_iff]
      constructor
      · intro run
        obtain ⟨output, first, later⟩ := and_then_ok run
        obtain ⟨others, gathered, same⟩ := and_then_ok later
        simp only [Option.some.injEq, Except.ok.injEq] at same
        exact ⟨output, others, first, (induction others).mp gathered, same.symm⟩
      · intro described
        obtain ⟨output, others, first, later, same⟩ := described
        simp only [gather, first, (induction others).mpr later, Attempt.andThen, same]

theorem gather_mono {Output : Type u} {perform further : Task → Attempt Fault Output}
    (answers : ∀ task outcome, perform task = some outcome → further task = some outcome)
    {list : List Task} {outcome : Except Fault (List Output)}
    (run : gather perform list = some outcome) : gather further list = some outcome := by
  induction list generalizing outcome with
  | nil => exact run
  | cons task rest induction =>
      apply and_then_mono (answers task) _ run
      intro output outcome later
      exact and_then_mono (fun _ => induction) (fun _ _ same => same) later

theorem gather_steady {Output : Type u} {perform : Task → Nat → Attempt Fault Output}
    (steady : ∀ task, Steady (perform task)) (list : List Task) :
    Steady fun fuel => gather (fun task => perform task fuel) list := by
  intro fuel more outcome larger run
  exact gather_mono (fun task outcome => steady task fuel more outcome larger) run

/-- The tasks may need different budgets. -/
theorem gather_finishes {Output : Type u} {perform : Task → Nat → Attempt Fault Output}
    (steady : ∀ task, Steady (perform task)) (list : List Task) (outputs : List Output) :
    Finishes (fun fuel => gather (fun task => perform task fuel) list) (.ok outputs) ↔
      List.Forall₂ (fun task output => Finishes (perform task) (.ok output)) list outputs := by
  constructor
  · intro finishes
    obtain ⟨fuel, run⟩ := finishes
    apply List.Forall₂.imp _ ((gather_ok_iff _ _ _).mp run)
    intro task output performed
    exact ⟨fuel, performed⟩
  · intro performed
    induction performed with
    | nil => exact ⟨0, rfl⟩
    | @cons task output rest outputs first later induction =>
        obtain ⟨enough, first⟩ := first
        obtain ⟨others, gathered⟩ := induction
        have firstLarge := steady task enough (max enough others) _ (Nat.le_max_left _ _) first
        have laterLarge := gather_steady steady rest others (max enough others) _
          (Nat.le_max_right _ _) gathered
        exact ⟨max enough others, by simp only [gather, firstLarge, laterLarge, Attempt.andThen]⟩

end Collections

section Rules

variable {State : Type u} {Result : Type v} {Fault : Type w}
variable {body : Nat → State → Attempt Fault (Pass State Result)}

theorem loop_steady (steady : ∀ state, Steady fun fuel => body fuel state) (state : State) :
    Steady fun fuel => loop body fuel state := by
  intro fuel
  induction fuel generalizing state with
  | zero =>
      intro more output _ run
      simp [loop] at run
  | succ fuel induction =>
      intro more output larger run
      obtain ⟨rest, rfl⟩ : ∃ rest, more = rest + 1 := ⟨more - 1, by omega⟩
      have bound : fuel ≤ rest := by omega
      cases pass : body fuel state with
      | none => simp [loop, pass] at run
      | some outcome =>
          have same : body rest state = some outcome :=
            steady state fuel rest outcome bound pass
          cases outcome with
          | error fault => simpa [loop, pass, same] using run
          | ok next =>
              cases next with
              | done result => simpa [loop, pass, same] using run
              | again next =>
                  simp only [loop, pass] at run
                  simp only [loop, same]
                  exact induction next rest output bound run

theorem loop_again (steady : ∀ state, Steady fun fuel => body fuel state) {state next : State}
    (pass : Finishes (fun fuel => body fuel state) (.ok (.again next)))
    (output : Except Fault Result) :
    Finishes (fun fuel => loop body fuel state) output ↔
      Finishes (fun fuel => loop body fuel next) output := by
  obtain ⟨enough, pass⟩ := pass
  constructor
  · intro finishes
    obtain ⟨fuel, run⟩ := finishes
    have large := loop_steady steady state fuel (max fuel enough + 1) output (by omega) run
    have same := steady state enough (max fuel enough) _ (Nat.le_max_right _ _) pass
    simp only [loop, same] at large
    exact ⟨max fuel enough, large⟩
  · intro finishes
    obtain ⟨fuel, run⟩ := finishes
    have large := loop_steady steady next fuel (max fuel enough) output (Nat.le_max_left _ _) run
    have same := steady state enough (max fuel enough) _ (Nat.le_max_right _ _) pass
    exact ⟨max fuel enough + 1, by simp only [loop, same, large]⟩

theorem loop_done (steady : ∀ state, Steady fun fuel => body fuel state) {state : State}
    {result : Result} (pass : Finishes (fun fuel => body fuel state) (.ok (.done result)))
    (output : Except Fault Result) :
    Finishes (fun fuel => loop body fuel state) output ↔ output = .ok result := by
  apply finishes_iff (loop_steady steady state)
  obtain ⟨fuel, pass⟩ := pass
  exact ⟨fuel + 1, by simp only [loop, pass]⟩

theorem loop_fault (steady : ∀ state, Steady fun fuel => body fuel state) {state : State}
    {fault : Fault} (pass : Finishes (fun fuel => body fuel state) (.error fault))
    (output : Except Fault Result) :
    Finishes (fun fuel => loop body fuel state) output ↔ output = .error fault := by
  apply finishes_iff (loop_steady steady state)
  obtain ⟨fuel, pass⟩ := pass
  exact ⟨fuel + 1, by simp only [loop, pass]⟩

theorem loop_first_pass {state : State} {output : Except Fault Result}
    (finishes : Finishes (fun fuel => loop body fuel state) output) :
    ∃ outcome, Finishes (fun fuel => body fuel state) outcome := by
  obtain ⟨fuel, run⟩ := finishes
  cases fuel with
  | zero => simp [loop] at run
  | succ fuel =>
      cases pass : body fuel state with
      | none => simp [loop, pass] at run
      | some outcome => exact ⟨outcome, fuel, pass⟩

/-- A set of states that the body never leaves keeps the loop running for ever. -/
theorem loop_diverges (stuck : State → Prop)
    (stays : ∀ fuel state, stuck state →
      ∃ next, body fuel state = some (.ok (.again next)) ∧ stuck next)
    {state : State} (holds : stuck state) (output : Except Fault Result) :
    ¬Finishes (fun fuel => loop body fuel state) output := by
  intro finishes
  obtain ⟨fuel, run⟩ := finishes
  induction fuel generalizing state with
  | zero => simp [loop] at run
  | succ fuel induction =>
      obtain ⟨next, pass, kept⟩ := stays fuel state holds
      simp only [loop, pass] at run
      exact induction kept run

end Rules

end ACBackup.Library.Loop
