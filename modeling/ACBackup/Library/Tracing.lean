import Mathlib

/-!
Computations that may raise and leave a trace of events. Without its trace such
a computation is an ordinary one; what holds of all its events follows from its
parts.
-/

namespace ACBackup.Library.Tracing

set_option autoImplicit false

universe u v w

structure Traced (Event : Type u) (Fault : Type v) (Value : Type w) where
  events : List Event
  outcome : Except Fault Value

variable {Event : Type u} {Fault : Type v}

/-- Nothing happens after a fault. -/
def Traced.andThen {First Second : Type w} (first : Traced Event Fault First)
    (second : First → Traced Event Fault Second) : Traced Event Fault Second :=
  match first.outcome with
  | .ok value =>
      { events := first.events ++ (second value).events, outcome := (second value).outcome }
  | .error fault => { events := first.events, outcome := .error fault }

instance : Monad (Traced Event Fault) where
  pure value := { events := [], outcome := .ok value }
  bind := Traced.andThen

def untraced {Value : Type w} (outcome : Except Fault Value) : Traced Event Fault Value where
  events := []
  outcome := outcome

def traced {Value : Type w} (event : Event) (outcome : Except Fault Value) :
    Traced Event Fault Value where
  events := [event]
  outcome := outcome

def Traced.All {Value : Type w} (property : Event → Prop) (computation : Traced Event Fault Value) :
    Prop :=
  ∀ event ∈ computation.events, property event

section Outcome

variable {First Second Value Item : Type w}

@[simp] theorem outcome_pure (value : Value) :
    (pure value : Traced Event Fault Value).outcome = .ok value :=
  rfl

@[simp] theorem outcome_untraced (outcome : Except Fault Value) :
    (untraced outcome : Traced Event Fault Value).outcome = outcome :=
  rfl

@[simp] theorem outcome_traced (event : Event) (outcome : Except Fault Value) :
    (traced event outcome).outcome = outcome :=
  rfl

@[simp] theorem outcome_bind (first : Traced Event Fault First)
    (second : First → Traced Event Fault Second) :
    (first >>= second).outcome = first.outcome >>= fun value => (second value).outcome := by
  have unfolded : first >>= second = first.andThen second := rfl
  rw [unfolded, Traced.andThen]
  cases first.outcome <;> rfl

theorem outcome_bind_ok {first : Traced Event Fault First}
    {second : First → Traced Event Fault Second} {value : First} (succeeds : first.outcome = .ok value) :
    (first >>= second).outcome = (second value).outcome := by
  rw [outcome_bind, succeeds]
  rfl

theorem outcome_fold_m (f : Value → Item → Traced Event Fault Value) (list : List Item)
    (start : Value) :
    (list.foldlM f start).outcome =
      list.foldlM (fun state item => (f state item).outcome) start := by
  induction list generalizing start with
  | nil => rfl
  | cons item rest induction =>
      rw [List.foldlM_cons, List.foldlM_cons, outcome_bind]
      congr 1
      funext next
      exact induction next

theorem outcome_fold {f : Value → Item → Traced Event Fault Value} {g : Value → Item → Value}
    {list : List Item} (succeeds : ∀ item ∈ list, ∀ state, (f state item).outcome =
      .ok (g state item)) (start : Value) :
    (list.foldlM f start).outcome = .ok (list.foldl g start) := by
  induction list generalizing start with
  | nil => rfl
  | cons item rest induction =>
      rw [List.foldlM_cons, outcome_bind, succeeds item (List.mem_cons_self ..)]
      exact induction (fun other inside => succeeds other (List.mem_cons_of_mem _ inside)) _

end Outcome

section Events

variable {First Second Value Item : Type w} {property : Event → Prop}

@[simp] theorem all_pure (value : Value) :
    (pure value : Traced Event Fault Value).All property :=
  fun _ member => nomatch member

@[simp] theorem all_untraced (outcome : Except Fault Value) :
    (untraced outcome : Traced Event Fault Value).All property :=
  fun _ member => nomatch member

@[simp] theorem all_traced (event : Event) (outcome : Except Fault Value) :
    (traced event outcome).All property ↔ property event := by
  simp [Traced.All, traced]

theorem all_bind (first : Traced Event Fault First) (second : First → Traced Event Fault Second) :
    (first >>= second).All property ↔
      first.All property ∧ ∀ value, first.outcome = .ok value → (second value).All property := by
  have unfolded : first >>= second = first.andThen second := rfl
  rw [unfolded, Traced.andThen]
  cases outcome : first.outcome with
  | error fault => simp [Traced.All]
  | ok value => simp [Traced.All, or_imp, forall_and]

theorem all_bind_ok {first : Traced Event Fault First} {second : First → Traced Event Fault Second}
    {value : First} (succeeds : first.outcome = .ok value) :
    (first >>= second).All property ↔ first.All property ∧ (second value).All property := by
  rw [all_bind, succeeds]
  apply and_congr_right
  intro _
  constructor
  · intro every
    exact every value rfl
  · rintro holds _ same
    cases same
    exact holds

/-- The trace of a fold has a property when every step's trace has. -/
theorem all_fold_m {f : Value → Item → Traced Event Fault Value} {list : List Item}
    (steps : ∀ item ∈ list, ∀ state, (f state item).All property) (start : Value) :
    (list.foldlM f start).All property := by
  induction list generalizing start with
  | nil => exact all_pure start
  | cons item rest induction =>
      rw [List.foldlM_cons, all_bind]
      refine ⟨steps item (List.mem_cons_self ..) start, ?_⟩
      intro next _
      exact induction (fun other inside => steps other (List.mem_cons_of_mem _ inside)) next

theorem all_fold_m_item {f : Value → Item → Traced Event Fault Value} {list : List Item}
    (succeeds : ∀ item ∈ list, ∀ state, ∃ next, (f state item).outcome = .ok next) {start : Value}
    (every : (list.foldlM f start).All property) {item : Item} (member : item ∈ list) :
    ∃ state, (f state item).All property := by
  induction list generalizing start with
  | nil => cases member
  | cons first rest induction =>
      rw [List.foldlM_cons, all_bind] at every
      obtain ⟨next, outcome⟩ := succeeds first (List.mem_cons_self ..) start
      rcases List.mem_cons.mp member with rfl | later
      · exact ⟨start, every.1⟩
      · exact induction (fun other inside => succeeds other (List.mem_cons_of_mem _ inside))
          (every.2 next outcome) later

end Events

end ACBackup.Library.Tracing
