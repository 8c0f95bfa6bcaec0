import Mathlib

/-!
Inversion rules for computations that may raise: what a successful run says
about its parts.
-/

namespace ACBackup.Library.Outcome

set_option autoImplicit false

universe u v

theorem bind_ok {Fault : Type u} {First Second : Type v} {first : Except Fault First}
    {second : First → Except Fault Second} {result : Second}
    (run : first >>= second = .ok result) :
    ∃ value, first = .ok value ∧ second value = .ok result := by
  cases first with
  | error fault => simp [bind, Except.bind] at run
  | ok value => exact ⟨value, rfl, run⟩

theorem fold_m_ok {Fault : Type u} {State : Type v} {Source : Type v}
    {f : State → Source → Except Fault State} (list : List Source)
    (succeeds : ∀ source ∈ list, ∀ state, ∃ next, f state source = .ok next) (start : State) :
    ∃ final, list.foldlM f start = .ok final := by
  induction list generalizing start with
  | nil => exact ⟨start, rfl⟩
  | cons source rest induction =>
      obtain ⟨next, first⟩ := succeeds source (List.mem_cons_self ..) start
      obtain ⟨final, later⟩ :=
        induction (fun other inside => succeeds other (List.mem_cons_of_mem _ inside)) next
      refine ⟨final, ?_⟩
      rw [List.foldlM_cons, first]
      exact later

theorem fold_m_related {Fault : Type u} {State Other Source : Type v}
    {f : State → Source → Except Fault State} {g : Other → Source → Except Fault Other}
    {related : State → Other → Prop} (list : List Source)
    (along : ∀ source state other next, related state other → f state source = .ok next →
      ∃ further, g other source = .ok further ∧ related next further)
    {start final : State} {otherStart : Other} (initial : related start otherStart)
    (run : list.foldlM f start = .ok final) :
    ∃ otherFinal, list.foldlM g otherStart = .ok otherFinal ∧ related final otherFinal := by
  induction list generalizing start otherStart with
  | nil =>
      cases run
      exact ⟨otherStart, rfl, initial⟩
  | cons source rest induction =>
      rw [List.foldlM_cons] at run
      obtain ⟨next, first, later⟩ := bind_ok run
      obtain ⟨further, second, both⟩ := along source start otherStart next initial first
      obtain ⟨otherFinal, otherLater, ends⟩ := induction both later
      refine ⟨otherFinal, ?_, ends⟩
      rw [List.foldlM_cons, second]
      exact otherLater

/-- A successful traversal is one success for each element. -/
theorem map_m_ok_iff {Fault : Type u} {Source Target : Type v}
    (f : Source → Except Fault Target) (list : List Source) (results : List Target) :
    list.mapM f = .ok results ↔
      List.Forall₂ (fun source target => f source = .ok target) list results := by
  induction list generalizing results with
  | nil =>
      rw [List.mapM_nil, List.forall₂_nil_left_iff]
      constructor
      · intro same
        cases same
        rfl
      · intro same
        rw [same]
        rfl
  | cons source rest induction =>
      rw [List.mapM_cons, List.forall₂_cons_left_iff]
      constructor
      · intro run
        obtain ⟨target, first, later⟩ := bind_ok run
        obtain ⟨targets, others, same⟩ := bind_ok later
        cases same
        exact ⟨target, targets, first, (induction targets).mp others, rfl⟩
      · intro described
        obtain ⟨target, targets, first, others, same⟩ := described
        rw [first, same, (induction targets).mpr others]
        rfl

theorem forall_two_of_forall {Source : Type u} {Target : Type v} {related : Source → Target → Prop}
    {list : List Source} (every : ∀ source ∈ list, ∃ target, related source target) :
    ∃ results, List.Forall₂ related list results := by
  induction list with
  | nil => exact ⟨[], .nil⟩
  | cons source rest induction =>
      obtain ⟨target, first⟩ := every source (List.mem_cons_self ..)
      obtain ⟨targets, others⟩ :=
        induction fun other inside => every other (List.mem_cons_of_mem _ inside)
      exact ⟨target :: targets, .cons first others⟩

theorem forall_two_mem {Source : Type u} {Target : Type v} {related : Source → Target → Prop}
    {list : List Source} {results : List Target} (both : List.Forall₂ related list results)
    {source : Source} (member : source ∈ list) : ∃ target ∈ results, related source target := by
  induction both with
  | nil => cases member
  | cons first _ induction =>
      rcases List.mem_cons.mp member with same | later
      · rw [same]
        exact ⟨_, List.mem_cons_self .., first⟩
      · obtain ⟨target, inside, found⟩ := induction later
        exact ⟨target, List.mem_cons_of_mem _ inside, found⟩

theorem forall_two_eq_map {Source : Type u} {Target : Type v} {related : Source → Target → Prop}
    {f : Source → Target} {list : List Source} {results : List Target}
    (both : List.Forall₂ related list results)
    (only : ∀ source ∈ list, ∀ target, related source target → target = f source) :
    results = list.map f := by
  induction both with
  | nil => rfl
  | @cons source target rest targets first _ induction =>
      have head := only source (List.mem_cons_self ..) target first
      have tail := induction fun other inside => only other (List.mem_cons_of_mem _ inside)
      rw [head, tail, List.map_cons]

theorem forall_two_map_eq {Source : Type u} {First Second Target : Type v}
    {left : Source → First → Prop} {right : Source → Second → Prop} {f : First → Target}
    {g : Second → Target} {list : List Source} {firsts : List First} {seconds : List Second}
    (first : List.Forall₂ left list firsts) (second : List.Forall₂ right list seconds)
    (agree : ∀ source image other, left source image → right source other →
      f image = g other) : firsts.map f = seconds.map g := by
  induction first generalizing seconds with
  | nil =>
      cases second
      rfl
  | @cons source image rest images here _ induction =>
      cases second with
      | @cons _ other _ others there later =>
          rw [List.map_cons, List.map_cons, agree source image other here there, induction later]

theorem forall_two_filter_map {Source : Type u} {Target : Type v}
    {related : Source → Target → Prop} {f : Source → Option Target} {list : List Source}
    (every : ∀ source ∈ list, ∃ target, f source = some target ∧ related source target) :
    List.Forall₂ related list (list.filterMap f) := by
  induction list with
  | nil => exact .nil
  | cons source rest induction =>
      obtain ⟨target, same, holds⟩ := every source (List.mem_cons_self ..)
      rw [List.filterMap_cons_some same]
      exact .cons holds (induction fun other member =>
        every other (List.mem_cons_of_mem _ member))

theorem map_m_ok_mem {Fault : Type u} {Source Target : Type v} {f : Source → Except Fault Target}
    {list : List Source} {results : List Target} (run : list.mapM f = .ok results)
    {target : Target} (member : target ∈ results) :
    ∃ source ∈ list, f source = .ok target :=
  forall_two_mem ((map_m_ok_iff f list results).mp run).flip member

theorem map_m_nodup {Fault : Type u} {Source Target : Type v} {f : Source → Except Fault Target}
    {list : List Source} {results : List Target} (run : list.mapM f = .ok results)
    (tells : ∀ first second target, f first = .ok target → f second = .ok target →
      first = second) (distinct : list.Nodup) : results.Nodup := by
  have both := (map_m_ok_iff f list results).mp run
  clear run
  induction both with
  | nil => exact List.nodup_nil
  | @cons source target rest targets first others induction =>
      have apart := List.nodup_cons.mp distinct
      refine List.nodup_cons.mpr ⟨?_, induction apart.2⟩
      intro member
      obtain ⟨other, inside, found⟩ := forall_two_mem others.flip member
      rw [tells source other target first found] at apart
      exact apart.1 inside

end ACBackup.Library.Outcome
