import Mathlib

/-!
A map that is filled from a list, where a later entry overwrites an earlier one
with the same key.
-/

namespace ACBackup.Library.Overwriting

set_option autoImplicit false

universe u v w

variable {Entry : Type u} {Key : Type v} {Value : Type w} [Ord Key] [Std.TransOrd Key]

/-- An entry without a key changes nothing. -/
def overwrite (key : Entry → Option Key) (value : Entry → Value) (map : Std.TreeMap Key Value)
    (entry : Entry) : Std.TreeMap Key Value :=
  match key entry with
  | some name => map.insert name (value entry)
  | none => map

variable {key : Entry → Option Key} {value : Entry → Value}

theorem overwrite_same (map : Std.TreeMap Key Value) {entry : Entry} {wanted : Key}
    (named : key entry = some wanted) :
    (overwrite key value map entry)[wanted]? = some (value entry) := by
  simp only [overwrite, named, Std.TreeMap.getElem?_insert_self]

variable [Std.LawfulEqOrd Key]

theorem overwrite_other (map : Std.TreeMap Key Value) {entry : Entry} {wanted : Key}
    (other : key entry ≠ some wanted) :
    (overwrite key value map entry)[wanted]? = map[wanted]? := by
  unfold overwrite
  cases named : key entry with
  | none => rfl
  | some name =>
      have different : compare name wanted ≠ .eq := by
        rw [ne_eq, Std.compare_eq_iff_eq]
        intro same
        exact other (named.trans (congrArg some same))
      simp only [Std.TreeMap.getElem?_insert, if_neg different]

/-- What a key leads to in the end is the last entry with that key. -/
theorem overwritten_iff (entries : List Entry) (start : Std.TreeMap Key Value) (wanted : Key)
    (found : Value) :
    (entries.foldl (overwrite key value) start)[wanted]? = some found ↔
      (∃ front entry back, entries = front ++ entry :: back ∧ key entry = some wanted ∧
        value entry = found ∧ ∀ later ∈ back, key later ≠ some wanted) ∨
      (start[wanted]? = some found ∧ ∀ entry ∈ entries, key entry ≠ some wanted) := by
  induction entries generalizing start with
  | nil => simp
  | cons first rest induction =>
      rw [List.foldl_cons, induction]
      constructor
      · rintro (⟨front, entry, back, parts, facts⟩ | ⟨before, unnamed⟩)
        · exact .inl ⟨first :: front, entry, back, by rw [parts, List.cons_append], facts⟩
        · by_cases named : key first = some wanted
          · rw [overwrite_same start named, Option.some.injEq] at before
            exact .inl ⟨[], first, rest, rfl, named, before, unnamed⟩
          · rw [overwrite_other start named] at before
            exact .inr ⟨before, List.forall_mem_cons.mpr ⟨named, unnamed⟩⟩
      · rintro (⟨front, entry, back, parts, named, same, unnamed⟩ | ⟨before, unnamed⟩)
        · cases front with
          | nil =>
              obtain ⟨rfl, rfl⟩ := List.cons.inj parts
              exact .inr ⟨(overwrite_same start named).trans (congrArg some same), unnamed⟩
          | cons _ front =>
              obtain ⟨rfl, rfl⟩ := List.cons.inj parts
              exact .inl ⟨front, entry, back, rfl, named, same, unnamed⟩
        · obtain ⟨other, others⟩ := List.forall_mem_cons.mp unnamed
          exact .inr ⟨(overwrite_other start other).trans before, others⟩

theorem overwritten_none_iff (entries : List Entry) (start : Std.TreeMap Key Value)
    (wanted : Key) :
    (entries.foldl (overwrite key value) start)[wanted]? = none ↔
      start[wanted]? = none ∧ ∀ entry ∈ entries, key entry ≠ some wanted := by
  induction entries generalizing start with
  | nil => simp
  | cons first rest induction =>
      rw [List.foldl_cons, induction, List.forall_mem_cons, ← and_assoc]
      apply and_congr_left
      intro _
      by_cases named : key first = some wanted
      · simp [overwrite_same start named, named]
      · simp [overwrite_other start named, named]

end ACBackup.Library.Overwriting
