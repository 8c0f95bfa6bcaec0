import Mathlib

/-!
Parties that wait for locks which other parties hold. The locks are ordered when a
party only waits for a lock below those it holds; the waiting then ends at a party
that waits for nothing.
-/

namespace ACBackup.Library.LockOrder

set_option autoImplicit false

universe u v

variable {Party : Type u} {Lock : Type v}

/-- `owned` says that nobody waits for a lock that is free. -/
structure Ordered (holds waits : Party → Lock → Prop) (below : Lock → Lock → Prop) : Prop where
  wellFounded : WellFounded below
  owned : ∀ party lock, waits party lock → ∃ holder, holds holder lock
  descends : ∀ party held wanted, holds party held → waits party wanted → below wanted held

variable {holds waits : Party → Lock → Prop} {below : Lock → Lock → Prop}

/-- The induction is on the lock that is held. -/
theorem holder_unblocked (ordered : Ordered holds waits below) {party : Party} {lock : Lock}
    (held : holds party lock) : ∃ holder, (∃ lock, holds holder lock) ∧ ∀ wanted,
      ¬waits holder wanted := by
  induction lock using ordered.wellFounded.induction generalizing party with
  | _ lock induction =>
      by_cases waiting : ∃ wanted, waits party wanted
      · obtain ⟨wanted, waits⟩ := waiting
        obtain ⟨holder, holding⟩ := ordered.owned party wanted waits
        exact induction wanted (ordered.descends party lock wanted held waits) holding
      · exact ⟨party, ⟨lock, held⟩, not_exists.mp waiting⟩

/-- A party that waits, waits in the end for one that does not. -/
theorem somebody_unblocked (ordered : Ordered holds waits below) (party : Party) :
    ∃ other, (other = party ∨ ∃ lock, holds other lock) ∧ ∀ wanted, ¬waits other wanted := by
  by_cases waiting : ∃ wanted, waits party wanted
  · obtain ⟨wanted, waits⟩ := waiting
    obtain ⟨holder, holding⟩ := ordered.owned party wanted waits
    obtain ⟨other, holds, free⟩ := holder_unblocked ordered holding
    exact ⟨other, .inr holds, free⟩
  · exact ⟨party, .inl rfl, not_exists.mp waiting⟩

end ACBackup.Library.LockOrder
