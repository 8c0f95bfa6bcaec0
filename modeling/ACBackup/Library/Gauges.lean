import Mathlib

/-!
A total that is announced before the work begins, and what is done of it, both in
machine words. The work is finished piece by piece, and parts of the total may turn
out not to be needed.
-/

namespace ACBackup.Library.Gauges

set_option autoImplicit false

structure Gauge (width : Nat) where
  total : BitVec width
  done : BitVec width

inductive Change (width : Nat) where
  | finish (size : BitVec width)
  | reduce (size : BitVec width)

variable {width : Nat}

def Gauge.apply (gauge : Gauge width) : Change width → Gauge width
  | .finish size => { gauge with done := gauge.done + size }
  | .reduce size => { gauge with total := gauge.total - size }

def Gauge.applyAll (gauge : Gauge width) (changes : List (Change width)) : Gauge width :=
  changes.foldl Gauge.apply gauge

def Possible (gauge : Gauge width) : Change width → Prop
  | .finish _ => True
  | .reduce size => size ≤ gauge.total

/-- Before every change and after the last one, no more is done than announced. -/
def Sound (gauge : Gauge width) : List (Change width) → Prop
  | [] => gauge.done ≤ gauge.total
  | change :: rest =>
      gauge.done ≤ gauge.total ∧ Possible gauge change ∧ Sound (gauge.apply change) rest

def finishedSize : Change width → Nat
  | .finish size => size.toNat
  | .reduce _ => 0

def reducedSize : Change width → Nat
  | .finish _ => 0
  | .reduce size => size.toNat

def finished (changes : List (Change width)) : Nat := (changes.map finishedSize).sum

def reduced (changes : List (Change width)) : Nat := (changes.map reducedSize).sum

theorem sound_start {gauge : Gauge width} {changes : List (Change width)}
    (sound : Sound gauge changes) : gauge.done ≤ gauge.total := by
  cases changes with
  | nil => exact sound
  | cons change rest => exact sound.1

theorem sound_append {first second : List (Change width)} {gauge : Gauge width}
    (sound : Sound gauge (first ++ second)) : Sound (gauge.applyAll first) second := by
  induction first generalizing gauge with
  | nil => exact sound
  | cons change rest induction => exact induction sound.2.2

/-- As long as the finished sizes fit in a word, the gauge is sound exactly when
everything that is finished and everything that is taken away fit in the total. -/
theorem sound_iff {gauge : Gauge width} {changes : List (Change width)}
    (fits : gauge.done.toNat + finished changes < 2 ^ width) :
    Sound gauge changes ↔
      gauge.done.toNat + finished changes + reduced changes ≤ gauge.total.toNat := by
  induction changes generalizing gauge with
  | nil => simp [Sound, finished, reduced, BitVec.le_def]
  | cons change rest induction =>
      cases change with
      | finish size =>
          have sizes : finished (.finish size :: rest) = size.toNat + finished rest := by
            simp [finished, finishedSize]
          have same : reduced (.finish size :: rest) = reduced rest := by
            simp [reduced, reducedSize]
          rw [sizes] at fits
          have exact : (gauge.apply (.finish size)).done.toNat = gauge.done.toNat + size.toNat := by
            simp only [Gauge.apply, BitVec.toNat_add]
            exact Nat.mod_eq_of_lt (by omega)
          have total : (gauge.apply (.finish size)).total = gauge.total := rfl
          have tail := @induction (gauge.apply (.finish size)) (by omega)
          rw [exact, total] at tail
          simp only [Sound, Possible, true_and, tail, BitVec.le_def, sizes, same]
          omega
      | reduce size =>
          have sizes : reduced (.reduce size :: rest) = size.toNat + reduced rest := by
            simp [reduced, reducedSize]
          have same : finished (.reduce size :: rest) = finished rest := by
            simp [finished, finishedSize]
          rw [same] at fits
          have done : (gauge.apply (.reduce size)).done = gauge.done := rfl
          have tail := @induction (gauge.apply (.reduce size)) fits
          rw [done] at tail
          simp only [Sound, Possible, tail, BitVec.le_def, sizes, same]
          by_cases enough : size.toNat ≤ gauge.total.toNat
          · have exact : (gauge.apply (.reduce size)).total.toNat =
                gauge.total.toNat - size.toNat :=
              BitVec.toNat_sub_of_le enough
            rw [exact]
            omega
          · constructor
            · intro sound
              exact absurd sound.2.1 enough
            · intro covered
              omega

end ACBackup.Library.Gauges
