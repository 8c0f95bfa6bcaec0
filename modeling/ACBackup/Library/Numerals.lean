import Mathlib

/-!
Decimal numerals of a fixed width, and texts that are made of them. Texts of the
same layout are ordered like the lists of their numbers.
-/

namespace ACBackup.Library.Numerals

set_option autoImplicit false

section Order

variable {Item : Type} [LinearOrder Item]

theorem append_lt_append_iff {left right leftRest rightRest : List Item}
    (same : left.length = right.length) :
    left ++ leftRest < right ++ rightRest ↔
      left < right ∨ left = right ∧ leftRest < rightRest := by
  induction left generalizing right with
  | nil =>
      rw [List.length_nil] at same
      rw [List.eq_nil_of_length_eq_zero same.symm]
      simp
  | cons first left induction =>
      cases right with
      | nil => cases same
      | cons other right =>
          rw [List.cons_append, List.cons_append, List.cons_lt_cons_iff, List.cons_lt_cons_iff,
            induction (Nat.succ.inj same), List.cons.injEq]
          tauto

end Order

def digit (value : Nat) : Char := Char.ofNat (48 + value)

def numeral : Nat → Nat → List Char
  | 0, _ => []
  | width + 1, value => digit (value / 10 ^ width % 10) :: numeral width value

def padded (width value : Nat) : List Char := numeral (max width (Nat.log 10 value + 1)) value

theorem digit_to_nat {value : Nat} (bound : value < 10) : (digit value).toNat = 48 + value := by
  have valid : (48 + value).isValidChar := .inl (by omega)
  rw [digit, Char.ofNat, dif_pos valid]
  rfl

theorem digit_lt_iff {left right : Nat} (leftBound : left < 10) (rightBound : right < 10) :
    digit left < digit right ↔ left < right := by
  have order : digit left < digit right ↔ (digit left).toNat < (digit right).toNat := Iff.rfl
  rw [order, digit_to_nat leftBound, digit_to_nat rightBound]
  omega

theorem digit_inj {left right : Nat} (leftBound : left < 10) (rightBound : right < 10) :
    digit left = digit right ↔ left = right := by
  constructor
  · intro same
    have numbers := congrArg Char.toNat same
    rw [digit_to_nat leftBound, digit_to_nat rightBound] at numbers
    omega
  · rintro rfl
    rfl

theorem numeral_length (width value : Nat) : (numeral width value).length = width := by
  induction width with
  | zero => rfl
  | succ width induction => rw [numeral, List.length_cons, induction]

theorem numeral_mod (width value : Nat) : numeral width (value % 10 ^ width) = numeral width value := by
  have digits : ∀ length ≤ width, numeral length (value % 10 ^ width) = numeral length value := by
    intro length
    induction length with
    | zero =>
        intro _
        rfl
    | succ length induction =>
        intro bound
        rw [numeral, numeral, induction (by omega)]
        congr 2
        obtain ⟨more, rfl⟩ := Nat.exists_eq_add_of_lt bound
        have split : (10 : Nat) ^ (length + more + 1) = 10 ^ length * 10 ^ (more + 1) := by ring
        rw [split, Nat.mod_mul_right_div_self, pow_succ, Nat.mod_mul_left_mod]
  exact digits width le_rfl

/-- The order of numbers is that of their numerals. -/
theorem numeral_lt_iff {width left right : Nat} (leftBound : left < 10 ^ width)
    (rightBound : right < 10 ^ width) :
    numeral width left < numeral width right ↔ left < right := by
  induction width generalizing left right with
  | zero =>
      simp only [pow_zero, Nat.lt_one_iff] at leftBound rightBound
      simp [numeral, leftBound, rightBound]
  | succ width induction =>
      have positive : 0 < 10 ^ width := Nat.pow_pos (by decide)
      have leftDigit : left / 10 ^ width < 10 := by
        rw [Nat.div_lt_iff_lt_mul positive, mul_comm, ← pow_succ]
        exact leftBound
      have rightDigit : right / 10 ^ width < 10 := by
        rw [Nat.div_lt_iff_lt_mul positive, mul_comm, ← pow_succ]
        exact rightBound
      have later := induction (Nat.mod_lt left positive) (Nat.mod_lt right positive)
      rw [numeral_mod, numeral_mod] at later
      rw [numeral, numeral, Nat.mod_eq_of_lt leftDigit, Nat.mod_eq_of_lt rightDigit,
        List.cons_lt_cons_iff, digit_lt_iff leftDigit rightDigit, digit_inj leftDigit rightDigit,
        later]
      have leftParts := Nat.div_add_mod left (10 ^ width)
      have rightParts := Nat.div_add_mod right (10 ^ width)
      have leftRest := Nat.mod_lt left positive
      have rightRest := Nat.mod_lt right positive
      constructor
      · rintro (high | ⟨high, low⟩)
        · have step : 10 ^ width * (left / 10 ^ width) + 10 ^ width ≤
              10 ^ width * (right / 10 ^ width) := by
            rw [← Nat.mul_succ]
            exact Nat.mul_le_mul_left _ high
          omega
        · rw [high] at leftParts
          omega
      · intro less
        rcases Nat.lt_or_eq_of_le (Nat.div_le_div_right (Nat.le_of_lt less)) with high | high
        · exact .inl high
        · rw [high] at leftParts
          exact .inr ⟨high, by omega⟩

theorem numeral_inj {width left right : Nat} (leftBound : left < 10 ^ width)
    (rightBound : right < 10 ^ width) :
    numeral width left = numeral width right ↔ left = right := by
  constructor
  · intro same
    rcases Nat.lt_trichotomy left right with less | equal | greater
    · have order := (numeral_lt_iff leftBound rightBound).mpr less
      rw [same] at order
      exact absurd order (lt_irrefl _)
    · exact equal
    · have order := (numeral_lt_iff rightBound leftBound).mpr greater
      rw [same] at order
      exact absurd order (lt_irrefl _)
  · rintro rfl
    rfl

theorem padded_eq_numeral {width value : Nat} (positive : 0 < width) (bound : value < 10 ^ width) :
    padded width value = numeral width value := by
  have digits : Nat.log 10 value < width := Nat.log_lt_of_lt_pow' positive.ne' bound
  rw [padded, max_eq_left digits]

section Layouts

abbrev Layout := List (Nat × List Char)

def render : Layout → List Nat → List Char
  | (width, text) :: rest, value :: values => padded width value ++ (text ++ render rest values)
  | _, _ => []

def Fits (layout : Layout) (values : List Nat) : Prop :=
  List.Forall₂ (fun part value => 0 < part.1 ∧ value < 10 ^ part.1) layout values

theorem render_length {layout : Layout} {left right : List Nat} (leftFits : Fits layout left)
    (rightFits : Fits layout right) : (render layout left).length = (render layout right).length := by
  induction leftFits generalizing right with
  | nil =>
      cases rightFits
      rfl
  | cons leftHere _ induction =>
      cases rightFits with
      | cons rightHere rightLater =>
          simp only [render, padded_eq_numeral leftHere.1 leftHere.2,
            padded_eq_numeral rightHere.1 rightHere.2, List.length_append, numeral_length,
            induction rightLater]

/-- Texts of one layout are ordered like their numbers, the first ones first. -/
theorem render_lt_iff {layout : Layout} {left right : List Nat} (leftFits : Fits layout left)
    (rightFits : Fits layout right) : render layout left < render layout right ↔ left < right := by
  induction leftFits generalizing right with
  | nil =>
      cases rightFits
      simp [render]
  | @cons part value layout values leftHere leftLater induction =>
      cases rightFits with
      | @cons _ other _ others rightHere rightLater =>
          have lengths : (numeral part.1 value).length = (numeral part.1 other).length := by
            rw [numeral_length, numeral_length]
          simp only [render, padded_eq_numeral leftHere.1 leftHere.2,
            padded_eq_numeral rightHere.1 rightHere.2]
          rw [append_lt_append_iff lengths, append_lt_append_iff rfl,
            numeral_lt_iff leftHere.2 rightHere.2, numeral_inj leftHere.2 rightHere.2,
            induction rightLater, List.cons_lt_cons_iff]
          simp

end Layouts

end ACBackup.Library.Numerals
