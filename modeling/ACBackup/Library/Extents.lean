import Mathlib

/-!
Extents of append-only files. `slice` is what a seek followed by one read of at
most `size` elements delivers; it is short when the file ends inside the extent.
`refill` is what a reader obtains that answers a short read by seeking to the
same offset again: the elements that are there, repeated until the request is
full.
-/

namespace ACBackup.Library.Extents

set_option autoImplicit false

universe u

variable {Item : Type u}

def slice (file : List Item) (offset size : Nat) : List Item := (file.drop offset).take size

def refill (available : List Item) (count : Nat) : List Item :=
  (List.replicate count available).flatten.take count

theorem slice_length (file : List Item) (offset size : Nat) :
    (slice file offset size).length = min size (file.length - offset) := by
  simp [slice]

theorem slice_length_inside {file : List Item} {offset size : Nat}
    (inside : offset + size ≤ file.length) : (slice file offset size).length = size := by
  rw [slice_length]
  omega

theorem slice_append_inside {file : List Item} (more : List Item) {offset size : Nat}
    (inside : offset + size ≤ file.length) :
    slice (file ++ more) offset size = slice file offset size := by
  have start : offset ≤ file.length := by omega
  rw [slice, slice, List.drop_append_of_le_length start, List.take_append_of_le_length]
  simp only [List.length_drop]
  omega

theorem slice_appended (file more : List Item) :
    slice (file ++ more) file.length more.length = more := by
  simp [slice]

/-- Two adjacent extents read as one. -/
theorem slice_add (file : List Item) (offset first second : Nat) :
    slice file offset (first + second) =
      slice file offset first ++ slice file (offset + first) second := by
  simp only [slice]
  rw [List.take_add, List.drop_drop]

theorem refill_of_short {available : List Item} {count : Nat}
    (short : available.length < count) (present : available ≠ []) :
    refill available count = available ++ refill available (count - available.length) := by
  have positive : 0 < available.length := List.length_pos_iff.mpr present
  obtain ⟨rest, rfl⟩ : ∃ rest, count = rest + 1 := ⟨count - 1, by omega⟩
  have enough : rest + 1 - available.length ≤
      (List.replicate (rest + 1 - available.length) available).flatten.length := by
    simp only [List.length_flatten, List.map_replicate, List.sum_replicate, smul_eq_mul]
    exact Nat.le_mul_of_pos_right _ positive
  have split : List.replicate rest available =
      List.replicate (rest + 1 - available.length) available ++
        List.replicate (available.length - 1) available := by
    rw [← List.replicate_add]
    congr 1
    omega
  rw [refill, List.replicate_succ, List.flatten_cons, List.take_append, List.take_of_length_le
    (by omega), refill, split, List.flatten_append, List.take_append_of_le_length enough]

theorem refill_of_long {available : List Item} {count : Nat}
    (long : count ≤ available.length) : refill available count = available.take count := by
  cases count with
  | zero => simp [refill]
  | succ count =>
      rw [refill, List.replicate_succ, List.flatten_cons, List.take_append_of_le_length long]

theorem refill_length {available : List Item} (present : available ≠ []) (count : Nat) :
    (refill available count).length = count := by
  have positive : 0 < available.length := List.length_pos_iff.mpr present
  simp only [refill, List.length_take, List.length_flatten, List.map_replicate,
    List.sum_replicate, smul_eq_mul]
  exact Nat.min_eq_left (Nat.le_mul_of_pos_right _ positive)

@[simp] theorem refill_zero (available : List Item) : refill available 0 = [] := by
  simp [refill]

/-- A complete extent is delivered as it stands. -/
theorem refill_slice_inside {file : List Item} {offset count : Nat}
    (inside : offset + count ≤ file.length) :
    refill (file.drop offset) count = slice file offset count := by
  rw [refill_of_long (by rw [List.length_drop]; omega), slice]

section Tilings

/-! Extents of one file, as offsets and sizes, and the positions they stand for. -/

def positions (extents : List (Nat × Nat)) : List Nat :=
  extents.flatMap fun extent => List.range' extent.1 extent.2

/-- Every position below `length` is in one extent, and in one only. -/
def Tiles (extents : List (Nat × Nat)) (length : Nat) : Prop :=
  (positions extents).Perm (List.range length)

def Inside (extent : Nat × Nat) (position : Nat) : Prop :=
  extent.1 ≤ position ∧ position < extent.1 + extent.2

theorem positions_append (first second : List (Nat × Nat)) :
    positions (first ++ second) = positions first ++ positions second := by
  simp [positions]

theorem positions_joined (offset first second : Nat) :
    positions [(offset, first), (offset + first, second)] = positions [(offset, first + second)] := by
  simp only [positions, List.flatMap_cons, List.flatMap_nil, List.append_nil]
  exact List.range'_append_1

theorem tiles_nil : Tiles [] 0 := List.Perm.refl []

variable {extents : List (Nat × Nat)} {length : Nat}

theorem tiles_of_positions {other : List (Nat × Nat)} (tiles : Tiles extents length)
    (same : (positions other).Perm (positions extents)) : Tiles other length :=
  same.trans tiles

theorem tiles_push (tiles : Tiles extents length) (size : Nat) :
    Tiles (extents ++ [(length, size)]) (length + size) := by
  have grown : List.range (length + size) = List.range length ++ List.range' length size := by
    have joined := @List.range'_append_1 0 length size
    rw [Nat.zero_add] at joined
    rw [List.range_eq_range', List.range_eq_range', joined]
  rw [Tiles, positions_append, grown]
  apply List.Perm.append tiles
  simp [positions]

theorem mem_positions (position : Nat) :
    position ∈ positions extents ↔ ∃ extent ∈ extents, Inside extent position := by
  simp only [positions, List.mem_flatMap, List.mem_range'_1, Inside]

theorem tiles_covered (tiles : Tiles extents length) (position : Nat) :
    (∃ extent ∈ extents, Inside extent position) ↔ position < length := by
  rw [← mem_positions, tiles.mem_iff, List.mem_range]

theorem tiles_disjoint (tiles : Tiles extents length) :
    extents.Pairwise fun left right => ∀ position, Inside left position → ¬Inside right position := by
  have apart := (List.nodup_flatMap.mp (tiles.nodup_iff.mpr List.nodup_range)).2
  apply apart.imp
  intro left right disjoint position inLeft inRight
  apply @disjoint position
  · exact List.mem_range'_1.mpr inLeft
  · exact List.mem_range'_1.mpr inRight

theorem tiles_sum (tiles : Tiles extents length) : (extents.map Prod.snd).sum = length := by
  have lengths := tiles.length_eq
  simpa only [positions, List.length_flatMap, List.length_range', List.length_range] using lengths

end Tilings

end ACBackup.Library.Extents
