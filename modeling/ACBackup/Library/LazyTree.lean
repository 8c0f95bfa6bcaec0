import Mathlib

/-!
Trees that are made only as far as somebody looks. A node is at an address, and makes
the nodes below it when it is first asked for them. What is made is a part of the tree
that the labels describe, with every node at its own place.
-/

namespace ACBackup.Library.LazyTree

set_option autoImplicit false

universe u v

/-- `children` are the addresses of the nodes below, once they are made. -/
structure Cell (Label : Type u) where
  label : Label
  children : Option (List Nat)
  deriving DecidableEq

abbrev Heap (Label : Type u) := List (Cell Label)

variable {Label : Type u}

/-- New nodes at the end of the heap are the children of an address. -/
def attach (heap : Heap Label) (address : Nat) (cells : List (Cell Label)) : Heap Label :=
  heap.modify address (fun cell =>
    { cell with children := some (List.range' heap.length cells.length) }) ++ cells

/-- The label at a place, which is the rows to take from the root. -/
def labelAt (load : Label → Option (List Label)) (root : Label) (place : List Nat) :
    Option Label :=
  place.foldlM (fun label row => (load label).bind fun labels => labels[row]?) root

theorem label_at_root (load : Label → Option (List Label)) (root : Label) :
    labelAt load root [] = some root :=
  rfl

theorem label_at_row {load : Label → Option (List Label)} {root label : Label}
    {place : List Nat} (found : labelAt load root place = some label) {labels : List Label}
    (loads : load label = some labels) (row : Nat) :
    labelAt load root (place ++ [row]) = labels[row]? := by
  rw [labelAt] at found ⊢
  rw [List.foldlM_append, found]
  simp [loads]

theorem label_at_append {load : Label → Option (List Label)} {root label : Label}
    {place : List Nat} {row : Nat} (found : labelAt load root (place ++ [row]) = some label) :
    ∃ upper labels, labelAt load root place = some upper ∧ load upper = some labels ∧
      labels[row]? = some label := by
  rw [labelAt, List.foldlM_append] at found
  obtain ⟨upper, above, last⟩ := Option.bind_eq_some_iff.mp found
  simp only [List.foldlM_cons, List.foldlM_nil, bind_pure] at last
  obtain ⟨labels, loads, listed⟩ := Option.bind_eq_some_iff.mp last
  exact ⟨upper, labels, above, loads, listed⟩

structure Keyed {Key : Type v} (load : Label → Option (List Label)) (root : Label)
    (valid : Label → Prop) (key : Label → Option Key) (above : Key → Key) : Prop where
  root_valid : valid root
  closed : ∀ label labels, valid label → load label = some labels →
    ∀ child ∈ labels, valid child
  inner : ∀ label labels, valid label → load label = some labels →
    ∀ child ∈ labels, ∀ found, key child = some found →
      key root ≠ some found ∧ key label = some (above found)
  distinct : ∀ label labels, valid label → load label = some labels →
    ∀ (first second : Nat) (left right : Label), labels[first]? = some left →
      labels[second]? = some right → key left = key right → key left ≠ none → first = second

section Keys

variable {Key : Type v} {load : Label → Option (List Label)} {root : Label}
  {valid : Label → Prop} {key : Label → Option Key} {above : Key → Key}

theorem label_at_valid (keyed : Keyed load root valid key above) {place : List Nat}
    {label : Label} (found : labelAt load root place = some label) : valid label := by
  induction place using List.reverseRecOn generalizing label with
  | nil =>
      rw [label_at_root, Option.some.injEq] at found
      exact found ▸ keyed.root_valid
  | append_singleton place row induction =>
      obtain ⟨upper, labels, upperFound, loads, listed⟩ := label_at_append found
      exact keyed.closed upper labels (induction upperFound) loads label
        (List.mem_of_getElem? listed)

theorem keyed_row (keyed : Keyed load root valid key above) {place : List Nat} {row : Nat}
    {label : Label} {found : Key} (labelFound : labelAt load root (place ++ [row]) = some label)
    (labelKey : key label = some found) :
    key root ≠ some found ∧ ∃ upper labels, labelAt load root place = some upper ∧
      valid upper ∧ load upper = some labels ∧ labels[row]? = some label ∧
      key upper = some (above found) := by
  obtain ⟨upper, labels, upperFound, loads, listed⟩ := label_at_append labelFound
  have upperValid := label_at_valid keyed upperFound
  obtain ⟨other, upperKey⟩ := keyed.inner upper labels upperValid loads label
    (List.mem_of_getElem? listed) found labelKey
  exact ⟨other, upper, labels, upperFound, upperValid, loads, listed, upperKey⟩

theorem place_unique (keyed : Keyed load root valid key above) {first second : List Nat}
    {left right : Label} {found : Key} (leftFound : labelAt load root first = some left)
    (rightFound : labelAt load root second = some right) (leftKey : key left = some found)
    (rightKey : key right = some found) : first = second := by
  induction first using List.reverseRecOn generalizing second left right found with
  | nil =>
      rw [label_at_root, Option.some.injEq] at leftFound
      cases second using List.reverseRecOn with
      | nil => rfl
      | append_singleton place row =>
          exact absurd (leftFound ▸ leftKey) (keyed_row keyed rightFound rightKey).1
  | append_singleton place row induction =>
      obtain ⟨other, upper, labels, upperFound, valid, loads, listed, upperKey⟩ :=
        keyed_row keyed leftFound leftKey
      cases second using List.reverseRecOn with
      | nil =>
          rw [label_at_root, Option.some.injEq] at rightFound
          exact absurd (rightFound ▸ rightKey) other
      | append_singleton secondPlace secondRow =>
          obtain ⟨_, secondUpper, secondLabels, secondFound, _, secondLoads, secondListed,
            secondKey⟩ := keyed_row keyed rightFound rightKey
          have same : place = secondPlace := induction upperFound secondFound upperKey secondKey
          subst same
          rw [upperFound, Option.some.injEq] at secondFound
          subst secondFound
          rw [loads, Option.some.injEq] at secondLoads
          subst secondLoads
          rw [keyed.distinct upper labels valid loads row secondRow left right listed
            secondListed (leftKey.trans rightKey.symm) (by simp [leftKey])]

end Keys

def Kept (heap later : Heap Label) : Prop :=
  ∀ (address : Nat) (cell : Cell Label), heap[address]? = some cell →
    ∃ kept : Cell Label, later[address]? = some kept ∧ kept.label = cell.label ∧
      ∀ children, cell.children = some children → kept.children = some children

theorem kept_refl (heap : Heap Label) : Kept heap heap :=
  fun _ cell here => ⟨cell, here, rfl, fun _ made => made⟩

theorem kept_trans {first second third : Heap Label} (left : Kept first second)
    (right : Kept second third) : Kept first third := by
  intro address cell here
  obtain ⟨middle, there, label, children⟩ := left address cell here
  obtain ⟨last, further, sameLabel, sameChildren⟩ := right address middle there
  exact ⟨last, further, sameLabel.trans label, fun list made =>
    sameChildren list (children list made)⟩

section Attaching

variable {heap : Heap Label} {address : Nat} {cell : Cell Label} {cells : List (Cell Label)}

theorem attach_here (here : heap[address]? = some cell) :
    (attach heap address cells)[address]? =
      some { cell with children := some (List.range' heap.length cells.length) } := by
  have bound : address < heap.length := (List.getElem?_eq_some_iff.mp here).1
  rw [attach, List.getElem?_append_left (by simpa using bound), List.getElem?_modify_eq, here]
  rfl

theorem attach_other {other : Nat} (different : address ≠ other) (bound : other < heap.length) :
    (attach heap address cells)[other]? = heap[other]? := by
  rw [attach, List.getElem?_append_left (by simpa using bound), List.getElem?_modify]
  simp only [if_neg different, id_map']

theorem attach_new (row : Nat) :
    (attach heap address cells)[heap.length + row]? = cells[row]? := by
  rw [attach, List.getElem?_append_right (by simp)]
  simp

/-- Only a node that had no children yet may get some. -/
theorem kept_attach (here : heap[address]? = some cell) (unmade : cell.children = none) :
    Kept heap (attach heap address cells) := by
  intro other cell' there
  by_cases same : address = other
  · subst same
    rw [here, Option.some.injEq] at there
    subst there
    refine ⟨_, attach_here here, rfl, ?_⟩
    intro children made
    rw [unmade] at made
    cases made
  · have bound : other < heap.length := (List.getElem?_eq_some_iff.mp there).1
    exact ⟨cell', (attach_other same bound).trans there, rfl, fun _ made => made⟩

end Attaching

/-- Every address has a place, no two have the same; its label is that of the place,
and its children are at the places of its rows. -/
structure Placed (load : Label → Option (List Label)) (root : Label) (heap : Heap Label)
    (place : Nat → List Nat) : Prop where
  top : place 0 = []
  present : 0 < heap.length
  label : ∀ address (cell : Cell Label), heap[address]? = some cell →
    labelAt load root (place address) = some cell.label
  injective : ∀ first second, first < heap.length → second < heap.length →
    place first = place second → first = second
  rows : ∀ address (cell : Cell Label) children, heap[address]? = some cell →
    cell.children = some children →
    (∃ labels, load cell.label = some labels ∧ labels.length = children.length) ∧
    ∀ row child, children[row]? = some child →
      child < heap.length ∧ place child = place address ++ [row]
  above : ∀ address row upper, address < heap.length → place address = upper ++ [row] →
    ∃ parent, ∃ cell : Cell Label, ∃ children, heap[parent]? = some cell ∧
      place parent = upper ∧ cell.children = some children

section Places

variable {load : Label → Option (List Label)} {root : Label} {heap : Heap Label}
  {place : Nat → List Nat}

theorem placed_root (root : Label) :
    Placed load root [{ label := root, children := none }] (fun _ => []) where
  top := rfl
  present := by simp
  label address cell here := by
    have only : address = 0 := by
      have bound := (List.getElem?_eq_some_iff.mp here).1
      simpa using bound
    subst only
    cases here
    rfl
  injective first second left right _ := by
    simp only [List.length_singleton, Nat.lt_one_iff] at left right
    rw [left, right]
  rows address cell children here made := by
    have only : address = 0 := by
      have bound := (List.getElem?_eq_some_iff.mp here).1
      simpa using bound
    subst only
    cases here
    cases made
  above address row upper _ placed := by simp at placed

theorem placed_children (placed : Placed load root heap place) {address : Nat}
    {cell : Cell Label} {children : List Nat} {labels : List Label}
    (here : heap[address]? = some cell) (made : cell.children = some children)
    (loads : load cell.label = some labels) :
    List.Forall₂ (fun child label => (heap[child]?).map Cell.label = some label) children
      labels := by
  obtain ⟨⟨others, same, length⟩, rows⟩ := placed.rows address cell children here made
  rw [loads, Option.some.injEq] at same
  subst same
  rw [List.forall₂_iff_get]
  refine ⟨length.symm, ?_⟩
  intro row left right
  have listed : children[row]? = some children[row] := List.getElem?_eq_getElem left
  obtain ⟨bound, there⟩ := rows row _ listed
  have childHere : heap[children[row]]? = some heap[children[row]] :=
    List.getElem?_eq_getElem bound
  have child := placed.label _ _ childHere
  rw [there, label_at_row (placed.label address cell here) loads,
    List.getElem?_eq_getElem right, Option.some.injEq] at child
  simp only [List.get_eq_getElem, childHere, Option.map_some, child]

def placesAfter (place : Nat → List Nat) (count address other : Nat) : List Nat :=
  if other < count then place other else place address ++ [other - count]

theorem attach_length (heap : Heap Label) (address : Nat) (cells : List (Cell Label)) :
    (attach heap address cells).length = heap.length + cells.length := by
  simp [attach]

theorem attach_cases {address other : Nat} {cells : List (Cell Label)} {cell found : Cell Label}
    (here : heap[address]? = some cell)
    (there : (attach heap address cells)[other]? = some found) :
    (other = address ∧ found =
        { cell with children := some (List.range' heap.length cells.length) }) ∨
      (other ≠ address ∧ heap[other]? = some found) ∨
      ∃ row, other = heap.length + row ∧ cells[row]? = some found := by
  by_cases new : heap.length ≤ other
  · obtain ⟨row, rfl⟩ := Nat.exists_eq_add_of_le new
    rw [attach_new] at there
    exact .inr (.inr ⟨row, rfl, there⟩)
  · by_cases same : address = other
    · subst same
      rw [attach_here here, Option.some.injEq] at there
      exact .inl ⟨rfl, there.symm⟩
    · rw [attach_other same (by omega)] at there
      exact .inr (.inl ⟨fun equal => same equal.symm, there⟩)

/-- Nodes with the labels that a node loads, none of them with nodes below it yet, are
at places of their own. -/
theorem placed_attach (placed : Placed load root heap place) {address : Nat} {cell : Cell Label}
    {cells : List (Cell Label)} (here : heap[address]? = some cell)
    (unmade : cell.children = none) (loads : load cell.label = some (cells.map Cell.label))
    (fresh : ∀ new ∈ cells, new.children = none ∨
      (new.children = some [] ∧ load new.label = some [])) :
    Placed load root (attach heap address cells) (placesAfter place heap.length address) := by
  have bound : address < heap.length := (List.getElem?_eq_some_iff.mp here).1
  have old : ∀ other, other < heap.length →
      placesAfter place heap.length address other = place other := fun other lower => if_pos lower
  have new : ∀ row, placesAfter place heap.length address (heap.length + row) =
      place address ++ [row] := by
    intro row
    rw [placesAfter, if_neg (by omega), Nat.add_sub_cancel_left]
  -- A row of the address was not made before, since the address had no children.
  have unused : ∀ other row, other < heap.length → place other ≠ place address ++ [row] := by
    intro other row lower same
    obtain ⟨parent, upper, children, there, above, made⟩ := placed.above other row _ lower same
    have parentBound : parent < heap.length := (List.getElem?_eq_some_iff.mp there).1
    have equal := placed.injective parent address parentBound bound above
    rw [equal, here, Option.some.injEq] at there
    rw [← there, unmade] at made
    cases made
  constructor
  case top => exact (old 0 placed.present).trans placed.top
  case present =>
    have positive := placed.present
    rw [attach_length]
    omega
  case label =>
    intro other found there
    rcases attach_cases here there with ⟨rfl, rfl⟩ | ⟨_, before⟩ | ⟨row, rfl, listed⟩
    · rw [old other bound]
      exact placed.label other cell here
    · rw [old other (List.getElem?_eq_some_iff.mp before).1]
      exact placed.label other found before
    · rw [new row, label_at_row (placed.label address cell here) loads, List.getElem?_map, listed]
      rfl
  case injective =>
    intro first second left right same
    rw [attach_length] at left right
    by_cases firstOld : first < heap.length
    · rw [old first firstOld] at same
      by_cases secondOld : second < heap.length
      · rw [old second secondOld] at same
        exact placed.injective first second firstOld secondOld same
      · obtain ⟨row, rfl⟩ := Nat.exists_eq_add_of_le (Nat.le_of_not_lt secondOld)
        rw [new row] at same
        exact absurd same (unused first row firstOld)
    · obtain ⟨row, rfl⟩ := Nat.exists_eq_add_of_le (Nat.le_of_not_lt firstOld)
      rw [new row] at same
      by_cases secondOld : second < heap.length
      · rw [old second secondOld] at same
        exact absurd same.symm (unused second row secondOld)
      · obtain ⟨other, rfl⟩ := Nat.exists_eq_add_of_le (Nat.le_of_not_lt secondOld)
        rw [new other] at same
        simpa using same
  case rows =>
    intro other found children there made
    rw [attach_length]
    rcases attach_cases here there with ⟨rfl, rfl⟩ | ⟨_, before⟩ | ⟨row, rfl, listed⟩
    · rw [Option.some.injEq] at made
      subst made
      refine ⟨⟨_, loads, by simp⟩, ?_⟩
      intro row child inside
      obtain ⟨rowBound, rfl⟩ := List.getElem?_eq_some_iff.mp inside
      rw [List.length_range'] at rowBound
      rw [List.getElem_range', Nat.one_mul, new row, old other bound]
      exact ⟨by omega, rfl⟩
    · obtain ⟨labels, rows⟩ := placed.rows other found children before made
      refine ⟨labels, ?_⟩
      intro row child inside
      obtain ⟨childBound, childPlace⟩ := rows row child inside
      rw [old child childBound, old other (List.getElem?_eq_some_iff.mp before).1]
      exact ⟨by omega, childPlace⟩
    · rcases fresh found (List.mem_of_getElem? listed) with none | ⟨empty, leaf⟩
      · rw [none] at made
        cases made
      · rw [empty, Option.some.injEq] at made
        subst made
        exact ⟨⟨[], leaf, rfl⟩, fun row child inside => by cases inside⟩
  case above =>
    intro other row upper lower split
    rw [attach_length] at lower
    have made : (attach heap address cells)[address]? = some _ := attach_here here
    have kept : Kept heap (attach heap address cells) := kept_attach here unmade
    by_cases before : other < heap.length
    · rw [old other before] at split
      obtain ⟨parent, found, children, there, parentPlace, known⟩ :=
        placed.above other row upper before split
      obtain ⟨later, still, _, same⟩ := kept parent found there
      refine ⟨parent, later, children, still, ?_, same children known⟩
      rw [old parent (List.getElem?_eq_some_iff.mp there).1]
      exact parentPlace
    · obtain ⟨last, rfl⟩ := Nat.exists_eq_add_of_le (Nat.le_of_not_lt before)
      rw [new last] at split
      obtain ⟨rfl, _⟩ := List.append_inj' split rfl
      exact ⟨address, _, _, made, old address bound, rfl⟩

end Places

end ACBackup.Library.LazyTree
