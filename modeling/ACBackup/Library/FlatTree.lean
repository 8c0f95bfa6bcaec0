import Mathlib

/-!
Trees that are kept as a flat table: every item has a key, every key but the root
has a parent one level above it, and the children of a key are found by searching
the table. Descending from the root finds every item once, whatever the order of
the table, as long as no item is without its parent.
-/

namespace ACBackup.Library.FlatTree

set_option autoImplicit false

universe u v w

structure Hierarchy (Key : Type u) where
  root : Key
  parent : Key → Key
  level : Key → Nat
  parent_root : parent root = root
  level_parent : ∀ key, key ≠ root → level key = level (parent key) + 1

variable {Key : Type u} (tree : Hierarchy Key)

inductive Below (top : Key) : Key → Prop where
  | child {key : Key} : key ≠ tree.root → tree.parent key = top → Below top key
  | deeper {key : Key} : key ≠ tree.root → Below top (tree.parent key) → Below top key

section Branches

variable {tree} {top key : Key}

theorem below_level (below : Below tree top key) : tree.level top < tree.level key := by
  induction below with
  | child inner parent =>
      rw [tree.level_parent _ inner, parent]
      omega
  | deeper inner _ induction =>
      rw [tree.level_parent _ inner]
      omega

theorem below_root (inner : key ≠ tree.root) : Below tree tree.root key := by
  induction depth : tree.level key generalizing key with
  | zero =>
      have above := tree.level_parent key inner
      omega
  | succ depth induction =>
      have above := tree.level_parent key inner
      by_cases parent : tree.parent key = tree.root
      · exact .child inner parent
      · exact .deeper inner (induction parent (by omega))

theorem below_iff_child :
    Below tree top key ↔
      ∃ child, child ≠ tree.root ∧ tree.parent child = top ∧
        (key = child ∨ Below tree child key) := by
  constructor
  · intro below
    induction below with
    | child inner parent => exact ⟨_, inner, parent, .inl rfl⟩
    | deeper inner _ induction =>
        obtain ⟨child, childInner, parent, reached⟩ := induction
        refine ⟨child, childInner, parent, .inr ?_⟩
        rcases reached with same | below
        · exact .child inner same
        · exact .deeper inner below
  · intro reached
    obtain ⟨child, inner, parent, same | below⟩ := reached
    · subst same
      exact .child inner parent
    · induction below with
      | child keyInner same => exact .deeper keyInner (same ▸ .child inner parent)
      | deeper keyInner _ induction => exact .deeper keyInner induction

theorem branch_unique {left right : Key} (level : tree.level left = tree.level right)
    (inLeft : key = left ∨ Below tree left key) (inRight : key = right ∨ Below tree right key) :
    left = right := by
  rcases inLeft with same | below
  · subst same
    rcases inRight with same | below
    · exact same
    · have lower := below_level below
      omega
  · induction below with
    | @child key inner parent =>
        have above := tree.level_parent key inner
        rcases inRight with same | below
        · subst same
          rw [parent] at above
          omega
        · cases below with
          | child _ other => exact parent.symm.trans other
          | deeper _ below =>
              have lower := below_level below
              rw [parent] at lower
              omega
    | @deeper key inner below induction =>
        have above := tree.level_parent key inner
        have lower := below_level below
        rcases inRight with same | other
        · subst same
          omega
        · cases other with
          | child _ other => exact induction (.inl other)
          | deeper _ other => exact induction (.inr other)

end Branches

section Tables

variable {Item : Type v} (key : Item → Key)

/-- No item is without its parent. -/
def Closed (table : List Item) : Prop :=
  ∀ item ∈ table, key item ≠ tree.root → ∃ parent ∈ table, key parent = tree.parent (key item)

variable {key} {tree} {table : List Item}

theorem closed_child (closed : Closed tree key table) {item : Item} (member : item ∈ table)
    {child : Key} (reached : key item = child ∨ Below tree child (key item)) :
    ∃ other ∈ table, key other = child := by
  rcases reached with same | below
  · exact ⟨item, member, same⟩
  · obtain ⟨target, same⟩ : ∃ target, target = key item := ⟨_, rfl⟩
    rw [← same] at below
    induction below generalizing item with
    | @child target targetInner parent =>
        obtain ⟨other, inside, above⟩ := closed item member (same ▸ targetInner)
        exact ⟨other, inside, by rw [above, ← same, parent]⟩
    | @deeper target targetInner _ induction =>
        obtain ⟨other, inside, above⟩ := closed item member (same ▸ targetInner)
        exact induction inside (by rw [above, ← same])

end Tables

section Descent

variable {Item : Type v} [DecidableEq Key] (key : Item → Key)

/-- The search through the whole table leaves out the item of the key itself. -/
def childrenIn (table : List Item) (top : Key) : List Item :=
  table.filter fun item => key item ≠ top ∧ tree.parent (key item) = top

/-- Depth first, every item before those below it. -/
def descend (table : List Item) : Nat → Key → List Item
  | 0, _ => []
  | fuel + 1, top =>
      (childrenIn tree key table top).flatMap fun item => item :: descend table fuel (key item)

variable {tree} {key} {table : List Item}

theorem mem_children_in (item : Item) (top : Key) :
    item ∈ childrenIn tree key table top ↔
      item ∈ table ∧ key item ≠ tree.root ∧ tree.parent (key item) = top := by
  simp only [childrenIn, List.mem_filter, decide_eq_true_eq]
  apply and_congr_right
  intro _
  constructor
  · intro child
    refine ⟨?_, child.2⟩
    intro isRoot
    rw [isRoot, tree.parent_root] at child
    exact child.1 child.2
  · intro child
    refine ⟨?_, child.2⟩
    intro same
    have above := tree.level_parent (key item) child.1
    rw [child.2, same] at above
    omega

theorem children_in_append (first second : List Item) (top : Key) :
    childrenIn tree key (first ++ second) top =
      childrenIn tree key first top ++ childrenIn tree key second top :=
  List.filter_append ..

theorem children_in_map {Other : Type w} (f : Other → Item) (table : List Other) (top : Key) :
    childrenIn tree key (table.map f) top =
      (childrenIn tree (fun other => key (f other)) table top).map f := by
  rw [childrenIn, childrenIn, List.filter_map]
  rfl

/-- With enough fuel the descent finds what is below its start. -/
theorem mem_descend (closed : Closed tree key table) (fuel : Nat) (top : Key)
    (deep : ∀ item ∈ table, tree.level (key item) ≤ tree.level top + fuel) (item : Item) :
    item ∈ descend tree key table fuel top ↔ item ∈ table ∧ Below tree top (key item) := by
  induction fuel generalizing top with
  | zero =>
      simp only [descend, List.not_mem_nil, false_iff]
      intro described
      have bound := deep item described.1
      have lower := below_level described.2
      omega
  | succ fuel induction =>
      have level : ∀ {child : Key}, child ≠ tree.root → tree.parent child = top →
          tree.level child = tree.level top + 1 := by
        intro child inner parent
        rw [tree.level_parent child inner, parent]
      have deeper : ∀ {child : Key}, child ≠ tree.root → tree.parent child = top →
          (item ∈ descend tree key table fuel child ↔
            item ∈ table ∧ Below tree child (key item)) := by
        intro child inner parent
        apply induction
        intro other inside
        have bound := deep other inside
        rw [level inner parent]
        omega
      simp only [descend, List.mem_flatMap, List.mem_cons, mem_children_in]
      constructor
      · intro found
        obtain ⟨child, ⟨inside, inner, parent⟩, same | below⟩ := found
        · subst same
          exact ⟨inside, .child inner parent⟩
        · obtain ⟨member, below⟩ := (deeper inner parent).mp below
          exact ⟨member, below_iff_child.mpr ⟨key child, inner, parent, .inr below⟩⟩
      · intro described
        obtain ⟨member, below⟩ := described
        obtain ⟨child, inner, parent, reached⟩ := below_iff_child.mp below
        rcases reached with same | below
        · exact ⟨item, ⟨member, same ▸ inner, same ▸ parent⟩, .inl rfl⟩
        · obtain ⟨other, inside, same⟩ := closed_child closed member (.inr below)
          subst same
          exact ⟨other, ⟨inside, inner, parent⟩, .inr ((deeper inner parent).mpr ⟨member, below⟩)⟩

theorem nodup_descend (unique : (table.map key).Nodup) (closed : Closed tree key table)
    (fuel : Nat) (top : Key)
    (deep : ∀ item ∈ table, tree.level (key item) ≤ tree.level top + fuel) :
    (descend tree key table fuel top).Nodup := by
  induction fuel generalizing top with
  | zero => exact List.nodup_nil
  | succ fuel induction =>
      have childDeep : ∀ child ∈ childrenIn tree key table top, ∀ item ∈ table,
          tree.level (key item) ≤ tree.level (key child) + fuel := by
        intro child member item inside
        obtain ⟨_, inner, parent⟩ := (mem_children_in child top).mp member
        have bound := deep item inside
        rw [tree.level_parent _ inner, parent]
        omega
      have found : ∀ child ∈ childrenIn tree key table top, ∀ item,
          item ∈ child :: descend tree key table fuel (key child) →
            key item = key child ∨ Below tree (key child) (key item) := by
        intro child member item inside
        rcases List.mem_cons.mp inside with same | below
        · exact .inl (congrArg key same)
        · exact .inr ((mem_descend closed fuel _ (childDeep child member) item).mp below).2
      rw [descend, List.nodup_flatMap]
      constructor
      · intro child member
        refine List.nodup_cons.mpr ⟨?_, induction _ (childDeep child member)⟩
        intro again
        have below := ((mem_descend closed fuel _ (childDeep child member) child).mp again).2
        exact absurd (below_level below) (lt_irrefl _)
      · have children : (childrenIn tree key table top).Nodup :=
          List.Nodup.filter _ (List.Nodup.of_map key unique)
        apply List.Nodup.pairwise_of_forall_ne children
        intro left leftMember right rightMember different item inLeft inRight
        obtain ⟨leftInside, leftInner, leftParent⟩ := (mem_children_in left top).mp leftMember
        obtain ⟨rightInside, rightInner, rightParent⟩ := (mem_children_in right top).mp rightMember
        have level : tree.level (key left) = tree.level (key right) := by
          rw [tree.level_parent _ leftInner, tree.level_parent _ rightInner, leftParent, rightParent]
        have same := branch_unique level (found left leftMember item inLeft)
          (found right rightMember item inRight)
        exact different (List.inj_on_of_nodup_map unique leftInside rightInside same)

/-- From the root every other item of a closed table is found exactly once. -/
theorem descend_root (unique : (table.map key).Nodup) (closed : Closed tree key table)
    (fuel : Nat) (deep : ∀ item ∈ table, tree.level (key item) ≤ tree.level tree.root + fuel) :
    (descend tree key table fuel tree.root).Perm
      (table.filter fun item => key item ≠ tree.root) := by
  rw [List.perm_ext_iff_of_nodup (nodup_descend unique closed fuel _ deep)
    (List.Nodup.filter _ (List.Nodup.of_map key unique))]
  intro item
  rw [mem_descend closed fuel _ deep, List.mem_filter, decide_eq_true_eq]
  apply and_congr_right
  intro _
  constructor
  · intro below isRoot
    rw [isRoot] at below
    exact absurd (below_level below) (lt_irrefl _)
  · exact below_root

end Descent

end ACBackup.Library.FlatTree
