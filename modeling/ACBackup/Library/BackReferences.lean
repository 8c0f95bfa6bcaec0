import Mathlib

/-!
Layers of keyed nodes, the newest first. A node either owns its payload or
leaves it to the layer below, under a key that it names. Following these
references from a key ends at the owner of the payload, when there is one. What
is kept along a chain of references is decided between neighbouring layers.
-/

namespace ACBackup.Library.BackReferences

set_option autoImplicit false

universe u v

variable {Key : Type u} {Node : Type v}

abbrev Layer (Key : Type u) (Node : Type v) := Key → Option Node

/-- How nodes are read: whether a node owns its payload, and where the layer
below goes on otherwise. -/
structure Linkage (Key : Type u) (Node : Type v) where
  owns : Node → Bool
  parent : Key → Node → Key

structure Owner (Key : Type u) (Node : Type v) where
  distance : Nat
  key : Key
  node : Node

namespace Linkage

variable (linkage : Linkage Key Node)

def follow : List (Layer Key Node) → Key → Option (Owner Key Node)
  | [], _ => none
  | layer :: below, key =>
      match layer key with
      | none => none
      | some node =>
          if linkage.owns node then some { distance := 0, key := key, node := node }
          else
            (follow below (linkage.parent key node)).map fun owner =>
              { owner with distance := owner.distance + 1 }

/-- Every node without payload has a related node where its reference leads. -/
def Linked (related : Node → Node → Prop) : List (Layer Key Node) → Prop
  | [] => True
  | [layer] => ∀ key node, layer key = some node → linkage.owns node = true
  | layer :: next :: below =>
      (∀ key node, layer key = some node → linkage.owns node = false →
        ∃ older, next (linkage.parent key node) = some older ∧ related node older) ∧
      Linked related (next :: below)

def Agreeing (related : Node → Node → Prop) : List (Layer Key Node) → Prop
  | [] => True
  | [_] => True
  | layer :: next :: below =>
      (∀ key node older, layer key = some node → linkage.owns node = false →
        next (linkage.parent key node) = some older → related node older) ∧
      Agreeing related (next :: below)

def Resolved (related : Node → Node → Prop) : List (Layer Key Node) → Prop
  | [] => True
  | layer :: below =>
      (∀ key node, layer key = some node →
        ∃ owner, linkage.follow (layer :: below) key = some owner ∧ related node owner.node) ∧
      Resolved related below

section Following

variable {linkage} {layer next : Layer Key Node} {below : List (Layer Key Node)} {key : Key}
  {node : Node}

theorem follow_owned (found : layer key = some node) (owns : linkage.owns node = true) :
    linkage.follow (layer :: below) key = some { distance := 0, key := key, node := node } := by
  simp only [follow, found, owns, if_true]

theorem follow_reference (found : layer key = some node) (owns : linkage.owns node = false) :
    linkage.follow (layer :: below) key =
      (linkage.follow below (linkage.parent key node)).map fun owner =>
        { owner with distance := owner.distance + 1 } := by
  simp only [follow, found, owns, Bool.false_eq_true, if_false]

theorem follow_absent (absent : layer key = none) :
    linkage.follow (layer :: below) key = none := by
  simp only [follow, absent]

theorem follow_present {owner : Owner Key Node}
    (followed : linkage.follow (layer :: below) key = some owner) :
    ∃ node, layer key = some node := by
  cases found : layer key with
  | none => simp [follow, found] at followed
  | some node => exact ⟨node, rfl⟩

theorem follow_owner {layers : List (Layer Key Node)} {owner : Owner Key Node}
    (followed : linkage.follow layers key = some owner) :
    linkage.owns owner.node = true ∧
      ∃ layer, layers[owner.distance]? = some layer ∧ layer owner.key = some owner.node := by
  induction layers generalizing key owner with
  | nil => simp [follow] at followed
  | cons layer below induction =>
      obtain ⟨node, found⟩ := follow_present followed
      cases owns : linkage.owns node with
      | true =>
          rw [follow_owned found owns] at followed
          cases followed
          exact ⟨owns, layer, rfl, found⟩
      | false =>
          rw [follow_reference found owns, Option.map_eq_some_iff] at followed
          obtain ⟨deeper, rest, same⟩ := followed
          cases same
          obtain ⟨deeperOwns, source, position, present⟩ := induction rest
          exact ⟨deeperOwns, source, position, present⟩

/-- A relation that composes holds between the two ends of every chain of
references that is followed to its end. -/
theorem follow_agreeing {related : Node → Node → Prop} (reflexive : ∀ node, related node node)
    (transitive : ∀ first second third, related first second → related second third →
      related first third)
    {layers : List (Layer Key Node)} (agreeing : linkage.Agreeing related layers)
    {owner : Owner Key Node} (followed : linkage.follow layers key = some owner)
    (found : layers.head? = some layer) (present : layer key = some node) :
    related node owner.node := by
  induction layers generalizing layer key node owner with
  | nil => simp at found
  | cons first below induction =>
      simp only [List.head?_cons, Option.some.injEq] at found
      subst found
      cases owns : linkage.owns node with
      | true =>
          rw [follow_owned present owns] at followed
          cases followed
          exact reflexive node
      | false =>
          rw [follow_reference present owns, Option.map_eq_some_iff] at followed
          obtain ⟨deeper, rest, same⟩ := followed
          cases same
          cases below with
          | nil => simp [follow] at rest
          | cons next below =>
              obtain ⟨older, oldPresent⟩ := follow_present rest
              have upper := agreeing.1 key node older present owns oldPresent
              have lower := induction agreeing.2 rest rfl oldPresent
              exact transitive _ _ _ upper lower

theorem resolved_iff {related : Node → Node → Prop} (layers : List (Layer Key Node)) :
    linkage.Resolved related layers ↔
      ∀ newer layer below, layers = newer ++ layer :: below → ∀ key node, layer key = some node →
        ∃ owner, linkage.follow (layer :: below) key = some owner ∧ related node owner.node := by
  induction layers with
  | nil => simp [Resolved]
  | cons first rest induction =>
      rw [Resolved, induction]
      constructor
      · intro resolved newer layer below parts
        cases newer with
        | nil =>
            simp only [List.nil_append, List.cons.injEq] at parts
            obtain ⟨rfl, rfl⟩ := parts
            exact resolved.1
        | cons newest newer =>
            simp only [List.cons_append, List.cons.injEq] at parts
            exact resolved.2 newer layer below parts.2
      · intro every
        refine ⟨every [] first rest rfl, ?_⟩
        intro newer layer below parts
        exact every (first :: newer) layer below (by rw [parts, List.cons_append])

/-- Related neighbours are what a chain of layers needs to resolve every node,
and when the relation is an equivalence there is no other way. -/
theorem resolved_iff_linked {related : Node → Node → Prop} (equivalence : Equivalence related)
    (layers : List (Layer Key Node)) :
    linkage.Resolved related layers ↔ linkage.Linked related layers := by
  induction layers with
  | nil => simp [Resolved, Linked]
  | cons layer below induction =>
      cases below with
      | nil =>
          simp only [Resolved, Linked, and_true]
          constructor
          · intro resolved key node present
            obtain ⟨owner, followed, _⟩ := resolved key node present
            cases owns : linkage.owns node with
            | true => rfl
            | false =>
                rw [follow_reference present owns] at followed
                simp [follow] at followed
          · intro owned key node present
            exact ⟨_, follow_owned present (owned key node present), equivalence.refl node⟩
      | cons next below =>
          rw [Resolved, Linked, induction]
          apply and_congr_left
          intro linked
          have lower := induction.mpr linked
          constructor
          · intro resolved key node present owns
            obtain ⟨owner, followed, same⟩ := resolved key node present
            rw [follow_reference present owns, Option.map_eq_some_iff] at followed
            obtain ⟨deeper, rest, equal⟩ := followed
            cases equal
            obtain ⟨older, oldPresent⟩ := follow_present rest
            obtain ⟨other, otherFollowed, otherSame⟩ := lower.1 _ older oldPresent
            rw [rest] at otherFollowed
            cases otherFollowed
            exact ⟨older, oldPresent, equivalence.trans same (equivalence.symm otherSame)⟩
          · intro neighbours key node present
            cases owns : linkage.owns node with
            | true => exact ⟨_, follow_owned present owns, equivalence.refl node⟩
            | false =>
                obtain ⟨older, oldPresent, same⟩ := neighbours key node present owns
                obtain ⟨owner, followed, oldSame⟩ := lower.1 _ older oldPresent
                refine ⟨{ owner with distance := owner.distance + 1 }, ?_,
                  equivalence.trans same oldSame⟩
                rw [follow_reference present owns, followed, Option.map_some]

end Following

end Linkage

end ACBackup.Library.BackReferences
