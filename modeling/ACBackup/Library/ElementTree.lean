import Mathlib

/-!
Element trees with typed scalars, the document that a tree serializer builds
and a tree deserializer walks. Turning such a tree into text and back is left to
the text layer. Children and attributes are found by name.
-/

namespace ACBackup.Library.ElementTree

set_option autoImplicit false

universe u v

inductive Element (Scalar : Type u) where
  | text (name : String) (value : Scalar)
  | element (name : String) (attributes : List (String × Scalar))
      (children : List (Element Scalar))

variable {Scalar : Type u}

namespace Element

def name : Element Scalar → String
  | .text name _ => name
  | .element name _ _ => name

def children : Element Scalar → List (Element Scalar)
  | .text _ _ => []
  | .element _ _ children => children

def attribute? (element : Element Scalar) (name : String) : Option Scalar :=
  match element with
  | .text _ _ => none
  | .element _ attributes _ => (attributes.find? fun entry => entry.1 = name).map Prod.snd

def content? : Element Scalar → Option Scalar
  | .text _ value => some value
  | .element _ _ _ => none

end Element

def childNamed (name : String) (level : List (Element Scalar)) : Option (Element Scalar) :=
  level.find? fun element => element.name = name

@[simp] theorem child_named_nil (name : String) :
    childNamed name ([] : List (Element Scalar)) = none := rfl

theorem child_named_cons (name : String) (first : Element Scalar)
    (rest : List (Element Scalar)) :
    childNamed name (first :: rest) =
      if first.name = name then some first else childNamed name rest := by
  by_cases same : first.name = name
  · simp [childNamed, same]
  · simp [childNamed, same]

theorem child_named_append (name : String) (first second : List (Element Scalar)) :
    childNamed name (first ++ second) =
      (childNamed name first).or (childNamed name second) := by
  simp [childNamed, List.find?_append]

def readAll {Value : Type v} {Fault : Type u} (read : Element Scalar → Except Fault Value) :
    List (Element Scalar) → Except Fault (List Value)
  | [] => .ok []
  | first :: rest =>
      match read first with
      | .error fault => .error fault
      | .ok value =>
          match readAll read rest with
          | .error fault => .error fault
          | .ok values => .ok (value :: values)

theorem read_all_map {Source Value : Type v} {Fault : Type u}
    (write : Source → Element Scalar) (read : Element Scalar → Except Fault Value)
    (expected : Source → Value) (roundtrip : ∀ source, read (write source) = .ok (expected source))
    (sources : List Source) :
    readAll read (sources.map write) = .ok (sources.map expected) := by
  induction sources with
  | nil => rfl
  | cons source rest induction =>
      simp only [List.map_cons, readAll, roundtrip, induction]

end ACBackup.Library.ElementTree
