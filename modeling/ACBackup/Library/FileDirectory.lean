import Mathlib

/-!
A directory of files that are created once and then extended. What a sequence of
changes leaves is stated through the content by name; the listing is sorted and
so is determined by the names.
-/

namespace ACBackup.Library.FileDirectory

set_option autoImplicit false

universe u v

structure Directory (Name : Type u) (Byte : Type v) where
  files : List (Name × List Byte)
  unique : (files.map Prod.fst).Nodup

inductive Change (Name : Type u) (Byte : Type v) where
  | create (name : Name)
  | extend (name : Name) (bytes : List Byte)

variable {Name : Type u} {Byte : Type v} [DecidableEq Name]

namespace Directory

def empty : Directory Name Byte := ⟨[], List.nodup_nil⟩

def names (directory : Directory Name Byte) : List Name := directory.files.map Prod.fst

def read (directory : Directory Name Byte) (name : Name) : Option (List Byte) :=
  (directory.files.find? fun file => file.1 = name).map Prod.snd

/-- A file that exists is not created again. -/
def create (directory : Directory Name Byte) (name : Name) : Option (Directory Name Byte) :=
  if fresh : name ∈ directory.names then none
  else some
    { files := (name, []) :: directory.files
      unique := List.nodup_cons.mpr ⟨fresh, directory.unique⟩ }

def extendFile (name : Name) (bytes : List Byte) (file : Name × List Byte) : Name × List Byte :=
  if file.1 = name then (file.1, file.2 ++ bytes) else file

theorem extend_file_name (name : Name) (bytes : List Byte) (file : Name × List Byte) :
    (extendFile name bytes file).1 = file.1 := by
  unfold extendFile
  split <;> rfl

def extend (directory : Directory Name Byte) (name : Name) (bytes : List Byte) :
    Option (Directory Name Byte) :=
  if name ∈ directory.names then
    some
      { files := directory.files.map (extendFile name bytes)
        unique := by
          have names : (directory.files.map (extendFile name bytes)).map Prod.fst =
              directory.files.map Prod.fst := by
            rw [List.map_map]
            exact List.map_congr_left fun file _ => extend_file_name name bytes file
          rw [names]
          exact directory.unique }
  else none

def apply (directory : Directory Name Byte) : Change Name Byte → Option (Directory Name Byte)
  | .create name => directory.create name
  | .extend name bytes => directory.extend name bytes

theorem mem_names (directory : Directory Name Byte) (name : Name) :
    name ∈ directory.names ↔ directory.read name ≠ none := by
  rw [names, read, ne_eq, Option.map_eq_none_iff, List.find?_eq_none]
  simp

theorem read_create {directory next : Directory Name Byte} {name : Name}
    (created : directory.create name = some next) :
    directory.read name = none ∧ next.read = Function.update directory.read name (some []) := by
  unfold create at created
  split at created
  · cases created
  · rename_i fresh
    cases created
    rw [mem_names, not_not] at fresh
    refine ⟨fresh, ?_⟩
    funext other
    by_cases same : other = name
    · subst same
      simp [read]
    · simp [read, same, Ne.symm same]

theorem create_fresh {directory : Directory Name Byte} {name : Name}
    (fresh : directory.read name = none) :
    ∃ next, directory.create name = some next ∧
      next.read = Function.update directory.read name (some []) := by
  have absent : name ∉ directory.names := by
    rw [mem_names, not_not]
    exact fresh
  refine ⟨_, dif_neg absent, ?_⟩
  exact (read_create (dif_neg absent)).2

theorem create_present {directory : Directory Name Byte} {name : Name}
    (present : directory.read name ≠ none) : directory.create name = none :=
  dif_pos ((mem_names directory name).mpr present)

private theorem find_extend_file (name other : Name) (bytes : List Byte)
    (files : List (Name × List Byte)) :
    ((files.map (extendFile name bytes)).find? fun file => file.1 = other).map Prod.snd =
      ((files.find? fun file => file.1 = other).map Prod.snd).map fun old =>
        if other = name then old ++ bytes else old := by
  induction files with
  | nil => rfl
  | cons file rest induction =>
      have kept := extend_file_name name bytes file
      by_cases this : file.1 = other
      · subst this
        by_cases same : file.1 = name
        · simp [extendFile, same]
        · simp [extendFile, same]
      · rw [List.map_cons, List.find?_cons_of_neg (by simpa [kept] using this),
          List.find?_cons_of_neg (by simpa using this)]
        exact induction

theorem read_extend {directory next : Directory Name Byte} {name : Name} {bytes : List Byte}
    (extended : directory.extend name bytes = some next) :
    ∃ content, directory.read name = some content ∧
      next.read = Function.update directory.read name (some (content ++ bytes)) := by
  by_cases present : name ∈ directory.names
  · rw [extend, if_pos present, Option.some.injEq] at extended
    subst extended
    obtain ⟨content, found⟩ := Option.ne_none_iff_exists'.mp ((mem_names _ _).mp present)
    refine ⟨content, found, ?_⟩
    funext other
    apply (find_extend_file name other bytes directory.files).trans
    by_cases same : other = name
    · subst same
      rw [Function.update_self]
      simp only [if_true]
      exact congrArg (Option.map fun old => old ++ bytes) found
    · simp only [if_neg same, Option.map_id_fun', id_eq, Function.update_of_ne same]
      rfl
  · rw [extend, if_neg present] at extended
    cases extended

theorem extend_present {directory : Directory Name Byte} {name : Name} {content bytes : List Byte}
    (found : directory.read name = some content) :
    ∃ next, directory.extend name bytes = some next ∧
      next.read = Function.update directory.read name (some (content ++ bytes)) := by
  have present : name ∈ directory.names := by
    rw [mem_names, found]
    exact Option.some_ne_none content
  have run : ∃ next, directory.extend name bytes = some next := ⟨_, if_pos present⟩
  obtain ⟨next, extended⟩ := run
  obtain ⟨other, same, result⟩ := read_extend extended
  rw [found, Option.some.injEq] at same
  exact ⟨next, extended, same ▸ result⟩

def listing [LinearOrder Name] (directory : Directory Name Byte) : List Name :=
  directory.names.insertionSort fun left right => left ≤ right

end Directory

theorem sorted_filter_eq {Name : Type u} [LinearOrder Name] {list target : List Name} {select : Name → Bool}
    (perm : (list.filter select).Perm target)
    (sorted : target.Pairwise fun left right => left ≤ right) :
    (list.insertionSort fun left right => left ≤ right).filter select = target := by
  have ordered := (List.pairwise_insertionSort (fun left right : Name => left ≤ right) list).filter
    select
  have same := ((List.perm_insertionSort (fun left right : Name => left ≤ right) list).filter
    select).trans perm
  exact same.eq_of_pairwise (fun _ _ _ _ left right => le_antisymm left right) ordered sorted

end ACBackup.Library.FileDirectory
