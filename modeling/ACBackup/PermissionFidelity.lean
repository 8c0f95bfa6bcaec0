import ACBackup.SnapshotManager

/-!
The permissions that a snapshot records. A node that is stored anew gets those of
the source; a node that is taken over keeps those of the node it is taken from,
because `CopyFrom` leaves them out.
-/

namespace ACBackup.PermissionFidelity

open ACBackup.Library.Transition
open ACBackup.Platform ACBackup.NodeAttributes ACBackup.Indexing ACBackup.IndexSerialization
open ACBackup.SnapshotCreation ACBackup.SnapshotPlan ACBackup.SnapshotNodes
open ACBackup.SnapshotManager

set_option autoImplicit false

variable {runtime : Runtime} {last : Option BackupNodeIndex} {call : Call} {entry : Entry}

def PermissionsRecorded (entry : Entry) : Prop :=
  ∀ path attributes, entry.call.source.index.lookup path = some attributes →
    ∃ loaded, entry.index.lookup path = some loaded ∧
      loaded.permissions = attributes.permissions

/-- Nodes are only taken over from nodes with the same permissions. -/
def PermissionsCurrent (runtime : Runtime) (chain : Chain) (call : Call) : Prop :=
  ∀ entry ∈ call.source.index.nodes,
    ∀ old ∈ takenOverFrom runtime call.hashAlgorithm (lastIndex chain) call.source entry.1
      entry.2, old.2.permissions = entry.2.permissions

instance (chain : Chain) (call : Call) : Decidable (PermissionsCurrent runtime chain call) :=
  inferInstanceAs (Decidable (∀ _ ∈ _, _))

theorem created_permissions {created : Created} {path : Path}
    {attributes : FileSystemNodeAttributes} {made : BackupNodeAttributes}
    (route : NodeCreated runtime last call created path attributes made) :
    made.permissions =
      (takenOverFrom runtime call.hashAlgorithm last call.source path attributes).elim
        attributes.permissions fun old => old.2.permissions := by
  cases route with
  | directory _ anew => rw [anew]; rfl
  | stored _ _ anew => rw [anew]; rfl
  | inPlace old taken => rw [taken]; rfl
  | moved oldPath old _ taken => rw [taken]; rfl

theorem new_entry_permissions (new : NewEntry runtime last entry) {path : Path}
    {attributes : FileSystemNodeAttributes} {loaded : BackupNodeAttributes}
    (sourced : entry.call.source.index.lookup path = some attributes)
    (found : entry.index.lookup path = some loaded) :
    loaded.permissions =
      (takenOverFrom runtime entry.call.hashAlgorithm last entry.call.source path attributes).elim
        attributes.permissions fun old => old.2.permissions := by
  obtain ⟨created, other, made, _, _, _, otherSourced, route, rfl⟩ := new_entry_node new found
  rw [sourced] at otherSourced
  cases otherSourced
  have kept := created_permissions route
  exact kept

/-- One call records the permissions exactly when it takes over current ones. -/
theorem permissions_current_iff {chain : Chain}
    (new : NewEntry runtime (lastIndex chain) entry) :
    PermissionsRecorded entry ↔ PermissionsCurrent runtime chain entry.call := by
  constructor
  · rintro recorded ⟨path, attributes⟩ member old taken
    have sourced := (NodeIndex.lookup_eq_some _ _ _).mpr member
    obtain ⟨loaded, found, same⟩ := recorded path attributes sourced
    rw [new_entry_permissions new sourced found, Option.mem_def.mp taken] at same
    exact same
  · intro current path attributes sourced
    obtain ⟨loaded, found⟩ := new_entry_lookup new sourced
    refine ⟨loaded, found, ?_⟩
    rw [new_entry_permissions new sourced found]
    cases taken : takenOverFrom runtime entry.call.hashAlgorithm (lastIndex chain)
        entry.call.source path attributes with
    | none => rfl
    | some old =>
        have member := (NodeIndex.lookup_eq_some _ _ _).mp sourced
        exact current (path, attributes) member old taken

/-- In every history all snapshots record the permissions of their sources, if
and only if no call took a node over from one with other permissions. -/
theorem permissions_recorded_iff (runtime : Runtime) (history : List Call) (chain : Chain)
    (run : (backups runtime).run [] history = some chain) :
    (∀ entry ∈ chain, PermissionsRecorded entry) ↔
      (backups runtime).Throughout (PermissionsCurrent runtime) [] history := by
  have stepwise : ∀ before next call, (backups runtime).step before call = some next →
      ((∀ entry ∈ next, PermissionsRecorded entry) ↔
        (∀ entry ∈ before, PermissionsRecorded entry) ∧
          PermissionsCurrent runtime before call) := by
    intro before next call taken
    obtain ⟨entry, rfl, new, rfl⟩ := add_snapshot_some taken
    simp only [mem_insert_entry, forall_eq_or_imp, permissions_current_iff new]
    exact and_comm
  rw [System.throughout_iff _ stepwise history run]
  simp

section ChangedMode

/-! A file keeps its content and its modification time while its mode changes. -/

def restrictedFile : SourceNode := { storedFile with mode := 384 }

def restrictedBackup : Call := callOf "snapshot_2" [restrictedFile] []

theorem moved_file_permissions :
    ∃ chain, (backups spellingRuntime).run [] [firstBackup, moveBackup] = some chain ∧
      ∀ entry ∈ chain, PermissionsRecorded entry := by
  have complete : ((backups spellingRuntime).run [] [firstBackup, moveBackup]).isSome = true := by
    decide +kernel
  obtain ⟨chain, run⟩ := Option.isSome_iff_exists.mp complete
  have current : (backups spellingRuntime).Throughout (PermissionsCurrent spellingRuntime) []
      [firstBackup, moveBackup] := by decide +kernel
  exact ⟨chain, run, (permissions_recorded_iff spellingRuntime _ chain run).mpr current⟩

/-- The new snapshot still allows everyone to read the file. -/
theorem restricted_file_readable :
    ∃ chain, (backups spellingRuntime).run [] [firstBackup, restrictedBackup] = some chain ∧
      ∃ entry older loaded attributes, chain = entry :: older ∧
        calls chain = [restrictedBackup, firstBackup] ∧
        entry.call.source.index.lookup restrictedFile.path = some attributes ∧
        entry.index.lookup restrictedFile.path = some loaded ∧
        attributes.permissions.others.read = false ∧
        loaded.permissions.others.read = true ∧ ¬PermissionsRecorded entry := by
  have outcome : ((backups spellingRuntime).run [] [firstBackup, restrictedBackup]).map
      (fun chain => chain.map fun entry =>
        ((entry.call.source.index.lookup restrictedFile.path).map fun attributes =>
          attributes.permissions.others.read,
         (entry.index.lookup restrictedFile.path).map fun loaded =>
          loaded.permissions.others.read)) =
        some [(some false, some true), (some true, some true)] := by decide +kernel
  obtain ⟨chain, run, rights⟩ := Option.map_eq_some_iff.mp outcome
  have permitted : Permitted InOrder [] [firstBackup, restrictedBackup] := by
    refine ⟨?_, ?_, trivial⟩ <;> decide +kernel
  have history := (run_in_order (fun _ _ inOrder => inOrder) _ .start run permitted).2
  obtain ⟨entry, older, rfl, newest, _⟩ := List.map_eq_cons_iff.mp rights
  obtain ⟨sourceRight, loadedRight⟩ := Prod.ext_iff.mp newest
  obtain ⟨attributes, sourced, denied⟩ := Option.map_eq_some_iff.mp sourceRight
  obtain ⟨loaded, found, granted⟩ := Option.map_eq_some_iff.mp loadedRight
  refine ⟨_, run, entry, older, loaded, attributes, rfl, history, sourced, found, denied,
    granted, ?_⟩
  intro recorded
  obtain ⟨other, otherFound, same⟩ := recorded restrictedFile.path attributes sourced
  rw [found] at otherFound
  cases otherFound
  rw [same, denied] at granted
  cases granted

end ChangedMode

end ACBackup.PermissionFidelity
