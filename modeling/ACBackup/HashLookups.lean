import ACBackup.SnapshotVerification

/-!
Which nodes are looked up for their digest, and under which algorithm. A node
carries the algorithm of the call that stored its content, and every call that
takes the node over passes it on.
-/

namespace ACBackup.HashLookups

open ACBackup.Library.BackReferences ACBackup.Library.Loop ACBackup.Library.Tasks
open ACBackup.Library.Transition
open ACBackup.Platform ACBackup.NodeAttributes ACBackup.Indexing ACBackup.SourceIndex
open ACBackup.IndexSerialization ACBackup.DifferenceResolver ACBackup.VolumeReading
open ACBackup.FileReading ACBackup.SnapshotChain ACBackup.SnapshotCreation ACBackup.SnapshotPlan
open ACBackup.SnapshotNodes ACBackup.SnapshotManager ACBackup.RecordedContent
open ACBackup.DataResolution ACBackup.SnapshotVerification

set_option autoImplicit false

def Carries (algorithm : HashAlgorithm) (attributes : BackupNodeAttributes) : Prop :=
  ∃ digest, attributes.hashes algorithm = some digest

/-- The node that `OpenFileForReading` looks up, after the volume counters. -/
def openingLookups (store : VolumeStore) (index : BackupNodeIndex) (fileIndex : Nat) :
    List BackupNodeAttributes :=
  match index.getNodeAttributes fileIndex with
  | .error _ => []
  | .ok attributes => if InRange store attributes.blocks then [attributes] else []

def dataLookups (volumes : VolumeContents) (found : DataNode) : List BackupNodeAttributes :=
  match found.snapshot.index.getNodeIndex found.path with
  | .error _ => []
  | .ok nodeIndex =>
      openingLookups (found.snapshot.fileSystem volumes) found.snapshot.index nodeIndex

def verificationLookups (volumes : VolumeContents) (snapshot : Snapshot)
    (previous : List Snapshot) (full : Bool) (node : Nat) : List BackupNodeAttributes :=
  match snapshot.index.getNodeAttributes node with
  | .error _ => []
  | .ok nodeAttributes =>
      if nodeAttributes.type = .directory then []
      else
        match findDataSnapshot snapshot previous node with
        | .error _ => []
        | .ok found => if full || found.distance = 0 then dataLookups volumes found else []

/-- `Restore` raises at a link before it opens anything. -/
def restoreLookups (volumes : VolumeContents) (snapshot : Snapshot) (previous : List Snapshot)
    (node : Nat) : List BackupNodeAttributes :=
  match snapshot.index.getNodeAttributes node with
  | .error _ => []
  | .ok nodeAttributes =>
      match nodeAttributes.type with
      | .directory | .link => []
      | .file =>
          match findDataSnapshot snapshot previous node with
          | .error _ => []
          | .ok found => dataLookups volumes found

/-- A directory is not opened for reading. -/
def mountedLookups (volumes : VolumeContents) (snapshot : Snapshot) (previous : List Snapshot)
    (path : Path) : List BackupNodeAttributes :=
  match snapshot.index.getNodeIndex path with
  | .error _ => []
  | .ok nodeIndex =>
      match snapshot.index.getNodeAttributes nodeIndex with
      | .error _ => []
      | .ok nodeAttributes =>
          if nodeAttributes.type = .directory then []
          else
            match findDataSnapshot snapshot previous nodeIndex with
            | .error _ => []
            | .ok found => dataLookups volumes found

/-- `RetrieveNodeHash` in the comparison of two snapshots. -/
def differenceLookups (left right : BackupNodeIndex) (node : Nat) : List BackupNodeAttributes :=
  match right.getNodeAttributes node with
  | .error _ => []
  | .ok attributes =>
      if nodeDiffers (fileSystemNodes right) (fileSystemNodes left) node = true ∧
          attributes.type ≠ .directory then [attributes]
      else []

inductive LookedUp (volumes : VolumeContents) (snapshots : List Snapshot) :
    BackupNodeAttributes → Prop
  | verification {snapshot : Snapshot} {previous : List Snapshot}
      (suffix : snapshot :: previous <:+ snapshots) (full : Bool) (node : Nat)
      {attributes : BackupNodeAttributes}
      (lookup : attributes ∈ verificationLookups volumes snapshot previous full node) :
      LookedUp volumes snapshots attributes
  | restore {snapshot : Snapshot} {previous : List Snapshot}
      (suffix : snapshot :: previous <:+ snapshots) (node : Nat)
      {attributes : BackupNodeAttributes}
      (lookup : attributes ∈ restoreLookups volumes snapshot previous node) :
      LookedUp volumes snapshots attributes
  | mounted {snapshot : Snapshot} {previous : List Snapshot}
      (suffix : snapshot :: previous <:+ snapshots) (path : Path)
      {attributes : BackupNodeAttributes}
      (lookup : attributes ∈ mountedLookups volumes snapshot previous path) :
      LookedUp volumes snapshots attributes
  | difference {left right : Snapshot} (leftMember : left ∈ snapshots)
      (rightMember : right ∈ snapshots) (node : Nat) {attributes : BackupNodeAttributes}
      (lookup : attributes ∈ differenceLookups left.index right.index node) :
      LookedUp volumes snapshots attributes

section Openings

variable {runtime : Runtime} {algorithm : HashAlgorithm} {volumes : VolumeContents}
  {snapshot : Snapshot} {previous : List Snapshot} {attributes : BackupNodeAttributes}

/-- Opening a file raises for a missing digest exactly when the lookup fails. -/
theorem opening_raises_iff (store : VolumeStore) (index : BackupNodeIndex) (fileIndex : Nat) :
    openFileForReading runtime algorithm store index fileIndex true = .error .missingKey ↔
      ∃ attributes ∈ openingLookups store index fileIndex, ¬Carries algorithm attributes := by
  unfold openingLookups
  cases entry : index.getNodeAttributes fileIndex with
  | error fault =>
      simp only [openFileForReading, entry, bind, Except.bind, List.not_mem_nil, false_and,
        exists_false, iff_false]
      intro same
      cases same
      unfold NodeIndex.getNodeAttributes at entry
      split at entry <;> cases entry
  | ok attributes =>
      rw [open_file_for_reading entry]
      by_cases inRange : InRange store attributes.blocks
      · simp only [if_pos inRange, List.mem_singleton, exists_eq_left]
        cases recorded : attributes.hashes algorithm <;> simp [Carries, recorded]
      · simp [if_neg inRange]

/-- The same for the digests that a comparison retrieves from a snapshot. -/
theorem retrieval_raises_iff {index : BackupNodeIndex} {node : Nat}
    (entry : index.getNodeAttributes node = .ok attributes) :
    (backupRight algorithm index).retrieveNodeHash node = .error .missingKey ↔
      ¬Carries algorithm attributes := by
  simp only [backupRight, entry, bind, Except.bind, BackupNodeAttributes.hash]
  cases recorded : attributes.hashes algorithm <;> simp [Carries, recorded]

theorem mem_data_lookups {found : DataNode} {dataAttributes : BackupNodeAttributes}
    (present : found.snapshot.index.lookup found.path = some dataAttributes) :
    attributes ∈ dataLookups volumes found ↔
      attributes = dataAttributes ∧
        InRange (found.snapshot.fileSystem volumes) dataAttributes.blocks := by
  obtain ⟨node, number, entry⟩ := NodeIndex.get_node_index_of_lookup present
  have nodeAttributes : found.snapshot.index.getNodeAttributes node = .ok dataAttributes :=
    (NodeIndex.get_node_attributes_ok _ _ _).mpr ⟨found.path, entry⟩
  simp only [dataLookups, number, openingLookups, nodeAttributes]
  by_cases inRange : InRange (found.snapshot.fileSystem volumes) dataAttributes.blocks <;>
    simp [inRange]

def LooksUpData (volumes : VolumeContents) (snapshot : Snapshot) (previous : List Snapshot)
    (attributes : BackupNodeAttributes) : Prop :=
  ∃ node path nodeAttributes found, snapshot.index.nodes[node]? = some (path, nodeAttributes) ∧
    nodeAttributes.type ≠ .directory ∧ findDataSnapshot snapshot previous node = .ok found ∧
    attributes ∈ dataLookups volumes found

theorem verification_looks_up {full : Bool} {node : Nat}
    (lookup : attributes ∈ verificationLookups volumes snapshot previous full node) :
    LooksUpData volumes snapshot previous attributes := by
  unfold verificationLookups at lookup
  cases entry : snapshot.index.getNodeAttributes node with
  | error fault => simp [entry] at lookup
  | ok nodeAttributes =>
      simp only [entry] at lookup
      by_cases directory : nodeAttributes.type = .directory
      · simp [if_pos directory] at lookup
      · rw [if_neg directory] at lookup
        cases search : findDataSnapshot snapshot previous node with
        | error fault => simp [search] at lookup
        | ok found =>
            simp only [search] at lookup
            obtain ⟨path, nodeEntry⟩ := (NodeIndex.get_node_attributes_ok _ _ _).mp entry
            split at lookup
            · exact ⟨node, path, nodeAttributes, found, nodeEntry, directory, search, lookup⟩
            · cases lookup

theorem restore_looks_up {node : Nat}
    (lookup : attributes ∈ restoreLookups volumes snapshot previous node) :
    LooksUpData volumes snapshot previous attributes := by
  unfold restoreLookups at lookup
  cases entry : snapshot.index.getNodeAttributes node with
  | error fault => simp [entry] at lookup
  | ok nodeAttributes =>
      simp only [entry] at lookup
      cases type : nodeAttributes.type with
      | directory => simp [type] at lookup
      | link => simp [type] at lookup
      | file =>
          simp only [type] at lookup
          cases search : findDataSnapshot snapshot previous node with
          | error fault => simp [search] at lookup
          | ok found =>
              simp only [search] at lookup
              obtain ⟨path, nodeEntry⟩ := (NodeIndex.get_node_attributes_ok _ _ _).mp entry
              have isContent : nodeAttributes.type ≠ .directory := by simp [type]
              exact ⟨node, path, nodeAttributes, found, nodeEntry, isContent, search, lookup⟩

theorem mounted_looks_up {path : Path}
    (lookup : attributes ∈ mountedLookups volumes snapshot previous path) :
    LooksUpData volumes snapshot previous attributes := by
  unfold mountedLookups at lookup
  cases number : snapshot.index.getNodeIndex path with
  | error fault => simp [number] at lookup
  | ok node =>
      simp only [number] at lookup
      have verified : attributes ∈ verificationLookups volumes snapshot previous true node := lookup
      exact verification_looks_up verified

theorem difference_looks_up {left right : BackupNodeIndex} {node : Nat}
    (lookup : attributes ∈ differenceLookups left right node) :
    ∃ path, right.lookup path = some attributes ∧ attributes.type ≠ .directory := by
  unfold differenceLookups at lookup
  cases entry : right.getNodeAttributes node with
  | error fault => simp [entry] at lookup
  | ok nodeAttributes =>
      simp only [entry] at lookup
      split at lookup
      · next compared =>
          rw [List.mem_singleton] at lookup
          obtain ⟨path, nodeEntry⟩ := (NodeIndex.get_node_attributes_ok _ _ _).mp entry
          exact ⟨path, lookup ▸ NodeIndex.lookup_of_get nodeEntry, lookup ▸ compared.2⟩
      · cases lookup

end Openings

section Runs

variable {runtime : Runtime} {algorithm : HashAlgorithm} {chain : Chain}

def carriesAll (node older : BackupNodeAttributes) : Prop :=
  ∀ algorithm, Carries algorithm node → Carries algorithm older

/-- A back reference that is taken over in place does not lead to a node of the
last snapshot that lacks an algorithm. -/
def ReferencesCarry (runtime : Runtime) (last : BackupNodeIndex) (call : Call) : Prop :=
  ∀ path attributes old target other, call.source.index.lookup path = some attributes →
    attributes.type ≠ .directory → attributes.size ≠ 0 →
    takenOverFrom runtime call.hashAlgorithm (some last) call.source path attributes =
      some (path, old) →
    old.backReferenceTarget = some target → last.lookup target = some other →
      carriesAll old other

def Referable (runtime : Runtime) (chain : Chain) (call : Call) : Prop :=
  InOrder (calls chain) call ∧ ∀ last, lastIndex chain = some last → ReferencesCarry runtime last call

def UnchangedCarry (last : Option BackupNodeIndex) (call : Call) : Prop :=
  ∀ lastIndex path attributes old, last = some lastIndex →
    call.source.index.lookup path = some attributes → attributes.type ≠ .directory →
    lastIndex.lookup path = some old →
    attributes.equals old.toFileSystemNodeAttributes = true → Carries call.hashAlgorithm old

def TakesEverything (runtime : Runtime) (last : Option BackupNodeIndex) (call : Call) : Prop :=
  ∀ path attributes, call.source.index.lookup path = some attributes →
    attributes.type ≠ .directory →
    takenOverFrom runtime call.hashAlgorithm last call.source path attributes ≠ none

/-- Every call of the history that stored anything was configured with the
algorithm. -/
def StoredWith (runtime : Runtime) (algorithm : HashAlgorithm) (chain : Chain) : Prop :=
  ∀ entry older, entry :: older <:+ chain →
    entry.call.hashAlgorithm = algorithm ∨
      TakesEverything runtime (lastIndex older) entry.call

theorem carrying_references (collisionFree : ∀ algorithm, CollisionFree runtime algorithm)
    (reachable : (backups runtime).Reachable (Referable runtime) chain) :
    nodeLinkage.Agreeing carriesAll (layers (chain.map Entry.snapshot)) := by
  apply agreeing_entries (fun _ call _ => collisionFree call.hashAlgorithm)
    (fun _ _ referable => referable.1) _ reachable
  intro before last entry newest permitted new described path node older found without present
  rcases new_entry_older new found (described path node found) without present with
    same | ⟨attributes, old, target, sourced, isContent, nonempty, taken, hashes, reference,
      targetPresent⟩
  · intro algorithm carried
    rw [Carries, ← same]
    exact carried
  · intro algorithm carried
    apply permitted.2 last newest path attributes old target older sourced isContent nonempty taken
      reference targetPresent
    rw [Carries, ← hashes]
    exact carried

theorem data_carries {volumes : VolumeContents} {snapshot : Snapshot} {previous : List Snapshot}
    {attributes : BackupNodeAttributes}
    (agreeing : nodeLinkage.Agreeing carriesAll (layers (snapshot :: previous)))
    (digested : Digested algorithm snapshot.index)
    (lookup : LooksUpData volumes snapshot previous attributes) : Carries algorithm attributes := by
  obtain ⟨node, path, nodeAttributes, found, entry, isContent, search, member⟩ := lookup
  obtain ⟨dataAttributes, present, _, followed⟩ := find_data_snapshot_owner entry search
  have same := ((mem_data_lookups present).mp member).1
  have known := NodeIndex.lookup_of_get entry
  have related : carriesAll nodeAttributes dataAttributes :=
    Linkage.follow_agreeing (fun _ _ carried => carried)
      (fun _ _ _ first second algorithm carried => second algorithm (first algorithm carried))
      agreeing followed rfl known
  rw [same]
  exact related algorithm (digested path nodeAttributes known isContent)

/-- Where only calls with the algorithm stored anything, everything is digested. -/
theorem digested_of_stored_with
    (made : ∀ entry older, entry :: older <:+ chain → NewEntry runtime (lastIndex older) entry)
    (described : ∀ entry ∈ chain, Described runtime (fun _ _ => True) entry.index)
    (stored : StoredWith runtime algorithm chain) :
    ∀ entry ∈ chain, Digested algorithm entry.index := by
  induction chain with
  | nil =>
      intro entry member
      cases member
  | cons newest older induction =>
      have below : ∀ entry rest, entry :: rest <:+ older → entry :: rest <:+ newest :: older :=
        fun _ _ suffix => suffix.trans (List.suffix_cons newest older)
      have before := induction (fun entry rest suffix => made entry rest (below entry rest suffix))
        (fun entry member => described entry (List.mem_cons_of_mem _ member))
        (fun entry rest suffix => stored entry rest (below entry rest suffix))
      rw [List.forall_mem_cons]
      refine ⟨?_, before⟩
      apply digested_by_routes (made newest older (List.suffix_refl _))
      · intro path attributes sourced isContent anew
        rcases stored newest older (List.suffix_refl _) with configured | everything
        · exact configured
        · exact absurd anew (everything path attributes sourced isContent)
      · intro path attributes oldPath old _ isContent taken
        cases last : lastIndex older with
        | none =>
            rw [last] at taken
            cases taken
        | some index =>
            rw [last] at taken
            obtain ⟨lastEntry, member, same⟩ := last_index_some last
            obtain ⟨present, reason⟩ := taken_over_from_some taken
            rw [← same] at present
            apply before lastEntry member oldPath old present
            rcases reason with ⟨_, equals⟩ | ⟨_, recorded⟩
            · exact ((equals_iff _ _).mp equals).1 ▸ isContent
            · cases described lastEntry (List.mem_cons_of_mem _ member) oldPath old present with
              | directory _ _ undigested =>
                  rw [undigested] at recorded
                  cases recorded
              | content _ records _ => exact records.isContent

theorem stored_content_looked_up {entry : Entry} {older : Chain} {path : Path}
    {attributes : FileSystemNodeAttributes} (new : NewEntry runtime (lastIndex older) entry)
    (described : Described runtime (fun _ _ => True) entry.index)
    (suffix : entry :: older <:+ chain)
    (sourced : entry.call.source.index.lookup path = some attributes)
    (isContent : attributes.type ≠ .directory)
    (anew : takenOverFrom runtime entry.call.hashAlgorithm (lastIndex older) entry.call.source
      path attributes = none) (volumes : VolumeContents) :
    ∃ loaded, LookedUp volumes (chain.map Entry.snapshot) loaded ∧
      loaded.hashes = Function.update (fun _ => none) entry.call.hashAlgorithm
        (some (runtime.hash entry.call.hashAlgorithm (entry.call.source.content path))) := by
  obtain ⟨loaded, found⟩ := new_entry_lookup new sourced
  have known := described path loaded found
  obtain ⟨created, other, made, _, index, _, otherSourced, route, same⟩ := new_entry_node new found
  rw [sourced] at otherSourced
  cases otherSourced
  cases route with
  | directory isDirectory _ => exact absurd isDirectory isContent
  | inPlace old taken _ =>
      rw [anew] at taken
      cases taken
  | moved oldPath old _ taken _ =>
      rw [anew] at taken
      cases taken
  | stored _ _ _ blocks ownsBlocks owned inRange _ _ =>
      have owns : loaded.hasNodeData = true := by
        by_cases empty : blocks = []
        · apply described_has_data known
          rw [same]
          exact empty
        · rw [same]
          simp [BackupNodeAttributes.hasNodeData, reloaded, owned empty, empty]
      obtain ⟨node, number, nodeEntry⟩ := NodeIndex.get_node_index_of_lookup found
      have nodeAttributes : entry.snapshot.index.getNodeAttributes node = .ok loaded :=
        (NodeIndex.get_node_attributes_ok _ _ _).mpr ⟨path, nodeEntry⟩
      have content : loaded.type ≠ .directory := by
        rw [same]
        exact isContent
      have search : findDataSnapshot entry.snapshot (older.map Entry.snapshot) node =
          .ok { distance := 0, snapshot := entry.snapshot, path := path } :=
        find_data_snapshot_owned nodeEntry owns
      have present : InRange (entry.snapshot.fileSystem volumes) loaded.blocks := by
        rw [same]
        intro block inside
        have below := inRange block inside
        rw [← index] at below
        exact below
      have looked : loaded ∈ dataLookups volumes ⟨0, entry.snapshot, path⟩ :=
        (mem_data_lookups found).mpr ⟨rfl, present⟩
      refine ⟨loaded, .verification (suffix.map Entry.snapshot) true node ?_, by rw [same]; rfl⟩
      simp only [verificationLookups, nodeAttributes, if_neg content, search, Bool.true_or, if_true]
      exact looked

/-- In every history the verification by `AddSnapshot` finds the digests of its
algorithm when everything that showed no difference carries it, and all other
readers find theirs if and only if whatever was stored was stored with it. -/
theorem hash_lookups_hit_iff (runtime : Runtime)
    (collisionFree : ∀ algorithm, CollisionFree runtime algorithm) (chain : Chain)
    (reachable : (backups runtime).Reachable (Referable runtime) chain) :
    (∀ entry older, chain = entry :: older → UnchangedCarry (lastIndex older) entry.call →
      ∀ volumes node, ∀ attributes ∈ verificationLookups volumes entry.snapshot
        (older.map Entry.snapshot) true node, Carries entry.call.hashAlgorithm attributes) ∧
    ∀ algorithm,
      (∀ volumes attributes, LookedUp volumes (chain.map Entry.snapshot) attributes →
        Carries algorithm attributes) ↔ StoredWith runtime algorithm chain := by
  have agreeing := carrying_references collisionFree reachable
  have described := described_reachable (fun _ call _ => collisionFree call.hashAlgorithm) reachable
  have made : ∀ entry older, entry :: older <:+ chain →
      NewEntry runtime (lastIndex older) entry := fun _ _ =>
    suffix_new_entry (fun _ _ referable => referable.1) reachable
  constructor
  · rintro entry older rfl unchanged volumes node attributes lookup
    apply data_carries agreeing _ (verification_looks_up lookup)
    apply digested_by_routes (made entry older (List.suffix_refl _)) (fun _ _ _ _ _ => rfl)
    intro path sourceAttributes oldPath old sourced isContent taken
    cases last : lastIndex older with
    | none =>
        rw [last] at taken
        cases taken
    | some index =>
        rw [last] at taken
        obtain ⟨present, ⟨rfl, equals⟩ | ⟨_, recorded⟩⟩ := taken_over_from_some taken
        · exact unchanged index oldPath sourceAttributes old last sourced isContent present equals
        · exact ⟨_, recorded⟩
  · intro algorithm
    constructor
    · intro carried entry older suffix
      rw [or_iff_not_imp_left]
      intro other path attributes sourced isContent anew
      have inChain : entry ∈ chain := suffix.subset (List.mem_cons_self ..)
      obtain ⟨loaded, looked, hashes⟩ := stored_content_looked_up (made entry older suffix)
        (described entry inChain) suffix sourced isContent anew fun _ _ => []
      obtain ⟨digest, recorded⟩ := carried _ loaded looked
      rw [hashes, Function.update_of_ne (Ne.symm other)] at recorded
      cases recorded
    · intro stored volumes attributes looked
      have digested := digested_of_stored_with made described stored
      have anywhere : ∀ snapshot previous, snapshot :: previous <:+ chain.map Entry.snapshot →
          nodeLinkage.Agreeing carriesAll (layers (snapshot :: previous)) ∧
            Digested algorithm snapshot.index := by
        rintro snapshot previous ⟨front, whole⟩
        have member : snapshot ∈ chain.map Entry.snapshot := by
          rw [← whole]
          exact List.mem_append_right _ (List.mem_cons_self ..)
        obtain ⟨entry, inChain, rfl⟩ := List.mem_map.mp member
        rw [← whole] at agreeing
        exact ⟨agreeing_suffix front agreeing, digested entry inChain⟩
      cases looked with
      | verification suffix full node lookup =>
          obtain ⟨below, recorded⟩ := anywhere _ _ suffix
          exact data_carries below recorded (verification_looks_up lookup)
      | restore suffix node lookup =>
          obtain ⟨below, recorded⟩ := anywhere _ _ suffix
          exact data_carries below recorded (restore_looks_up lookup)
      | mounted suffix path lookup =>
          obtain ⟨below, recorded⟩ := anywhere _ _ suffix
          exact data_carries below recorded (mounted_looks_up lookup)
      | difference leftMember rightMember node lookup =>
          obtain ⟨entry, inChain, rfl⟩ := List.mem_map.mp rightMember
          obtain ⟨path, found, isContent⟩ := difference_looks_up lookup
          exact digested entry inChain path attributes found isContent

section AlgorithmChanged

/-! The configuration names another algorithm before the second backup, which
finds nothing to be stored. -/

def changedBackup : Call :=
  { callOf "snapshot_2" [storedFile] [] with hashAlgorithm := .sha512_256 }

theorem referable_second {chain : Chain} {first second : Call}
    (taken : (backups runtime).step [] first = some chain) (inOrder : InOrder [first] second) :
    (backups runtime).Reachable (Referable runtime) chain ∧ Referable runtime chain second := by
  have initial : Referable runtime [] first := by
    refine ⟨?_, ?_⟩
    · intro older member
      cases member
    · intro last impossible
      cases impossible
  have added : addSnapshot runtime [] first = some chain := taken
  have history := first_backup_calls added
  refine ⟨.step .start initial taken, history ▸ inOrder, ?_⟩
  intro last newest path attributes old target other _ _ _ origin reference
  have unreferenced := first_backup_unreferenced added newest (taken_over_from_some origin).1
  rw [unreferenced] at reference
  cases reference

theorem moved_file_digests_found :
    ∃ chain entry older, (backups spellingRuntime).run [] [firstBackup, moveBackup] = some chain ∧
      chain = entry :: older ∧
      (∀ attributes ∈ verificationLookups (volumesOf chain) entry.snapshot
        (older.map Entry.snapshot) true 0, Carries .md5 attributes) ∧
      ∀ attributes, LookedUp (volumesOf chain) (chain.map Entry.snapshot) attributes →
        Carries .md5 attributes := by
  have outcome : ((backups spellingRuntime).run [] [firstBackup, moveBackup]).map
      (fun chain => chain.map fun entry =>
        entry.index.nodes.map fun node => (node.2.hashes .md5).isSome) =
          some [[true], [true]] := by decide +kernel
  obtain ⟨chain, run, recorded⟩ := Option.map_eq_some_iff.mp outcome
  have permitted : Permitted InOrder [] [firstBackup, moveBackup] := by
    refine ⟨?_, ?_, trivial⟩ <;> decide +kernel
  have history : calls chain = [moveBackup, firstBackup] :=
    (run_in_order (fun _ _ inOrder => inOrder) _ .start run permitted).2
  have reachable : (backups spellingRuntime).Reachable (Referable spellingRuntime) chain := by
    obtain ⟨single, first, later⟩ := System.run_cons_some run
    obtain ⟨both, second, finished⟩ := System.run_cons_some later
    obtain rfl : both = chain := Option.some.inj finished
    obtain ⟨before, referable⟩ := referable_second first permitted.2.1
    exact .step before referable second
  have facts := hash_lookups_hit_iff spellingRuntime spelling_collision_free chain reachable
  obtain ⟨entry, older, rfl, _, below⟩ := List.map_eq_cons_iff.mp recorded
  obtain ⟨newest, rest⟩ := List.cons.inj history
  have configured : entry.call.hashAlgorithm = .md5 := newest ▸ rfl
  refine ⟨entry :: older, entry, older, run, rfl, ?_, ?_⟩
  · intro attributes lookup
    rw [← configured]
    apply facts.1 entry older rfl _ (volumesOf (entry :: older)) 0 attributes lookup
    intro last path source old same _ _ present _
    obtain ⟨lastEntry, member, rfl⟩ := last_index_some same
    have listed := List.mem_map_of_mem (f := fun entry : Entry =>
      entry.index.nodes.map fun node => (node.2.hashes .md5).isSome) member
    rw [below, List.mem_singleton] at listed
    have digested := List.mem_map_of_mem (f := fun node : Path × BackupNodeAttributes =>
      (node.2.hashes .md5).isSome) ((NodeIndex.lookup_eq_some _ _ _).mp present)
    rw [listed, List.mem_singleton, Option.isSome_iff_exists] at digested
    rw [configured]
    exact digested
  · intro attributes lookup
    apply (facts.2 .md5).mpr _ _ attributes lookup
    intro other past suffix
    have member := List.mem_map_of_mem (f := Entry.call) (suffix.subset (List.mem_cons_self ..))
    have called : other.call ∈ [moveBackup, firstBackup] := history ▸ member
    simp only [List.mem_cons, List.not_mem_nil, or_false] at called
    rcases called with same | same <;> exact .inl (same ▸ rfl)

/-- The verification after the second backup looks for a digest that the file does
not have, and raises. -/
theorem changed_algorithm_missed :
    ∃ chain entry older attributes,
      (backups spellingRuntime).Reachable
        (after fun past call => InOrder past call ∧ ContentKept past call) chain ∧
      chain = entry :: older ∧ entry.call.hashAlgorithm = .sha512_256 ∧
      attributes ∈ verificationLookups (volumesOf chain) entry.snapshot
        (older.map Entry.snapshot) true 0 ∧
      ¬Carries entry.call.hashAlgorithm attributes ∧
      Finishes (verifySnapshot spellingRuntime .sha512_256 (volumesOf chain) inSequence
        entry.snapshot (older.map Entry.snapshot) true) (.error .missingKey) := by
  have outcome : ((backups spellingRuntime).run [] [firstBackup, changedBackup]).map
      (fun chain => (chain.head?.map fun entry => entry.call.hashAlgorithm,
        chain.head?.map fun entry =>
          (verificationLookups (volumesOf chain) entry.snapshot (chain.tail.map Entry.snapshot)
            true 0).map fun attributes => attributes.hashes .sha512_256)) =
        some (some .sha512_256, some [none]) := by decide +kernel
  have raises : (((backups spellingRuntime).run [] [firstBackup, changedBackup]).bind fun chain =>
      chain.head?.bind fun entry => verifySnapshot spellingRuntime .sha512_256 (volumesOf chain)
        inSequence entry.snapshot (chain.tail.map Entry.snapshot) true 9) =
        some (.error .missingKey) := by decide +kernel
  obtain ⟨chain, run, facts⟩ := Option.map_eq_some_iff.mp outcome
  have permitted : Permitted (fun past call => InOrder past call ∧ ContentKept past call) []
      [firstBackup, changedBackup] := by
    refine ⟨⟨?_, ?_⟩, ⟨?_, ?_⟩, trivial⟩ <;> decide +kernel
  obtain ⟨reachable, _⟩ := run_in_order (fun _ _ allowed => allowed.1) _ .start run permitted
  rw [run] at raises
  cases chain with
  | nil => cases facts
  | cons entry older =>
      simp only [List.head?_cons, Option.map_some, Option.bind_some, List.tail_cons, Prod.mk.injEq,
        Option.some.injEq] at facts raises
      obtain ⟨configured, lookups⟩ := facts
      obtain ⟨attributes, rest, listed, missing, _⟩ := List.map_eq_cons_iff.mp lookups
      refine ⟨entry :: older, entry, older, attributes, reachable, rfl, configured, ?_, ?_,
        ⟨9, raises⟩⟩
      · rw [listed]
        exact List.mem_cons_self ..
      · rintro ⟨digest, recorded⟩
        rw [configured, missing] at recorded
        cases recorded

end AlgorithmChanged

end Runs

end ACBackup.HashLookups
