import ACBackup.RevisionsTree
import ACBackup.SourceRecovery

/-!
What the viewer shows of a regular history: below the root the source of the newest
snapshot, and below a file the revisions of it. What is downloaded from there is what it
is named after.
-/

namespace ACBackup.ViewerMirror

open ACBackup.Library.FlatTree ACBackup.Library.LazyTree ACBackup.Library.Loop
open ACBackup.Library.Outcome ACBackup.Library.Transition
open ACBackup.Platform ACBackup.NodeAttributes ACBackup.Indexing ACBackup.VolumeReading
open ACBackup.FileReading ACBackup.SnapshotChain ACBackup.SnapshotManager
open ACBackup.DataResolution ACBackup.SnapshotVerification ACBackup.RecordedContent
open ACBackup.SnapshotMirror ACBackup.SourceScan ACBackup.MountedTree ACBackup.ReadPaths
open ACBackup.Restore ACBackup.StoredContent ACBackup.SourceRecovery ACBackup.RevisionHistory
open ACBackup.RevisionsTree

set_option autoImplicit false

section Histories

variable {runtime : Runtime} {algorithm : HashAlgorithm} {chain : Chain}

/-- In a regular history without stale references the data of every node is found. -/
theorem history_resolvable (collisionFree : ∀ algorithm, CollisionFree runtime algorithm)
    (reachable : (backups runtime).Reachable (after (Regular algorithm)) chain)
    (current : HistoryCurrent runtime chain) (rest : Chain) (suffix : rest <:+ chain) :
    Resolvable (rest.map Entry.snapshot) := by
  induction bound : rest.length using Nat.strong_induction_on generalizing rest with
  | _ count induction =>
      intro path
      cases rest with
      | nil => exact ⟨[], .none path⟩
      | cons entry older =>
          by_cases known : entry.snapshot.index.hasNodeIndex path = true
          · obtain ⟨attributes, present⟩ := (NodeIndex.has_node_index_iff _ _).mp known
            obtain ⟨node, number, nodeEntry⟩ := NodeIndex.get_node_index_of_lookup present
            obtain ⟨found, search⟩ : ∃ found, findDataSnapshot entry.snapshot
                (older.map Entry.snapshot) node = .ok found := by
              by_cases directory : attributes.type = .directory
              · have owns : attributes.hasNodeData = true := by
                  cases described_reachable (fun _ call _ => collisionFree call.hashAlgorithm)
                      reachable entry (suffix.subset (List.mem_cons_self ..)) path attributes
                      present with
                  | directory _ size _ => simp [BackupNodeAttributes.hasNodeData, size]
                  | content _ records _ => exact absurd directory records.isContent
                exact ⟨_, find_data_snapshot_owned nodeEntry owns⟩
              · obtain ⟨found, _, located⟩ :=
                  node_located collisionFree reachable current suffix nodeEntry directory
                exact ⟨found, located.search⟩
            have further := induction ((entry :: older).drop (found.distance + 1)).length
              (by
                rw [← bound, List.length_drop, List.length_cons]
                omega)
              _ ((List.drop_suffix _ _).trans suffix) rfl
            obtain ⟨visits, walk⟩ := further found.path
            rw [List.map_drop, List.map_cons] at walk
            exact ⟨_, .visited ⟨entry.snapshot, older.map Entry.snapshot, path, node, found⟩
              visits number search walk⟩
          · exact ⟨[], .unknown entry.snapshot (older.map Entry.snapshot) path
              (Bool.eq_false_iff.mpr known)⟩

theorem unfolds_perm {snapshots : List Snapshot} {left right : List (Path × FileType)}
    (same : left.Perm right) {node : TreeNode} {nodes : List TreeNode}
    (unfolds : Unfolds snapshots left node nodes) : Unfolds snapshots right node nodes := by
  cases unfolds with
  | directory nodeIndex path nodes listed children =>
      exact .directory nodeIndex path nodes (same.mem_iff.mp listed)
        (children.trans ((same.filter _).map shownEntry))
  | dataFile nodeIndex path type visits listed isContent walk =>
      exact .dataFile nodeIndex path type visits (same.mem_iff.mp listed) isContent walk
  | fileRevision revision => exact .fileRevision revision

theorem tree_started {newest : Entry} {older : Chain}
    (reachable : (backups runtime).Reachable (after (Regular algorithm)) (newest :: older))
    {fileSystem : SourceFileSystem} {directory : SourceDirectory}
    (scanned : fileSystem.generateIndex directory = some newest.call.source.index) :
    (shownNodes newest.snapshot.index).Perm (typedPaths newest.call.source.index.nodes) ∧
      Rooted (shownNodes newest.snapshot.index) ∧
      ∃ nodeIndex, Valid newest.snapshot (older.map Entry.snapshot)
          (.directory nodeIndex Path.root) ∧
        revisionsTree (newest.snapshot :: older.map Entry.snapshot) =
          .ok (startedAt nodeIndex) := by
  obtain ⟨last, new⟩ := new_entry_reachable reachable newest (List.mem_cons_self ..)
  have shown : (shownNodes newest.snapshot.index).Perm
      (typedPaths newest.call.source.index.nodes) := new_entry_shown new
  have rooted := rooted_perm shown (generate_index_rooted scanned)
  obtain ⟨attributes, found, type⟩ := (mem_shown_nodes _).mp rooted.root
  obtain ⟨nodeIndex, number, entry⟩ := NodeIndex.get_node_index_of_lookup found
  refine ⟨shown, rooted, nodeIndex, ⟨attributes, entry, type⟩, ?_⟩
  simp only [revisionsTree, newDirectoryTreeNode, number, Except.map]
  rfl

/-- Whatever the volume files hold, what is read under a number is the content that the
source had for the path of that number. -/
theorem numbered_read_sound (collisionFree : ∀ algorithm, CollisionFree runtime algorithm)
    (reachable : (backups runtime).Reachable (after (Regular algorithm)) chain) {entry : Entry}
    (member : entry ∈ chain) {node : Nat} {path : Path} {attributes : BackupNodeAttributes}
    (nodeEntry : entry.snapshot.index.nodes[node]? = some (path, attributes))
    {volumes : VolumeContents} {delivered : Bytes}
    (reads : Finishes (StreamSource.read runtime algorithm volumes
      { snapshot := entry.snapshot, nodeIndex := node }) (.ok delivered)) :
    attributes.type ≠ .directory ∧ delivered = entry.call.source.content path := by
  have found := NodeIndex.lookup_of_get nodeEntry
  have stored : entry.snapshot.index.getNodeAttributes node = .ok attributes :=
    (NodeIndex.get_node_attributes_ok _ _ _).mpr ⟨path, nodeEntry⟩
  obtain ⟨fuel, run⟩ := reads
  unfold StreamSource.read at run
  cases opened : StreamSource.openStream runtime algorithm volumes
      { snapshot := entry.snapshot, nodeIndex := node } with
  | error fault =>
      rw [opened] at run
      cases run
  | ok stream =>
      rw [opened] at run
      have flushed : Finishes (flushTo runtime algorithm (entry.snapshot.fileSystem volumes) stream)
          (.ok delivered) := ⟨fuel, run⟩
      rw [StreamSource.openStream, open_file_for_reading stored] at opened
      split at opened
      · next inRange =>
          cases recorded : attributes.hashes algorithm with
          | none =>
              simp only [recorded] at opened
              cases opened
          | some digest =>
              simp only [recorded] at opened
              cases opened
              have same := flush_digest inRange rfl flushed
              have mirrors := mirrors_reachable (collisionFree algorithm)
                (regular_unmodified reachable) entry member
              cases mirrors.contents path attributes found with
              | directory _ _ undigested =>
                  rw [undigested] at recorded
                  cases recorded
              | content content records holds =>
                  refine ⟨records.isContent, ?_⟩
                  rw [records.digests algorithm digest recorded] at same
                  exact (collisionFree algorithm same).trans holds
      · cases opened

/-- The viewer shows the source: whatever was asked before, every node that the tree
view was given answers with its name and, in some order, with one node for each entry of
the source directly below it, or with the revisions of the file; it gives the same
pointers ever after; a path is shown by one node, and every path can be reached. -/
theorem viewer_mirrors_source (runtime : Runtime) (algorithm : HashAlgorithm)
    (collisionFree : ∀ algorithm, CollisionFree runtime algorithm) (newest : Entry)
    (older : Chain)
    (reachable : (backups runtime).Reachable (after (Regular algorithm)) (newest :: older))
    (current : HistoryCurrent runtime (newest :: older)) (fileSystem : SourceFileSystem)
    (directory : SourceDirectory)
    (scanned : fileSystem.generateIndex directory = some newest.call.source.index)
    (snapshots : List Snapshot) (loaded : snapshots = (newest :: older).map Entry.snapshot) :
    ∃ start, revisionsTree snapshots = .ok start ∧
      ∀ session, (viewer snapshots start).Reachable Asked session →
        (∀ index, Known session index → ∃ node nodes, session.nodeOf index = some node ∧
          getText session index = .ok node.getName ∧
          Unfolds snapshots (typedPaths newest.call.source.index.nodes) node nodes ∧
          (∃ later, getNumberOfChildren snapshots session index =
            some (.ok (nodes.length, later))) ∧
          ∀ row column child, nodes[row]? = some child → ∃ given next,
            getChildIndex snapshots session row column index = some (.ok (given, next)) ∧
            ∀ requests later, (viewer snapshots start).run next requests = some later →
              later.nodeOf given = some child ∧ ∃ last,
                getChildIndex snapshots later row column index = some (.ok (given, last))) ∧
        (∀ first second left right path, Known session first → Known session second →
          session.nodeOf first = some left → session.nodeOf second = some right →
          left.shownPath = some path → right.shownPath = some path →
            extractNode first = extractNode second) ∧
        ∀ entry ∈ typedPaths newest.call.source.index.nodes, ∃ requests later index node,
          (viewer snapshots start).Throughout Asked session requests ∧
          (viewer snapshots start).run session requests = some later ∧
          Known later index ∧ later.nodeOf index = some node ∧
          node.shown = shownEntry entry := by
  subst loaded
  obtain ⟨shown, rooted, rootIndex, rootValid, started⟩ := tree_started reachable scanned
  have resolvable := history_resolvable collisionFree reachable current _ (List.suffix_refl _)
  rw [List.map_cons] at resolvable ⊢
  refine ⟨startedAt rootIndex, started, ?_⟩
  · intro session reached
    have viewed := reached_viewed resolvable rootValid reached
    have keyed := tree_keyed resolvable rootValid
    refine ⟨?_, ?_, ?_⟩
    · intro index known
      obtain ⟨cell, here⟩ := known_node viewed known
      have node : session.nodeOf index = some cell.label := by
        rw [Session.nodeOf, here, Option.map_some]
      obtain ⟨nodes, unfolds, ⟨later, counted, _⟩, rows⟩ :=
        controller_answers resolvable rootValid viewed here
      refine ⟨cell.label, nodes, node, ?_, unfolds_perm shown unfolds, ⟨later, counted⟩, ?_⟩
      · rw [getText, node]
      · intro row column child listed
        obtain ⟨given, next, answered, nextViewed, _, _, there, again⟩ :=
          (rows row column).2 child listed
        refine ⟨given, next, answered, ?_⟩
        intro requests later run
        obtain ⟨_, continues⟩ := run_viewed resolvable rootValid requests nextViewed run
        exact ⟨node_continues continues there, again later continues⟩
    · intro first second left right path firstKnown secondKnown leftNode rightNode leftPath
        rightPath
      obtain ⟨place, placed⟩ := viewed.placed
      obtain ⟨leftCell, leftHere, rfl⟩ := Option.map_eq_some_iff.mp leftNode
      obtain ⟨rightCell, rightHere, rfl⟩ := Option.map_eq_some_iff.mp rightNode
      apply placed.injective _ _ (List.getElem?_eq_some_iff.mp leftHere).1
        (List.getElem?_eq_some_iff.mp rightHere).1
      exact place_unique keyed (placed.label _ _ leftHere) (placed.label _ _ rightHere) leftPath
        rightPath
    · intro entry listed
      exact path_reached resolvable rootValid rooted viewed _ rfl (shown.mem_iff.mpr listed)

theorem file_download_sound (collisionFree : ∀ algorithm, CollisionFree runtime algorithm)
    (reachable : (backups runtime).Reachable (after (Regular algorithm)) chain) {entry : Entry}
    (member : entry ∈ chain) {node : Nat} {path : Path} {attributes : BackupNodeAttributes}
    (nodeEntry : entry.snapshot.index.nodes[node]? = some (path, attributes))
    {volumes : VolumeContents} {names : PathNames} {name : String} {content : Bytes}
    (downloaded : Finishes ((TreeNode.dataFile node path).downloadTo runtime algorithm volumes
      names entry.snapshot) (.ok (name, content))) :
    name = path.name ∧ content = entry.call.source.content path := by
  obtain ⟨fuel, run⟩ := downloaded
  obtain ⟨delivered, reads, written⟩ := and_then_ok run
  cases written
  exact ⟨rfl, (numbered_read_sound collisionFree reachable member nodeEntry ⟨fuel, reads⟩).2⟩

theorem revision_download_sound (collisionFree : ∀ algorithm, CollisionFree runtime algorithm)
    (reachable : (backups runtime).Reachable (after (Regular algorithm)) chain) {entry : Entry}
    (member : entry ∈ chain) {revision : FileRevisionNode}
    (same : entry.snapshot = revision.snapshot) {volumes : VolumeContents} {names : PathNames}
    {name : String} {content : Bytes}
    (downloaded : Finishes (revision.downloadTo runtime algorithm volumes names)
      (.ok (name, content))) :
    ∃ path attributes, entry.call.source.index.lookup path = some attributes ∧
      attributes.type ≠ .directory ∧ name = names.fileName path entry.snapshot ∧
      content = entry.call.source.content path := by
  obtain ⟨fuel, run⟩ := downloaded
  unfold FileRevisionNode.downloadTo at run
  cases numbered : revision.snapshot.index.getNodePath revision.nodeIndex with
  | error fault =>
      rw [numbered] at run
      cases run
  | ok path =>
      rw [numbered] at run
      obtain ⟨delivered, reads, written⟩ := and_then_ok run
      cases written
      rw [← same] at numbered
      obtain ⟨attributes, nodeEntry⟩ := (NodeIndex.get_node_path_ok _ _ _).mp numbered
      rw [FileRevisionNode.source, ← same] at reads
      obtain ⟨isContent, delivers⟩ :=
        numbered_read_sound collisionFree reachable member nodeEntry ⟨fuel, reads⟩
      have mirrors := mirrors_reachable (collisionFree algorithm) (regular_unmodified reachable)
        entry member
      obtain ⟨sourced, present, equals⟩ :=
        mirrors.attributes path attributes (NodeIndex.lookup_of_get nodeEntry)
      have type : attributes.type = sourced.type := ((equals_iff _ _).mp equals).1
      exact ⟨path, sourced, present, type ▸ isContent, by rw [same], delivers⟩

/-- A file that the snapshot has stored is read as the source had it. -/
theorem owned_file_delivered (collisionFree : ∀ algorithm, CollisionFree runtime algorithm)
    (decompresses : Decompresses runtime)
    (reachable : (backups runtime).Reachable (after (Regular algorithm)) chain)
    (current : HistoryCurrent runtime chain) {entry : Entry} {older : Chain}
    (suffix : entry :: older <:+ chain) {node : Nat} {path : Path}
    {attributes : BackupNodeAttributes}
    (nodeEntry : entry.snapshot.index.nodes[node]? = some (path, attributes))
    (isContent : attributes.type ≠ .directory) (owns : attributes.hasNodeData = true)
    (names : PathNames) (outcome : Except Fault (String × Bytes)) :
    Finishes ((TreeNode.dataFile node path).downloadTo runtime algorithm (volumesOf chain) names
      entry.snapshot) outcome ↔ outcome = .ok (path.name, entry.call.source.content path) := by
  obtain ⟨found, dataAttributes, located⟩ :=
    node_located collisionFree reachable current suffix nodeEntry isContent
  have number : entry.snapshot.index.getNodeIndex path = .ok node :=
    (NodeIndex.get_node_index_ok _ _ _).mpr ⟨attributes, nodeEntry⟩
  have restored : restoreSource entry.snapshot (older.map Entry.snapshot) node =
      .ok { snapshot := entry.snapshot, nodeIndex := node } := by
    simp only [restoreSource, find_data_snapshot_owned nodeEntry owns, number, bind, Except.bind]
  have reads := located_read located (volumesOf chain)
    (located_intact located collisionFree decompresses reachable suffix)
  have sameRead : readNode runtime algorithm (volumesOf chain) entry.snapshot
      (older.map Entry.snapshot) node = StreamSource.read runtime algorithm (volumesOf chain)
        { snapshot := entry.snapshot, nodeIndex := node } := by
    funext fuel
    exact read_node_source restored fuel
  have steady := read_node_steady runtime algorithm (volumesOf chain) entry.snapshot
    (older.map Entry.snapshot) node
  rw [sameRead] at reads steady
  exact (finishes_and_then steady (fun _ => steady_constant _) ((reads _).mpr rfl) outcome).trans
    (finishes_constant _ outcome)

/-- A completed download is never something else than its name says: whatever the volume files
hold, what is written for a file is the content that the source has, and what is written
for a revision is named after the node of its snapshot whose content it is, also when the
number of that node is not that of the file. On the volume files as they were left a
file that the newest snapshot has stored is downloaded. -/
theorem downloads_named_truly (runtime : Runtime) (algorithm : HashAlgorithm)
    (collisionFree : ∀ algorithm, CollisionFree runtime algorithm)
    (decompresses : Decompresses runtime) (newest : Entry) (older : Chain)
    (reachable : (backups runtime).Reachable (after (Regular algorithm)) (newest :: older))
    (current : HistoryCurrent runtime (newest :: older)) (fileSystem : SourceFileSystem)
    (directory : SourceDirectory)
    (scanned : fileSystem.generateIndex directory = some newest.call.source.index)
    (snapshots : List Snapshot) (loaded : snapshots = (newest :: older).map Entry.snapshot)
    (start session : Session) (started : revisionsTree snapshots = .ok start)
    (reached : (viewer snapshots start).Reachable Asked session) (index : ControllerIndex)
    (known : Known session index) (names : PathNames) :
    ∃ node, session.nodeOf index = some node ∧
      (∀ nodeIndex path, node = .dataFile nodeIndex path →
        (∀ volumes name content, Finishes
            (node.downloadTo runtime algorithm volumes names newest.snapshot)
            (.ok (name, content)) →
          name = path.name ∧ content = newest.call.source.content path) ∧
        ∀ attributes, newest.index.lookup path = some attributes →
          attributes.hasNodeData = true → ∀ outcome, Finishes
            (node.downloadTo runtime algorithm (volumesOf (newest :: older)) names
              newest.snapshot) outcome ↔
            outcome = .ok (path.name, newest.call.source.content path)) ∧
      ∀ revision, node = .fileRevision revision → ∃ entry ∈ newest :: older,
        entry.snapshot = revision.snapshot ∧
        ∀ volumes name content, Finishes
            (node.downloadTo runtime algorithm volumes names newest.snapshot)
            (.ok (name, content)) →
          ∃ path attributes, entry.call.source.index.lookup path = some attributes ∧
            attributes.type ≠ .directory ∧ name = names.fileName path entry.snapshot ∧
            content = entry.call.source.content path := by
  subst loaded
  obtain ⟨shown, rooted, rootIndex, rootValid, begun⟩ := tree_started reachable scanned
  have resolvable := history_resolvable collisionFree reachable current _ (List.suffix_refl _)
  rw [List.map_cons] at resolvable started reached
  rw [begun, Except.ok.injEq] at started
  subst started
  have viewed := reached_viewed resolvable rootValid reached
  obtain ⟨cell, here⟩ := known_node viewed known
  obtain ⟨place, placed⟩ := viewed.placed
  have valid := label_at_valid (tree_keyed resolvable rootValid) (placed.label _ cell here)
  refine ⟨cell.label, by rw [Session.nodeOf, here, Option.map_some], ?_, ?_⟩
  · intro nodeIndex path isFile
    rw [isFile] at valid ⊢
    obtain ⟨attributes, nodeEntry, isContent⟩ := valid
    constructor
    · intro volumes name content downloaded
      exact file_download_sound collisionFree reachable (List.mem_cons_self ..) nodeEntry
        downloaded
    · intro stored present owns outcome
      have same : attributes = stored := by
        have found := NodeIndex.lookup_of_get nodeEntry
        rw [Entry.snapshot, present, Option.some.injEq] at found
        exact found.symm
      exact owned_file_delivered collisionFree decompresses reachable current
        (List.suffix_refl _) nodeEntry isContent (same ▸ owns) names outcome
  · intro revision isRevision
    rw [isRevision] at valid ⊢
    obtain ⟨path, visits, walk, visit, visited, rfl⟩ := valid
    have inside : visit.found.snapshot ∈ (newest :: older).map Entry.snapshot :=
      (visits_sublist walk).subset (List.mem_map_of_mem visited)
    obtain ⟨entry, member, same⟩ := List.mem_map.mp inside
    refine ⟨entry, member, same, ?_⟩
    intro volumes name content downloaded
    exact revision_download_sound collisionFree reachable member same downloaded

end Histories

section MovedIntoDirectory

/-! The file was moved into a directory between the two snapshots. -/

theorem moved_into_directory_history :
    ∃ newest first, (backups spellingRuntime).run [] [firstBackup, treeBackup] =
        some [newest, first] ∧ newest.call = treeBackup ∧ first.call = firstBackup ∧
      (backups spellingRuntime).Reachable (after (Regular .md5)) [newest, first] ∧
      HistoryCurrent spellingRuntime [newest, first] := by
  apply second_backup_history (by decide +kernel)
  refine ⟨⟨?_, rfl, ?_⟩, ⟨?_, rfl, ?_⟩, trivial⟩ <;> decide +kernel

theorem moved_into_directory_scanned :
    filteringFileSystem.generateIndex filteredTree = some treeBackup.source.index := by
  decide +kernel

theorem moved_into_directory_viewed :
    ∃ newest first start, (backups spellingRuntime).run [] [firstBackup, treeBackup] =
        some [newest, first] ∧
      revisionsTree [newest.snapshot, first.snapshot] = .ok start ∧
      ∃ requests later index node,
        (viewer [newest.snapshot, first.snapshot] start).run start requests = some later ∧
        later.nodeOf index = some node ∧ node.shown = some (movedInside.path, false) := by
  obtain ⟨newest, first, run, newestCall, _, reachable, current⟩ := moved_into_directory_history
  obtain ⟨start, started, shows⟩ := viewer_mirrors_source spellingRuntime .md5
    spelling_collision_free newest [first] reachable current filteringFileSystem filteredTree
    (newestCall ▸ moved_into_directory_scanned) _ rfl
  have listed : (movedInside.path, .file) ∈ typedPaths newest.call.source.index.nodes := by
    rw [newestCall]
    decide +kernel
  obtain ⟨requests, later, index, node, _, reached, _, found, shown⟩ :=
    (shows start .start).2.2 _ listed
  exact ⟨newest, first, start, run, started, requests, later, index, node, reached, found, shown⟩

theorem moved_into_directory_downloaded :
    ∃ newest first, (backups spellingRuntime).run [] [firstBackup, treeBackup] =
        some [newest, first] ∧
      ∃ nodeIndex, ∀ volumes name content, Finishes
          ((TreeNode.dataFile nodeIndex movedInside.path).downloadTo spellingRuntime .md5 volumes
            { title := fun _ => "", fileExtension := fun _ => "" } newest.snapshot)
          (.ok (name, content)) → name = "b" ∧ content = [1, 2] := by
  obtain ⟨newest, first, run, newestCall, _, reachable, current⟩ := moved_into_directory_history
  have scanned : filteringFileSystem.generateIndex filteredTree =
      some newest.call.source.index := newestCall ▸ moved_into_directory_scanned
  obtain ⟨shown, rooted, rootIndex, rootValid, started⟩ := tree_started reachable scanned
  have resolvable := history_resolvable spelling_collision_free reachable current _
    (List.suffix_refl _)
  have listed : (movedInside.path, .file) ∈ shownNodes newest.snapshot.index := by
    apply shown.mem_iff.mpr
    rw [newestCall]
    decide +kernel
  obtain ⟨requests, later, index, node, asked, reached, known, found, nodeShown⟩ :=
    path_reached resolvable rootValid rooted (reached_viewed resolvable rootValid .start) _ rfl
      listed
  obtain ⟨same, found', files, _⟩ := downloads_named_truly spellingRuntime .md5
    spelling_collision_free spelling_decompresses newest [first] reachable current
    filteringFileSystem filteredTree scanned _ rfl _ later started
    (System.reachable_of_throughout requests .start asked reached) index known
    { title := fun _ => "", fileExtension := fun _ => "" }
  rw [found, Option.some.injEq] at found'
  subst found'
  cases node with
  | directory number path => simp [TreeNode.shown, shownEntry] at nodeShown
  | dataFile number path =>
      have samePath : path = movedInside.path := congrArg Prod.fst (Option.some.inj nodeShown)
      subst samePath
      refine ⟨newest, first, run, number, ?_⟩
      intro volumes name content downloaded
      obtain ⟨title, bytes⟩ := (files number movedInside.path rfl).1 volumes name content downloaded
      have stored : newest.call.source.content movedInside.path = [1, 2] := by
        rw [newestCall]
        decide +kernel
      exact ⟨title, bytes.trans stored⟩
  | fileRevision revision => cases nodeShown

end MovedIntoDirectory

end ACBackup.ViewerMirror
