import ACBackup.Library.Outcome
import ACBackup.Indexing

/-!
`OSFileSystemNodeIndex`: the index of the source directory, with access to what
the files hold and where the links point to. The source does not change while
it is indexed and backed up.
-/

namespace ACBackup.SourceIndex

open ACBackup.Library.Outcome
open ACBackup.Platform ACBackup.NodeAttributes ACBackup.Indexing

set_option autoImplicit false

/-- `content` is what `OpenFile` or `OpenLinkTargetAsStream` deliver for a path.
The attributes come from `FileInfo`s, which leave directories without a size. -/
structure OSFileSystemNodeIndex where
  index : FileSystemNodeIndex
  content : Path → Bytes
  directorySize : ∀ entry ∈ index.nodes, entry.2.type = .directory → entry.2.size = 0

/-- `ComputeNodeHash`: what was read must have the indexed size. -/
def OSFileSystemNodeIndex.computeNodeHash (runtime : Runtime) (algorithm : HashAlgorithm)
    (source : OSFileSystemNodeIndex) (nodeIndex : Nat) : Except Fault String := do
  let attributes ← source.index.getNodeAttributes nodeIndex
  if attributes.type = .directory then .error .assertionFailed
  else
    let nodePath ← source.index.getNodePath nodeIndex
    if (source.content nodePath).length = attributes.size then
      .ok (runtime.hash algorithm (source.content nodePath))
    else .error (.streamPipingFailed nodePath)

theorem compute_node_hash_ok {runtime : Runtime} {algorithm : HashAlgorithm}
    {source : OSFileSystemNodeIndex} {node : Nat} {path : Path}
    {attributes : FileSystemNodeAttributes}
    (entry : source.index.nodes[node]? = some (path, attributes)) {hash : String}
    (computed : source.computeNodeHash runtime algorithm node = .ok hash) :
    attributes.type ≠ .directory ∧ (source.content path).length = attributes.size ∧
      hash = runtime.hash algorithm (source.content path) := by
  have nodeAttributes : source.index.getNodeAttributes node = .ok attributes :=
    (NodeIndex.get_node_attributes_ok _ _ _).mpr ⟨path, entry⟩
  have nodePath : source.index.getNodePath node = .ok path :=
    (NodeIndex.get_node_path_ok _ _ _).mpr ⟨attributes, entry⟩
  simp only [OSFileSystemNodeIndex.computeNodeHash, nodeAttributes, nodePath, bind,
    Except.bind] at computed
  by_cases directory : attributes.type = .directory
  · rw [if_pos directory] at computed
    cases computed
  · rw [if_neg directory] at computed
    by_cases sized : (source.content path).length = attributes.size
    · rw [if_pos sized] at computed
      cases computed
      exact ⟨directory, sized, rfl⟩
    · rw [if_neg sized] at computed
      cases computed

end ACBackup.SourceIndex
