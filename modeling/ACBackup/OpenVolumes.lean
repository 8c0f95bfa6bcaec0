import ACBackup.Indexing

/-!
The list of the volumes that are open for writing. A volume is owned by at most
one writer at a time; a writer is known by the path it writes for, as each path
has one writer.
-/

namespace ACBackup.OpenVolumes

open ACBackup.Platform

set_option autoImplicit false

/-- `file` is left out: the file of a volume is the one with its number. -/
structure OpenVolumeForWriting where
  number : Nat
  leftSize : UInt64
  ownedWriter : Option Path
  deriving DecidableEq, Repr

abbrev OpenVolumeForWriting.claimedBy (volume : OpenVolumeForWriting) (writer : Path) :
    OpenVolumeForWriting :=
  { volume with ownedWriter := some writer }

abbrev OpenVolumeForWriting.released (volume : OpenVolumeForWriting) : OpenVolumeForWriting :=
  { volume with ownedWriter := none }

abbrev OpenVolumeForWriting.filled (volume : OpenVolumeForWriting) (nBytesWritten : Nat) :
    OpenVolumeForWriting :=
  { volume with leftSize := volume.leftSize - UInt64.ofNat nBytesWritten }

theorem left_size_filled {leftSize : UInt64} {nBytesWritten : Nat}
    (bound : nBytesWritten ≤ leftSize.toNat) :
    (leftSize - UInt64.ofNat nBytesWritten).toNat = leftSize.toNat - nBytesWritten := by
  have small : (UInt64.ofNat nBytesWritten).toNat = nBytesWritten :=
    UInt64.toNat_ofNat_of_lt' (Nat.lt_of_le_of_lt bound leftSize.toNat_lt)
  rw [UInt64.toNat_sub_of_le _ _ (UInt64.le_iff_toNat_le.mpr (small.symm ▸ bound)), small]

def findOwned (writer : Path) (volumes : List OpenVolumeForWriting) :
    Option OpenVolumeForWriting :=
  volumes.find? fun volume => volume.ownedWriter = some writer

/-- The search remembers the last free volume it has seen. -/
def claimFree (writer : Path) :
    List OpenVolumeForWriting → Option (OpenVolumeForWriting × List OpenVolumeForWriting)
  | [] => none
  | volume :: rest =>
      match claimFree writer rest with
      | some (claimed, others) => some (claimed, volume :: others)
      | none =>
          if volume.ownedWriter = none then
            some (volume.claimedBy writer, volume.claimedBy writer :: rest)
          else none

def releaseOwned (writer : Path) : List OpenVolumeForWriting → List OpenVolumeForWriting
  | [] => []
  | volume :: rest =>
      if volume.ownedWriter = some writer then volume.released :: rest
      else volume :: releaseOwned writer rest

/-- The first volume of the writer has received bytes; a full one is closed. -/
def fillOwned (writer : Path) (nBytesWritten : Nat) :
    List OpenVolumeForWriting → List OpenVolumeForWriting
  | [] => []
  | volume :: rest =>
      if volume.ownedWriter = some writer then
        if (volume.filled nBytesWritten).leftSize = 0 then rest
        else volume.filled nBytesWritten :: rest
      else volume :: fillOwned writer nBytesWritten rest

def Apart (left right : OpenVolumeForWriting) : Prop :=
  left.number ≠ right.number ∧
    ∀ writer, left.ownedWriter = some writer → right.ownedWriter ≠ some writer

instance : Std.Symm Apart where
  symm _ _ apart :=
    ⟨apart.1.symm, fun writer rightOwned leftOwned => apart.2 writer leftOwned rightOwned⟩

theorem apart_owner_unique {volumes : List OpenVolumeForWriting} (apart : volumes.Pairwise Apart)
    {left right : OpenVolumeForWriting} (leftMember : left ∈ volumes)
    (rightMember : right ∈ volumes) {writer : Path} (leftOwned : left.ownedWriter = some writer)
    (rightOwned : right.ownedWriter = some writer) : left = right := by
  by_contra different
  exact (apart.forall leftMember rightMember different).2 writer leftOwned rightOwned

theorem apart_number_unique {volumes : List OpenVolumeForWriting} (apart : volumes.Pairwise Apart)
    {left right : OpenVolumeForWriting} (leftMember : left ∈ volumes)
    (rightMember : right ∈ volumes) (same : left.number = right.number) : left = right := by
  by_contra different
  exact (apart.forall leftMember rightMember different).1 same

theorem owned_eq {volume : OpenVolumeForWriting} {writer : Path}
    (owned : volume.ownedWriter = some writer) :
    volume = { number := volume.number, leftSize := volume.leftSize, ownedWriter := some writer } := by
  rw [← owned]

theorem find_owned_some {writer : Path} {volumes : List OpenVolumeForWriting}
    {volume : OpenVolumeForWriting} (found : findOwned writer volumes = some volume) :
    volume ∈ volumes ∧ volume.ownedWriter = some writer := by
  refine ⟨List.mem_of_find?_eq_some found, ?_⟩
  have matching := List.find?_some found
  simpa using matching

theorem find_owned_none {writer : Path} {volumes : List OpenVolumeForWriting}
    (absent : findOwned writer volumes = none) (volume : OpenVolumeForWriting)
    (member : volume ∈ volumes) : volume.ownedWriter ≠ some writer := by
  have search := List.find?_eq_none.mp absent volume member
  simpa using search

theorem find_owned_unique {volumes : List OpenVolumeForWriting} (apart : volumes.Pairwise Apart)
    {volume : OpenVolumeForWriting} {writer : Path} (member : volume ∈ volumes)
    (owned : volume.ownedWriter = some writer) : findOwned writer volumes = some volume := by
  cases found : findOwned writer volumes with
  | none => exact absurd owned (find_owned_none found volume member)
  | some other =>
      obtain ⟨otherMember, otherOwned⟩ := find_owned_some found
      rw [apart_owner_unique apart otherMember member otherOwned owned]

theorem claim_free_split {writer : Path} {volumes others : List OpenVolumeForWriting}
    {claimed : OpenVolumeForWriting} (claim : claimFree writer volumes = some (claimed, others)) :
    ∃ front free back, volumes = front ++ free :: back ∧ free.ownedWriter = none ∧
      claimed = free.claimedBy writer ∧ others = front ++ claimed :: back := by
  induction volumes generalizing others with
  | nil => simp [claimFree] at claim
  | cons volume rest induction =>
      cases later : claimFree writer rest with
      | some result =>
          simp only [claimFree, later, Option.some.injEq, Prod.mk.injEq] at claim
          obtain ⟨rfl, rfl⟩ := claim
          obtain ⟨front, free, back, parts, unowned, same, replaced⟩ := induction later
          refine ⟨volume :: front, free, back, ?_, unowned, same, ?_⟩
          · rw [parts, List.cons_append]
          · rw [replaced, List.cons_append]
      | none =>
          by_cases unowned : volume.ownedWriter = none
          · simp only [claimFree, later, if_pos unowned, Option.some.injEq,
              Prod.mk.injEq] at claim
            obtain ⟨rfl, rfl⟩ := claim
            exact ⟨[], volume, rest, rfl, unowned, rfl, rfl⟩
          · simp [claimFree, later, unowned] at claim

theorem claim_free_none {writer : Path} {volumes : List OpenVolumeForWriting}
    (claim : claimFree writer volumes = none) (volume : OpenVolumeForWriting)
    (member : volume ∈ volumes) : volume.ownedWriter ≠ none := by
  induction volumes with
  | nil => simp at member
  | cons first rest induction =>
      cases later : claimFree writer rest with
      | some result => simp [claimFree, later] at claim
      | none =>
          by_cases unowned : first.ownedWriter = none
          · simp [claimFree, later, unowned] at claim
          · rcases List.mem_cons.mp member with same | inside
            · rw [same]
              exact unowned
            · exact induction later inside

theorem release_owned_split (writer : Path) (volumes : List OpenVolumeForWriting) :
    releaseOwned writer volumes = volumes ∨
      ∃ front volume back, volumes = front ++ volume :: back ∧
        volume.ownedWriter = some writer ∧
        releaseOwned writer volumes = front ++ volume.released :: back := by
  induction volumes with
  | nil => exact .inl rfl
  | cons first rest induction =>
      by_cases owned : first.ownedWriter = some writer
      · exact .inr ⟨[], first, rest, rfl, owned, by simp [releaseOwned, owned]⟩
      · simp only [releaseOwned, if_neg owned]
        rcases induction with same | ⟨front, volume, back, parts, found, released⟩
        · exact .inl (by rw [same])
        · refine .inr ⟨first :: front, volume, back, ?_, found, ?_⟩
          · rw [parts, List.cons_append]
          · rw [released, List.cons_append]

theorem release_owned_unowned {writer : Path} {volumes : List OpenVolumeForWriting}
    (apart : volumes.Pairwise Apart) (volume : OpenVolumeForWriting)
    (member : volume ∈ releaseOwned writer volumes) : volume.ownedWriter ≠ some writer := by
  induction volumes with
  | nil => cases member
  | cons first rest induction =>
      obtain ⟨firstApart, restApart⟩ := List.pairwise_cons.mp apart
      by_cases owned : first.ownedWriter = some writer
      · simp only [releaseOwned, if_pos owned, List.mem_cons] at member
        rcases member with rfl | inside
        · simp
        · exact (firstApart volume inside).2 writer owned
      · simp only [releaseOwned, if_neg owned, List.mem_cons] at member
        rcases member with rfl | inside
        · exact owned
        · exact induction restApart inside

theorem fill_owned_split {writer : Path} (nBytesWritten : Nat)
    {volumes : List OpenVolumeForWriting} {volume : OpenVolumeForWriting}
    (found : findOwned writer volumes = some volume) :
    ∃ front back, volumes = front ++ volume :: back ∧
      fillOwned writer nBytesWritten volumes =
        if (volume.filled nBytesWritten).leftSize = 0 then front ++ back
        else front ++ volume.filled nBytesWritten :: back := by
  induction volumes with
  | nil => simp [findOwned] at found
  | cons first rest induction =>
      by_cases owned : first.ownedWriter = some writer
      · have same : first = volume := by simpa [findOwned, owned] using found
        subst same
        exact ⟨[], rest, rfl, by simp [fillOwned, owned]⟩
      · have later : findOwned writer rest = some volume := by
          simpa [findOwned, owned] using found
        obtain ⟨front, back, parts, filled⟩ := induction later
        refine ⟨first :: front, back, by rw [parts, List.cons_append], ?_⟩
        simp only [fillOwned, if_neg owned, filled]
        split <;> rfl

theorem member_cases {front back : List OpenVolumeForWriting}
    {volume other : OpenVolumeForWriting} (member : other ∈ front ++ volume :: back) :
    other = volume ∨ other ∈ front ++ back := by
  simp only [List.mem_append, List.mem_cons] at member ⊢
  exact or_left_comm.mp member

theorem member_beside {front back : List OpenVolumeForWriting}
    {other : OpenVolumeForWriting} (member : other ∈ front ++ back)
    (volume : OpenVolumeForWriting) : other ∈ front ++ volume :: back := by
  rcases List.mem_append.mp member with inFront | inBack
  · exact List.mem_append_left _ inFront
  · exact List.mem_append_right _ (List.mem_cons_of_mem _ inBack)

theorem apart_others {front back : List OpenVolumeForWriting} {volume : OpenVolumeForWriting}
    (apart : (front ++ volume :: back).Pairwise Apart) (other : OpenVolumeForWriting)
    (member : other ∈ front ++ back) : Apart other volume := by
  rw [List.pairwise_append, List.pairwise_cons] at apart
  obtain ⟨_, ⟨volumeBack, _⟩, cross⟩ := apart
  rcases List.mem_append.mp member with inFront | inBack
  · exact cross other inFront volume (by simp)
  · exact symm_of Apart (volumeBack other inBack)

/-- Replacing a volume by one with the same number that no other volume shares
its owner with keeps the volumes apart. -/
theorem apart_replace {front back : List OpenVolumeForWriting}
    {volume replacement : OpenVolumeForWriting}
    (apart : (front ++ volume :: back).Pairwise Apart)
    (number : replacement.number = volume.number)
    (owner : ∀ writer, replacement.ownedWriter = some writer →
      ∀ other ∈ front ++ back, other.ownedWriter ≠ some writer) :
    (front ++ replacement :: back).Pairwise Apart := by
  rw [List.pairwise_append, List.pairwise_cons] at apart ⊢
  obtain ⟨frontApart, ⟨volumeBack, backApart⟩, cross⟩ := apart
  refine ⟨frontApart, ⟨?_, backApart⟩, ?_⟩
  · intro other member
    refine ⟨?_, ?_⟩
    · rw [number]
      exact (volumeBack other member).1
    · intro writer owned
      exact owner writer owned other (List.mem_append_right _ member)
  · intro earlier earlierMember other otherMember
    rcases List.mem_cons.mp otherMember with same | inside
    · subst same
      refine ⟨?_, ?_⟩
      · rw [number]
        exact (cross earlier earlierMember volume (by simp)).1
      · intro writer earlierOwned owned
        exact owner writer owned earlier (List.mem_append_left _ earlierMember) earlierOwned
    · exact cross earlier earlierMember other (List.mem_cons_of_mem _ inside)

theorem apart_remove {front back : List OpenVolumeForWriting} {volume : OpenVolumeForWriting}
    (apart : (front ++ volume :: back).Pairwise Apart) : (front ++ back).Pairwise Apart := by
  exact List.Pairwise.sublist
    (List.Sublist.append_left (List.sublist_cons_self _ _) _) apart

theorem apart_push {volumes : List OpenVolumeForWriting} {volume : OpenVolumeForWriting}
    (apart : volumes.Pairwise Apart) (fresh : ∀ other ∈ volumes, Apart other volume) :
    (volumes ++ [volume]).Pairwise Apart := by
  rw [List.pairwise_append]
  refine ⟨apart, List.pairwise_singleton _ _, ?_⟩
  intro other member last lastMember
  rw [List.mem_singleton.mp lastMember]
  exact fresh other member

end ACBackup.OpenVolumes
