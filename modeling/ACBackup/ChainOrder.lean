import ACBackup.Library.Numerals
import ACBackup.IndexDirectory

/-!
The order of the chain is that of the names, and the names come from the clock.
-/

namespace ACBackup.ChainOrder

open ACBackup.Library.Numerals ACBackup.Library.Transition
open ACBackup.Platform ACBackup.SnapshotCreation ACBackup.SnapshotManager
open ACBackup.IndexDirectory

set_option autoImplicit false

def timestamp (now : DateTime) : List Nat :=
  [now.year, now.month, now.day, now.hour, now.minute, now.second]

def nameLayout : Layout :=
  [(4, ['-']), (2, ['-']), (2, ['_']), (2, ['_']), (2, ['_']), (2, [])]

/-- The name that the constructor of `Snapshot` takes from the clock. -/
def snapshotName (now : DateTime) : String :=
  "snapshot_" ++ String.ofList (render nameLayout (timestamp now))

/-- The reading of a clock, with a year of at most four digits. -/
structure Calendar (now : DateTime) : Prop where
  year : now.year < 10000
  month : now.month ≤ 12
  day : now.day ≤ 31
  hour : now.hour < 24
  minute : now.minute < 60
  second : now.second ≤ 60

def named (label : DateTime × Call) : Call := { label.2 with name := snapshotName label.1 }

/-- The chain of snapshots, with the name of each taken from a clock reading. -/
def clocked (runtime : Runtime) : System Chain (DateTime × Call) where
  initial := []
  step chain label := addSnapshot runtime chain (named label)

/-- The snapshot read in last is the one that the call created, and the one
before it is the one that the call was computed against. -/
def CreatedLast (runtime : Runtime) (chain : Chain) (label : DateTime × Call) : Prop :=
  ∀ next, (clocked runtime).step chain label = some next →
    ∃ newest previous, next = newest :: previous ∧ newest.call = named label ∧
      previous.head? = chain.head?

def NamedLater (chain : Chain) (label : DateTime × Call) : Prop :=
  InOrder (calls chain) (named label)

section Names

theorem snapshot_name_lt_iff {earlier later : DateTime} (earlierReading : Calendar earlier)
    (laterReading : Calendar later) :
    indexFileName (snapshotName earlier) < indexFileName (snapshotName later) ↔
      timestamp earlier < timestamp later := by
  have fits : ∀ {now}, Calendar now → Fits nameLayout (timestamp now) := by
    rintro now ⟨year, month, day, hour, minute, second⟩
    unfold Fits nameLayout timestamp
    simp only [List.forall₂_cons, List.Forall₂.nil, and_true]
    omega
  have text : ∀ now, (indexFileName (snapshotName now)).toList =
      "snapshot_".toList ++ (render nameLayout (timestamp now) ++ ".xml.lzma".toList) := by
    intro now
    simp only [indexFileName, snapshotName, String.toList_append, String.toList_ofList,
      List.append_assoc]
    rfl
  have lengths := render_length (fits earlierReading) (fits laterReading)
  rw [String.lt_iff_toList_lt, text, text, append_lt_append_iff rfl, append_lt_append_iff lengths,
    render_lt_iff (fits earlierReading) (fits laterReading)]
  simp

end Names

section Runs

variable {runtime : Runtime} {chain next final : Chain} {label : DateTime × Call}

/-- The order in which the snapshots are read in. -/
def Sorted (chain : Chain) : Prop :=
  chain.Pairwise fun newer older => indexFileName older.call.name < indexFileName newer.call.name

theorem add_snapshot_unused {call : Call} (taken : addSnapshot runtime chain call = some next) :
    call.name ∉ chain.map fun entry => entry.call.name := by
  intro used
  rw [addSnapshot, if_pos used] at taken
  cases taken

theorem sorted_step {call : Call} (sorted : Sorted chain)
    (taken : addSnapshot runtime chain call = some next) : Sorted next := by
  have unused := add_snapshot_unused taken
  obtain ⟨entry, rfl, _, rfl⟩ := add_snapshot_some taken
  exact insert_entry_sorted sorted unused

/-- The new snapshot is read in last exactly when its name is greater than those
of all others. -/
theorem created_last_iff (sorted : Sorted chain)
    (taken : (clocked runtime).step chain label = some next) :
    CreatedLast runtime chain label ↔ NamedLater chain label := by
  have unused := add_snapshot_unused taken
  constructor
  · intro last older member
    obtain ⟨newest, previous, parts, created, _⟩ := last next taken
    have ordered := sorted_step sorted taken
    rw [Sorted, parts, List.pairwise_cons] at ordered
    obtain ⟨olderEntry, inside, rfl⟩ := List.mem_map.mp member
    obtain ⟨entry, made, _, inserted⟩ := add_snapshot_some taken
    have listed : olderEntry ∈ newest :: previous := by
      rw [← parts, inserted]
      exact (mem_insert_entry _ _ _).mpr (.inr inside)
    rcases List.mem_cons.mp listed with rfl | earlier
    · rw [← created] at unused
      exact absurd (List.mem_map_of_mem inside) unused
    · rw [← created]
      exact ordered.1 olderEntry earlier
  · intro later other otherTaken
    obtain ⟨entry, made, _, inserted⟩ := add_snapshot_some otherTaken
    have inOrder : InOrder (calls chain) entry.call := made ▸ later
    rw [insert_entry_in_order inOrder] at inserted
    exact ⟨entry, chain, inserted, made, rfl⟩

theorem named_later_throughout (list : List (DateTime × Call)) (sorted : Sorted chain)
    (run : (clocked runtime).run chain list = some final) :
    (clocked runtime).Throughout NamedLater chain list ↔
      (∀ label ∈ list, NamedLater chain label) ∧
        (list.map fun label => snapshotName label.1).Pairwise fun earlier later =>
          indexFileName earlier < indexFileName later := by
  induction list generalizing chain with
  | nil => simp [System.Throughout]
  | cons label rest induction =>
      obtain ⟨next, taken, rest⟩ := System.run_cons_some run
      have later := induction (sorted_step sorted taken) rest
      obtain ⟨entry, made, _, inserted⟩ := add_snapshot_some taken
      have grown : ∀ other, NamedLater next other ↔ NamedLater chain other ∧
          indexFileName (snapshotName label.1) < indexFileName (snapshotName other.1) := by
        intro other
        have newName : entry.call.name = snapshotName label.1 := by rw [made]; rfl
        simp only [NamedLater, InOrder, calls, List.forall_mem_map, inserted, mem_insert_entry,
          forall_eq_or_imp, newName, named]
        exact and_comm
      simp only [System.Throughout, taken, later, grown, List.forall_mem_cons, List.map_cons,
        List.pairwise_cons, List.forall_mem_map, forall_and]
      tauto

/-- In every run the snapshots read in last are those created, each after the one
that it was computed against, exactly when the names are strictly increasing; for
clock readings this says that the time shown goes forward from call to call. -/
theorem chain_order_iff (runtime : Runtime) (list : List (DateTime × Call)) (chain : Chain)
    (run : (clocked runtime).run [] list = some chain) :
    ((clocked runtime).Throughout (CreatedLast runtime) [] list ↔
      (list.map fun label => snapshotName label.1).Pairwise fun earlier later =>
        indexFileName earlier < indexFileName later) ∧
    ((∀ label ∈ list, Calendar label.1) →
      ((clocked runtime).Throughout (CreatedLast runtime) [] list ↔
        (list.map fun label => timestamp label.1).Pairwise (· < ·))) := by
  have byName : (clocked runtime).Throughout (CreatedLast runtime) [] list ↔
      (list.map fun label => snapshotName label.1).Pairwise fun earlier later =>
        indexFileName earlier < indexFileName later := by
    have start : Sorted [] := List.Pairwise.nil
    rw [System.throughout_congr Sorted (fun _ _ _ sorted taken => sorted_step sorted taken)
      (fun _ _ _ sorted taken => created_last_iff sorted taken) list start run,
      named_later_throughout list start run]
    have first : ∀ label ∈ list, NamedLater [] label := by
      intro label _ older member
      cases member
    exact and_iff_right first
  refine ⟨byName, ?_⟩
  intro readings
  rw [byName, List.pairwise_map, List.pairwise_map]
  constructor
  · intro increasing
    apply increasing.imp_of_mem
    intro earlier later earlierMember laterMember order
    exact (snapshot_name_lt_iff (readings _ earlierMember) (readings _ laterMember)).mp order
  · intro increasing
    apply increasing.imp_of_mem
    intro earlier later earlierMember laterMember order
    exact (snapshot_name_lt_iff (readings _ earlierMember) (readings _ laterMember)).mpr order

end Runs

section ClockReadings

def noon : DateTime where
  year := 2021
  month := 6
  day := 1
  hour := 12
  minute := 0
  second := 0
  millisecond := 0

def beforeNoon : DateTime := { noon with hour := 11, minute := 59, second := 59 }

theorem clock_forward :
    ∃ chain, (clocked spellingRuntime).run [] [(beforeNoon, firstBackup), (noon, moveBackup)] =
        some chain ∧
      (clocked spellingRuntime).Throughout (CreatedLast spellingRuntime) []
        [(beforeNoon, firstBackup), (noon, moveBackup)] := by
  have complete : ((clocked spellingRuntime).run []
      [(beforeNoon, firstBackup), (noon, moveBackup)]).isSome = true := by decide +kernel
  obtain ⟨chain, run⟩ := Option.isSome_iff_exists.mp complete
  refine ⟨chain, run, (chain_order_iff spellingRuntime _ chain run).1.mpr ?_⟩
  decide +kernel

/-- The clock was set back between two backups: the snapshot read in last is the
first one. -/
theorem clock_set_back :
    ∃ chain, (clocked spellingRuntime).run [] [(noon, firstBackup), (beforeNoon, moveBackup)] =
        some chain ∧
      chain.map (fun entry => entry.call.name) =
        ["snapshot_2021-06-01_12_00_00", "snapshot_2021-06-01_11_59_59"] ∧
      ¬(clocked spellingRuntime).Throughout (CreatedLast spellingRuntime) []
        [(noon, firstBackup), (beforeNoon, moveBackup)] := by
  have outcome : ((clocked spellingRuntime).run []
      [(noon, firstBackup), (beforeNoon, moveBackup)]).map
        (fun chain => chain.map fun entry => entry.call.name) =
      some ["snapshot_2021-06-01_12_00_00", "snapshot_2021-06-01_11_59_59"] := by decide +kernel
  obtain ⟨chain, run, names⟩ := Option.map_eq_some_iff.mp outcome
  refine ⟨chain, run, names, ?_⟩
  obtain ⟨single, first, later⟩ := System.run_cons_some run
  obtain ⟨both, second, finished⟩ := System.run_cons_some later
  obtain rfl : both = chain := Option.some.inj finished
  simp only [System.Throughout, first, second]
  rintro ⟨_, last, _⟩
  obtain ⟨newest, previous, parts, created, _⟩ := last both second
  rw [parts, List.map_cons, List.cons.injEq, created] at names
  exact absurd names.1 (by decide +kernel)

end ClockReadings

end ACBackup.ChainOrder
