import ACBackup.Library.Gauges
import ACBackup.Library.Tasks

/-!
`ProcessStatus` with a determinate end. The sizes are words of 64 bits, and the
workers change them under the mutex of the process; times and speeds are left out.
-/

namespace ACBackup.StatusTracking

open ACBackup.Library.Gauges ACBackup.Library.Tasks

set_option autoImplicit false

structure ProcessStatus where
  isEndDeterminate : Bool
  nFinishedFiles : BitVec 32
  nFiles : BitVec 32
  totalSize : BitVec 64
  doneSize : BitVec 64
  deriving DecidableEq

/-- The constructor for a process with a determinate end. -/
def ProcessStatus.knownEnd (nFiles totalSize : Nat) : ProcessStatus where
  isEndDeterminate := true
  nFinishedFiles := 0
  nFiles := BitVec.ofNat 32 nFiles
  totalSize := BitVec.ofNat 64 totalSize
  doneSize := 0

inductive ProcessEvent where
  | addFinishedSize (size : Nat)
  | incFileCount
  | incFinishedCount
  | reduceTotalSize (size : Nat)
  deriving DecidableEq

def ProcessStatus.perform (status : ProcessStatus) : ProcessEvent → ProcessStatus
  | .addFinishedSize size => { status with doneSize := status.doneSize + BitVec.ofNat 64 size }
  | .incFileCount => { status with nFiles := status.nFiles + 1 }
  | .incFinishedCount => { status with nFinishedFiles := status.nFinishedFiles + 1 }
  | .reduceTotalSize size =>
      { status with totalSize := status.totalSize - BitVec.ofNat 64 size }

/-- `leftSize` of `ComputeExpectedEndTime`. -/
def ProcessStatus.leftSize (status : ProcessStatus) : BitVec 64 :=
  status.totalSize - status.doneSize

/-- What happens to the status of a process: first by the thread that created it, then by
tasks side by side. -/
structure Process where
  nFiles : Nat
  totalSize : Nat
  first : List ProcessEvent
  tasks : List (List ProcessEvent)
  deriving DecidableEq

namespace Process

def start (process : Process) : ProcessStatus :=
  .knownEnd process.nFiles process.totalSize

def statusAfter (process : Process) (events : List ProcessEvent) : ProcessStatus :=
  events.foldl ProcessStatus.perform process.start

inductive Performed (process : Process) : List ProcessEvent → Prop
  | first {events : List ProcessEvent} (begun : events <+: process.first) :
      Performed process events
  | tasks {events : List ProcessEvent} (moment : Interleaving process.tasks events) :
      Performed process (process.first ++ events)

def events (process : Process) : List ProcessEvent := process.first ++ process.tasks.flatten

/-- The progress never overruns, so that the left size is exact at every moment. -/
structure NeverOverruns (process : Process) : Prop where
  finished : ∀ events, process.Performed events →
    (process.statusAfter events).doneSize ≤ (process.statusAfter events).totalSize
  reduced : ∀ events size, process.Performed (events ++ [.reduceTotalSize size]) →
    BitVec.ofNat 64 size ≤ (process.statusAfter events).totalSize
  left : ∀ events, process.Performed events →
    (process.statusAfter events).leftSize.toNat + (process.statusAfter events).doneSize.toNat =
      (process.statusAfter events).totalSize.toNat

end Process

def finishedSize : ProcessEvent → Nat
  | .addFinishedSize size => size
  | _ => 0

def reducedSize : ProcessEvent → Nat
  | .reduceTotalSize size => size
  | _ => 0

def finishedSizes (events : List ProcessEvent) : Nat := (events.map finishedSize).sum

def reducedSizes (events : List ProcessEvent) : Nat := (events.map reducedSize).sum

namespace Process

structure Fits (process : Process) : Prop where
  total : process.totalSize < 2 ^ 64
  finished : finishedSizes process.events < 2 ^ 64
  reduced : ∀ event ∈ process.events, reducedSize event < 2 ^ 64

/-- What is finished and what is taken away fit in the total that was announced. -/
def Covered (process : Process) : Prop :=
  finishedSizes process.events + reducedSizes process.events ≤ process.totalSize

instance decidableFits (process : Process) : Decidable process.Fits :=
  decidable_of_iff
    (process.totalSize < 2 ^ 64 ∧ finishedSizes process.events < 2 ^ 64 ∧
      ∀ event ∈ process.events, reducedSize event < 2 ^ 64)
    ⟨fun facts => ⟨facts.1, facts.2.1, facts.2.2⟩,
      fun fits => ⟨fits.total, fits.finished, fits.reduced⟩⟩

instance decidableCovered (process : Process) : Decidable process.Covered :=
  inferInstanceAs (Decidable (_ ≤ _))

end Process

section Words

def changeOf : ProcessEvent → Option (Change 64)
  | .addFinishedSize size => some (.finish (BitVec.ofNat 64 size))
  | .reduceTotalSize size => some (.reduce (BitVec.ofNat 64 size))
  | _ => none

def ProcessStatus.gauge (status : ProcessStatus) : Gauge 64 where
  total := status.totalSize
  done := status.doneSize

theorem gauge_after (events : List ProcessEvent) (status : ProcessStatus) :
    (events.foldl ProcessStatus.perform status).gauge =
      status.gauge.applyAll (events.filterMap changeOf) := by
  induction events generalizing status with
  | nil => rfl
  | cons event rest induction =>
      rw [List.foldl_cons, induction]
      cases event with
      | addFinishedSize size => rfl
      | incFileCount => rfl
      | incFinishedCount => rfl
      | reduceTotalSize size => rfl

theorem word_value {size : Nat} (fits : size < 2 ^ 64) : (BitVec.ofNat 64 size).toNat = size := by
  rw [BitVec.toNat_ofNat]
  exact Nat.mod_eq_of_lt fits

theorem finished_changes {events : List ProcessEvent} (fits : finishedSizes events < 2 ^ 64) :
    finished (events.filterMap changeOf) = finishedSizes events := by
  induction events with
  | nil => rfl
  | cons event rest induction =>
      have sizes : finishedSizes (event :: rest) = finishedSize event + finishedSizes rest := by
        simp [finishedSizes]
      rw [sizes] at fits ⊢
      rw [← induction (by omega)]
      cases event with
      | addFinishedSize size =>
          simp only [finishedSize] at fits
          have word : (BitVec.ofNat 64 size).toNat = size :=
            word_value (by omega)
          simp only [changeOf, List.filterMap_cons, finished, List.map_cons, List.sum_cons,
            Library.Gauges.finishedSize, finishedSize, word]
      | incFileCount => simp [changeOf, List.filterMap_cons, finishedSize]
      | incFinishedCount => simp [changeOf, List.filterMap_cons, finishedSize]
      | reduceTotalSize size =>
          simp [changeOf, finished, Library.Gauges.finishedSize, finishedSize]

theorem reduced_changes {events : List ProcessEvent}
    (fits : ∀ event ∈ events, reducedSize event < 2 ^ 64) :
    reduced (events.filterMap changeOf) = reducedSizes events := by
  induction events with
  | nil => rfl
  | cons event rest induction =>
      have word := fits event (List.mem_cons_self ..)
      have sizes : reducedSizes (event :: rest) = reducedSize event + reducedSizes rest := by
        simp [reducedSizes]
      rw [sizes, ← induction fun other inside => fits other (List.mem_cons_of_mem _ inside)]
      cases event with
      | addFinishedSize size =>
          simp [changeOf, reduced, Library.Gauges.reducedSize, reducedSize]
      | incFileCount => simp [changeOf, List.filterMap_cons, reducedSize]
      | incFinishedCount => simp [changeOf, List.filterMap_cons, reducedSize]
      | reduceTotalSize size =>
          have value : (BitVec.ofNat 64 size).toNat = size := word_value word
          simp only [changeOf, List.filterMap_cons, reduced, List.map_cons, List.sum_cons,
            Library.Gauges.reducedSize, reducedSize, value]

end Words

section Moments

variable {process : Process}

theorem performed_all (process : Process) : process.Performed process.events :=
  .tasks (interleaving_flatten _)

theorem performed_begun (first second : List ProcessEvent)
    (performed : process.Performed (first ++ second)) : process.Performed first := by
  generalize whole : first ++ second = events at performed
  cases performed with
  | first begun => exact .first ((List.prefix_append first second).trans (whole ▸ begun))
  | @tasks later moment =>
      rcases List.append_eq_append_iff.mp whole with ⟨rest, before, _⟩ | ⟨rest, before, parts⟩
      · exact .first ⟨rest, before.symm⟩
      · rw [before]
        exact .tasks (interleaving_begun rest second (parts ▸ moment))

theorem performed_part {events : List ProcessEvent} (performed : process.Performed events) :
    ∃ rest, (events ++ rest).Perm process.events := by
  cases performed with
  | first begun =>
      obtain ⟨rest, whole⟩ := begun
      refine ⟨rest ++ process.tasks.flatten, ?_⟩
      rw [← List.append_assoc, whole]
      exact List.Perm.refl _
  | tasks moment =>
      obtain ⟨rest, same⟩ := interleaving_part moment
      refine ⟨rest, ?_⟩
      rw [List.append_assoc]
      exact same.append_left _

theorem performed_sizes {events : List ProcessEvent} (performed : process.Performed events)
    (size : ProcessEvent → Nat) :
    (events.map size).sum ≤ (process.events.map size).sum := by
  obtain ⟨rest, same⟩ := performed_part performed
  have sums := (same.map size).sum_eq
  rw [List.map_append, List.sum_append] at sums
  omega

/-- The two kinds of facts about the moments of a run say that its gauge is sound. -/
theorem sound_of_moments {start : ProcessStatus} (events : List ProcessEvent)
    (finished : ∀ before, before <+: events →
      (before.foldl ProcessStatus.perform start).doneSize ≤
        (before.foldl ProcessStatus.perform start).totalSize)
    (reduced : ∀ before size, before ++ [.reduceTotalSize size] <+: events →
      BitVec.ofNat 64 size ≤ (before.foldl ProcessStatus.perform start).totalSize) :
    Sound start.gauge (events.filterMap changeOf) := by
  induction events generalizing start with
  | nil => exact finished [] (List.prefix_refl _)
  | cons event rest induction =>
      have now := finished [] List.nil_prefix
      have later := @induction (start.perform event)
        (fun before begun => finished (event :: before) (List.cons_prefix_cons.mpr ⟨rfl, begun⟩))
        (fun before size begun =>
          reduced (event :: before) size (List.cons_prefix_cons.mpr ⟨rfl, begun⟩))
      cases event with
      | addFinishedSize size => exact ⟨now, trivial, later⟩
      | incFileCount => exact later
      | incFinishedCount => exact later
      | reduceTotalSize size => exact ⟨now, reduced [] size (List.prefix_append _ _), later⟩

theorem moment_covered (fits : process.Fits) (covered : process.Covered)
    {events : List ProcessEvent} (performed : process.Performed events) :
    Sound process.start.gauge (events.filterMap changeOf) := by
  have finishedPart := performed_sizes performed finishedSize
  have reducedPart := performed_sizes performed reducedSize
  have wholeFits := fits.finished
  have total : process.start.gauge.total.toNat = process.totalSize := word_value fits.total
  have done : process.start.gauge.done.toNat = 0 := rfl
  have words : ∀ event ∈ events, reducedSize event < 2 ^ 64 := by
    intro event inside
    obtain ⟨rest, same⟩ := performed_part performed
    exact fits.reduced event (same.mem_iff.mp (List.mem_append_left _ inside))
  unfold Process.Covered at covered
  unfold finishedSizes at covered wholeFits
  unfold reducedSizes at covered
  have sizes := finished_changes (show finishedSizes events < 2 ^ 64 by
    unfold finishedSizes
    omega)
  rw [sound_iff (by rw [sizes, done]; unfold finishedSizes; omega), sizes,
    reduced_changes words, total, done]
  unfold finishedSizes reducedSizes
  omega

/-- A process never overruns exactly when its events are covered by its total. -/
theorem never_overruns_iff (fits : process.Fits) :
    process.NeverOverruns ↔ process.Covered := by
  constructor
  · intro never
    have sound := @sound_of_moments process.start process.events
      (fun before begun => never.finished before (by
        obtain ⟨rest, whole⟩ := begun
        exact performed_begun before rest (whole ▸ performed_all process)))
      (fun before size begun => never.reduced before size (by
        obtain ⟨rest, whole⟩ := begun
        exact performed_begun _ rest (whole ▸ performed_all process)))
    have total : process.start.gauge.total.toNat = process.totalSize := word_value fits.total
    have done : process.start.gauge.done.toNat = 0 := rfl
    have sizes := finished_changes fits.finished
    have finishedFits := fits.finished
    rw [sound_iff (by rw [sizes, done]; omega), sizes, reduced_changes fits.reduced, total,
      done] at sound
    unfold Process.Covered
    omega
  · intro covered
    have finished : ∀ events, process.Performed events →
        (process.statusAfter events).doneSize ≤ (process.statusAfter events).totalSize := by
      intro events performed
      have sound := moment_covered fits covered performed
      rw [← List.append_nil (events.filterMap changeOf)] at sound
      have after := sound_start (sound_append sound)
      rw [← gauge_after] at after
      exact after
    refine ⟨finished, ?_, ?_⟩
    · intro events size performed
      have sound := moment_covered fits covered performed
      rw [List.filterMap_append] at sound
      have possible := (sound_append sound).2.1
      rw [← gauge_after] at possible
      exact possible
    · intro events performed
      have level := finished events performed
      rw [ProcessStatus.leftSize, BitVec.toNat_sub_of_le level]
      exact Nat.sub_add_cancel level

end Moments

end ACBackup.StatusTracking
