import ACBackup.Library.Transition

/-!
Parties that work on a shared state, each with a state of its own. In a step a
new party joins or a party acts; nobody else's state is touched. What the parties
have taken out of the shared state is told by the sum of their shares.
-/

namespace ACBackup.Library.Parties

open ACBackup.Library.Transition

set_option autoImplicit false

universe u v w z

structure Crowd (Shared : Type u) (Party : Type v) where
  shared : Shared
  parties : List Party
  deriving DecidableEq

/-- Parties are numbered in the order in which they join. -/
inductive CrowdLabel (Arrival : Type w) (Action : Type z) where
  | join (arrival : Arrival)
  | act (number : Nat) (action : Action)
  deriving DecidableEq

/-- A party knows its own number when it acts. -/
structure Protocol (Shared : Type u) (Party : Type v) (Arrival : Type w) (Action : Type z) where
  initial : Shared
  join : Arrival → Option Party
  act : Nat → Shared → Party → Action → Option (Shared × Party)

variable {Shared : Type u} {Party : Type v} {Arrival : Type w} {Action : Type z}

namespace Protocol

def step (protocol : Protocol Shared Party Arrival Action) (crowd : Crowd Shared Party) :
    CrowdLabel Arrival Action → Option (Crowd Shared Party)
  | .join arrival =>
      (protocol.join arrival).map fun party =>
        { crowd with parties := crowd.parties ++ [party] }
  | .act number action =>
      crowd.parties[number]?.bind fun party =>
        (protocol.act number crowd.shared party action).map fun result =>
          { shared := result.1, parties := crowd.parties.set number result.2 }

def system (protocol : Protocol Shared Party Arrival Action) :
    System (Crowd Shared Party) (CrowdLabel Arrival Action) where
  initial := { shared := protocol.initial, parties := [] }
  step := protocol.step

variable {protocol : Protocol Shared Party Arrival Action} {crowd next : Crowd Shared Party}

theorem step_join {arrival : Arrival} (taken : protocol.step crowd (.join arrival) = some next) :
    ∃ party, protocol.join arrival = some party ∧
      next = { crowd with parties := crowd.parties ++ [party] } := by
  obtain ⟨party, joined, same⟩ := Option.map_eq_some_iff.mp taken
  exact ⟨party, joined, same.symm⟩

theorem step_act {number : Nat} {action : Action}
    (taken : protocol.step crowd (.act number action) = some next) :
    ∃ party shared after, crowd.parties[number]? = some party ∧
      protocol.act number crowd.shared party action = some (shared, after) ∧
      next = { shared := shared, parties := crowd.parties.set number after } := by
  obtain ⟨party, found, rest⟩ := Option.bind_eq_some_iff.mp taken
  obtain ⟨result, acted, same⟩ := Option.map_eq_some_iff.mp rest
  exact ⟨party, result.1, result.2, found, acted, same.symm⟩

/-- What every party knows of itself and of the shared state. A party has to
keep it for itself and for the others. -/
theorem parties_reachable (holds : Nat → Shared → Party → Prop)
    {allowed : Crowd Shared Party → CrowdLabel Arrival Action → Prop}
    (joins : ∀ (crowd : Crowd Shared Party) arrival party,
      protocol.system.Reachable allowed crowd → allowed crowd (.join arrival) →
      protocol.join arrival = some party → holds crowd.parties.length crowd.shared party)
    (own : ∀ number (before after : Shared) (party next : Party) action,
      holds number before party → protocol.act number before party action = some (after, next) →
      holds number after next)
    (others : ∀ number other (before after : Shared) (party next bystander : Party) action,
      other ≠ number → holds number before party → holds other before bystander →
      protocol.act number before party action = some (after, next) →
      holds other after bystander)
    (reachable : protocol.system.Reachable allowed crowd) {number : Nat} {party : Party}
    (found : crowd.parties[number]? = some party) : holds number crowd.shared party := by
  induction reachable generalizing number party with
  | start => cases found
  | @step before next label reached permitted taken induction =>
      cases label with
      | join arrival =>
          obtain ⟨joined, outcome, rfl⟩ := step_join taken
          rw [List.getElem?_append] at found
          by_cases old : number < before.parties.length
          · rw [if_pos old] at found
            exact induction found
          · rw [if_neg old, List.getElem?_singleton] at found
            by_cases last : number - before.parties.length = 0
            · rw [if_pos last, Option.some.injEq] at found
              have same : number = before.parties.length := by omega
              rw [same, ← found]
              exact joins before arrival joined reached permitted outcome
            · rw [if_neg last] at found
              cases found
      | act actor action =>
          obtain ⟨acting, shared, after, present, acted, rfl⟩ := step_act taken
          have known := induction present
          by_cases same : number = actor
          · subst same
            rw [List.getElem?_set_self (List.getElem?_eq_some_iff.mp present).1,
              Option.some.injEq] at found
            rw [← found]
            exact own number before.shared shared acting after action known acted
          · rw [List.getElem?_set_ne (Ne.symm same)] at found
            exact others actor number before.shared shared acting after party action same known
              (induction found) acted

end Protocol

section Tally

variable {Amount : Type*} {share : Party → Amount} {parties : List Party} {party : Party}

def tally [AddMonoid Amount] (share : Party → Amount) (parties : List Party) : Amount :=
  (parties.map share).sum

theorem tally_set [AddCommMonoid Amount] {number : Nat}
    (found : parties[number]? = some party) (next : Party) :
    tally share (parties.set number next) + share party = tally share parties + share next := by
  induction parties generalizing number with
  | nil => cases found
  | cons first rest induction =>
      cases number with
      | zero =>
          simp only [List.getElem?_cons_zero, Option.some.injEq] at found
          simp only [tally, List.set_cons_zero, List.map_cons, List.sum_cons, found]
          abel
      | succ number =>
          simp only [List.getElem?_cons_succ] at found
          have later := induction found
          simp only [tally, List.set_cons_succ, List.map_cons, List.sum_cons] at later ⊢
          rw [add_assoc, later, add_assoc]

theorem tally_append [AddMonoid Amount] (share : Party → Amount) (parties : List Party)
    (party : Party) : tally share (parties ++ [party]) = tally share parties + share party := by
  simp [tally]

theorem tally_eq_zero {share : Party → Nat} :
    tally share parties = 0 ↔ ∀ party ∈ parties, share party = 0 := by
  simp [tally, List.sum_eq_zero_iff]

theorem tally_cast (share : Party → Nat) (parties : List Party) :
    tally (fun party => (share party : Int)) parties = (tally share parties : Nat) := by
  simp [tally, Nat.cast_list_sum, Function.comp_def]

/-- An amount of the shared state that changes as the share of the acting party
is the sum of the shares. -/
theorem Protocol.tally_reachable [AddCancelCommMonoid Amount]
    {protocol : Protocol Shared Party Arrival Action} (total : Shared → Amount)
    (share : Party → Amount) {allowed : Crowd Shared Party → CrowdLabel Arrival Action → Prop}
    (initial : total protocol.initial = 0)
    (joins : ∀ arrival party, protocol.join arrival = some party → share party = 0)
    (acts : ∀ (crowd : Crowd Shared Party) number party action shared next,
      protocol.system.Reachable allowed crowd → crowd.parties[number]? = some party →
      protocol.act number crowd.shared party action = some (shared, next) →
      total shared + share party = total crowd.shared + share next)
    {crowd : Crowd Shared Party} (reachable : protocol.system.Reachable allowed crowd) :
    total crowd.shared = tally share crowd.parties := by
  induction reachable with
  | start => exact initial
  | @step before next label reached _ taken induction =>
      cases label with
      | join arrival =>
          obtain ⟨party, joined, rfl⟩ := step_join taken
          rw [tally_append, joins arrival party joined, add_zero]
          exact induction
      | act number action =>
          obtain ⟨party, shared, after, found, acted, rfl⟩ := step_act taken
          have changed := acts before number party action shared after reached found acted
          have summed : tally share (before.parties.set number after) + share party =
              tally share before.parties + share after := tally_set found after
          rw [← induction, ← changed] at summed
          exact (add_right_cancel summed).symm

end Tally

end ACBackup.Library.Parties
