import BehaviorTree.Proofs.Native.Succession
import BehaviorTree.Proofs.Native.Visits
import Mathlib.Data.Set.Basic
import Mathlib.Order.Nat

/-! Repeaters evaluate their child as often as their bound allows, unless a status ends the loop
before. The evaluations are counted in a machine word. A bound is a word as well, so the count
comes to it before it could go round. -/
namespace BehaviorTree

variable {W T : Type}

inductive Native.Loops : Native → Bool → (Status → Prop) → Prop where
  | repeater : Loops .repeater false fun status => status = .running ∨ status = .error
  | untilFailure : Loops .repeatUntilFailure true fun status => status ≠ .success
  | untilSuccess : Loops .repeatUntilSuccess true fun status => status ≠ .failure

/- The bound that a value of the property sets, or that its absence does. -/
inductive Cap (unbounded : Bool) : Option Json → Option Nat → Prop where
  | absent : Cap unbounded none (some 1)
  | whole {most : Nat} (positive : 1 ≤ most) (word : most < UInt64.size) :
      Cap unbounded (some (.whole most)) (some most)
  | endless (allowed : unbounded = true) : Cap unbounded (some (.whole (-1))) none

def Stops (cap : Option Nat) (ends : Status → Prop) (statuses : Nat → Status) : Set Nat :=
  {rounds | 1 ≤ rounds ∧ (cap = some rounds ∨ ends (statuses (rounds - 1)))}

theorem Cap.positive {unbounded value cap} (capped : Cap unbounded value cap) :
    ∀ most ∈ cap, 1 ≤ most := by
  cases capped with
  | absent => simp
  | whole positive => simpa using positive
  | endless => simp

section Least
variable {cap : Option Nat} {ends : Status → Prop} {statuses : Nat → Status}

theorem leastStop (positive : ∀ most ∈ cap, 1 ≤ most) {rounds : Nat} :
    IsLeast (Stops cap ends statuses) (rounds + 1) ↔
      (∀ k < rounds, ¬ ends (statuses k)) ∧ (∀ most ∈ cap, rounds + 1 ≤ most) ∧
        (cap = some (rounds + 1) ∨ ends (statuses rounds)) := by
  constructor
  · rintro ⟨⟨_, stops⟩, least⟩
    refine ⟨fun k less ended => ?_, fun most mem => ?_, stops⟩
    · have low : rounds + 1 ≤ k + 1 := least ⟨by omega, .inr ended⟩
      omega
    · exact least ⟨positive most mem, .inl mem⟩
  · rintro ⟨goesOn, within, stops⟩
    refine ⟨⟨by omega, stops⟩, fun other ⟨once, stop⟩ => ?_⟩
    rcases stop with bound | ended
    · exact within other bound
    · by_contra less
      exact goesOn (other - 1) (by omega) ended

theorem firstStop (some : Stops cap ends statuses ≠ ∅) :
    ∃ rounds, IsLeast (Stops cap ends statuses) rounds := by
  classical
  exact ⟨_, (Set.nonempty_iff_ne_empty.mpr some).isLeast_natFind⟩

theorem neverStops (positive : ∀ most ∈ cap, 1 ≤ most) :
    Stops cap ends statuses = ∅ ↔ cap = none ∧ ∀ k, ¬ ends (statuses k) := by
  constructor
  · intro empty
    have none {rounds} : rounds ∉ Stops cap ends statuses := empty ▸ Set.notMem_empty rounds
    refine ⟨?_, fun k ended => none ⟨Nat.le_add_left 1 k, .inr ended⟩⟩
    cases cap with
    | none => rfl
    | some most => exact (none ⟨positive most rfl, .inl rfl⟩).elim
  · rintro ⟨rfl, goesOn⟩
    refine Set.eq_empty_iff_forall_notMem.mpr fun rounds ⟨_, stop⟩ => ?_
    rcases stop with bound | ended
    · cases bound
    · exact goesOn _ ended

end Least

namespace Native
variable {unbounded : Bool} {again : Status → Bool} {bound : Option UInt64} {done : UInt64}
  {id : NodeId} {visits : List (NodeId × Status)} {status : Status}

theorem Loops.policy {n : Native} {ends : Status → Prop} (loops : n.Loops unbounded ends) :
    ∃ again, n.policy = .repeating unbounded again ∧
      (n.tick : Tick W) = repeating unbounded again ∧
      ∀ status, again status = true ↔ ¬ ends status := by
  cases loops with
  | repeater => exact ⟨_, rfl, rfl, fun status => by cases status <;> simp [isFinished]⟩
  | untilFailure => exact ⟨_, rfl, rfl, fun status => by cases status <;> simp⟩
  | untilSuccess => exact ⟨_, rfl, rfl, fun status => by cases status <;> simp⟩

theorem readWord {value : Json} {word : UInt64} (read : value.word? = some word) :
    value = .whole word.toNat := by
  cases value with
  | whole n =>
    rw [Json.word?] at read
    split at read
    · rename_i range
      cases read
      have same : (UInt64.ofNat n.toNat).toNat = n.toNat :=
        UInt64.toNat_ofNat_of_lt (by rw [UInt64.size]; omega)
      rw [same, Int.toNat_of_nonneg range.1]
    · cases read
  | _ => cases read

theorem capped {properties : Properties} {cap : Option Nat}
    (capped : Cap unbounded (properties.get? maxLoopName) cap) :
    ∃ bound, maxLoop properties unbounded = .ok bound ∧ bound.map UInt64.toNat = cap := by
  generalize found : properties.get? maxLoopName = value at capped
  cases capped with
  | absent => exact ⟨some 1, by simp only [maxLoop, found], rfl⟩
  | whole positive word =>
    exact ⟨_, maxLoopWhole found positive word unbounded,
      congrArg some (UInt64.toNat_ofNat_of_lt word)⟩
  | endless allowed =>
    subst allowed
    exact ⟨none, by simp only [maxLoop, found]; rfl, rfl⟩

theorem uncapped {properties : Properties}
    (uncapped : ∀ cap, ¬ Cap unbounded (properties.get? maxLoopName) cap) :
    ∃ reason, maxLoop properties unbounded = .error (.invalidProperty maxLoopName reason) := by
  cases found : properties.get? maxLoopName with
  | none =>
    rw [found] at uncapped
    exact absurd .absent (uncapped _)
  | some value =>
    rw [found] at uncapped
    unfold maxLoop
    simp only [found]
    cases read : value.word? with
    | some word =>
      have refused : ¬ 1 ≤ word := fun positive => by
        rw [readWord read] at uncapped
        exact uncapped _ (.whole (UInt64.le_iff_toNat_le.mp positive) word.toNat_lt)
      simp only [if_neg refused]
      exact ⟨_, rfl⟩
    | none =>
      cases value with
      | whole n =>
        have refused : ¬ (n = -1 ∧ unbounded = true) := fun ⟨same, allowed⟩ =>
          uncapped none (same ▸ .endless allowed)
        simp only [if_neg refused]
        exact ⟨_, rfl⟩
      | _ => exact ⟨_, rfl⟩

theorem anotherExact {most : UInt64} :
    Rounds.another ⟨some most, done⟩ = true ↔ done.toNat < most.toNat :=
  decide_eq_true_iff.trans UInt64.lt_iff_toNat_lt

/- Up to a bound the count does not go round. -/
theorem countOn {rounds : Nat} {most : UInt64} (within : done.toNat + rounds ≤ most.toNat) :
    (done + UInt64.ofNat rounds).toNat = done.toNat + rounds := by
  have high := most.toNat_lt
  have same : (UInt64.ofNat rounds).toNat = rounds :=
    UInt64.toNat_ofNat_of_lt (by rw [UInt64.size]; omega)
  rw [UInt64.toNat_add, same]
  exact Nat.mod_eq_of_lt (by omega)

theorem countNext {most : UInt64} (less : done.toNat < most.toNat) :
    (done + 1).toNat = done.toNat + 1 :=
  countOn (show done.toNat + 1 ≤ most.toNat from less)

section Loop
variable {node : Node W} {descend : NodeId → Walk W T Status}

theorem repeatingOnward (unbounded : Bool) {statuses : List Status}
    (located : node.locate .child = .ok id)
    (goesOn : ∀ status ∈ statuses, again status = true)
    (below : ∀ most ∈ bound, done.toNat + statuses.length ≤ most.toNat) :
    Onward node (repeating unbounded again) .child (Rounds.mk bound done)
      (statuses.map fun status => (id, status)) .child
      (Rounds.mk bound (done + UInt64.ofNat statuses.length)) := by
  induction statuses generalizing done with
  | nil =>
    rw [List.length_nil, show UInt64.ofNat 0 = 0 from rfl, UInt64.add_zero]
    exact .here _ _
  | cons status statuses ih =>
    obtain ⟨more, goesOn⟩ := List.forall_mem_cons.mp goesOn
    have less (most : UInt64) (mem : most ∈ bound) :
        done.toNat < most.toNat ∧ done.toNat + 1 + statuses.length ≤ most.toNat := by
      have within := below most mem
      rw [List.length_cons] at within
      omega
    have another : (Rounds.another ⟨bound, done⟩ && again status) = true := by
      rw [more, Bool.and_true]
      cases bound with
      | none => rfl
      | some most => exact anotherExact.mpr (less most rfl).1
    have next (most : UInt64) (mem : most ∈ bound) :
        (done + 1).toNat + statuses.length ≤ most.toNat := by
      rw [countNext (less most mem).1]
      exact (less most mem).2
    have count : done + 1 + UInt64.ofNat statuses.length =
        done + UInt64.ofNat (statuses.length + 1) := by
      rw [UInt64.ofNat_add, UInt64.add_assoc, UInt64.add_comm 1]
      rfl
    have onward := ih goesOn next
    rw [count] at onward
    exact .resumes located (fun stage => if_pos another) onward

variable {statuses : Nat → Status} {moments : Nat → Moment W T} {rounds : Nat}

theorem repeatingReaches (unbounded : Bool) (located : node.locate .child = .ok id)
    (goesOn : ∀ k < rounds, again (statuses k) = true)
    (below : ∀ most ∈ bound, 1 + rounds ≤ most.toNat) :
    Onward node (repeating unbounded again) .child (Rounds.mk bound 1)
      ((List.range rounds).map fun k => (id, statuses k)) .child
      (Rounds.mk bound (1 + UInt64.ofNat rounds)) := by
  have among : ∀ status ∈ (List.range rounds).map statuses, again status = true := by
    simpa using goesOn
  have length : ((List.range rounds).map statuses).length = rounds := by simp
  have within : ∀ most ∈ bound,
      (1 : UInt64).toNat + ((List.range rounds).map statuses).length ≤ most.toNat := by
    rw [length]
    exact below
  have onward := repeatingOnward unbounded located among within
  rw [List.map_map, length] at onward
  exact onward

variable {ends : Status → Prop} (goesOn : ∀ status, again status = true ↔ ¬ ends status)
  (valid : maxLoop node.content.properties unbounded = .ok bound)
  (located : node.locate .child = .ok id)
include goesOn valid located

/- The evaluation with the last number is the one that counts, if there is patience for all. -/
theorem repeatingPlays (positive : ∀ most ∈ bound.map UInt64.toNat, 1 ≤ most)
    (least : IsLeast (Stops (bound.map UInt64.toNat) ends statuses) rounds)
    (evaluates : ∀ k < rounds, descend id (moments k) = some (statuses k, moments (k + 1)))
    (patience : Nat) :
    Activation.converse descend node (repeating unbounded again) patience
        ((repeating unbounded again).start node.view (moments 0).stage) (moments 0).openNodes
        (moments 0).seen =
      if rounds ≤ patience then some (.ok (.status (statuses (rounds - 1))), moments rounds)
      else none := by
  obtain ⟨before, rfl⟩ : ∃ before, rounds = before + 1 := by
    have once := least.1.1
    exact ⟨rounds - 1, by omega⟩
  obtain ⟨earlier, within, stops⟩ := (leastStop positive).mp least
  have below (most : UInt64) (mem : most ∈ bound) : 1 + before ≤ most.toNat := by
    rw [Nat.add_comm]
    exact within _ (Option.mem_map_of_mem _ mem)
  have onward := repeatingReaches unbounded located
    (fun k less => (goesOn _).mpr (earlier k less)) below
  have succession := Succession.ofStream before fun k less => evaluates k (by omega)
  have last (stage : Stage W) : (repeating unbounded again).resume
      (Rounds.mk bound (1 + UInt64.ofNat before)) (.ok (statuses before)) stage =
        .answer (.ok (.status (statuses before))) stage := by
    refine if_neg fun more => ?_
    obtain ⟨another, again⟩ := Bool.and_eq_true_iff.mp more
    rcases stops with reached | ended
    · obtain ⟨most, rfl, full⟩ := Option.map_eq_some_iff.mp reached
      have count : (1 + UInt64.ofNat before).toNat = 1 + before := countOn (below most rfl)
      have less := anotherExact.mp another
      rw [count, full] at less
      exact absurd less (by omega)
    · exact (goesOn _).mp again ended
  rw [repeatingStarts (v := node.view) valid, Activation.converseAnswers onward succession located
    (evaluates before (by omega)) last, List.length_map, List.length_range]
  rfl

theorem repeatingEndless (unlimited : bound = none) (never : ∀ k, ¬ ends (statuses k))
    (evaluates : ∀ k, descend id (moments k) = some (statuses k, moments (k + 1)))
    (patience : Nat) :
    Activation.converse descend node (repeating unbounded again) patience
      ((repeating unbounded again).start node.view (moments 0).stage) (moments 0).openNodes
      (moments 0).seen = none := by
  subst unlimited
  have below : ∀ most ∈ (none : Option UInt64), 1 + patience ≤ most.toNat := by simp
  have onward := repeatingReaches unbounded located (fun k _ => (goesOn _).mpr (never k)) below
  have succession := Succession.ofStream patience fun k _ => evaluates k
  rw [repeatingStarts (v := node.view) valid, Activation.converseOnward onward succession,
    List.length_map, List.length_range, if_pos (Nat.le_refl _), Nat.sub_self]
  rfl

section Tick
variable [Observer W T] {m : Moment W T} (starts : moments 0 = node.called m)
  (carries : node.content.behavior.tick = some (repeating unbounded again)) (scene : Scene W)
include starts carries

theorem tickPlays (positive : ∀ most ∈ bound.map UInt64.toNat, 1 ≤ most)
    (least : IsLeast (Stops (bound.map UInt64.toNat) ends statuses) rounds)
    (evaluates : ∀ k < rounds, descend id (moments k) = some (statuses k, moments (k + 1))) :
    Activation.tickNode scene descend node m =
      if rounds ≤ scene.patience then
        some (.ok (.status (statuses (rounds - 1))),
          node.returned (.ok (.status (statuses (rounds - 1)))) (moments rounds))
      else none := by
  rw [Activation.tickNodePlays carries, ← starts,
    repeatingPlays goesOn valid located positive least evaluates]
  split <;> rfl

theorem tickEndless (positive : ∀ most ∈ bound.map UInt64.toNat, 1 ≤ most)
    (evaluates : ∀ k, descend id (moments k) = some (statuses k, moments (k + 1))) :
    (∀ patience, Activation.tickNode (scene.patient patience) descend node m = none) ↔
      bound.map UInt64.toNat = none ∧ ∀ k, ¬ ends (statuses k) := by
  rw [← neverStops positive]
  constructor
  · refine fun cut => by_contra fun some => ?_
    obtain ⟨rounds, least⟩ := firstStop some
    have came := tickPlays goesOn valid located starts carries (scene.patient rounds) positive least
      fun k _ => evaluates k
    have enough : rounds ≤ (scene.patient rounds).patience := Nat.le_refl rounds
    rw [cut, if_pos enough] at came
    cases came
  · intro never patience
    obtain ⟨unlimited, never⟩ := (neverStops positive).mp never
    rw [Activation.tickNodePlays carries, ← starts,
      repeatingEndless goesOn valid located (Option.map_eq_none_iff.mp unlimited) never evaluates]
    rfl

end Tick
end Loop

theorem Repeats.parted (repeats : Repeats bound again id done visits status)
    (low : ∀ most ∈ bound, done.toNat ≤ most.toNat) :
    ∃ before : List Status, visits = (before ++ [status]).map (fun status => (id, status)) ∧
      (∀ earlier ∈ before, again earlier = true) ∧
      (∀ most ∈ bound, done.toNat + before.length ≤ most.toNat) ∧
      (again status = false ∨ ∃ most ∈ bound, most.toNat = done.toNat + before.length) := by
  induction repeats with
  | @stops done status ends =>
    refine ⟨[], rfl, by simp, low, ?_⟩
    rcases Bool.and_eq_false_iff.mp ends with reached | ended
    · cases bound with
      | none => cases reached
      | some most =>
        have least := low most rfl
        have full : ¬ done.toNat < most.toNat := fun less => by
          cases reached.symm.trans (anotherExact.mpr less)
        exact .inr ⟨most, rfl, by rw [List.length_nil]; omega⟩
    · exact .inl ended
  | @goesOn done status visits result more _ ih =>
    obtain ⟨another, goesOn⟩ := Bool.and_eq_true_iff.mp more
    have next (most : UInt64) (mem : most ∈ bound) :
        (done + 1).toNat = done.toNat + 1 ∧ (done + 1).toNat ≤ most.toNat := by
      cases mem
      have less := anotherExact.mp another
      exact ⟨countNext less, by rw [countNext less]; exact less⟩
    obtain ⟨before, rfl, earlier, within, last⟩ := ih fun most mem => (next most mem).2
    refine ⟨status :: before, rfl, List.forall_mem_cons.mpr ⟨goesOn, earlier⟩,
      fun most mem => ?_, last.imp_right ?_⟩
    · have within := within most mem
      rw [(next most mem).1] at within
      rw [List.length_cons]
      omega
    · rintro ⟨most, mem, full⟩
      rw [(next most mem).1] at full
      exact ⟨most, mem, by rw [List.length_cons]; omega⟩

theorem Repeats.least {ends : Status → Prop}
    (goesOn : ∀ status, again status = true ↔ ¬ ends status)
    (positive : ∀ most ∈ bound.map UInt64.toNat, 1 ≤ most)
    (repeats : Repeats bound again id 1 visits status) :
    ∃ (statuses : Nat → Status) (rounds : Nat),
      visits = (List.range rounds).map (fun k => (id, statuses k)) ∧
      IsLeast (Stops (bound.map UInt64.toNat) ends statuses) rounds ∧
      status = statuses (rounds - 1) := by
  have low : ∀ most ∈ bound, (1 : UInt64).toNat ≤ most.toNat := fun most mem =>
    positive _ (Option.mem_map_of_mem _ mem)
  obtain ⟨before, rfl, earlier, within, last⟩ := repeats.parted low
  let statuses (k : Nat) : Status := (before ++ [status])[k]?.getD status
  have final : statuses before.length = status := by simp [statuses]
  refine ⟨statuses, before.length + 1, ?_, (leastStop positive).mpr ⟨?_, ?_, ?_⟩, final.symm⟩
  · refine List.ext_getElem (by simp) fun k less _ => ?_
    simp only [List.length_map] at less
    simp only [List.getElem_map, List.getElem_range, statuses, List.getElem?_eq_getElem less,
      Option.getD_some]
  · intro k less
    have same : statuses k = before[k] := by
      simp only [statuses, List.getElem?_append_left less, List.getElem?_eq_getElem less,
        Option.getD_some]
    rw [same]
    exact (goesOn _).mp (earlier _ (List.getElem_mem less))
  · intro most mem
    obtain ⟨word, here, rfl⟩ := Option.map_eq_some_iff.mp mem
    rw [Nat.add_comm]
    exact within word here
  · rw [final]
    rcases last with ended | ⟨most, mem, full⟩
    · exact .inr (by_contra fun lasts => by cases ended.symm.trans ((goesOn _).mpr lasts))
    · rw [Option.mem_def.mp mem, Option.map_some, full, Nat.add_comm]
      exact .inl rfl

end Native

open BehaviorTree.Native

/- In whatever way the child is evaluated, and in every run. The evaluations are numbered from one
on, and what the child comes to may change from one to the next. -/
theorem repeatersEvaluateOften {n : Native} {unbounded : Bool} {ends : Status → Prop}
    (loops : n.Loops unbounded ends) {node : Node W} {child : NodeId} {others : List NodeId}
    (decorator : node.kind = .decorator) (children : node.children = child :: others)
    (carries : node.content.behavior.tick = some n.tick) :
    (∀ {cap}, Cap unbounded (node.content.properties.get? maxLoopName) cap →
      (∀ {T : Type} [Observer W T] (scene : Scene W) (descend : NodeId → Walk W T Status)
        (m : Moment W T) {statuses : Nat → Status} {moments : Nat → Moment W T},
        moments 0 = node.called m →
          (∀ {rounds}, IsLeast (Stops cap ends statuses) rounds →
            (∀ k < rounds, descend child (moments k) = some (statuses k, moments (k + 1))) →
              Activation.tickNode scene descend node m =
                if rounds ≤ scene.patience then
                  some (.ok (.status (statuses (rounds - 1))),
                    node.returned (.ok (.status (statuses (rounds - 1)))) (moments rounds))
                else none) ∧
          ((∀ k, descend child (moments k) = some (statuses k, moments (k + 1))) →
            ((∀ patience, Activation.tickNode (scene.patient patience) descend node m = none) ↔
              cap = none ∧ ∀ k, ¬ ends (statuses k)))) ∧
      node.Ticks fun visits result => ∃ (statuses : Nat → Status) (rounds : Nat),
        visits = (List.range rounds).map (fun k => (child, statuses k)) ∧
        IsLeast (Stops cap ends statuses) rounds ∧
        result = .ok (.status (statuses (rounds - 1)))) ∧
    ((∀ cap, ¬ Cap unbounded (node.content.properties.get? maxLoopName) cap) →
      ∃ reason, (∀ {T : Type} [Observer W T] (scene : Scene W)
          (descend : NodeId → Walk W T Status) (m : Moment W T),
        Activation.tickNode scene descend node m =
          some (.error (.invalidProperty maxLoopName reason),
            node.returned (.error (.invalidProperty maxLoopName reason)) (node.called m))) ∧
        node.Ticks fun visits result =>
          visits = [] ∧ result = .error (.invalidProperty maxLoopName reason)) := by
  have located : node.locate .child = .ok child := Node.offersExact.mpr (.child decorator children)
  obtain ⟨again, policy, tick, goesOn⟩ := loops.policy (W := W)
  have ticks := Native.ticks carries
  rw [policy] at ticks
  rw [tick] at carries
  refine ⟨fun {cap} limits => ⟨?_, ?_⟩, fun unlimited => ?_⟩
  · intro T _ scene descend m statuses moments starts
    obtain ⟨bound, valid, rfl⟩ := capped limits
    exact ⟨tickPlays goesOn valid located starts carries scene limits.positive,
      tickEndless goesOn valid located starts carries scene limits.positive⟩
  · obtain ⟨bound, valid, rfl⟩ := capped limits
    refine ticks.imp fun _ ⟨decision, decides, same⟩ => ?_
    cases decides with
    | repeats valid' located' repeats =>
      cases valid.symm.trans valid'
      cases located.symm.trans located'
      obtain ⟨statuses, rounds, visited, least, rfl⟩ := repeats.least goesOn limits.positive
      exact ⟨statuses, rounds, visited, least, same⟩
    | repeatsNone _ missing => cases located.symm.trans missing
    | invalid refused => cases valid.symm.trans refused
  · obtain ⟨reason, refused⟩ := uncapped unlimited
    refine ⟨reason, fun scene descend m => ?_, ticks.imp fun _ ⟨decision, decides, same⟩ => ?_⟩
    · rw [Activation.tickNodePlays carries, repeatingRefused (v := node.view) refused]
      cases scene.patience <;> rfl
    · cases decides with
      | invalid other =>
        cases refused.symm.trans other
        exact ⟨rfl, same⟩
      | repeats valid | repeatsNone valid => cases refused.symm.trans valid

def Behavior.improving : Behavior Nat where
  tick := some
    { Memory := Empty
      start := fun _ stage =>
        .answer (.ok (.status (if stage.world = 0 then .failure else .success)))
          { stage with world := stage.world + 1 }
      resume := fun memory => memory.elim }

def Tree.retryingEdits : List (Edit Nat) :=
  [.addNode (.detached "Retry" .decorator Native.repeatUntilSuccess.behavior
      (.ofList [(maxLoopName, .whole (3 : Nat))])),
    .addNode (.detached "Leaf" .leaf .improving .empty), .setRoot ⟨0⟩, .addChild ⟨0⟩ ⟨1⟩]

theorem repeatersEvaluateOftenRetrying :
    let tree := Tree.attempts { id := ⟨"retrying"⟩ } Tree.retryingEdits
    let plan : Plan Nat := {}
    ∃ (node : Node Nat) (report : Report Nat (Timeline Nat)) (left : OpenNodes),
      tree.node? node.id = some node ∧
      Cap true (node.content.properties.get? maxLoopName) (some 3) ∧
      plan.runTree 2 tree ⟨1⟩ .empty 0 = some (report, left) ∧ report.status = .success ∧
      report.seen.begins ⟨1⟩ = 2 ∧
      ∃ depth statuses rounds start talk told,
        IsLeast (Stops (some 3) (fun status => status ≠ .failure) statuses) rounds ∧
        Toured { plan, tree, subject := ⟨1⟩, patience := 2 } node depth start
          ((List.range rounds).map fun k => (⟨1⟩, statuses k)) talk told := by
  intro tree plan
  have built : tree.Built := (Tree.Built.empty ⟨"retrying"⟩ .strict).attempts Tree.retryingEdits
  obtain ⟨node, found, decorator, children, carries, properties⟩ : ∃ node,
      tree.node? ⟨0⟩ = some node ∧ node.kind = .decorator ∧ node.children = [⟨1⟩] ∧
      node.content.behavior.tick = some Native.repeatUntilSuccess.tick ∧
      node.content.properties = .ofList [(maxLoopName, .whole (3 : Nat))] :=
    ⟨_, rfl, rfl, rfl, rfl, rfl⟩
  have numbered := built.forest.numbered found
  have three : node.content.properties.get? maxLoopName = some (.whole (3 : Nat)) := by
    rw [properties]
    exact (SortedMap.getInsert _ _ _ _).trans (if_pos rfl)
  have limits : Cap true (node.content.properties.get? maxLoopName) (some 3) := by
    rw [three]
    exact .whole (by decide) (by decide)
  have came : ((plan.runTree 2 tree ⟨1⟩ .empty 0 :
      Option (Report Nat (Timeline Nat) × OpenNodes)).any fun (report, _) =>
        report.status = .success ∧ report.seen.begins ⟨1⟩ = 2 ∧
          .called .tick ∈ report.seen.marks ⟨0⟩) = true := by
    decide +kernel
  obtain ⟨⟨report, left⟩, ok, shown⟩ := (Option.any_eq_true _ _).mp came
  obtain ⟨success, twice, marked⟩ := of_decide_eq_true shown
  obtain ⟨stage, called⟩ := Timeline.marksCalled.mp marked
  obtain ⟨before, after, split⟩ := List.append_of_mem called
  rw [← numbered] at found split
  have ticks := ((repeatersEvaluateOften .untilSuccess decorator children carries).1 limits).2
  obtain ⟨depth, _, _, talk, told, _, _, ⟨statuses, rounds, rfl, least, _⟩, toured⟩ :=
    ticks tree built found ok split
  exact ⟨node, report, left, found, limits, ok, success, twice, depth, statuses, rounds, _, talk,
    told, least, toured⟩

end BehaviorTree
