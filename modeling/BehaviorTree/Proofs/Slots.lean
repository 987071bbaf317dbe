import BehaviorTree.SlotType
import BehaviorTree.Proofs.SortedMap
import Mathlib.Data.List.Induction
import Mathlib.Data.Set.Card

/-! Slots over time. A slot holds what was written to it last, at the type it was written at, as
changed in place since, until it is taken at that type. What is asked of it at another type is
answered with both types and does nothing. -/
namespace BehaviorTree

theorem SortedMap.sizeOfKeys {κ ν : Type*} [Ord κ] [Std.TransOrd κ] [Std.LawfulEqOrd κ]
    (m : SortedMap κ ν) : m.size = { key | (m.get? key).isSome }.ncard := by
  classical
  have occupied : { key | (m.get? key).isSome } = (m.keys.toFinset : Set κ) := by
    ext key
    rw [Set.mem_ofPred_eq, Option.isSome_iff_exists, Finset.mem_coe, List.mem_toFinset, keys,
      List.mem_map]
    simp only [getIff]
    constructor
    · rintro ⟨value, held⟩
      exact ⟨_, held, rfl⟩
    · rintro ⟨⟨_, value⟩, held, rfl⟩
      exact ⟨value, held⟩
  rw [occupied, Set.ncard_coe_finset, List.toFinset_card_of_nodup m.keysDistinct, keys,
    List.length_map, size]

namespace Slots

variable {T : Type} {Carrier : T → Type}

/- What is done to slots. Each change names a type and the number of a slot. Writing a slot and
building slots with one written are the same change. -/
inductive Change (Carrier : T → Type) where
  | set (type : T) (number : UInt64) (value : Carrier type)
  | update (type : T) (number : UInt64) (change : Carrier type → Carrier type)
  | modify (type : T) (number : UInt64) (change : Carrier type → Carrier type)
  | take (type : T) (number : UInt64)

namespace Change

def type : Change Carrier → T
  | set type _ _ | update type _ _ | modify type _ _ | take type _ => type

def number : Change Carrier → UInt64
  | set _ number _ | update _ number _ | modify _ number _ | take _ number => number

def Sets (number : UInt64) (c : Change Carrier) : Prop := ∃ type value, c = .set type number value

variable [DecidableEq T]

def turn (number : UInt64) {type : T} (value : Carrier type) : Change Carrier → Carrier type
  | update stored key change | modify stored key change =>
    if here : stored = type ∧ key = number then here.1 ▸ change (here.1.symm ▸ value) else value
  | _ => value

def perform (s : Slots Carrier) : Change Carrier → Slots Carrier
  | set type number value => s.set (⟨number⟩ : SlotKey type) value
  | update type number change => (s.update (⟨number⟩ : SlotKey type) change).2
  | modify type number change => (s.modifyGet? (⟨number⟩ : SlotKey type) change).2
  | take type number => (s.take (⟨number⟩ : SlotKey type)).2

end Change

theorem heldSet {s : Slots Carrier} {t type : T} {key : SlotKey t} {written : Carrier t}
    {number : UInt64} {value : Carrier type} :
    (s.set key written).held.get? number = some ⟨type, value⟩ ↔
      (key.number = number ∧ (⟨t, written⟩ : (t : T) × Carrier t) = ⟨type, value⟩) ∨
        key.number ≠ number ∧ s.held.get? number = some ⟨type, value⟩ := by
  rw [set, SortedMap.getInsert]
  split
  · rename_i here
    simp [here]
  · rename_i away
    simp [Ne.symm away]

section
variable [DecidableEq T] {s : Slots Carrier}

def after (changes : List (Change Carrier)) : Slots Carrier := changes.foldl Change.perform empty

/- A slot was written at a type, has been neither written again nor taken at that type since, and
its value is the one written, as changed in place. -/
def Standing (changes : List (Change Carrier)) (number : UInt64) (type : T)
    (value : Carrier type) : Prop :=
  ∃ before first later, changes = before ++ .set type number first :: later ∧
    (∀ c ∈ later, ¬c.Sets number ∧ c ≠ .take type number) ∧
    value = later.foldl (fun current c => c.turn number current) first

variable {t : T} {key : SlotKey t}

theorem readCases (s : Slots Carrier) {t : T} (key : SlotKey t) :
    (s.held.get? key.number = none ∧ s.read key = .ok none) ∨
    (∃ value, s.held.get? key.number = some ⟨t, value⟩ ∧ s.read key = .ok (some value)) ∨
    ∃ stored value, s.held.get? key.number = some ⟨stored, value⟩ ∧ stored ≠ t ∧
      s.read key = .error ⟨key.number, stored, t⟩ := by
  unfold read
  cases held : s.held.get? key.number with
  | none => exact .inl ⟨rfl, rfl⟩
  | some found =>
    obtain ⟨stored, value⟩ := found
    by_cases same : stored = t
    · subst same
      exact .inr (.inl ⟨value, rfl, by simp⟩)
    · exact .inr (.inr ⟨stored, value, rfl, same, by simp [same]⟩)

theorem readHere {value : Carrier t} :
    s.read key = .ok (some value) ↔ s.held.get? key.number = some ⟨t, value⟩ := by
  rcases s.readCases key with ⟨held, answer⟩ | ⟨_, held, answer⟩ | ⟨_, _, held, different, answer⟩
  · simp [held, answer]
  · simp [held, answer]
  · simp [held, answer, different]

theorem readAbsent : s.read key = .ok none ↔ s.held.get? key.number = none := by
  rcases s.readCases key with ⟨held, answer⟩ | ⟨_, held, answer⟩ | ⟨_, _, held, _, answer⟩
  · simp [held, answer]
  · simp [held, answer]
  · simp [held, answer]

theorem modifyGetSlots {change : Carrier t → Carrier t} :
    (s.modifyGet? key change).2 = (s.update key change).2 := by
  unfold modifyGet?
  split
  · rename_i updated
    rw [updated]
  · rename_i updated
    rw [updated]

section Held
variable {number : UInt64} {type : T} {value : Carrier type} {c : Change Carrier}

theorem heldKept (kept : ∀ old, s.held.get? number = some ⟨type, old⟩ → c.turn number old = old) :
    s.held.get? number = some ⟨type, value⟩ ↔
      ∃ old, s.held.get? number = some ⟨type, old⟩ ∧ value = c.turn number old := by
  constructor
  · intro held
    exact ⟨value, held, (kept value held).symm⟩
  · rintro ⟨old, held, rfl⟩
    rw [kept old held, held]

theorem heldUpdate {change : Carrier t → Carrier t} :
    (s.update key change).2.held.get? number = some ⟨type, value⟩ ↔
      ∃ old, s.held.get? number = some ⟨type, old⟩ ∧
        value = Change.turn number old (.update t key.number change) := by
  unfold update
  rcases s.readCases key with ⟨free, answer⟩ | ⟨old, here, answer⟩ |
    ⟨stored, _, other, different, answer⟩
  · rw [answer]
    refine heldKept fun old held => dif_neg fun both => ?_
    rw [← both.2, free] at held
    contradiction
  · rw [answer]
    rw [heldSet]
    by_cases same : key.number = number
    · subst same
      simp only [here, true_and, ne_eq, not_true_eq_false, false_and, or_false]
      constructor
      · intro written
        cases written
        exact ⟨old, rfl, by simp [Change.turn]⟩
      · rintro ⟨_, held, rfl⟩
        cases held
        simp [Change.turn]
    · simp only [same, false_and, ne_eq, not_false_eq_true, true_and, false_or]
      exact heldKept fun _ _ => dif_neg fun both => same both.2
  · rw [answer]
    refine heldKept fun old held => dif_neg fun both => ?_
    rw [← both.2, other] at held
    cases held
    exact different both.1.symm

theorem heldTake :
    (s.take key).2.held.get? number = some ⟨type, value⟩ ↔
      ¬(t = type ∧ key.number = number) ∧ s.held.get? number = some ⟨type, value⟩ := by
  unfold take
  rcases s.readCases key with ⟨free, answer⟩ | ⟨old, here, answer⟩ |
    ⟨stored, _, other, different, answer⟩
  · rw [answer]
    refine (and_iff_right_of_imp fun held both => ?_).symm
    rw [← both.2, free] at held
    contradiction
  · rw [answer]
    simp only [SortedMap.getErase]
    split
    · rename_i same
      subst same
      refine iff_of_false (by simp) fun kept => ?_
      obtain ⟨away, held⟩ := kept
      rw [here] at held
      cases held
      exact away ⟨rfl, rfl⟩
    · rename_i away
      simp [Ne.symm away]
  · rw [answer]
    refine (and_iff_right_of_imp fun held both => ?_).symm
    rw [← both.2, other] at held
    cases held
    exact different both.1.symm

/- What a slot holds after a change: what was just written, or what it held before and has not been
taken, as turned by the change. -/
theorem heldNext :
    (c.perform s).held.get? number = some ⟨type, value⟩ ↔
      c = .set type number value ∨
        (¬c.Sets number ∧ c ≠ .take type number) ∧
          ∃ old, s.held.get? number = some ⟨type, old⟩ ∧ value = c.turn number old := by
  cases c with
  | set t key written =>
    rw [Change.perform, heldSet]
    by_cases same : key = number
    · subst same
      simp [Change.Sets]
    · simp [Change.Sets, Change.turn, same]
  | update t key change =>
    rw [Change.perform, heldUpdate]
    simp [Change.Sets]
  | modify t key change =>
    rw [Change.perform, modifyGetSlots, heldUpdate]
    simp [Change.Sets, Change.turn]
  | take t key =>
    rw [Change.perform, heldTake]
    simp [Change.Sets, Change.turn]

theorem standingNext {changes : List (Change Carrier)} :
    Standing (changes ++ [c]) number type value ↔
      c = .set type number value ∨
        (¬c.Sets number ∧ c ≠ .take type number) ∧
          ∃ old, Standing changes number type old ∧ value = c.turn number old := by
  constructor
  · rintro ⟨before, first, later, split, kept, rfl⟩
    rcases later.eq_nil_or_concat with rfl | ⟨later, last, rfl⟩
    · obtain ⟨_, same⟩ := List.append_inj' split rfl
      exact .inl (List.singleton_inj.mp same)
    · rw [List.concat_eq_append, ← List.cons_append, ← List.append_assoc] at split
      obtain ⟨rfl, same⟩ := List.append_inj' split rfl
      cases same
      rw [List.concat_eq_append] at kept
      refine .inr
        ⟨kept c (by simp), _, ⟨before, first, later, rfl, fun d mem => kept d ?_, rfl⟩, ?_⟩
      · exact List.mem_append_left _ mem
      · simp
  · rintro (rfl | ⟨stays, _, ⟨before, first, later, rfl, kept, rfl⟩, rfl⟩)
    · exact ⟨changes, value, [], rfl, by simp, rfl⟩
    · refine ⟨before, first, later ++ [c], by simp, fun d mem => ?_, by simp⟩
      rcases List.mem_append.mp mem with early | last
      · exact kept d early
      · exact List.mem_singleton.mp last ▸ stays

theorem heldAfter {changes : List (Change Carrier)} :
    (after changes).held.get? number = some ⟨type, value⟩ ↔
      Standing changes number type value := by
  induction changes using List.reverseRecOn generalizing value with
  | nil => simp [after, empty, Standing]
  | append_singleton changes c ih =>
    rw [after, List.foldl_append, List.foldl_cons, List.foldl_nil, ← after, heldNext, standingNext]
    simp only [ih]

end Held

structure FollowsRead (s : Slots Carrier) {t : T} (key : SlotKey t)
    (change : Carrier t → Carrier t) : Prop where
  update : (s.update key change).1 = (s.read key).map (Option.map change)
  take : (s.take key).1 = s.read key
  get : s.get? key = (s.read key).toOption.join
  modify : s.modifyGet? key change =
    ((s.update key change).1.toOption.join, (s.update key change).2)
  mismatch : ∀ {e}, s.read key = .error e →
    s.update key change = (.error e, s) ∧ s.take key = (.error e, s)

theorem followsRead (s : Slots Carrier) {t : T} (key : SlotKey t)
    (change : Carrier t → Carrier t) : s.FollowsRead key change := by
  have getRead : s.get? key = (s.read key).toOption.join := by
    unfold get?
    cases s.read key <;> rfl
  have modifyUpdate : s.modifyGet? key change =
      ((s.update key change).1.toOption.join, (s.update key change).2) := by
    unfold modifyGet?
    obtain ⟨answer, changed⟩ := s.update key change
    cases answer <;> rfl
  cases answer : s.read key with
  | error e =>
    have updated : s.update key change = (.error e, s) := by simp only [update, answer]
    have taken : s.take key = (.error e, s) := by simp only [take, answer]
    refine ⟨by rw [updated, answer]; rfl, by rw [taken, answer], getRead, modifyUpdate, ?_⟩
    intro _ same
    cases answer.symm.trans same
    exact ⟨updated, taken⟩
  | ok found =>
    have updated : (s.update key change).1 = .ok (found.map change) := by
      cases found <;> simp only [update, answer, Option.map_none, Option.map_some]
    have taken : (s.take key).1 = .ok found := by
      cases found <;> simp only [take, answer]
    exact ⟨by rw [updated, answer]; rfl, by rw [taken, answer], getRead, modifyUpdate,
      by simp [answer]⟩

def Clashes (holds : UInt64 → (type : T) → Carrier type → Prop) {t : T} (key : SlotKey t)
    (e : Mismatch T) : Prop :=
  ∃ stored value, holds key.number stored value ∧ stored ≠ t ∧ e = ⟨key.number, stored, t⟩

structure Answers (s : Slots Carrier) (holds : UInt64 → (type : T) → Carrier type → Prop) :
    Prop where
  read : ∀ {t} {key : SlotKey t} {value : Carrier t},
    s.read key = .ok (some value) ↔ holds key.number t value
  absent : ∀ {t} {key : SlotKey t},
    s.read key = .ok none ↔ ∀ type value, ¬holds key.number type value
  mismatch : ∀ {t} {key : SlotKey t} {e}, s.read key = .error e ↔ Clashes holds key e
  mismatchUpdate : ∀ {t} {key : SlotKey t} {change e},
    (s.update key change).1 = .error e ↔ Clashes holds key e
  mismatchTake : ∀ {t} {key : SlotKey t} {e}, (s.take key).1 = .error e ↔ Clashes holds key e
  contains : ∀ {t} {key : SlotKey t},
    s.contains key = true ↔ ∃ type value, holds key.number type value
  size : s.size = { number | ∃ type value, holds number type value }.ncard

theorem readMismatch {e : Mismatch T} : s.read key = .error e ↔
    Clashes (fun number type value => s.held.get? number = some ⟨type, value⟩) key e := by
  simp [readErrorIff, Clashes]

theorem answersHeld (s : Slots Carrier) :
    s.Answers fun number type value => s.held.get? number = some ⟨type, value⟩ where
  read := readHere
  absent := by
    simp [readAbsent, Option.eq_none_iff_forall_ne_some, Sigma.forall]
  mismatch := readMismatch
  mismatchUpdate {_ key change e} := by
    rw [(s.followsRead key change).update, ← readMismatch]
    cases s.read key <;> simp [Except.map]
  mismatchTake {_ key e} := by
    rw [(s.followsRead key id).take, readMismatch]
  contains := by
    simp [contains, SortedMap.contains, Option.isSome_iff_exists]
  size := by
    simp [size, SortedMap.sizeOfKeys, Option.isSome_iff_exists]

theorem readElsewhere {c : Change Carrier} {t : T} {key : SlotKey t}
    (away : c.number ≠ key.number) : (c.perform s).read key = s.read key := by
  have held : (c.perform s).held.get? key.number = s.held.get? key.number := by
    refine Option.ext fun found => ?_
    obtain ⟨type, value⟩ := found
    have unset : ¬c.Sets key.number := by
      rintro ⟨_, _, rfl⟩
      exact away rfl
    have untaken : c ≠ .take type key.number := by
      rintro rfl
      exact away rfl
    have unwritten : c ≠ .set type key.number value := by
      rintro rfl
      exact away rfl
    have still (old : Carrier type) : c.turn key.number old = old := by
      cases c with
      | update | modify => exact dif_neg fun both => away both.2
      | set | take => rfl
    rw [heldNext, ← heldKept fun old _ => still old]
    simp [unset, untaken, unwritten]
  unfold read
  rw [held]

theorem lastWritesStand (changes : List (Change Carrier)) :
    (after changes).Answers (Standing changes) ∧
    (∀ (s : Slots Carrier) {t : T} (key : SlotKey t) change, s.FollowsRead key change) ∧
    ∀ (s : Slots Carrier) {t : T} (key : SlotKey t) (c : Change Carrier),
      c.number ≠ key.number → (c.perform s).read key = s.read key := by
  have holds : Standing changes = fun number type value =>
      (after changes).held.get? number = some ⟨type, value⟩ := by
    funext number type value
    exact propext heldAfter.symm
  rw [holds]
  exact ⟨answersHeld _, fun s _ key change => s.followsRead key change,
    fun _ _ _ _ away => readElsewhere away⟩

theorem lastWritesStandRewritten :
    let changes : List (Change SlotType.Carrier) :=
      [.set .bool 7 true, .set .text 7 "a", .take .bool 7, .update .bool 7 not,
        .modify .text 7 (String.append · "!")]
    let key : SlotKey SlotType.text := ⟨7⟩
    let away : Change SlotType.Carrier := .set .bool 8 true
    Standing changes 7 .text "a!" ∧ (after changes).read key = .ok (some "a!") ∧
      away.number ≠ key.number ∧ (away.perform (after changes)).read key = .ok (some "a!") := by
  intro changes key away
  have standing : Standing changes 7 .text "a!" :=
    ⟨[.set .bool 7 true], "a", _, rfl, by simp [Change.Sets], rfl⟩
  obtain ⟨answers, -, elsewhere⟩ := lastWritesStand changes
  have apart : away.number ≠ key.number := by decide
  have found : (after changes).read key = .ok (some "a!") := answers.read.mpr standing
  exact ⟨standing, found, apart, (elsewhere _ key away apart).trans found⟩

end

end Slots
end BehaviorTree
