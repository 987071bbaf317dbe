import BehaviorTree.SortedMap

/-!
Typed slots under numeric keys. A slot holds a value of some type of the family
`Carrier`, and a key names the type it is read at. Reading at another type reports
both types; the short forms (`get?`, `modify`) treat such a slot as absent.
-/
namespace BehaviorTree

structure SlotKey {T : Type} (type : T) where
  number : UInt64
  deriving DecidableEq, Repr

structure Mismatch (T : Type) where
  key : UInt64
  stored : T
  requested : T
  deriving DecidableEq, Repr

structure Slots {T : Type} (Carrier : T → Type) where
  held : SortedMap UInt64 ((type : T) × Carrier type)

namespace Slots
variable {T : Type} {Carrier : T → Type}

def empty : Slots Carrier := ⟨.empty⟩

instance : Inhabited (Slots Carrier) := ⟨empty⟩

def size (s : Slots Carrier) : Nat := s.held.size

def isEmpty (s : Slots Carrier) : Bool := s.held.isEmpty

/-- Whether the slot is occupied, at any type. -/
def contains (s : Slots Carrier) {t : T} (key : SlotKey t) : Bool := s.held.contains key.number

def set (s : Slots Carrier) {t : T} (key : SlotKey t) (value : Carrier t) : Slots Carrier :=
  ⟨s.held.insert key.number ⟨t, value⟩⟩

def types (s : Slots Carrier) : List (UInt64 × T) := s.held.toList.map fun e => (e.1, e.2.1)

section Typed
variable [DecidableEq T]

def read (s : Slots Carrier) {t : T} (key : SlotKey t) :
    Except (Mismatch T) (Option (Carrier t)) :=
  match s.held.get? key.number with
  | none => .ok none
  | some ⟨stored, value⟩ =>
    if h : stored = t then .ok (some (h ▸ value)) else .error ⟨key.number, stored, t⟩

def get? (s : Slots Carrier) {t : T} (key : SlotKey t) : Option (Carrier t) :=
  match s.read key with
  | .ok found => found
  | .error _ => none

def update (s : Slots Carrier) {t : T} (key : SlotKey t) (change : Carrier t → Carrier t) :
    Except (Mismatch T) (Option (Carrier t)) × Slots Carrier :=
  match s.read key with
  | .ok (some value) => (.ok (some (change value)), s.set key (change value))
  | unchanged => (unchanged, s)

def modify (s : Slots Carrier) {t : T} (key : SlotKey t) (change : Carrier t → Carrier t) :
    Slots Carrier :=
  (s.update key change).2

def modifyGet? (s : Slots Carrier) {t : T} (key : SlotKey t)
    (change : Carrier t → Carrier t) : Option (Carrier t) × Slots Carrier :=
  match s.update key change with
  | (.ok found, changed) => (found, changed)
  | (.error _, same) => (none, same)

/-- Removes a value; a slot of another type keeps it. -/
def take (s : Slots Carrier) {t : T} (key : SlotKey t) :
    Except (Mismatch T) (Option (Carrier t)) × Slots Carrier :=
  match s.read key with
  | .ok (some value) => (.ok (some value), ⟨s.held.erase key.number⟩)
  | unchanged => (unchanged, s)

theorem readSet (s : Slots Carrier) {t : T} (key : SlotKey t) (value : Carrier t) :
    (s.set key value).read key = .ok (some value) := by
  simp [read, set, SortedMap.getInsert]

theorem readSetOther (s : Slots Carrier) {t u : T} {key : SlotKey t} {other : SlotKey u}
    (value : Carrier t) (ne : other.number ≠ key.number) :
    (s.set key value).read other = s.read other := by
  simp [read, set, SortedMap.getInsert, ne]

theorem getModify (s : Slots Carrier) {t : T} (key : SlotKey t)
    (change : Carrier t → Carrier t) : (s.modify key change).get? key = (s.get? key).map change := by
  unfold modify update
  cases held : s.read key with
  | error e => simp only [get?, held, Option.map_none]
  | ok found =>
    cases found with
    | none => simp only [get?, held, Option.map_none]
    | some value => simp only [get?, held, readSet, Option.map_some]

theorem getModifyOther (s : Slots Carrier) {t u : T} {key : SlotKey t} {other : SlotKey u}
    (change : Carrier t → Carrier t) (ne : other.number ≠ key.number) :
    (s.modify key change).get? other = s.get? other := by
  unfold modify update
  cases s.read key with
  | error e => rfl
  | ok found =>
    cases found with
    | none => rfl
    | some value => simp only [get?, readSetOther _ _ ne]

theorem modifyTwice (s : Slots Carrier) {t : T} (key : SlotKey t)
    (first second : Carrier t → Carrier t) :
    (s.modify key first).modify key second = s.modify key fun value => second (first value) := by
  have overwritten (a b : Carrier t) : (s.set key a).set key b = s.set key b := by
    unfold set
    congr 1
    refine SortedMap.extGet fun number => ?_
    by_cases same : number = key.number <;> simp [SortedMap.getInsert, same]
  simp only [modify, update]
  cases held : s.read key with
  | error e => simp only [held]
  | ok found =>
    cases found with
    | none => simp only [held]
    | some value => simp only [readSet, overwritten]

theorem readErrorIff {s : Slots Carrier} {t : T} {key : SlotKey t} {e : Mismatch T} :
    s.read key = .error e ↔
      ∃ held, s.held.get? key.number = some held ∧ held.1 ≠ t ∧ e = ⟨key.number, held.1, t⟩ := by
  unfold read
  cases s.held.get? key.number with
  | none => simp
  | some held =>
    obtain ⟨stored, value⟩ := held
    by_cases same : stored = t
    · simp [same]
    · have flipped : t ≠ stored := fun eq => same eq.symm
      simp [same, flipped, eq_comm]

end Typed
end Slots
end BehaviorTree
