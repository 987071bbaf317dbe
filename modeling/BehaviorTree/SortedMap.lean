/-!
Finite maps kept as a list in strictly increasing key order. The order is part of
the type, so two maps with the same look-ups are equal (`extGet`) and a listing
needs no sorting. Look-up, insertion and erasure are linear in the number of keys.
-/
namespace BehaviorTree

universe u v w

structure SortedMap (κ : Type u) (ν : Type v) [Ord κ] where
  entries : List (κ × ν)
  increasing : entries.Pairwise fun a b => compare a.1 b.1 = .lt

namespace SortedMap
variable {κ : Type u} {ν : Type v} [Ord κ]

def empty : SortedMap κ ν := ⟨[], .nil⟩

instance : EmptyCollection (SortedMap κ ν) := ⟨empty⟩
instance : Inhabited (SortedMap κ ν) := ⟨empty⟩

instance [DecidableEq κ] [DecidableEq ν] : DecidableEq (SortedMap κ ν) := fun a b =>
  if h : a.entries = b.entries then
    isTrue (by cases a; cases b; cases h; rfl)
  else
    isFalse fun e => h (e ▸ rfl)

def toList (m : SortedMap κ ν) : List (κ × ν) := m.entries

def keys (m : SortedMap κ ν) : List κ := m.entries.map Prod.fst

def values (m : SortedMap κ ν) : List ν := m.entries.map Prod.snd

def size (m : SortedMap κ ν) : Nat := m.entries.length

def isEmpty (m : SortedMap κ ν) : Bool := m.entries.isEmpty

namespace Entries

def find? (key : κ) : List (κ × ν) → Option ν
  | [] => none
  | (k, v) :: rest => if compare key k = .eq then some v else find? key rest

def insert (key : κ) (value : ν) : List (κ × ν) → List (κ × ν)
  | [] => [(key, value)]
  | (k, v) :: rest =>
    match compare key k with
    | .lt => (key, value) :: (k, v) :: rest
    | .eq => (key, value) :: rest
    | .gt => (k, v) :: insert key value rest

theorem memInsert {key : κ} {value : ν} {entries : List (κ × ν)} {e : κ × ν}
    (mem : e ∈ insert key value entries) : e = (key, value) ∨ e ∈ entries := by
  induction entries with
  | nil => simpa [insert] using mem
  | cons head rest ih =>
    simp only [insert] at mem
    split at mem
    · simpa using mem
    · simp only [List.mem_cons] at mem ⊢
      exact mem.imp_right .inr
    · simp only [List.mem_cons] at mem ⊢
      rcases mem with h | h
      · exact .inr (.inl h)
      · exact (ih h).imp_right .inr

theorem insertIncreasing [Std.TransOrd κ] [Std.LawfulEqOrd κ] {key : κ} {value : ν}
    {entries : List (κ × ν)} (h : entries.Pairwise fun a b => compare a.1 b.1 = .lt) :
    (insert key value entries).Pairwise fun a b => compare a.1 b.1 = .lt := by
  induction entries with
  | nil => simp [insert]
  | cons head rest ih =>
    obtain ⟨before, tail⟩ := List.pairwise_cons.1 h
    simp only [insert]
    split
    case h_1 less =>
      refine List.pairwise_cons.2 ⟨fun e mem => ?_, h⟩
      rcases List.mem_cons.1 mem with rfl | mem
      · exact less
      · exact Std.TransCmp.lt_trans less (before e mem)
    case h_2 same =>
      refine List.pairwise_cons.2 ⟨fun e mem => ?_, tail⟩
      have := before e mem
      rwa [← Std.LawfulEqCmp.eq_of_compare same] at this
    case h_3 greater =>
      refine List.pairwise_cons.2 ⟨fun e mem => ?_, ih tail⟩
      rcases memInsert mem with rfl | mem
      · exact Std.OrientedCmp.gt_iff_lt.1 greater
      · exact before e mem

theorem findInsert [Std.TransOrd κ] [Std.LawfulEqOrd κ] [DecidableEq κ] (key other : κ)
    (value : ν) (entries : List (κ × ν)) :
    find? other (insert key value entries) =
      if other = key then some value else find? other entries := by
  induction entries with
  | nil => simp [insert, find?]
  | cons head rest ih =>
    obtain ⟨k, v⟩ := head
    simp only [insert]
    split
    case h_1 less => simp [find?]
    case h_2 same =>
      cases Std.LawfulEqCmp.eq_of_compare same
      by_cases eq : other = key <;> simp [find?, eq]
    case h_3 greater =>
      simp only [find?, ih]
      by_cases eq : other = key
      · subst eq
        simp [greater]
      · simp [eq]

theorem findFilter [DecidableEq κ] [Std.LawfulEqOrd κ] (key other : κ)
    (entries : List (κ × ν)) :
    find? other (entries.filter fun e => compare key e.1 ≠ .eq) =
      if other = key then none else find? other entries := by
  induction entries with
  | nil => simp [find?]
  | cons head rest ih =>
    obtain ⟨k, v⟩ := head
    by_cases same : compare key k = .eq
    · cases Std.LawfulEqCmp.eq_of_compare same
      rw [List.filter_cons_of_neg (by simp)]
      rw [ih]
      by_cases eq : other = key <;> simp [find?, eq]
    · rw [List.filter_cons_of_pos (by simpa using same)]
      simp only [find?, ih]
      by_cases eq : other = key
      · subst eq
        simp [same]
      · simp [eq]

theorem findIff [Std.TransOrd κ] [Std.LawfulEqOrd κ] {key : κ} {value : ν}
    {entries : List (κ × ν)} (h : entries.Pairwise fun a b => compare a.1 b.1 = .lt) :
    find? key entries = some value ↔ (key, value) ∈ entries := by
  induction entries with
  | nil => simp [find?]
  | cons head rest ih =>
    obtain ⟨k, v⟩ := head
    obtain ⟨before, tail⟩ := List.pairwise_cons.1 h
    by_cases same : compare key k = .eq
    · cases Std.LawfulEqCmp.eq_of_compare same
      have absent : (key, value) ∉ rest := fun mem => by
        have := before _ mem
        simp at this
      simp [find?, absent, eq_comm]
    · have ne : key ≠ k := fun eq => same (by simp [eq])
      simp [find?, same, ih tail, ne]

theorem tailWithin [Std.LawfulEqOrd κ] {x : κ × ν} {xs ys : List (κ × ν)}
    (before : ∀ e ∈ xs, compare x.1 e.1 = .lt) (within : ∀ e ∈ x :: xs, e ∈ x :: ys) {e}
    (mem : e ∈ xs) : e ∈ ys := by
  rcases List.mem_cons.1 (within e (List.mem_cons_of_mem x mem)) with rfl | inside
  · have loop := before e mem
    simp at loop
  · exact inside

end Entries

def get? (m : SortedMap κ ν) (key : κ) : Option ν := Entries.find? key m.entries

def contains (m : SortedMap κ ν) (key : κ) : Bool := (m.get? key).isSome

def insert [Std.TransOrd κ] [Std.LawfulEqOrd κ] (m : SortedMap κ ν) (key : κ) (value : ν) :
    SortedMap κ ν :=
  ⟨Entries.insert key value m.entries, Entries.insertIncreasing m.increasing⟩

def erase (m : SortedMap κ ν) (key : κ) : SortedMap κ ν :=
  ⟨m.entries.filter fun e => compare key e.1 ≠ .eq, m.increasing.filter _⟩

/-- Later pairs win over earlier ones of the same key. -/
def insertAll [Std.TransOrd κ] [Std.LawfulEqOrd κ] (m : SortedMap κ ν) (pairs : List (κ × ν)) :
    SortedMap κ ν :=
  pairs.foldl (fun m pair => m.insert pair.1 pair.2) m

def ofList [Std.TransOrd κ] [Std.LawfulEqOrd κ] (pairs : List (κ × ν)) : SortedMap κ ν :=
  insertAll empty pairs

def mapValues {μ : Type w} (f : ν → μ) (m : SortedMap κ ν) : SortedMap κ μ :=
  ⟨m.entries.map fun e => (e.1, f e.2), List.pairwise_map.2 m.increasing⟩

@[simp] theorem getEmpty (key : κ) : (empty : SortedMap κ ν).get? key = none := rfl

theorem getMapValues {μ : Type w} (f : ν → μ) (m : SortedMap κ ν) (key : κ) :
    (m.mapValues f).get? key = (m.get? key).map f := by
  obtain ⟨entries, _⟩ := m
  simp only [get?, mapValues]
  induction entries with
  | nil => rfl
  | cons head rest ih =>
    rename_i h
    have := ih (List.pairwise_cons.1 h).2
    simp only [List.map_cons, Entries.find?]
    split <;> simp_all

theorem getErase [Std.LawfulEqOrd κ] [DecidableEq κ] (m : SortedMap κ ν) (key other : κ) :
    (m.erase key).get? other = if other = key then none else m.get? other :=
  Entries.findFilter key other m.entries

section Laws
variable [Std.TransOrd κ] [Std.LawfulEqOrd κ]

theorem getInsert [DecidableEq κ] (m : SortedMap κ ν) (key other : κ) (value : ν) :
    (m.insert key value).get? other = if other = key then some value else m.get? other :=
  Entries.findInsert key other value m.entries

theorem getIff {m : SortedMap κ ν} {key : κ} {value : ν} :
    m.get? key = some value ↔ (key, value) ∈ m.toList :=
  Entries.findIff m.increasing

theorem insertAllAppend (m : SortedMap κ ν) (left right : List (κ × ν)) :
    m.insertAll (left ++ right) = (m.insertAll left).insertAll right := by
  simp [insertAll]

theorem extGet {a b : SortedMap κ ν} (h : ∀ key, a.get? key = b.get? key) : a = b := by
  have same : ∀ e, e ∈ a.entries ↔ e ∈ b.entries := fun ⟨k, v⟩ => by
    have := h k
    rw [← Entries.findIff a.increasing, ← Entries.findIff b.increasing]
    simp only [get?] at this
    rw [this]
  obtain ⟨xs, hx⟩ := a
  obtain ⟨ys, hy⟩ := b
  congr 1
  clear h
  simp only at same
  induction xs generalizing ys with
  | nil =>
    cases ys with
    | nil => rfl
    | cons y ys => exact absurd ((same y).2 (by simp)) (by simp)
  | cons x xs ih =>
    cases ys with
    | nil => exact absurd ((same x).1 (by simp)) (by simp)
    | cons y ys =>
      obtain ⟨beforeX, tailX⟩ := List.pairwise_cons.1 hx
      obtain ⟨beforeY, tailY⟩ := List.pairwise_cons.1 hy
      have heads : x = y := by
        rcases List.mem_cons.1 ((same x).1 (by simp)) with eq | inY
        · exact eq
        · rcases List.mem_cons.1 ((same y).2 (by simp)) with eq | inX
          · exact eq.symm
          · have loop := Std.TransCmp.lt_trans (beforeX y inX) (beforeY x inY)
            simp at loop
      subst heads
      have tails : ∀ e, e ∈ xs ↔ e ∈ ys := fun e =>
        ⟨Entries.tailWithin beforeX fun e => (same e).1,
          Entries.tailWithin beforeY fun e => (same e).2⟩
      rw [ih tailX ys tailY tails]

end Laws
end SortedMap
end BehaviorTree
