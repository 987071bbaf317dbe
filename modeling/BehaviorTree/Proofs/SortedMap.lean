import BehaviorTree.SortedMap
import Mathlib.Data.List.Nodup
import Mathlib.Data.List.Perm.Subperm

/-! Sorted maps and the lists they are made of. Where no key stands twice in a list, look-up goes by
membership, in whatever order the list is; of two values of one key the map keeps the later. -/
namespace BehaviorTree.SortedMap

namespace Entries
variable {κ ν : Type*} [Ord κ] [Std.LawfulEqOrd κ] {key : κ}

theorem findDistinct {value : ν} {entries : List (κ × ν)}
    (distinct : (entries.map Prod.fst).Nodup) :
    find? key entries = some value ↔ (key, value) ∈ entries := by
  induction entries with
  | nil => simp [find?]
  | cons first rest ih =>
    obtain ⟨k, v⟩ := first
    rw [List.map_cons, List.nodup_cons] at distinct
    rw [find?, List.mem_cons, Prod.mk.injEq]
    split
    · rename_i same
      cases Std.LawfulEqCmp.eq_of_compare same
      have away : (key, value) ∉ rest := fun mem => distinct.1 (List.mem_map.mpr ⟨_, mem, rfl⟩)
      simp [away, eq_comm]
    · rename_i other
      have away : key ≠ k := fun same => other (by rw [same]; exact Std.ReflCmp.compare_self)
      simp [away, ih distinct.2]

theorem findPerm {entries entries' : List (κ × ν)} (perm : entries.Perm entries')
    (distinct : (entries.map Prod.fst).Nodup) : find? key entries = find? key entries' := by
  refine Option.ext fun value => ?_
  rw [findDistinct distinct, findDistinct ((perm.map Prod.fst).nodup_iff.mp distinct),
    perm.mem_iff]

theorem findMissing {entries : List (κ × ν)} (missing : key ∉ entries.map Prod.fst) :
    find? key entries = none := by
  induction entries with
  | nil => rfl
  | cons first rest ih =>
    rw [List.map_cons, List.mem_cons, not_or] at missing
    have other : compare key first.1 ≠ .eq := fun same =>
      missing.1 (Std.LawfulEqCmp.eq_of_compare same)
    rw [find?, if_neg other, ih missing.2]

theorem findAside {k : κ} {v : ν} {entries : List (κ × ν)} (away : key ≠ k) :
    find? key ((k, v) :: entries) = find? key entries := by
  have other : compare key k ≠ .eq := fun same => away (Std.LawfulEqCmp.eq_of_compare same)
  rw [find?, if_neg other]

end Entries

variable {κ ν : Type*} [Ord κ] [Std.LawfulEqOrd κ]

theorem keysDistinct (m : SortedMap κ ν) : m.keys.Nodup := by
  rw [keys, List.Nodup, List.pairwise_map]
  refine m.increasing.imp fun {first second} less same => ?_
  have equal : compare first.1 second.1 = .eq := same ▸ Std.ReflCmp.compare_self
  cases less.symm.trans equal

variable [Std.TransOrd κ]

theorem memInsertAll {m : SortedMap κ ν} {pairs : List (κ × ν)} {pair : κ × ν}
    (mem : pair ∈ (m.insertAll pairs).toList) : pair ∈ pairs ∨ pair ∈ m.toList := by
  induction pairs generalizing m with
  | nil => exact .inr mem
  | cons first rest ih =>
    rcases ih (m := m.insert first.1 first.2) mem with later | before
    · exact .inl (List.mem_cons_of_mem _ later)
    · exact (Entries.memInsert before).imp_left fun same => List.mem_cons.mpr (.inl same)

theorem memOfList {pairs : List (κ × ν)} {key value}
    (found : (ofList pairs).get? key = some value) : (key, value) ∈ pairs :=
  (memInsertAll (getIff.mp found)).resolve_right (by simp [empty, toList])

variable [DecidableEq κ]

theorem getInsertAll {m : SortedMap κ ν} {pairs : List (κ × ν)} {key : κ}
    (absent : key ∉ pairs.map Prod.fst) : (m.insertAll pairs).get? key = m.get? key := by
  induction pairs generalizing m with
  | nil => rfl
  | cons first rest ih =>
    rw [List.map_cons, List.mem_cons, not_or] at absent
    have later : ((m.insert first.1 first.2).insertAll rest).get? key =
        (m.insert first.1 first.2).get? key := ih absent.2
    exact later.trans ((getInsert _ _ _ _).trans (if_neg absent.1))

theorem getInsertAllHeld {m : SortedMap κ ν} {pairs : List (κ × ν)} {key value}
    (distinct : (pairs.map Prod.fst).Nodup) (mem : (key, value) ∈ pairs) :
    (m.insertAll pairs).get? key = some value := by
  obtain ⟨before, after, rfl⟩ := List.append_of_mem mem
  rw [List.map_append, List.map_cons] at distinct
  have absent : key ∉ after.map Prod.fst :=
    (List.nodup_cons.mp (List.nodup_append.mp distinct).2.1).1
  have later : (((m.insertAll before).insert key value).insertAll after).get? key =
      ((m.insertAll before).insert key value).get? key := getInsertAll absent
  rw [insertAllAppend]
  exact later.trans ((getInsert _ _ _ _).trans (if_pos rfl))

theorem getOfList {pairs : List (κ × ν)} {key value} (distinct : (pairs.map Prod.fst).Nodup)
    (mem : (key, value) ∈ pairs) : (ofList pairs).get? key = some value :=
  getInsertAllHeld distinct mem

theorem getInsertAllOver (m other : SortedMap κ ν) (key : κ) :
    (m.insertAll other.toList).get? key = (other.get? key).or (m.get? key) := by
  cases found : other.get? key with
  | none =>
    refine getInsertAll fun mem => ?_
    obtain ⟨⟨_, value⟩, held, rfl⟩ := List.mem_map.mp mem
    cases found.symm.trans (getIff.mpr held)
  | some value => exact getInsertAllHeld other.keysDistinct (getIff.mp found)

theorem insertFound {m : SortedMap κ ν} {key : κ} {value : ν} (found : m.get? key = some value) :
    m.insert key value = m := by
  refine extGet fun other => ?_
  rw [getInsert]
  split
  · rename_i same
    rw [same, found]
  · rfl

theorem eraseMissing {m : SortedMap κ ν} {key : κ} (missing : m.get? key = none) :
    m.erase key = m := by
  refine extGet fun other => ?_
  rw [getErase]
  split
  · rename_i same
    rw [same, missing]
  · rfl

theorem ofListIncreasing {entries : List (κ × ν)}
    (increasing : entries.Pairwise fun a b => compare a.1 b.1 = .lt) :
    ofList entries = ⟨entries, increasing⟩ := by
  refine extGet fun key => (getInsertAllOver empty ⟨entries, increasing⟩ key).trans ?_
  rw [getEmpty, Option.or_none]

end BehaviorTree.SortedMap
