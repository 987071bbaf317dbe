import BehaviorTree.Host
import Mathlib.Data.List.Nodup
import Mathlib.Data.List.Perm.Subperm

/-! Generated names. They are all different, so among as many of them as there are trees and one
more there is one that no tree has. -/
namespace BehaviorTree

variable {W : Type}

theorem SortedMap.memKeys {κ ν : Type*} [Ord κ] [Std.TransOrd κ] [Std.LawfulEqOrd κ]
    {m : SortedMap κ ν} {key : κ} (known : m.contains key = true) : key ∈ m.keys := by
  obtain ⟨value, found⟩ := Option.isSome_iff_exists.mp known
  exact List.mem_map.mpr ⟨(key, value), SortedMap.getIff.mp found, rfl⟩

theorem numeralInjective {a b : Nat} (same : Nat.toDigits 10 a = Nat.toDigits 10 b) : a = b := by
  have numbers := congrArg (Nat.ofDigitChars 10 · 0) same
  simpa only [Nat.ofDigitChars_ten_toDigits] using numbers

namespace Host

def numberedName (number : Nat) : TreeId := ⟨"tree-" ++ toString number⟩

theorem generatedNumbered (number : UInt64) : generatedName number = numberedName number.toNat := rfl

theorem numberedNameInjective : Function.Injective numberedName := by
  intro a b same
  have digits : "tree-" ++ toString a = "tree-" ++ toString b := congrArg TreeId.text same
  have shown : a.repr = b.repr := (String.append_right_inj _).mp digits
  rw [Nat.repr_eq_ofList_toDigits, Nat.repr_eq_ofList_toDigits, String.ofList_inj] at shown
  exact numeralInjective shown

theorem generatedNameInjective {a b : UInt64} (same : generatedName a = generatedName b) :
    a = b :=
  UInt64.toNat_inj.mp (numberedNameInjective same)

-- The names of consecutive numbers, as many as there are numbers or fewer.
theorem generatedNamesNodup {first : UInt64} {count : Nat} (few : count ≤ UInt64.size) :
    ((List.range count).map fun i => generatedName (first + UInt64.ofNat i)).Nodup := by
  refine List.Nodup.map_on ?_ List.nodup_range
  intro i below j under same
  have shifted : UInt64.ofNat i = UInt64.ofNat j :=
    (UInt64.add_right_inj first).mp (generatedNameInjective same)
  have values := congrArg UInt64.toNat shifted
  rw [List.mem_range] at below under
  rwa [UInt64.toNat_ofNat_of_lt' (by omega), UInt64.toNat_ofNat_of_lt' (by omega)] at values

theorem someGeneratedNameFree {trees : SortedMap TreeId (Tree W)} (few : trees.size < UInt64.size)
    (first : UInt64) :
    ∃ i ≤ trees.size, trees.contains (generatedName (first + UInt64.ofNat i)) = false := by
  by_contra taken
  have all : ((List.range (trees.size + 1)).map fun i =>
      generatedName (first + UInt64.ofNat i)) ⊆ trees.keys := by
    intro name mem
    obtain ⟨i, below, rfl⟩ := List.mem_map.mp mem
    refine SortedMap.memKeys (Bool.not_eq_false _ ▸ fun free => taken ⟨i, ?_, free⟩)
    exact Nat.lt_succ_iff.mp (List.mem_range.mp below)
  have fits := (List.subperm_of_subset (generatedNamesNodup few) all).length_le
  rw [List.length_map, List.length_range, SortedMap.keys, List.length_map] at fits
  exact absurd fits (Nat.not_succ_le_self _)

theorem freeNumberFree {trees : SortedMap TreeId (Tree W)} {trials i : Nat} {last : UInt64}
    (reached : i ≤ trials)
    (free : trees.contains (generatedName (last + 1 + UInt64.ofNat i)) = false) :
    trees.contains (generatedName (freeNumber trees trials last)) = false := by
  induction trials generalizing last i with
  | zero =>
    cases Nat.le_zero.mp reached
    simpa [freeNumber] using free
  | succ trials ih =>
    rw [freeNumber]
    split
    · rename_i taken
      cases i with
      | zero =>
        simp [taken] at free
      | succ i =>
        have moved : last + 1 + UInt64.ofNat (i + 1) = last + 1 + 1 + UInt64.ofNat i := by
          rw [UInt64.ofNat_add, UInt64.add_comm (UInt64.ofNat i), ← UInt64.add_assoc]
          rfl
        exact ih (Nat.le_of_succ_le_succ reached) (moved ▸ free)
    · rename_i free
      exact Bool.eq_false_iff.mpr free

theorem freeNumberExact {trees : SortedMap TreeId (Tree W)} (few : trees.size < UInt64.size)
    (last : UInt64) :
    trees.contains (generatedName (freeNumber trees trees.size last)) = false := by
  obtain ⟨i, reached, free⟩ := someGeneratedNameFree few (last + 1)
  exact freeNumberFree reached free

end Host
end BehaviorTree
