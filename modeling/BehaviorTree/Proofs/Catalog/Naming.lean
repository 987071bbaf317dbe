import BehaviorTree.Proofs.Catalog
import BehaviorTree.Proofs.Host.Operations

/-! The names of instances. Class names are any texts, with dashes and digits of their own, but the
number of an instance stands behind the last dash of its name, and no two instances of a catalog
have one number. So no two have one name, whatever their classes are called. -/
namespace BehaviorTree

variable {W : Type}

-- What is behind the last mark is all that is behind a mark.
theorem lastPartSame {α : Type*} {mark : α} {front back front' back' : List α}
    (plain : mark ∉ back) (plain' : mark ∉ back')
    (same : front ++ mark :: back = front' ++ mark :: back') : front = front' ∧ back = back' := by
  induction front generalizing front' with
  | nil =>
    cases front' with
    | nil => exact ⟨rfl, (List.cons.inj same).2⟩
    | cons first rest =>
      have tail : back = rest ++ mark :: back' := (List.cons.inj same).2
      exact absurd (tail ▸ List.mem_append_right _ List.mem_cons_self) plain
  | cons first rest ih =>
    cases front' with
    | nil =>
      have tail : rest ++ mark :: back = back' := (List.cons.inj same).2
      exact absurd (tail ▸ List.mem_append_right _ List.mem_cons_self) plain'
    | cons first' rest' =>
      obtain ⟨rfl, tails⟩ := List.cons.inj same
      obtain ⟨rfl, backs⟩ := ih tails
      exact ⟨rfl, backs⟩

theorem numeralUndashed (number : Nat) : '-' ∉ Nat.toDigits 10 number := by
  intro mem
  have digit := Nat.isDigit_of_mem_toDigits (by decide) (by decide) mem
  contradiction

namespace Catalog

def instanceName (name : String) (number : UInt64) : String := name ++ "-" ++ toString number

theorem instanceNameInjective {name other : String} {number number' : UInt64}
    (same : instanceName name number = instanceName other number') :
    name = other ∧ number = number' := by
  have shown : name.toList ++ '-' :: Nat.toDigits 10 number.toNat =
      other.toList ++ '-' :: Nat.toDigits 10 number'.toNat := by
    have texts : name ++ "-" ++ number.toNat.repr = other ++ "-" ++ number'.toNat.repr := same
    simpa using congrArg String.toList texts
  obtain ⟨names, numerals⟩ := lastPartSame (numeralUndashed _) (numeralUndashed _) shown
  exact ⟨String.toList_inj.mp names, UInt64.toNat_inj.mp (numeralInjective numerals)⟩

def Call.made? : Call W → Option (String × Instance W)
  | made name _ content => some (name, content)
  | _ => none

section
variable {first c : Catalog W} {calls : List (Call W)}

theorem registerIssued {cls : NodeClass W} {next : Catalog W} (ok : c.register cls = .ok next) :
    next.issued = c.issued := by
  unfold register at ok
  split at ok
  · contradiction
  · split at ok
    · contradiction
    · split at ok <;> cases ok
      rfl

theorem instantiateIssued {name overrides content} {next : Catalog W}
    (ok : c.instantiate name overrides = some (content, next)) :
    next.issued = c.issued + 1 ∧ content.name = instanceName name (c.issued + 1) := by
  obtain ⟨_, _, same⟩ := Option.map_eq_some_iff.mp ok
  cases same
  exact ⟨rfl, rfl⟩

structure Numbered (first c : Catalog W) (made : List (String × Instance W)) : Prop where
  issued : c.issued = first.issued + UInt64.ofNat made.length
  names : ∀ {place name content}, made[place]? = some (name, content) →
    content.name = instanceName name (first.issued + UInt64.ofNat (place + 1))

theorem Numbered.kept {made : List (String × Instance W)} {next : Catalog W}
    (numbered : Numbered first c made) (same : next.issued = c.issued) :
    Numbered first next made where
  issued := same.trans numbered.issued
  names := numbered.names

theorem Numbered.next {made : List (String × Instance W)} {name overrides content next}
    (numbered : Numbered first c made)
    (ok : c.instantiate name overrides = some (content, next)) :
    Numbered first next (made ++ [(name, content)]) := by
  obtain ⟨issued, named⟩ := instantiateIssued ok
  have number : c.issued + 1 = first.issued + UInt64.ofNat (made.length + 1) := by
    rw [numbered.issued, UInt64.add_assoc, UInt64.ofNat_add]
    rfl
  constructor
  · rw [issued, number, List.length_append, List.length_singleton]
  · intro place name' content' found
    rw [List.getElem?_append] at found
    split at found
    · exact numbered.names found
    · rename_i beyond
      obtain ⟨here, same⟩ := List.getElem?_eq_some_iff.mp found
      have last : place = made.length := by
        rw [List.length_singleton] at here
        omega
      subst last
      simp only [Nat.sub_self, List.getElem_cons_zero] at same
      cases same
      rw [named, number]

theorem Serves.numbered (serves : Serves first calls c) :
    Numbered first c (calls.filterMap Call.made?) := by
  induction serves with
  | start => exact ⟨by simp, by simp⟩
  | registered _ ok ih =>
    rw [List.filterMap_append]
    simpa [List.filterMap_cons, Call.made?] using ih.kept (registerIssued ok)
  | refused _ _ ih | unknown _ _ ih =>
    rw [List.filterMap_append]
    simpa [List.filterMap_cons, Call.made?] using ih
  | made _ ok ih =>
    rw [List.filterMap_append]
    exact ih.next ok

theorem Numbered.distinct {made : List (String × Instance W)} (numbered : Numbered first c made)
    (few : made.length < UInt64.size) : (made.map fun content => content.2.name).Nodup := by
  rw [List.Nodup, List.pairwise_map, List.pairwise_iff_getElem]
  intro i j below under less same
  have names := (numbered.names (List.getElem?_eq_getElem below)).symm.trans
    (same.trans (numbered.names (List.getElem?_eq_getElem under)))
  have shifted := (UInt64.add_right_inj first.issued).mp (instanceNameInjective names).2
  have places := congrArg UInt64.toNat shifted
  rw [UInt64.toNat_ofNat_of_lt' (by omega), UInt64.toNat_ofNat_of_lt' (by omega)] at places
  omega

theorem instantiateMissing {name : String} {overrides : Properties}
    (unknown : c.instantiate name overrides = none) :
    instantiateInPlace name overrides c = some (.error (), c) := by
  have settled := (instantiateClean name overrides).settled (instantiateYields name overrides c)
  rw [unknown] at settled
  exact settled

theorem instanceNamesDistinct (serves : Serves first calls c)
    (few : (calls.filterMap Call.made?).length < UInt64.size) :
    ((calls.filterMap Call.made?).map fun made => made.2.name).Nodup ∧
    (∀ {place name content}, (calls.filterMap Call.made?)[place]? = some (name, content) →
      content.name = instanceName name (first.issued + UInt64.ofNat (place + 1))) ∧
    ∀ name overrides, c.instantiate name overrides = none →
      instantiateInPlace name overrides c = some (.error (), c) :=
  ⟨serves.numbered.distinct few, serves.numbered.names, fun _ _ => instantiateMissing⟩

end

def plainClass (name : String) : NodeClass Unit where
  name := name
  kind := .leaf
  parameters := .empty
  behavior := { tick := some (.ofStatus .success) }

-- The name of one class is the name that an instance of the other could have.
theorem instanceNamesDistinctDashed :
    ∃ (calls : List (Call Unit)) (c : Catalog Unit), Serves .empty calls c ∧
      .unknown "A-1-1" .empty ∈ calls ∧
      (calls.filterMap Call.made?).map (fun made => made.2.name) = ["A-1-1", "A-2", "A-1-3"] ∧
      ["A-1-1", "A-2", "A-1-3"].Nodup := by
  obtain ⟨c, x, y, z, serves, names⟩ : ∃ (c : Catalog Unit) (x y z : Instance Unit),
      Serves .empty
        [.registered (plainClass "A"), .registered (plainClass "A-1"), .made "A-1" .empty x,
          .unknown "A-1-1" .empty, .made "A" .empty y, .made "A-1" .empty z] c ∧
      [x.name, y.name, z.name] = ["A-1-1", "A-2", "A-1-3"] :=
    ⟨_, _, _, _, .made (.made (.unknown (.made (.registered (.registered .start rfl) rfl) rfl) rfl)
      rfl) rfl, rfl⟩
  have few : 3 < UInt64.size := by decide
  have distinct := (instanceNamesDistinct serves few).1
  refine ⟨_, c, serves, by simp, names, ?_⟩
  rw [← names]
  exact distinct

end Catalog
end BehaviorTree
