import BehaviorTree.Catalog
import BehaviorTree.Proofs.SortedMap

/-! The catalog over time. A class stays as it was registered, whatever is registered or made of it
afterwards, and what is refused leaves nothing behind. So a catalog holds what it started with and
what has been registered since, and an instance goes back to the class and its own overrides. -/
namespace BehaviorTree

variable {W : Type}

theorem Native.found (n : Native) :
    (Catalog.natives : Catalog W).get? n.name = some n.nodeClass := by
  have distinct : (all.map name).Nodup := by decide
  have among : n ∈ all := by cases n <;> decide
  refine SortedMap.getOfList ?_ (List.mem_map.mpr ⟨n, among, rfl⟩)
  rw [List.map_map]
  exact distinct

theorem Native.named (n : Native) : n.name ≠ "" := by cases n <;> decide

namespace Catalog

inductive Call (W : Type) where
  | registered (cls : NodeClass W)
  | refused (cls : NodeClass W) (error : CatalogError)
  | made (name : String) (overrides : Properties) (content : Instance W)
  | unknown (name : String) (overrides : Properties)

def Call.registered? : Call W → Option (NodeClass W)
  | registered cls => some cls
  | _ => none

inductive Starts : Catalog W → List (NodeClass W) → Prop where
  | empty : Starts .empty []
  | natives : Starts .natives (Native.all.map Native.nodeClass)

inductive Serves (first : Catalog W) : List (Call W) → Catalog W → Prop where
  | start : Serves first [] first
  | registered {calls c cls next} (before : Serves first calls c) (ok : c.register cls = .ok next) :
      Serves first (calls ++ [.registered cls]) next
  | refused {calls c cls error} (before : Serves first calls c)
      (bad : c.register cls = .error error) : Serves first (calls ++ [.refused cls error]) c
  | made {calls c name overrides content next} (before : Serves first calls c)
      (ok : c.instantiate name overrides = some (content, next)) :
      Serves first (calls ++ [.made name overrides content]) next
  | unknown {calls c name overrides} (before : Serves first calls c)
      (bad : c.instantiate name overrides = none) :
      Serves first (calls ++ [.unknown name overrides]) c

/- What a catalog started with, and what has been registered since. -/
def known (originals : List (NodeClass W)) (calls : List (Call W)) : List (NodeClass W) :=
  originals ++ calls.filterMap Call.registered?

structure Holds (c : Catalog W) (classes : List (NodeClass W)) : Prop where
  found : ∀ {name cls}, c.get? name = some cls ↔ cls ∈ classes ∧ cls.name = name
  distinct : (classes.map NodeClass.name).Nodup
  proper : ∀ cls ∈ classes, cls.name ≠ "" ∧ cls.behavior.isTickable = true

section
variable {c next : Catalog W} {classes : List (NodeClass W)} {cls : NodeClass W}

theorem registerExact (ok : c.register cls = .ok next) :
    cls.name ≠ "" ∧ cls.behavior.isTickable = true ∧ c.get? cls.name = none ∧
      next.classes = c.classes.insert cls.name cls := by
  unfold register at ok
  split at ok
  · contradiction
  · rename_i named
    split at ok
    · contradiction
    · rename_i tickable
      split at ok <;> cases ok
      rename_i fresh
      refine ⟨named, by simpa using tickable, ?_, rfl⟩
      simpa [SortedMap.contains, get?] using fresh

theorem instantiateExact {name overrides content}
    (ok : c.instantiate name overrides = some (content, next)) : next.classes = c.classes := by
  obtain ⟨_, _, same⟩ := Option.map_eq_some_iff.mp ok
  cases same
  rfl

theorem Holds.kept (holds : c.Holds classes) (same : next.classes = c.classes) :
    next.Holds classes where
  found := by
    unfold get?
    rw [same]
    exact holds.found
  distinct := holds.distinct
  proper := holds.proper

theorem Holds.registered (holds : c.Holds classes) (ok : c.register cls = .ok next) :
    next.Holds (classes ++ [cls]) := by
  obtain ⟨named, tickable, fresh, inserted⟩ := registerExact ok
  have absent {other} (mem : other ∈ classes) : other.name ≠ cls.name := by
    intro same
    cases fresh.symm.trans (holds.found.mpr ⟨mem, same⟩)
  constructor
  · intro name other
    simp only [get?, inserted, SortedMap.getInsert, List.mem_append, List.mem_singleton]
    split
    · rename_i here
      subst here
      constructor
      · intro same
        cases same
        exact ⟨.inr rfl, rfl⟩
      · rintro ⟨mem | rfl, same⟩
        · exact absurd same (absent mem)
        · rfl
    · rename_i away
      rw [show c.classes.get? name = some other ↔ _ from holds.found]
      refine ⟨fun both => ⟨.inl both.1, both.2⟩, ?_⟩
      rintro ⟨mem | rfl, same⟩
      · exact ⟨mem, same⟩
      · exact absurd same.symm away
  · rw [List.map_append, List.nodup_append]
    refine ⟨holds.distinct, List.nodup_singleton _, ?_⟩
    rintro name mem _ new rfl
    obtain ⟨other, early, rfl⟩ := List.mem_map.mp mem
    exact absent early (List.mem_singleton.mp new)
  · intro other mem
    rcases List.mem_append.mp mem with early | new
    · exact holds.proper other early
    · cases List.mem_singleton.mp new
      exact ⟨named, tickable⟩

theorem Starts.holds {originals : List (NodeClass W)} (starts : Starts c originals) :
    c.Holds originals := by
  cases starts with
  | empty => exact ⟨by simp [get?, Catalog.empty], .nil, by simp⟩
  | natives =>
    have names : (Native.all.map (Native.nodeClass (W := W))).map NodeClass.name =
        Native.all.map Native.name := List.map_map
    refine ⟨fun {name cls} => ⟨fun found => ?_, ?_⟩, ?_, ?_⟩
    · obtain ⟨n, mem, same⟩ := List.mem_map.mp (SortedMap.memOfList found)
      cases same
      exact ⟨List.mem_map_of_mem mem, rfl⟩
    · rintro ⟨mem, rfl⟩
      obtain ⟨n, _, rfl⟩ := List.mem_map.mp mem
      exact n.found
    · rw [names]
      decide
    · intro cls mem
      obtain ⟨n, _, rfl⟩ := List.mem_map.mp mem
      exact ⟨n.named, rfl⟩

structure Makes (cls : NodeClass W) (overrides : Properties) (content : Instance W) : Prop where
  className : content.className = cls.name
  kind : content.kind = cls.kind
  behavior : content.behavior = cls.behavior
  properties : ∀ key,
    content.properties.get? key = (overrides.get? key).or (cls.parameters.get? key)

theorem Holds.makes (holds : c.Holds classes) (known : cls ∈ classes) (overrides : Properties) :
    ∃ content next, c.instantiate cls.name overrides = some (content, next) ∧
      Makes cls overrides content := by
  unfold instantiate
  rw [holds.found.mpr ⟨known, rfl⟩]
  exact ⟨_, _, rfl, rfl, rfl, rfl, SortedMap.getInsertAllOver _ _⟩

theorem Holds.unknown (holds : c.Holds classes) {name : String}
    (absent : name ∉ classes.map NodeClass.name) (overrides : Properties) :
    c.instantiate name overrides = none := by
  cases found : c.get? name with
  | none =>
    rw [instantiate, found]
    rfl
  | some cls =>
    obtain ⟨known, same⟩ := holds.found.mp found
    exact absurd (List.mem_map.mpr ⟨cls, known, same⟩) absent

theorem Holds.entries (holds : c.Holds classes) {entry : String × NodeClass W}
    (mem : entry ∈ c.classes.toList) : entry.1 = entry.2.name :=
  (holds.found.mp (SortedMap.getIff.mpr mem)).2.symm

theorem Holds.listed (holds : c.Holds classes) : c.list.map NodeClass.name = c.classes.keys := by
  unfold list SortedMap.values SortedMap.keys
  rw [List.map_map]
  exact List.map_congr_left fun entry mem => (holds.entries mem).symm

theorem Holds.increasing (holds : c.Holds classes) :
    (c.list.map NodeClass.name).Pairwise (· < ·) := by
  rw [holds.listed, SortedMap.keys, List.pairwise_map]
  exact c.classes.increasing.imp fun less => compareOfLessAndEq_eq_lt.mp less

theorem Holds.perm (holds : c.Holds classes) : c.list.Perm classes := by
  have listed : (c.list.map NodeClass.name).Nodup :=
    holds.increasing.imp fun less => String.ne_of_lt less
  refine (List.perm_ext_iff_of_nodup listed.of_map holds.distinct.of_map).mpr fun cls => ?_
  constructor
  · intro mem
    obtain ⟨entry, held, rfl⟩ := List.mem_map.mp mem
    exact (holds.found.mp (SortedMap.getIff.mpr held)).1
  · intro known
    have held := SortedMap.getIff.mp (holds.found.mpr ⟨known, rfl⟩)
    exact List.mem_map.mpr ⟨_, held, rfl⟩

theorem Serves.holds {first : Catalog W} {originals calls} (starts : Starts first originals)
    (serves : Serves first calls c) : c.Holds (known originals calls) := by
  induction serves with
  | start => simpa [known] using starts.holds
  | registered _ ok ih =>
    rw [known, List.filterMap_append, ← List.append_assoc]
    exact ih.registered ok
  | refused _ _ ih | unknown _ _ ih =>
    rw [known, List.filterMap_append]
    simpa [List.filterMap_cons, Call.registered?, known] using ih
  | made _ ok ih =>
    rw [known, List.filterMap_append]
    simpa [List.filterMap_cons, Call.registered?, known] using ih.kept (instantiateExact ok)

theorem registeredClassesStand {first : Catalog W} {originals calls}
    (starts : Starts first originals) (serves : Serves first calls c) :
    (∀ {name cls}, c.get? name = some cls ↔ cls ∈ known originals calls ∧ cls.name = name) ∧
    ((known originals calls).map NodeClass.name).Nodup ∧
    (∀ cls ∈ known originals calls, cls.name ≠ "" ∧ cls.behavior.isTickable = true ∧
      ∀ overrides, ∃ content next, c.instantiate cls.name overrides = some (content, next) ∧
        Makes cls overrides content) ∧
    (∀ name ∉ (known originals calls).map NodeClass.name,
      ∀ overrides, c.instantiate name overrides = none) ∧
    c.list.Perm (known originals calls) ∧ (c.list.map NodeClass.name).Pairwise (· < ·) := by
  have holds := serves.holds starts
  refine ⟨holds.found, holds.distinct, fun cls mem => ?_, fun _ absent => holds.unknown absent,
    holds.perm, holds.increasing⟩
  obtain ⟨named, tickable⟩ := holds.proper cls mem
  exact ⟨named, tickable, holds.makes mem⟩

def greeter (mood : Json) : NodeClass Unit where
  name := "Greeter"
  kind := .leaf
  parameters := .ofList [("mood", mood)]
  behavior := { tick := some (.ofStatus .success) }

theorem registeredClassesStandGreeter :
    ∃ (calls : List (Call Unit)) (c : Catalog Unit), Serves .natives calls c ∧
      .refused (greeter .null) (.duplicate "Greeter") ∈ calls ∧
      ∃ content next,
        c.instantiate "Greeter" (.ofList [("name", .text "Ann")]) = some (content, next) ∧
        content.properties.get? "mood" = some (.text "fine") ∧
        content.properties.get? "name" = some (.text "Ann") := by
  obtain ⟨first, made, serves⟩ : ∃ (c : Catalog Unit) (content : Instance Unit), Serves .natives
      [.registered (greeter (.text "fine")), .refused (greeter .null) (.duplicate "Greeter"),
        .made "Greeter" (.ofList [("mood", .null)]) content] c :=
    ⟨_, _, .made (.refused (.registered .start rfl) rfl) rfl⟩
  obtain ⟨_, _, each, _⟩ := registeredClassesStand .natives serves
  obtain ⟨_, _, makes⟩ := each (greeter (.text "fine"))
    (List.mem_append_right _ (List.mem_cons_self ..))
  obtain ⟨content, next, ok, makes⟩ := makes (.ofList [("name", .text "Ann")])
  exact ⟨_, first, serves, .tail _ (.head _), content, next, ok, makes.properties _,
    makes.properties _⟩

end

end Catalog
end BehaviorTree
