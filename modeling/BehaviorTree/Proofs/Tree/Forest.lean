import BehaviorTree.Tree
import Mathlib.Data.List.Nodup
import Mathlib.Logic.Relation

/-! The trees that edits build are forests: the links of both sides agree, and no node
lies under itself. The number of added nodes is not bounded here, since a look-up finds
none beyond the last word. The cycle check of an attachment is exact on a forest. -/
namespace BehaviorTree.Tree
open Relation

variable {W : Type} {t changed : Tree W}

inductive Built : Tree W → Prop where
  | empty (id : TreeId) (arity : Arity) : Built { id, arity }
  | edited {t changed : Tree W} {edit answer} (built : Built t)
      (ok : t.edit edit = .ok (answer, changed)) : Built changed

def parent? (t : Tree W) (id : NodeId) : Option NodeId := (t.node? id).bind Node.parent

def Under (t : Tree W) (child parent : NodeId) : Prop := t.parent? child = some parent

structure Forest (t : Tree W) : Prop where
  numbered : ∀ {id node}, t.node? id = some node → node.id = id
  linked : ∀ {parent node child}, t.node? parent = some node →
    (child ∈ node.children ↔ t.Under child parent)
  known : ∀ {child parent}, t.Under child parent → (t.node? parent).isSome
  acyclic : ∀ id, ¬ TransGen t.Under id id
  distinct : ∀ {id node}, t.node? id = some node → node.children.Nodup
  rooted : ∀ {id}, t.root = some id → ∃ node, t.node? id = some node ∧ node.parent = none
  fitting : t.arity = .strict → ∀ {id node bound}, t.node? id = some node →
    node.kind.maxChildren = some bound → node.children.length ≤ bound

theorem lineageSucc (t : Tree W) (fuel : Nat) (id : NodeId) :
    t.lineage (fuel + 1) id = id :: (t.parent? id).elim [] (t.lineage fuel) := by
  rw [lineage, parent?]
  cases (t.node? id).bind Node.parent <;> rfl

theorem aboveOfLineage {fuel id above} (mem : above ∈ t.lineage fuel id) :
    ReflTransGen t.Under id above := by
  induction fuel generalizing id with
  | zero => simp [lineage] at mem
  | succ fuel ih =>
    rw [lineageSucc] at mem
    rcases List.mem_cons.mp mem with rfl | mem
    · exact .refl
    · cases h : t.parent? id with
      | none => simp [h] at mem
      | some parent => exact .head h (ih (by simpa [h] using mem))

theorem lineageOfAbove {id above} (reach : ReflTransGen t.Under id above) :
    ∃ fuel, above ∈ t.lineage fuel id := by
  induction reach using ReflTransGen.head_induction_on with
  | refl => exact ⟨1, by simp [lineageSucc]⟩
  | head under _ ih =>
    obtain ⟨fuel, mem⟩ := ih
    refine ⟨fuel + 1, ?_⟩
    rw [lineageSucc, under]
    exact List.mem_cons_of_mem _ mem

theorem lineageTake (t : Tree W) {n m : Nat} (le : n ≤ m) (id : NodeId) :
    (t.lineage m id).take n = t.lineage n id := by
  induction n generalizing m id with
  | zero => simp [lineage]
  | succ n ih =>
    obtain ⟨m, rfl⟩ : ∃ k, m = k + 1 := ⟨m - 1, by omega⟩
    rw [lineageSucc, lineageSucc, List.take_succ_cons]
    cases t.parent? id with
    | none => simp
    | some parent => simp [ih (show n ≤ m by omega)]

theorem lineageNodup (acyclic : ∀ id, ¬ TransGen t.Under id id) (fuel : Nat) (id : NodeId) :
    (t.lineage fuel id).Nodup := by
  induction fuel generalizing id with
  | zero => simp [lineage]
  | succ fuel ih =>
    rw [lineageSucc]
    cases h : t.parent? id with
    | none => simp
    | some parent =>
      refine List.nodup_cons.mpr ⟨fun mem => ?_, ih parent⟩
      exact acyclic id (.head' h (aboveOfLineage mem))

theorem placeInjective : Function.Injective fun id : NodeId => id.number.toNat := by
  intro a b same
  cases a
  cases b
  exact congrArg NodeId.mk (UInt64.toNat_inj.mp same)

theorem lengthOfKnown {ids : List NodeId} (distinct : ids.Nodup)
    (known : ∀ id ∈ ids, (t.node? id).isSome) : ids.length ≤ t.size := by
  have nodup : (ids.map fun id => id.number.toNat).Nodup := distinct.map placeInjective
  have subset : (ids.map fun id => id.number.toNat) ⊆ List.range t.size := by
    intro n mem
    obtain ⟨id, member, rfl⟩ := List.mem_map.mp mem
    obtain ⟨_, found⟩ := Option.isSome_iff_exists.mp (known id member)
    exact List.mem_range.mpr (Array.getElem?_eq_some_iff.mp found).1
  simpa using nodup.length_le_of_subset subset

namespace Forest

theorem lineageKnown (forest : t.Forest) {fuel id} (known : (t.node? id).isSome) :
    ∀ above ∈ t.lineage fuel id, (t.node? above).isSome := by
  intro above mem
  rcases ReflTransGen.cases_tail (aboveOfLineage mem) with rfl | ⟨_, _, under⟩
  · exact known
  · exact forest.known under

theorem lineageLength (forest : t.Forest) {fuel id} (known : (t.node? id).isSome) :
    (t.lineage fuel id).length ≤ t.size :=
  lengthOfKnown (lineageNodup forest.acyclic fuel id) (forest.lineageKnown known)

theorem isAncestorExact (forest : t.Forest) {above id} (known : (t.node? id).isSome) :
    t.isAncestor above id = true ↔ ReflTransGen t.Under id above := by
  simp only [isAncestor, decide_eq_true_eq]
  constructor
  · exact aboveOfLineage
  · intro reach
    obtain ⟨fuel, mem⟩ := lineageOfAbove reach
    rcases Nat.le_total fuel t.size with le | le
    · rw [← t.lineageTake le] at mem
      exact List.mem_of_mem_take mem
    · rw [← t.lineageTake le, List.take_of_length_le (forest.lineageLength known)]
      exact mem

end Forest

theorem setRootExact {id} (ok : t.setRoot id = .ok changed) :
    ∃ node, t.node? id = some node ∧ node.parent = none ∧ changed = { t with root := some id } := by
  unfold setRoot at ok
  split at ok
  · contradiction
  · rename_i node found
    split at ok
    · contradiction
    · rename_i orphan
      cases ok
      exact ⟨node, found, by simpa using orphan, rfl⟩

theorem setRootEdited {id answer} (ok : t.edit (.setRoot id) = .ok (answer, changed)) :
    t.setRoot id = .ok changed := by
  cases done : t.setRoot id with
  | error e => simp [edit, done, Except.map] at ok
  | ok next =>
    simp only [edit, done, Except.map] at ok
    cases ok
    rfl

theorem addChildEdited {parent child answer}
    (ok : t.edit (.addChild parent child) = .ok (answer, changed)) :
    t.addChild parent child = .ok changed := by
  cases done : t.addChild parent child with
  | error e => simp [edit, done, Except.map] at ok
  | ok next =>
    simp only [edit, done, Except.map] at ok
    cases ok
    rfl

structure Attaches (t : Tree W) (parent child : NodeId) (changed : Tree W) : Prop where
  different : parent ≠ child
  above : ∃ node, t.node? parent = some node ∧ t.fullAt node = none
  orphan : ∃ node, t.node? child = some node ∧ node.parent = none
  unrooted : t.root ≠ some child
  fresh : t.isAncestor child parent = false
  result : changed = (t.change parent fun n => { n with children := n.children ++ [child] }).change
    child fun n => { n with parent := some parent }

theorem addChildExact {parent child} (ok : t.addChild parent child = .ok changed) :
    t.Attaches parent child changed := by
  unfold addChild at ok
  split at ok
  · contradiction
  rename_i different
  split at ok
  · contradiction
  · contradiction
  rename_i p c parentFound childFound
  split at ok
  · contradiction
  rename_i orphan
  split at ok
  · contradiction
  rename_i unrooted
  split at ok
  · contradiction
  rename_i room
  split at ok
  · contradiction
  rename_i fresh
  cases ok
  exact ⟨different, ⟨p, parentFound, room⟩, ⟨c, childFound, orphan⟩, unrooted,
    by simpa using fresh, rfl⟩

def attached (parent child id : NodeId) (node : Node W) : Node W :=
  { node with
    children := if id = parent then node.children ++ [child] else node.children
    parent := if id = child then some parent else node.parent }

theorem Attaches.node? {parent child} (a : t.Attaches parent child changed) (id : NodeId) :
    changed.node? id = (t.node? id).map (attached parent child id) := by
  rw [a.result, nodeChange, nodeChange, Option.map_map]
  congr 1
  funext node
  simp only [Function.comp_apply, attached]
  split <;> split <;> rfl

theorem Attaches.under {parent child} (a : t.Attaches parent child changed) (x y : NodeId) :
    changed.Under x y ↔ t.Under x y ∨ (x = child ∧ y = parent) := by
  obtain ⟨node, found, orphan⟩ := a.orphan
  unfold Under parent?
  rw [a.node?]
  by_cases h : x = child
  · subst h
    simp [found, orphan, attached, eq_comm]
  · cases t.node? x <;> simp [attached, h]

theorem Attaches.root {parent child} (a : t.Attaches parent child changed) :
    changed.root = t.root := by
  rw [a.result]
  rfl

theorem Attaches.arity {parent child} (a : t.Attaches parent child changed) :
    changed.arity = t.arity := by
  rw [a.result]
  rfl

theorem Attaches.origin {parent child id node} (a : t.Attaches parent child changed)
    (found : changed.node? id = some node) :
    ∃ old, t.node? id = some old ∧ attached parent child id old = node := by
  rw [a.node?] at found
  exact Option.map_eq_some_iff.mp found

/- A path after the attachment is an old one, or leads over the new link. -/
theorem Attaches.path {parent child} (a : t.Attaches parent child changed) {x y}
    (path : TransGen changed.Under x y) :
    TransGen t.Under x y ∨ (ReflTransGen t.Under x child ∧ ReflTransGen t.Under parent y) := by
  induction path with
  | single under =>
    rcases (a.under _ _).mp under with old | ⟨rfl, rfl⟩
    · exact .inl (.single old)
    · exact .inr ⟨.refl, .refl⟩
  | tail _ under ih =>
    rcases (a.under _ _).mp under with old | ⟨rfl, rfl⟩
    · rcases ih with path | ⟨left, right⟩
      · exact .inl (path.tail old)
      · exact .inr ⟨left, right.tail old⟩
    · rcases ih with path | ⟨left, _⟩
      · exact .inr ⟨path.to_reflTransGen, .refl⟩
      · exact .inr ⟨left, .refl⟩

namespace Forest

theorem empty (id : TreeId) (arity : Arity) : ({ id, arity } : Tree W).Forest where
  numbered found := by simp [node?] at found
  linked found := by simp [node?] at found
  known under := by simp [Under, parent?, node?] at under
  acyclic id cycle := by
    obtain ⟨_, under, _⟩ := TransGen.head'_iff.mp cycle
    simp [Under, parent?, node?] at under
  distinct found := by simp [node?] at found
  rooted root := by simp at root
  fitting _ _ _ _ found := by simp [node?] at found

theorem setRoot (forest : t.Forest) {id} (ok : t.setRoot id = .ok changed) : changed.Forest := by
  obtain ⟨node, found, orphan, rfl⟩ := setRootExact ok
  exact ⟨forest.numbered, forest.linked, forest.known, forest.acyclic, forest.distinct,
    fun root => ⟨node, by cases root; exact found, orphan⟩, forest.fitting⟩

theorem foundAddNode {content : Instance W} {id node}
    (found : (t.addNode content).node? id = some node) :
    (id.number.toNat = t.size ∧ node = { id := t.nextId, content }) ∨ t.node? id = some node := by
  rw [nodeAddNode] at found
  split at found
  · rename_i place
    exact .inl ⟨place, (Option.some.inj found).symm⟩
  · exact .inr found

/- The place of a new node was free, so no link changes. -/
theorem underAddNode (content : Instance W) : (t.addNode content).Under = t.Under := by
  funext child parent
  unfold Under parent?
  rw [nodeAddNode]
  split
  · rename_i place
    have free : t.node? child = none := by simp [node?, place, size]
    simp [free]
  · rfl

theorem addNode (forest : t.Forest) (content : Instance W) : (t.addNode content).Forest where
  numbered found := by
    rcases foundAddNode found with ⟨place, rfl⟩ | old
    · simp only [nextId]
      rw [← size, ← place, UInt64.ofNat_toNat]
    · exact forest.numbered old
  linked found := by
    rw [underAddNode]
    rcases foundAddNode found with ⟨place, rfl⟩ | old
    · refine ⟨fun mem => by simp at mem, fun under => ?_⟩
      have parentKnown := forest.known under
      simp [node?, place, size] at parentKnown
    · exact forest.linked old
  known under := by
    rw [underAddNode] at under
    rw [nodeAddNode]
    split
    · rfl
    · exact forest.known under
  acyclic := by
    rw [underAddNode]
    exact forest.acyclic
  distinct found := by
    rcases foundAddNode found with ⟨_, rfl⟩ | old
    · exact List.nodup_nil
    · exact forest.distinct old
  rooted root := by
    obtain ⟨node, found, orphan⟩ := forest.rooted root
    refine ⟨node, ?_, orphan⟩
    rw [nodeAddNode, if_neg, found]
    intro place
    simp [node?, place, size] at found
  fitting strict _ _ _ found bounded := by
    rcases foundAddNode found with ⟨_, rfl⟩ | old
    · exact Nat.zero_le _
    · exact forest.fitting strict old bounded

section Attach
variable {parent child : NodeId} (forest : t.Forest) (a : t.Attaches parent child changed)
include forest a

theorem acyclicAttach (id : NodeId) : ¬TransGen changed.Under id id := by
  intro cycle
  rcases a.path cycle with old | ⟨below, above⟩
  · exact forest.acyclic id old
  · obtain ⟨node, found, _⟩ := a.above
    have lies : t.isAncestor child parent = true :=
      (forest.isAncestorExact (by simp [found])).mpr (above.trans below)
    exact absurd lies (by simp [a.fresh])

theorem distinctAttach {id node} (found : changed.node? id = some node) :
    node.children.Nodup := by
  obtain ⟨old, before, rfl⟩ := a.origin found
  simp only [attached]
  split
  · refine List.nodup_append.mpr ⟨forest.distinct before, by simp, ?_⟩
    rintro x mem y last rfl
    cases List.mem_singleton.mp last
    obtain ⟨node, found, orphan⟩ := a.orphan
    have under := (forest.linked before).mp mem
    simp [Under, parent?, found, orphan] at under
  · exact forest.distinct before

theorem fittingAttach (strict : changed.arity = .strict) {id node bound}
    (found : changed.node? id = some node) (bounded : node.kind.maxChildren = some bound) :
    node.children.length ≤ bound := by
  rw [a.arity] at strict
  obtain ⟨old, before, rfl⟩ := a.origin found
  have fits := forest.fitting strict before bounded
  simp only [attached]
  split
  · rename_i here
    obtain ⟨node, parentFound, room⟩ := a.above
    cases here
    cases parentFound.symm.trans before
    have limit : old.kind.maxChildren = some bound := bounded
    simp [fullAt, strict, limit] at room
    simp
    omega
  · exact fits

theorem attach : changed.Forest where
  numbered found := by
    obtain ⟨old, before, rfl⟩ := a.origin found
    exact (forest.numbered before : old.id = _)
  linked {above _ _} found := by
    obtain ⟨old, before, rfl⟩ := a.origin found
    rw [a.under, ← forest.linked before]
    simp only [attached]
    by_cases here : above = parent <;> simp [here]
  known under := by
    rw [a.node?, Option.isSome_map]
    rcases (a.under _ _).mp under with old | ⟨_, rfl⟩
    · exact forest.known old
    · obtain ⟨node, found, _⟩ := a.above
      simp [found]
  acyclic := forest.acyclicAttach a
  distinct := forest.distinctAttach a
  rooted {id} root := by
    rw [a.root] at root
    obtain ⟨node, found, orphan⟩ := forest.rooted root
    refine ⟨attached parent child id node, by rw [a.node?, found]; rfl, ?_⟩
    have elsewhere : id ≠ child := fun eq => a.unrooted (eq ▸ root)
    simpa [attached, elsewhere] using orphan
  fitting strict _ _ _ found bounded := forest.fittingAttach a strict found bounded

end Attach

end Forest

theorem Built.forest (built : t.Built) : t.Forest := by
  induction built with
  | empty id arity => exact .empty id arity
  | @edited t changed edit answer _ ok ih =>
    cases edit with
    | addNode content =>
      cases ok
      exact ih.addNode content
    | setRoot id => exact ih.setRoot (setRootEdited ok)
    | addChild parent child => exact ih.attach (addChildExact (addChildEdited ok))

def sapling (behavior : Behavior W) : Tree W where
  id := ⟨"sapling"⟩
  root := some ⟨0⟩
  nodes := #[{ id := ⟨0⟩, content := .detached "Leaf" .leaf behavior .empty }]

theorem saplingEdits (behavior : Behavior W) : ∃ (bare : Tree W) (content : Instance W) (id : NodeId),
    bare = { id := ⟨"sapling"⟩ } ∧
      bare.edit (.addNode content) = .ok (some id, bare.addNode content) ∧
      (bare.addNode content).edit (.setRoot id) = .ok (none, sapling behavior) :=
  ⟨_, .detached "Leaf" .leaf behavior .empty, ⟨0⟩, rfl, rfl, rfl⟩

theorem Built.sapling (behavior : Behavior W) : (Tree.sapling behavior).Built := by
  obtain ⟨bare, content, id, rfl, added, rooted⟩ := saplingEdits behavior
  exact ((Built.empty _ _).edited added).edited rooted

def pair (above below : Behavior W) : Tree W where
  id := ⟨"pair"⟩
  root := some ⟨0⟩
  nodes := #[
    { id := ⟨0⟩, content := .detached "Decorator" .decorator above .empty, children := [⟨1⟩] },
    { id := ⟨1⟩, content := .detached "Leaf" .leaf below .empty, parent := some ⟨0⟩ }]

theorem pairBehavior {above below : Behavior W} {id node}
    (found : (Tree.pair above below).node? id = some node) :
    node.content.behavior = above ∨ node.content.behavior = below := by
  have member : node ∈ (Tree.pair above below).nodes := Array.mem_of_getElem? found
  simp only [Tree.pair, List.mem_toArray, List.mem_cons, List.not_mem_nil, or_false] at member
  rcases member with rfl | rfl
  · exact .inl rfl
  · exact .inr rfl

theorem Built.pair (above below : Behavior W) : (Tree.pair above below).Built := by
  have step {t changed : Tree W} (edit : Edit W) {answer} (built : t.Built)
      (ok : t.edit edit = .ok (answer, changed)) : changed.Built := built.edited ok
  have one := step (.addNode (.detached "Decorator" .decorator above .empty))
    (.empty ⟨"pair"⟩ .strict) rfl
  have two := step (.addNode (.detached "Leaf" .leaf below .empty)) one rfl
  have rooted := step (.setRoot ⟨0⟩) two rfl
  exact step (.addChild ⟨0⟩ ⟨1⟩) rooted rfl

end BehaviorTree.Tree
