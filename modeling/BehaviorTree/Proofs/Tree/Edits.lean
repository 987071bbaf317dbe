import BehaviorTree.Proofs.Tree.Forest

/-! What any sequence of edits comes to. A refused edit leaves the tree as it is, so every
tree that is reached is built, and a forest; the facts of the forest are put together here
with the numbering of the nodes and the way up from each of them. Only the numbering needs
a bound on the added nodes, since numbers are words. -/
namespace BehaviorTree
open Relation

variable {W : Type}

def Edit.adds : Edit W → Bool
  | .addNode _ => true
  | _ => false

namespace Tree
variable {t : Tree W}

def attempt (t : Tree W) (edit : Edit W) : Tree W :=
  match t.edit edit with
  | .ok (_, changed) => changed
  | .error _ => t

def attempts (t : Tree W) (edits : List (Edit W)) : Tree W := edits.foldl attempt t

theorem Built.attempts (built : t.Built) (edits : List (Edit W)) : (t.attempts edits).Built := by
  induction edits generalizing t with
  | nil => exact built
  | cons edit edits ih =>
    refine ih ?_
    unfold attempt
    cases ok : t.edit edit with
    | error e => exact built
    | ok result => exact built.edited ok

theorem keptByEdit {changed : Tree W} {edit answer id node}
    (ok : t.edit edit = .ok (answer, changed)) (found : t.node? id = some node) :
    ∃ kept, changed.node? id = some kept ∧ kept.content = node.content := by
  cases edit with
  | addNode content =>
    cases ok
    have inside : id.number.toNat < t.size := (Array.getElem?_eq_some_iff.mp found).choose
    rw [nodeAddNode, if_neg (Nat.ne_of_lt inside)]
    exact ⟨node, found, rfl⟩
  | setRoot root =>
    obtain ⟨_, _, _, rfl⟩ := setRootExact (setRootEdited ok)
    exact ⟨node, found, rfl⟩
  | addChild parent child =>
    rw [(addChildExact (addChildEdited ok)).node?, found]
    exact ⟨_, rfl, rfl⟩

theorem idByEdit {changed : Tree W} {edit answer} (ok : t.edit edit = .ok (answer, changed)) :
    changed.id = t.id := by
  cases edit with
  | addNode content =>
    cases ok
    rfl
  | setRoot node =>
    obtain ⟨_, _, _, rfl⟩ := setRootExact (setRootEdited ok)
    rfl
  | addChild parent child =>
    rw [(addChildExact (addChildEdited ok)).result]
    rfl

theorem sizeAttempt (t : Tree W) (edit : Edit W) :
    (t.attempt edit).size = t.size + if edit.adds then 1 else 0 := by
  cases edit with
  | addNode content => simp [attempt, Tree.edit, addNode, size, Edit.adds]
  | setRoot id =>
    cases done : t.setRoot id with
    | error e => simp [attempt, Tree.edit, done, Except.map, Edit.adds]
    | ok changed =>
      obtain ⟨_, _, _, rfl⟩ := setRootExact done
      simp [attempt, Tree.edit, done, Except.map, Edit.adds, size]
  | addChild parent child =>
    cases done : t.addChild parent child with
    | error e => simp [attempt, Tree.edit, done, Except.map, Edit.adds]
    | ok changed =>
      have attaches := addChildExact done
      simp [attempt, Tree.edit, done, Except.map, Edit.adds, attaches.result, change, size]

theorem sizeAttempts (t : Tree W) (edits : List (Edit W)) :
    (t.attempts edits).size = t.size + edits.countP Edit.adds := by
  induction edits generalizing t with
  | nil => rfl
  | cons edit edits ih =>
    have first := t.sizeAttempt edit
    have rest := ih (t.attempt edit)
    rw [List.countP_cons]
    simp only [attempts, List.foldl_cons] at rest ⊢
    omega

def childrenOf (t : Tree W) (id : NodeId) : List NodeId :=
  ((t.node? id).map Node.children).getD []

def climb (t : Tree W) : Nat → NodeId → Option NodeId
  | 0, id => some id
  | steps + 1, id => (t.parent? id).bind (t.climb steps)

theorem climbSucc {steps id parent} (under : t.Under id parent) :
    t.climb (steps + 1) id = t.climb steps parent := by
  rw [climb, under, Option.bind_some]

theorem aboveOfClimb {steps id top} (up : t.climb steps id = some top) :
    ReflTransGen t.Under id top := by
  induction steps generalizing id with
  | zero =>
    cases up
    exact .refl
  | succ steps ih =>
    obtain ⟨parent, under, up⟩ := Option.bind_eq_some_iff.mp up
    exact .head under (ih up)

theorem climbOn {steps id child parent} (up : t.climb steps id = some child)
    (under : t.Under child parent) : t.climb (steps + 1) id = some parent := by
  induction steps generalizing id with
  | zero =>
    cases up
    exact (climbSucc under).trans rfl
  | succ steps ih =>
    obtain ⟨next, here, up⟩ := Option.bind_eq_some_iff.mp up
    exact (climbSucc here).trans (ih up)

theorem climbAdd (t : Tree W) (steps more : Nat) (id : NodeId) :
    t.climb (steps + more) id = (t.climb steps id).bind (t.climb more) := by
  induction steps generalizing id with
  | zero => simp [climb]
  | succ steps ih =>
    rw [Nat.add_right_comm, climb, climb, Option.bind_assoc]
    exact congrArg _ (funext ih)

/- A way up that does not end shows in a lineage of full length. -/
theorem climbEnds (t : Tree W) (fuel : Nat) (id : NodeId) :
    (∃ steps < fuel, ∃ top, t.climb steps id = some top ∧ t.parent? top = none) ∨
      (t.lineage (fuel + 1) id).length = fuel + 1 := by
  induction fuel generalizing id with
  | zero =>
    refine .inr ?_
    rw [lineageSucc]
    cases t.parent? id <;> simp [lineage]
  | succ fuel ih =>
    cases under : t.parent? id with
    | none => exact .inl ⟨0, Nat.succ_pos _, id, rfl, under⟩
    | some parent =>
      rcases ih parent with ⟨steps, below, top, up, ends⟩ | full
      · exact .inl ⟨steps + 1, by omega, top, (climbSucc under).trans up, ends⟩
      · refine .inr ?_
        rw [lineageSucc, under]
        simp [full]

structure Orderly (t : Tree W) : Prop where
  numbered : t.nodes.toList.map (fun node => node.id.number.toNat) = List.range t.size
  stored : ∀ {id node}, t.node? id = some node → node.id = id
  linked : ∀ {child parent}, child ∈ t.childrenOf parent ↔ t.parent? child = some parent
  distinct : ∀ id, (t.childrenOf id).Nodup
  apart : ∀ {child parent other}, child ∈ t.childrenOf parent → child ∈ t.childrenOf other →
    parent = other
  knownParent : ∀ {child parent}, t.parent? child = some parent → (t.node? parent).isSome
  knownChild : ∀ {child parent}, child ∈ t.childrenOf parent → (t.node? child).isSome
  topped : ∀ {id}, (t.node? id).isSome →
    ∃ steps < t.size, ∃ top node, t.climb steps id = some top ∧ t.node? top = some node ∧
      node.parent = none
  acyclic : ∀ id steps, t.climb (steps + 1) id ≠ some id
  rooted : ∀ {id}, t.root = some id → ∃ node, t.node? id = some node ∧ node.parent = none
  leaves : t.arity = .strict → ∀ {id node}, t.node? id = some node → node.kind = .leaf →
    node.children = []
  decorators : t.arity = .strict → ∀ {id node}, t.node? id = some node →
    node.kind = .decorator → node.children.length ≤ 1

namespace Forest

theorem numbers (forest : t.Forest) (fewer : t.size < UInt64.size) :
    t.nodes.toList.map (fun node => node.id.number.toNat) = List.range t.size := by
  apply List.ext_getElem
  · simp [size]
  · intro n here there
    have bound : n < t.nodes.size := by simpa using here
    have small : n < UInt64.size := Nat.lt_trans bound fewer
    have place : (UInt64.ofNat n).toNat = n := UInt64.toNat_ofNat_of_lt small
    have found : t.node? ⟨UInt64.ofNat n⟩ = some t.nodes[n] := by
      simp [node?, place, bound]
    simp [forest.numbered found, place]

theorem linkedChildren (forest : t.Forest) {child parent} :
    child ∈ t.childrenOf parent ↔ t.parent? child = some parent := by
  unfold childrenOf
  cases found : t.node? parent with
  | some node => exact forest.linked found
  | none =>
    refine ⟨fun mem => by simp at mem, fun under => ?_⟩
    have known := forest.known under
    simp [found] at known

theorem distinctChildren (forest : t.Forest) (id : NodeId) : (t.childrenOf id).Nodup := by
  unfold childrenOf
  cases found : t.node? id with
  | none => exact List.nodup_nil
  | some node => exact forest.distinct found

theorem knownOfParent {child parent} (under : t.Under child parent) : (t.node? child).isSome := by
  obtain ⟨node, found, _⟩ := Option.bind_eq_some_iff.mp under
  simp [found]

theorem tops (forest : t.Forest) {id} (known : (t.node? id).isSome) :
    ∃ steps < t.size, ∃ top node, t.climb steps id = some top ∧ t.node? top = some node ∧
      node.parent = none := by
  have short : (t.lineage (t.size + 1) id).length ≤ t.size := forest.lineageLength known
  rcases t.climbEnds t.size id with ⟨steps, below, top, up, ends⟩ | full
  · have topKnown : (t.node? top).isSome := by
      rcases ReflTransGen.cases_tail (aboveOfClimb up) with rfl | ⟨_, _, under⟩
      · exact known
      · exact forest.known under
    obtain ⟨node, found⟩ := Option.isSome_iff_exists.mp topKnown
    refine ⟨steps, below, top, node, up, found, ?_⟩
    simpa [parent?, found] using ends
  · omega

theorem climbsAway (forest : t.Forest) (id : NodeId) (steps : Nat) :
    t.climb (steps + 1) id ≠ some id := by
  intro up
  obtain ⟨parent, under, up⟩ := Option.bind_eq_some_iff.mp up
  exact forest.acyclic id (.head' under (aboveOfClimb up))

theorem climbOnce (forest : t.Forest) {steps other id top} (up : t.climb steps id = some top)
    (up' : t.climb other id = some top) : steps = other := by
  have none {steps more} (up : t.climb steps id = some top)
      (up' : t.climb (steps + (more + 1)) id = some top) : False := by
    rw [climbAdd, up] at up'
    exact forest.climbsAway top more up'
  rcases Nat.lt_trichotomy steps other with less | same | more
  · obtain ⟨more, rfl⟩ := Nat.exists_eq_add_of_lt less
    exact (none up up').elim
  · exact same
  · obtain ⟨more, rfl⟩ := Nat.exists_eq_add_of_lt more
    exact (none up' up).elim

end Forest

theorem orderlyAfterEdits (id : TreeId) (arity : Arity) (edits : List (Edit W))
    (fewer : edits.countP Edit.adds < UInt64.size) :
    (attempts { id, arity } edits).size = edits.countP Edit.adds ∧
      (attempts { id, arity } edits).Orderly := by
  have forest := ((Built.empty (W := W) id arity).attempts edits).forest
  have size : (attempts { id, arity } edits).size = edits.countP Edit.adds := by
    rw [sizeAttempts]
    exact Nat.zero_add _
  refine ⟨size, ?_⟩
  exact {
    numbered := forest.numbers (size ▸ fewer)
    stored := forest.numbered
    linked := forest.linkedChildren
    distinct := forest.distinctChildren
    apart := fun here there =>
      Option.some.inj ((forest.linkedChildren.mp here).symm.trans (forest.linkedChildren.mp there))
    knownParent := forest.known
    knownChild := fun mem => Forest.knownOfParent (forest.linkedChildren.mp mem)
    topped := forest.tops
    acyclic := forest.climbsAway
    rooted := forest.rooted
    leaves := fun strict _ _ found leaf =>
      List.length_eq_zero_iff.mp (Nat.le_zero.mp (forest.fitting strict found (by rw [leaf]; rfl)))
    decorators := fun strict _ _ found decorator =>
      forest.fitting strict found (by rw [decorator]; rfl)
  }

-- Two nodes, one put under the other; closing the cycle and rooting the child are refused.
def pairEdits : List (Edit Unit) :=
  let plain : Instance Unit := .detached "Plain" .composite {} .empty
  [.addNode plain, .addNode plain, .addChild ⟨0⟩ ⟨1⟩, .addChild ⟨1⟩ ⟨0⟩, .setRoot ⟨1⟩,
    .addChild ⟨1⟩ ⟨7⟩, .setRoot ⟨0⟩]

theorem orderlyAfterRefusals :
    pairEdits.countP Edit.adds < UInt64.size ∧
      (attempts { id := ⟨"pair"⟩ } pairEdits).childrenOf ⟨0⟩ = [⟨1⟩] ∧
      (attempts { id := ⟨"pair"⟩ } pairEdits).root = some ⟨0⟩ ∧
      (attempts { id := ⟨"pair"⟩ } pairEdits).Orderly := by
  have fewer : pairEdits.countP Edit.adds < UInt64.size := by decide
  obtain ⟨_, orderly⟩ := orderlyAfterEdits ⟨"pair"⟩ .strict pairEdits fewer
  exact ⟨fewer, rfl, rfl, orderly⟩

end Tree
end BehaviorTree
