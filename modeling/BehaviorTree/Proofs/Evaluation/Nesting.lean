import BehaviorTree.Proofs.Evaluation.Pieces
import BehaviorTree.Proofs.Session
import BehaviorTree.Proofs.Tree.Edits
import Mathlib.Data.List.Chain

/-! The activations in progress. At every moment of a run they lie one under the other from
the root down, and a forest has no such path that comes back to a node; so however high the
depth limit is, activations nest no deeper than there are nodes. An evaluation that finds so
many activations in progress is at that depth: it is refused there exactly beyond the limit. -/
namespace BehaviorTree
open Relation

variable {W : Type}

def Occurrence.active (active : List NodeId) : Occurrence W → List NodeId
  | .began node => node :: active
  | .ended _ _ => active.tail
  | _ => active

def Timeline.active (t : Timeline W) : List NodeId := t.foldl Occurrence.active []

namespace Tree
variable {t : Tree W}

structure Path (t : Tree W) (active : List NodeId) : Prop where
  linked : active.IsChain t.Under
  rooted : ∀ {id}, active.getLast? = some id → t.root = some id

namespace Path
variable {active : List NodeId}

theorem nil : t.Path [] := ⟨.nil, fun last => by simp at last⟩

theorem root {id} (root : t.root = some id) : t.Path [id] :=
  ⟨.singleton id, fun last => by cases last; exact root⟩

theorem down {id child} (path : t.Path (id :: active)) (under : t.Under child id) :
    t.Path (child :: id :: active) where
  linked := .cons_cons under path.linked
  rooted last := path.rooted (by simpa using last)

theorem tail {id} (path : t.Path (id :: active)) : t.Path active where
  linked := path.linked.tail
  rooted {last} same := by
    cases active with
    | nil => simp at same
    | cons next rest => exact path.rooted (by simpa using same)

theorem distinct (forest : t.Forest) (path : t.Path active) : active.Nodup := by
  have climbing : active.IsChain (TransGen t.Under) := path.linked.imp fun _ _ => .single
  refine climbing.pairwise.imp fun {a b} above same => ?_
  exact forest.acyclic a (same ▸ above)

theorem known (forest : t.Forest) (path : t.Path active) : ∀ id ∈ active, (t.node? id).isSome := by
  induction active with
  | nil => simp
  | cons first rest ih =>
    intro id mem
    rcases List.mem_cons.mp mem with rfl | mem
    · cases rest with
      | nil =>
        have root : t.root = some id := path.rooted rfl
        obtain ⟨node, found, _⟩ := forest.rooted root
        simp [found]
      | cons parent rest =>
        have under : t.Under id parent := (List.isChain_cons_cons.mp path.linked).1
        exact Forest.knownOfParent under
    · exact ih path.tail id mem

theorem length (forest : t.Forest) (path : t.Path active) : active.length ≤ t.size :=
  lengthOfKnown (path.distinct forest) (path.known forest)

/- Nodes are numbered by words, so there are not more of them either. -/
theorem words (forest : t.Forest) (path : t.Path active) : active.length ≤ UInt64.size := by
  have nodup : (active.map fun id => id.number.toNat).Nodup :=
    (path.distinct forest).map placeInjective
  have subset : (active.map fun id => id.number.toNat) ⊆ List.range UInt64.size := by
    intro n mem
    obtain ⟨id, _, rfl⟩ := List.mem_map.mp mem
    exact List.mem_range.mpr id.number.toNat_lt
  simpa using nodup.length_le_of_subset subset

end Path
end Tree

def Occurrence.Placed (tree : Tree W) (limit : Nat) (active : List NodeId) (o : Occurrence W) :
    Prop :=
  tree.Path active ∧ active.length ≤ limit + 1 ∧
    match o with
    | .began id => tree.Path (id :: active) ∧ active.length ≤ limit
    | .refused id => tree.Path (id :: active) ∧ limit < active.length
    | .absent _ => False
    | o => o.node? = active.head?

namespace Derivation
variable {tree : Tree W} {limit : Nat} {active : List NodeId}

structure Nested (tree : Tree W) (limit : Nat) (active : List NodeId) (t : Timeline W) : Prop where
  placed : t.Along Occurrence.active (Occurrence.Placed tree limit) active
  balanced : t.foldl Occurrence.active active = active

theorem Nested.nil : Nested tree limit active [] := ⟨trivial, rfl⟩

theorem Nested.append {t u : Timeline W} (left : Nested tree limit active t)
    (right : Nested tree limit active u) : Nested tree limit active (t ++ u) where
  placed := Timeline.alongAppend.mpr ⟨left.placed, by rw [left.balanced]; exact right.placed⟩
  balanced := by rw [List.foldl_append, left.balanced, right.balanced]

theorem Nested.inside {id} {t : Timeline W} (path : tree.Path (id :: active))
    (below : active.length ≤ limit) (inside : ∀ o ∈ t, o.Inside id) :
    Nested tree limit (id :: active) t := by
  induction t with
  | nil => exact .nil
  | cons o rest ih =>
    obtain ⟨own, inner⟩ := inside o List.mem_cons_self
    have later := ih fun o mem => inside o (List.mem_cons_of_mem _ mem)
    have stays : o.active (id :: active) = id :: active := by
      cases o with
      | began | ended | refused | absent => exact absurd trivial inner
      | _ => rfl
    have placed : o.Placed tree limit (id :: active) := by
      refine ⟨path, Nat.succ_le_succ below, ?_⟩
      cases o with
      | began | refused | absent => exact absurd trivial inner
      | _ => exact own
    exact .append (t := [o]) ⟨⟨placed, trivial⟩, stays⟩ later

theorem nestedCarries {scene : Scene W} {node : Node W}
    (path : scene.tree.Path (node.id :: active)) (below : active.length ≤ limit) :
    Carries scene node fun _ t _ => Nested scene.tree limit (node.id :: active) t := by
  have nested {t : Timeline W} := Nested.inside (t := t) path below
  have pieces := insideCarries scene node
  exact {
    nil := fun _ => .nil
    append := .append
    told := fun s _ status ordinary => nested (pieces.told s status ordinary)
    called := fun own s _ _ came => nested (pieces.called own (s := s) came)
    answered := fun same answered => nested (pieces.answered same answered)
    flagged := fun s isOpen => nested (pieces.flagged s isOpen)
    ticks := fun s => nested (pieces.ticks s)
    starts := fun _ _ => .nil
    resumes := fun _ _ _ _ => .nil
    ticked := fun s result => nested (pieces.ticked s result)
  }

end Derivation

open BehaviorTree.Derivation

/- The depth of an evaluation, that is its room below the limit, is the number of the
activations in progress: both grow by one from a node to its child. -/
theorem Evaluates.nested {scene : Scene W} (forest : scene.tree.Forest) {limit room active id}
    {s last : Standing W} {t : Timeline W} {status} (path : scene.tree.Path (id :: active))
    (depth : room + active.length = limit + 1)
    (evaluates : Evaluates scene room id s t status last) : Nested scene.tree limit active t := by
  have present : scene.tree.node? id ≠ none := by
    have known := path.known forest id List.mem_cons_self
    exact Option.isSome_iff_ne_none.mp known
  induction room generalizing id active s t status last with
  | zero =>
    cases evaluates with
    | absent none => exact absurd none present
    | refused =>
      have deep : limit < active.length := by omega
      have here : active.length ≤ limit + 1 := by omega
      exact ⟨⟨⟨path.tail, here, path, deep⟩, trivial⟩, rfl⟩
    | activated _ room => cases room
  | succ room ih =>
    have below : active.length ≤ limit := by omega
    cases evaluates with
    | absent none => exact absurd none present
    | refused _ limit => cases limit
    | @activated _ _ node _ _ _ _ found room activated =>
      cases room
      have same := forest.numbered found
      have path' : scene.tree.Path (node.id :: active) := same ▸ path
      obtain ⟨inside, rfl, nested⟩ := activated.carried (nestedCarries path' below)
        fun {request child s t status last} located asked => by
          have under : scene.tree.Under child node.id :=
            same ▸ forest.underOfAsks ⟨node, request, found, located⟩
          have deeper := path'.down under
          have known := deeper.known forest child List.mem_cons_self
          have rest : room + (node.id :: active).length = limit + 1 := by
            rw [List.length_cons]
            omega
          exact ih deeper rest asked (Option.isSome_iff_ne_none.mp known)
      have started : Occurrence.Placed scene.tree limit active (.began node.id) :=
        ⟨path'.tail, by omega, path', below⟩
      have ended : Occurrence.Placed scene.tree limit (node.id :: active)
          (.ended node.id status) :=
        ⟨path', by rw [List.length_cons]; omega, rfl⟩
      constructor
      · rw [Timeline.alongAppend, Timeline.alongAppend]
        refine ⟨⟨⟨started, trivial⟩, nested.placed⟩, ?_⟩
        rw [List.foldl_append]
        change Timeline.Along _ _ (List.foldl _ (node.id :: active) inside) _
        rw [nested.balanced]
        exact ⟨ended, trivial⟩
      · rw [List.foldl_append, List.foldl_append]
        change List.foldl _ (List.foldl _ (node.id :: active) inside) _ = _
        rw [nested.balanced]
        rfl

structure Bounded (tree : Tree W) (limit : Nat) (t : Timeline W) : Prop where
  path : ∀ {before after : Timeline W}, t = before ++ after → tree.Path before.active
  once : ∀ {before after : Timeline W}, t = before ++ after → before.active.Nodup
  nesting : ∀ {before after : Timeline W}, t = before ++ after →
    before.active.length ≤ min (limit + 1) tree.size
  inner : ∀ {before after : Timeline W} {id step stage},
    t = before ++ .called id step stage :: after → before.active.head? = some id
  begins : ∀ {before after : Timeline W} {id}, t = before ++ .began id :: after →
    before.active.length ≤ limit
  refuses : ∀ {before after : Timeline W} {id}, t = before ++ .refused id :: after →
    limit < before.active.length
  counted : ∀ {before after : Timeline W} {id},
    t = before ++ .began id :: after ∨ t = before ++ .refused id :: after →
      before.active.length < UInt64.size
  present : ∀ {id}, .absent id ∉ t

namespace Derivation.Nested
variable {tree : Tree W} {limit : Nat} {t before after : Timeline W}

theorem here (nested : Nested tree limit [] t) {o} (split : t = before ++ o :: after) :
    o.Placed tree limit before.active :=
  nested.placed.holds split

theorem pathHere (nested : Nested tree limit [] t) (split : t = before ++ after) :
    tree.Path before.active ∧ before.active.length ≤ limit + 1 := by
  cases after with
  | nil =>
    have ends : before.active = [] := by
      rw [List.append_nil] at split
      exact split ▸ nested.balanced
    rw [ends]
    exact ⟨.nil, Nat.zero_le _⟩
  | cons o rest =>
    obtain ⟨path, short, _⟩ := nested.here split
    exact ⟨path, short⟩

theorem asked (nested : Nested tree limit [] t) {id}
    (split : t = before ++ .began id :: after ∨ t = before ++ .refused id :: after) :
    tree.Path (id :: before.active) := by
  rcases split with split | split
  · obtain ⟨_, _, path, _⟩ := nested.here split
    exact path
  · obtain ⟨_, _, path, _⟩ := nested.here split
    exact path

theorem bounded (forest : tree.Forest) (nested : Nested tree limit [] t) :
    Bounded tree limit t where
  path split := (nested.pathHere split).1
  once split := (nested.pathHere split).1.distinct forest
  nesting split := by
    obtain ⟨path, short⟩ := nested.pathHere split
    exact le_min short (path.length forest)
  inner split := by
    obtain ⟨_, _, same⟩ := nested.here split
    exact same.symm
  begins split := by
    obtain ⟨_, _, _, below⟩ := nested.here split
    exact below
  refuses split := by
    obtain ⟨_, _, _, beyond⟩ := nested.here split
    exact beyond
  counted split := by
    have words := (nested.asked split).words forest
    rw [List.length_cons] at words
    omega
  present mem := by
    obtain ⟨before, after, split⟩ := List.append_of_mem mem
    obtain ⟨_, _, never⟩ := nested.here split
    exact never

end Derivation.Nested

theorem Plan.runNested {plan : Plan W} {patience tree subject openNodes world} (built : tree.Built)
    {report : Report W (Timeline W)} {left}
    (ok : plan.runTree patience tree subject openNodes world = some (report, left)) :
    Nested tree plan.maxDepth.toNat [] report.seen := by
  rcases Plan.runSound ok with ⟨_, rfl, _⟩ |
    ⟨root, equipped, t, stage, last, rooted, shown, seen, _, _, evaluates⟩
  · exact .nil
  · rw [seen]
    refine .append ?_ (evaluates.nested built.forest (.root rooted) rfl)
    rcases shown with rfl | ⟨stage, rfl⟩
    · exact .nil
    · exact ⟨⟨⟨.nil, Nat.zero_le _, rfl⟩, trivial⟩, rfl⟩

end BehaviorTree
