import BehaviorTree.Proofs.Evaluation.Coupling
import BehaviorTree.Proofs.Evaluation.Blocks

/-! Children that no tick can ask for: those of a decorator after the first, and all those of a
leaf. A tree runs as it does without them, in whatever it shows and leaves. -/
namespace BehaviorTree
open Relation

variable {W : Type}

namespace Node

def served (node : Node W) : List NodeId :=
  match node.kind with
  | .composite => node.children
  | .decorator => node.children.take 1
  | .leaf => []

theorem servedSublist (node : Node W) : node.served.Sublist node.children := by
  unfold served
  split
  · exact .refl _
  · exact List.take_sublist _ _
  · exact List.nil_sublist _

theorem servedFits {node : Node W} {bound} (bounded : node.kind.maxChildren = some bound) :
    node.served.length ≤ bound := by
  unfold served
  cases kind : node.kind with
  | composite => simp [kind, Kind.maxChildren] at bounded
  | decorator =>
    simp only [kind, Kind.maxChildren, Option.some.injEq] at bounded
    exact bounded ▸ List.length_take_le 1 _
  | leaf => exact Nat.zero_le _

structure Shorn (node node' : Node W) : Prop where
  id : node'.id = node.id
  content : node'.content = node.content
  children : node'.children = node.served

theorem Shorn.twin {node node' : Node W} (shorn : node.Shorn node') : node.Twin node' := by
  have kind : node'.kind = node.kind := congrArg Instance.kind shorn.content
  have composite (same : node.kind = .composite) : node'.children = node.children := by
    rw [shorn.children, served, same]
  refine ⟨shorn.id, shorn.content, ?_, fun request => ?_⟩
  · unfold view
    rw [shorn.id, shorn.content, kind]
    split
    · rename_i same
      rw [composite same]
    · rfl
  · cases request with
    | child =>
      simp only [locate, kind]
      split
      · rename_i decorator
        rw [shorn.children, served, decorator]
        cases node.children <;> rfl
      · rfl
    | childAt index =>
      simp only [locate, kind]
      split
      · rename_i same
        rw [composite same]
      · rfl

end Node

namespace Tree
variable {t p : Tree W}

structure Shorn (t p : Tree W) : Prop where
  id : p.id = t.id
  root : p.root = t.root
  nodes : ∀ id, Option.Rel Node.Shorn (t.node? id) (p.node? id)

-- A child that is left out is left without a parent.
def shorn (t : Tree W) (node : Node W) : Node W :=
  { node with
    children := node.served
    parent := node.parent.filter fun above =>
      (t.node? above).any fun parent => node.id ∈ parent.served }

def shear (t : Tree W) : Tree W := { t with nodes := t.nodes.map t.shorn }

theorem Shorn.ofMap {f : Node W → Node W} (id : p.id = t.id) (root : p.root = t.root)
    (nodes : p.nodes = t.nodes.map f) (keeps : ∀ node : Node W, node.Shorn (f node)) :
    t.Shorn p where
  id := id
  root := root
  nodes id := by
    rw [node?, node?, nodes, Array.getElem?_map]
    cases t.nodes[id.number.toNat]? with
    | none => exact .none
    | some node => exact .some (keeps node)

theorem shornShear (t : Tree W) : t.Shorn t.shear := .ofMap rfl rfl rfl fun _ => ⟨rfl, rfl, rfl⟩

theorem nodeShear (t : Tree W) (id : NodeId) : t.shear.node? id = (t.node? id).map t.shorn :=
  Array.getElem?_map

namespace Forest

theorem underShear (forest : t.Forest) {child parent} :
    t.shear.Under child parent ↔
      ∃ node, t.node? parent = some node ∧ child ∈ node.served := by
  unfold Under parent?
  rw [nodeShear]
  constructor
  · intro under
    obtain ⟨_, found, linked⟩ := Option.bind_eq_some_iff.mp under
    obtain ⟨node, there, rfl⟩ := Option.map_eq_some_iff.mp found
    obtain ⟨_, serves⟩ := Option.filter_eq_some_iff.mp linked
    obtain ⟨above, known, member⟩ := (Option.any_eq_true _ _).mp serves
    exact ⟨above, known, forest.numbered there ▸ of_decide_eq_true member⟩
  · rintro ⟨above, known, member⟩
    have under := (forest.linked known).mp (above.servedSublist.subset member)
    obtain ⟨node, there, linked⟩ := Option.bind_eq_some_iff.mp under
    obtain rfl := forest.numbered there
    rw [there]
    simp [shorn, Option.filter_eq_some_iff, linked, known, member]

theorem shear (forest : t.Forest) : t.shear.Forest := by
  have under {child parent} (under : t.shear.Under child parent) : t.Under child parent := by
    obtain ⟨above, known, member⟩ := forest.underShear.mp under
    exact (forest.linked known).mp (above.servedSublist.subset member)
  have origin {id node} (found : t.shear.node? id = some node) :
      ∃ old, t.node? id = some old ∧ t.shorn old = node := by
    rw [nodeShear] at found
    exact Option.map_eq_some_iff.mp found
  exact {
    numbered := fun found => by
      obtain ⟨old, there, rfl⟩ := origin found
      exact (forest.numbered there : old.id = _)
    linked := fun {parent node child} found => by
      obtain ⟨old, there, rfl⟩ := origin found
      rw [forest.underShear, there]
      simp [shorn]
    known := fun link => by
      rw [nodeShear, Option.isSome_map]
      exact forest.known (under link)
    acyclic := fun id cycle => forest.acyclic id (TransGen.mono (fun _ _ => under) _ _ cycle)
    distinct := fun found => by
      obtain ⟨old, there, rfl⟩ := origin found
      exact (forest.distinct there).sublist old.servedSublist
    rooted := fun root => by
      obtain ⟨node, found, orphan⟩ := forest.rooted root
      exact ⟨t.shorn node, by rw [nodeShear, found]; rfl, by simp [shorn, orphan]⟩
    fitting := fun _ {_ _ _} found bounded => by
      obtain ⟨old, _, rfl⟩ := origin found
      exact Node.servedFits bounded
  }

end Forest

theorem Shorn.runTree (shorn : t.Shorn p) (plan : Plan W) (patience : Nat) (subject : SubjectId)
    (openNodes : OpenNodes) (world : W) :
    (plan.runTree patience p subject openNodes world : Option (Report W (Timeline W) × OpenNodes)) =
      plan.runTree patience t subject openNodes world := by
  cases rooted : t.root with
  | none => rw [Plan.runUnrooted rooted, Plan.runUnrooted (shorn.root.trans rooted)]
  | some root =>
    have start : (plan.equip subject t.id openNodes world : Moment W (Timeline W)) =
        plan.equip subject p.id openNodes world := by rw [shorn.id]
    have nodes (id : NodeId) : Option.Rel (Paired Eq Eq { plan, tree := t, subject, patience }
        { plan, tree := p, subject, patience }) (t.node? id) (p.node? id) := by
      rcases relCases (shorn.nodes id) with ⟨none, none'⟩ | ⟨node, node', found, found', same⟩
      · rw [none, none']
        exact .none
      · rw [found, found']
        exact .some (.twins ⟨rfl, rfl, rfl⟩ same.twin)
    exact Plan.runSame (Plan.runTogether rooted (shorn.root.trans rooted) rfl start nodes
      (fun _ => .same _) fun _ => .same _)

theorem Shorn.runs (shorn : t.Shorn p) (patience : Nat) (rounds : List (Round W))
    (openNodes : OpenNodes) (world : W) :
    p.runs patience rounds openNodes world = t.runs patience rounds openNodes world := by
  induction rounds generalizing openNodes world with
  | nil => rfl
  | cons round rounds ih =>
    unfold Tree.runs
    rw [shorn.runTree]
    simp only [ih]

theorem surplusUnobservable (t : Tree W) :
    (t.Shorn t.shear ∧ (t.Forest → t.shear.Forest)) ∧ ∀ {p : Tree W}, t.Shorn p →
      (∀ id, Option.Rel Node.Twin (t.node? id) (p.node? id)) ∧
      (∀ (plan : Plan W) (patience : Nat) (subject : SubjectId) (openNodes : OpenNodes) (world : W),
        (plan.runTree patience p subject openNodes world :
            Option (Report W (Timeline W) × OpenNodes)) =
          plan.runTree patience t subject openNodes world) ∧
      ∀ (patience : Nat) (rounds : List (Round W)) (openNodes : OpenNodes) (world : W),
        p.runs patience rounds openNodes world = t.runs patience rounds openNodes world := by
  refine ⟨⟨t.shornShear, Forest.shear⟩, fun {p} shorn => ⟨fun id => ?_, shorn.runTree, shorn.runs⟩⟩
  rcases relCases (shorn.nodes id) with ⟨none, none'⟩ | ⟨node, node', found, found', same⟩
  · rw [none, none']
    exact .none
  · rw [found, found']
    exact .some same.twin

def crowdEdits : List (Edit Unit) :=
  [.addNode (.detached "Decorator" .decorator .relaying .empty),
    .addNode (.detached "Leaf" .leaf { tick := some (.ofStatus .success) } .empty),
    .addNode (.detached "Leaf" .leaf { tick := some (.ofStatus .failure) } .empty),
    .setRoot ⟨0⟩, .addChild ⟨0⟩ ⟨1⟩]

theorem surplusUnobservableCrowd :
    let sparse : Tree Unit := attempts { id := ⟨"crowd"⟩ } crowdEdits
    let crowded : Tree Unit :=
      attempts { id := ⟨"crowd"⟩, arity := .relaxed } (crowdEdits ++ [.addChild ⟨0⟩ ⟨2⟩])
    sparse.Built ∧ crowded.Built ∧ sparse.childrenOf ⟨0⟩ = [⟨1⟩] ∧
      crowded.childrenOf ⟨0⟩ = [⟨1⟩, ⟨2⟩] ∧ crowded.Shorn sparse ∧
      ∀ openNodes, ({} : Plan Unit).runTree 1 sparse ⟨1⟩ openNodes () =
        (({} : Plan Unit).runTree 1 crowded ⟨1⟩ openNodes () :
          Option (Report Unit (Timeline Unit) × OpenNodes)) := by
  intro sparse crowded
  let pare (node : Node Unit) : Node Unit :=
    { node with
      children := node.served
      parent := if node.id = ⟨2⟩ then none else node.parent }
  have listed : sparse.nodes.toList = crowded.nodes.toList.map pare := rfl
  have nodes : sparse.nodes = crowded.nodes.map pare :=
    Array.toList_inj.mp (listed.trans Array.toList_map.symm)
  have shorn : crowded.Shorn sparse := .ofMap rfl rfl nodes fun _ => ⟨rfl, rfl, rfl⟩
  obtain ⟨_, runs, _⟩ := (surplusUnobservable crowded).2 shorn
  exact ⟨(Built.empty _ _).attempts _, (Built.empty _ _).attempts _, rfl, rfl, shorn,
    fun openNodes => runs {} 1 ⟨1⟩ openNodes ()⟩

end Tree
end BehaviorTree
