import BehaviorTree.Evaluation.Activation

/-!
Evaluation of a node below a depth limit, and runs of whole trees. The recursion is on the
room that is left: the depths, from the node's own down to the limit, that may still be used.
-/
namespace BehaviorTree

/-- Evaluates a node. Without room the node is an error, as is one that is not in the tree. -/
def evaluate {W T : Type} [Observer W T] (scene : Scene W) : Nat → NodeId → Walk W T Status
  | 0, id =>
    match scene.tree.node? id with
    | none => do
      Walk.note (.absent id)
      pure .error
    | some _ => do
      Walk.note (.refused id)
      pure .error
  | room + 1, id =>
    match scene.tree.node? id with
    | none => do
      Walk.note (.absent id)
      pure .error
    | some node => Activation.activate scene (evaluate scene room) node

def Plan.room {W : Type} (plan : Plan W) : Nat := plan.maxDepth.toNat + 1

structure Report (W T : Type) where
  status : Status
  seen : T
  world : W

def Report.idle {W T : Type} [Observer W T] (world : W) : Report W T :=
  ⟨.error, Observer.start W, world⟩

def Plan.equip {W T : Type} [Observer W T] (plan : Plan W) (subject : SubjectId) (tree : TreeId)
    (openNodes : OpenNodes) (world : W) : Moment W T :=
  let base : Stage W := { toolbox := { subject, tree }, world }
  match plan.factory with
  | none => { stage := base, openNodes, seen := Observer.start W }
  | some factory =>
    let stage := factory subject base
    { stage, openNodes, seen := Observer.see (Observer.start W) (.equipped stage) }

/-- Runs a tree for a subject from the nodes it left open; `none` if a tick was cut off. -/
def Plan.runTree {W T : Type} [Observer W T] (plan : Plan W) (patience : Nat) (tree : Tree W)
    (subject : SubjectId) (openNodes : OpenNodes) (world : W) :
    Option (Report W T × OpenNodes) :=
  match tree.root with
  | none => some (.idle world, openNodes)
  | some root =>
    match evaluate { plan, tree, subject, patience } plan.room root
        (plan.equip subject tree.id openNodes world) with
    | none => none
    | some (status, last) =>
      some ({ status, seen := last.seen, world := last.stage.world }, last.openNodes)

end BehaviorTree
