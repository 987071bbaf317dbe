import BehaviorTree.Proofs.Evaluation.Course

/-! A subject with its tree over time: runs that go on from the nodes left open, under any
plan and from any world, and edits of the tree between them. The history is what the runs
have shown so far, in order. -/
namespace BehaviorTree

variable {W : Type}

inductive Session (subject : SubjectId) : Tree W → OpenNodes → Timeline W → Prop where
  | start (id : TreeId) (arity : Arity) : Session subject { id, arity } .empty []
  | edit {tree changed openNodes history edit answer}
      (before : Session subject tree openNodes history)
      (ok : tree.edit edit = .ok (answer, changed)) : Session subject changed openNodes history
  | run {tree openNodes history} (before : Session subject tree openNodes history)
      (plan : Plan W) (patience : Nat) (world : W) {report left}
      (ok : plan.runTree patience tree subject openNodes world = some (report, left)) :
      Session subject tree left (history ++ report.seen)

theorem Plan.equipOpenNodes (plan : Plan W) (subject : SubjectId) (tree : TreeId)
    (openNodes : OpenNodes) (world : W) :
    (plan.equip subject tree openNodes world : Moment W (Timeline W)).openNodes = openNodes := by
  unfold Plan.equip
  cases plan.factory <;> rfl

theorem Plan.equipSeen (plan : Plan W) (subject : SubjectId) (tree : TreeId)
    (openNodes : OpenNodes) (world : W) :
    let start : Moment W (Timeline W) := plan.equip subject tree openNodes world
    start.seen = [] ∨ start.seen = [.equipped start.stage] := by
  intro start
  simp only [start]
  unfold Plan.equip
  cases plan.factory with
  | none => exact .inl rfl
  | some factory => exact .inr rfl

theorem Plan.runUnrooted {tree : Tree W} (unrooted : tree.root = none) (plan : Plan W)
    (patience : Nat) (subject : SubjectId) (openNodes : OpenNodes) (world : W) :
    plan.runTree patience tree subject openNodes world =
      some ((Report.idle world : Report W (Timeline W)), openNodes) := by
  unfold Plan.runTree
  rw [unrooted]

theorem Plan.runFrom {plan : Plan W} {patience tree subject openNodes world root}
    {report : Report W (Timeline W)} {left} (rooted : tree.root = some root)
    (ok : plan.runTree patience tree subject openNodes world = some (report, left)) :
    let start : Moment W (Timeline W) := plan.equip subject tree.id openNodes world
    ∃ t last, report.seen = start.seen ++ t ∧ left = last.openNodes ∧
      report.world = last.stage.world ∧
      Evaluates { plan, tree, subject, patience } plan.room root start.standing t
        report.status last := by
  unfold Plan.runTree at ok
  simp only [rooted] at ok
  split at ok
  · contradiction
  · rename_i status last ran
    cases ok
    obtain ⟨t, grown, evaluates⟩ := evaluatesSound _ _ _ _ _ _ ran
    exact ⟨t, last.standing, grown, rfl, rfl, evaluates⟩

theorem Plan.runSound {plan : Plan W} {patience tree subject openNodes world}
    {report : Report W (Timeline W)} {left}
    (ok : plan.runTree patience tree subject openNodes world = some (report, left)) :
    (tree.root = none ∧ report = .idle world ∧ left = openNodes) ∨
      ∃ root equipped t stage last, tree.root = some root ∧
        (equipped = [] ∨ ∃ stage, equipped = [.equipped stage]) ∧
        report.seen = equipped ++ t ∧ left = last.openNodes ∧ report.world = last.stage.world ∧
        Evaluates { plan, tree, subject, patience } plan.room root ⟨stage, openNodes⟩ t
          report.status last := by
  cases rooted : tree.root with
  | none =>
    unfold Plan.runTree at ok
    simp only [rooted] at ok
    cases ok
    exact .inl ⟨rfl, rfl, rfl⟩
  | some root =>
    obtain ⟨t, last, seen, flags, ends, evaluates⟩ := Plan.runFrom rooted ok
    rw [Moment.standing, Plan.equipOpenNodes] at evaluates
    refine .inr ⟨root, _, t, _, last, rfl, ?_, seen, flags, ends, evaluates⟩
    rcases Plan.equipSeen plan subject tree.id openNodes world with none | equipped
    · exact .inl none
    · exact .inr ⟨_, equipped⟩

namespace Session
variable {subject : SubjectId} {tree : Tree W} {openNodes : OpenNodes} {history : Timeline W}

theorem built (session : Session subject tree openNodes history) : tree.Built := by
  induction session with
  | start id arity => exact .empty id arity
  | edit _ ok ih => exact ih.edited ok
  | run _ _ _ _ _ ih => exact ih

theorem visited (session : Session subject tree openNodes history) (id : NodeId) :
    Visited id .empty history openNodes := by
  induction session with
  | start => exact (Visited.sequential id).nil _
  | edit _ _ ih => exact ih
  | run before plan patience world ok ih =>
    refine (Visited.sequential id).append ih ?_
    rcases Plan.runSound ok with ⟨_, rfl, rfl⟩ |
      ⟨root, equipped, t, stage, last, _, shown, seen, rfl, _, evaluates⟩
    · exact (Visited.sequential id).nil _
    · rw [seen]
      refine (Visited.sequential id).append ?_ (evaluates.visited before.built.forest id)
      refine .elsewhere ⟨?_, rfl⟩
      rcases shown with rfl | ⟨_, rfl⟩ <;> simp [Occurrence.node?]

theorem ran (before : Session subject tree openNodes history) (plan : Plan W) (patience : Nat)
    (world : W)
    (ends : (plan.runTree patience tree subject openNodes world :
      Option (Report W (Timeline W) × OpenNodes)).isSome = true) :
    Session subject tree (Option.get _ ends).2 (history ++ (Option.get _ ends).1.seen) :=
  before.run plan patience world (Option.some_get ends).symm

theorem sapling (subject : SubjectId) (behavior : Behavior W) :
    Session subject (Tree.sapling behavior) .empty [] := by
  obtain ⟨bare, content, id, rfl, added, rooted⟩ := Tree.saplingEdits behavior
  exact ((start _ _).edit added).edit rooted

end Session

def Behavior.echo : Behavior (Except CallbackError Outcome) where
  tick := some
    { Memory := Empty
      start := fun _ stage => .answer stage.world stage
      resume := fun memory => memory.elim }

end BehaviorTree
