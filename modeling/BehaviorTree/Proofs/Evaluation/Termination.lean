import BehaviorTree.Proofs.Evaluation.Nesting
import BehaviorTree.Routine

/-! Runs end. Patience is what cuts a tick off that asks for children without end; where each
tick answers after finitely many requests, some patience suffices for the whole run, and no
larger one changes it. The requests need not be bounded beforehand: it is enough that, with
the replies that the children really give, there is no endless conversation. -/
namespace BehaviorTree

variable {W α β : Type}

def Scene.patient (scene : Scene W) (patience : Nat) : Scene W := { scene with patience }

abbrev Descent (W : Type) := Nat → NodeId → Walk W (Timeline W) Status

/- From this move on the tick comes to an answer, with whatever patience its children are
evaluated. -/
inductive Settles (descend : Descent W) (node : Node W) (tick : Tick W) :
    Move W tick.Memory → OpenNodes → Prop where
  | answer (result stage openNodes) : Settles descend node tick (.answer result stage) openNodes
  | misses {request stage memory openNodes e} (located : node.locate request = .error e)
      (rest : Settles descend node tick (tick.resume memory (.error e) stage) openNodes) :
      Settles descend node tick (.ask request stage memory) openNodes
  | child {request stage memory openNodes id} (located : node.locate request = .ok id)
      (rest : ∀ {patience seen status last},
        descend patience id ⟨stage, openNodes, seen⟩ = some (status, last) →
          Settles descend node tick (tick.resume memory (.ok status) last.stage) last.openNodes) :
      Settles descend node tick (.ask request stage memory) openNodes

theorem Settles.ofRoutine {descend : Descent W} {node : Node W}
    {start : View → Stage W → Routine W (Except CallbackError Outcome)}
    (routine : Routine W (Except CallbackError Outcome)) (openNodes : OpenNodes) :
    Settles descend node (.ofRoutine start) routine.move openNodes := by
  induction routine generalizing openNodes with
  | done result stage => exact .answer _ _ _
  | ask request stage resume ih =>
    cases located : node.locate request with
    | error e => exact .misses located (ih (.error e) stage openNodes)
    | ok id => exact .child located fun {_ _ status last} _ => ih (.ok status) last.stage _

def Scene.Settles (scene : Scene W) : Prop :=
  ∀ {id node tick}, scene.tree.node? id = some node → node.content.behavior.tick = some tick →
    ∀ room stage openNodes, BehaviorTree.Settles
      (fun patience => evaluate (scene.patient patience) room) node tick
      (tick.start node.view stage) openNodes

def Scene.SettlesUnder (scene : Scene W) (id : NodeId) : Prop :=
  ∀ {other node tick}, scene.tree.Reaches id other → scene.tree.node? other = some node →
    node.content.behavior.tick = some tick → ∀ room stage openNodes, BehaviorTree.Settles
      (fun patience => evaluate (scene.patient patience) room) node tick
      (tick.start node.view stage) openNodes

theorem Scene.settlesOfRoutines {scene : Scene W}
    (played : ∀ {id node tick}, scene.tree.node? id = some node →
      node.content.behavior.tick = some tick → ∃ start, tick = .ofRoutine start) :
    scene.Settles := by
  intro id node tick found ticks room stage openNodes
  obtain ⟨start, rfl⟩ := played found ticks
  exact .ofRoutine (start node.view stage) openNodes

def Ends (walk : Nat → Walk W (Timeline W) α) : Prop :=
  ∀ m, ∃ result enough, ∀ patience, enough ≤ patience → walk patience m = some result

namespace Ends

theorem bind {x : Nat → Walk W (Timeline W) α} {f : Nat → α → Walk W (Timeline W) β}
    (first : Ends x) (rest : ∀ a, Ends (f · a)) : Ends fun patience => x patience >>= f patience := by
  intro m
  obtain ⟨⟨a, middle⟩, enough, came⟩ := first m
  obtain ⟨⟨b, last⟩, enough', came'⟩ := rest a middle
  refine ⟨(b, last), max enough enough', fun patience le => ?_⟩
  have before := came patience (by omega)
  have after := came' patience (by omega)
  exact Walk.bindIff.mpr ⟨a, middle, before, after⟩

theorem always {walk : Nat → Walk W (Timeline W) α}
    (went : ∀ m, ∃ result, ∀ patience, walk patience m = some result) : Ends walk := by
  intro m
  obtain ⟨result, came⟩ := went m
  exact ⟨result, 0, fun patience _ => came patience⟩

theorem pure (a : α) : Ends (W := W) fun _ => Pure.pure a := always fun _ => ⟨_, fun _ => rfl⟩

theorem note (o : Occurrence W) : Ends fun _ => Walk.note o := always fun _ => ⟨_, fun _ => rfl⟩

theorem isOpen (node : NodeId) : Ends (W := W) fun _ => Walk.isOpen node :=
  always fun _ => ⟨_, fun _ => rfl⟩

theorem setOpen (node : NodeId) (isOpen : Bool) : Ends (W := W) fun _ => Walk.setOpen node isOpen :=
  always fun _ => ⟨_, fun _ => rfl⟩

theorem call (node : NodeId) (step : Step) (callback : Callback W) :
    Ends fun _ => Walk.call node step callback := always fun _ => ⟨_, fun _ => rfl⟩

variable {scene : Scene W} {node : Node W} {descend : Descent W}

theorem report (id : NodeId) (phase : Trace.Phase) (status : Option Status) :
    Ends fun patience => (scene.patient patience).report id phase status := by
  change Ends fun _ => scene.report id phase status
  exact always fun _ => ⟨_, fun _ => rfl⟩

theorem contain (fault : Fault) :
    Ends fun patience => (scene.patient patience).contain fault := by
  change Ends fun _ => scene.contain fault
  exact always fun _ => ⟨_, fun _ => rfl⟩

/- The patience that the conversation takes is above what its children take. -/
theorem converse {tick : Tick W}
    (below : ∀ {request id}, node.locate request = .ok id → Ends (descend · id))
    {move : Move W tick.Memory} {openNodes : OpenNodes}
    (settles : Settles descend node tick move openNodes)
    (seen : Timeline W) :
    ∃ result enough, ∀ patience, enough ≤ patience → ∀ fuel, enough ≤ fuel →
      Activation.converse (descend patience) node tick fuel move openNodes seen = some result := by
  induction settles generalizing seen with
  | answer result stage openNodes =>
    refine ⟨(result, { stage, openNodes, seen }), 0, fun _ _ fuel _ => ?_⟩
    cases fuel <;> rfl
  | misses located _ ih =>
    obtain ⟨result, enough, came⟩ := ih seen
    refine ⟨result, enough + 1, fun patience le fuel le' => ?_⟩
    obtain ⟨fuel, rfl⟩ : ∃ n, fuel = n + 1 := ⟨fuel - 1, by omega⟩
    simp only [Activation.converse, located]
    exact came patience (by omega) fuel (by omega)
  | @child request stage memory openNodes id located _ ih =>
    obtain ⟨⟨status, last⟩, enough, came⟩ := below located ⟨stage, openNodes, seen⟩
    obtain ⟨result, enough', came'⟩ := ih (came enough (Nat.le_refl _)) last.seen
    refine ⟨result, max enough enough' + 1, fun patience le fuel le' => ?_⟩
    obtain ⟨fuel, rfl⟩ : ∃ n, fuel = n + 1 := ⟨fuel - 1, by omega⟩
    have asked := came patience (by omega)
    simp only [Activation.converse, located, asked]
    exact came' patience (by omega) fuel (by omega)

theorem tickNode (below : ∀ {request id}, node.locate request = .ok id → Ends (descend · id))
    (settles : ∀ {tick}, node.content.behavior.tick = some tick → ∀ stage openNodes,
      Settles descend node tick (tick.start node.view stage) openNodes) :
    Ends fun patience => Activation.tickNode (scene.patient patience) (descend patience) node := by
  refine bind ?_ fun result => bind (note _) fun _ => pure result
  intro m
  unfold Activation.tickNode.played
  cases ticks : node.content.behavior.tick with
  | none => exact ⟨_, 0, fun _ _ => rfl⟩
  | some tick =>
    obtain ⟨result, enough, came⟩ := converse below (settles ticks m.stage m.openNodes)
      (m.see (.called node.id .tick m.stage)).seen
    exact ⟨result, enough, fun patience le => came patience le patience le⟩

theorem openWhenClosed :
    Ends fun patience => Activation.openWhenClosed (scene.patient patience) node := by
  refine bind (isOpen node.id) fun isOpen => ?_
  cases isOpen
  · exact bind (report _ _ _) fun _ => call _ _ _
  · exact pure _

theorem closeUnlessRunning (status : Status) :
    Ends fun patience => Activation.closeUnlessRunning (scene.patient patience) node status := by
  unfold Activation.closeUnlessRunning
  split
  · exact bind (setOpen _ _) fun _ => pure _
  · refine bind (report _ _ _) fun _ => bind (call _ _ _) fun closed =>
      bind (setOpen _ _) fun _ => ?_
    cases closed <;> exact pure _

theorem settle (outcome : Outcome) :
    Ends fun patience => Activation.settle (scene.patient patience) node outcome := by
  cases outcome with
  | status s => exact bind (report _ _ _) fun _ => closeUnlessRunning _
  | unrecognized text =>
    exact bind (report _ _ _) fun _ => bind (report _ _ _) fun _ => closeUnlessRunning _

section Activation
variable (below : ∀ {request id}, node.locate request = .ok id → Ends (descend · id))
  (settles : ∀ {tick}, node.content.behavior.tick = some tick → ∀ stage openNodes,
    Settles descend node tick (tick.start node.view stage) openNodes)
include below settles

theorem steps :
    Ends fun patience => Activation.steps (scene.patient patience) (descend patience) node := by
  refine bind (report _ _ _) fun _ => bind (call _ _ _) fun entered => ?_
  cases entered with
  | error e => exact pure _
  | ok =>
    refine bind openWhenClosed fun opened => ?_
    cases opened with
    | error e => exact pure _
    | ok =>
      refine bind (tickNode below settles) fun ticked => ?_
      cases ticked with
      | error e => exact pure _
      | ok outcome => exact settle outcome

theorem activate :
    Ends fun patience => Activation.activate (scene.patient patience) (descend patience) node := by
  have leave (status : Status) :
      Ends fun patience => Activation.leave (scene.patient patience) node status := by
    refine bind (report _ _ _) fun _ => bind (call _ _ _) fun left => ?_
    cases left with
    | ok => exact pure _
    | error e => exact contain _
  refine bind (note _) fun _ => bind (steps below settles) fun result => ?_
  cases result with
  | ok status =>
    exact bind (pure status) fun status => bind (leave status) fun _ => bind (note _) fun _ => pure _
  | error fault =>
    exact bind (contain fault) fun status =>
      bind (leave status) fun _ => bind (note _) fun _ => pure _

end Activation

theorem evaluate (id : NodeId) (settles : scene.SettlesUnder id) (room : Nat) :
    Ends fun patience => BehaviorTree.evaluate (scene.patient patience) room id := by
  induction room generalizing id with
  | zero =>
    cases found : scene.tree.node? id with
    | none =>
      simp only [BehaviorTree.evaluate, Scene.patient, found]
      exact bind (note _) fun _ => pure _
    | some node =>
      simp only [BehaviorTree.evaluate, Scene.patient, found]
      exact bind (note _) fun _ => pure _
  | succ room ih =>
    cases found : scene.tree.node? id with
    | none =>
      simp only [BehaviorTree.evaluate, Scene.patient, found]
      exact bind (note _) fun _ => pure _
    | some node =>
      simp only [BehaviorTree.evaluate, Scene.patient, found]
      refine activate (fun located => ih _ fun reach => settles (.head ⟨_, _, found, located⟩ reach))
        fun ticks stage openNodes => settles .refl found ticks room stage openNodes

end Ends

section Run
variable {plan : Plan W} {tree : Tree W} {subject : SubjectId}
  (settles : Scene.Settles { plan, tree, subject, patience := 0 })
include settles

theorem Plan.ends (openNodes : OpenNodes) (world : W) :
    ∃ (report : Report W (Timeline W)) (left : OpenNodes) (enough : Nat),
      ∀ patience, enough ≤ patience →
        plan.runTree patience tree subject openNodes world = some (report, left) := by
  unfold Plan.runTree
  cases tree.root with
  | none => exact ⟨_, _, 0, fun _ _ => rfl⟩
  | some root =>
    obtain ⟨⟨status, last⟩, enough, came⟩ :=
      Ends.evaluate root (fun _ => settles) plan.room (plan.equip subject tree.id openNodes world)
    refine ⟨⟨status, last.seen, last.stage.world⟩, last.openNodes, enough, fun patience le => ?_⟩
    have evaluated := came patience le
    simp only [Scene.patient] at evaluated
    simp only [evaluated]

/- However deep the limit lets it go. -/
theorem runEnds (built : tree.Built) (openNodes : OpenNodes) (world : W) :
    ∃ (report : Report W (Timeline W)) (left : OpenNodes) (enough : Nat),
      (∀ patience, enough ≤ patience →
        plan.runTree patience tree subject openNodes world = some (report, left)) ∧
      Bounded tree plan.maxDepth.toNat report.seen := by
  obtain ⟨report, left, enough, ran⟩ := Plan.ends settles openNodes world
  have nested := Plan.runNested built (ran enough (Nat.le_refl _))
  exact ⟨report, left, enough, ran, nested.bounded built.forest⟩

end Run

def Behavior.twice : Behavior Unit where
  tick := some <| .ofRoutine fun _ =>
    (do
      let _ ← Staged.request .child
      let reply ← Staged.request .child
      return reply.map .status : Staged Unit (Except CallbackError Outcome))

def Behavior.agreeing : Behavior Unit where
  tick := some <| .ofRoutine fun _ => .done (.ok (.status .success))

theorem runEndsUnlimited :
    let tree := Tree.pair .twice .agreeing
    let plan : Plan Unit := { maxDepth := 18446744073709551615 }
    ∃ (report : Report Unit (Timeline Unit)) (left : OpenNodes) (enough : Nat),
      plan.runTree enough tree ⟨1⟩ .empty () = some (report, left) ∧
        Bounded tree plan.maxDepth.toNat report.seen := by
  intro tree plan
  have settles : Scene.Settles { plan, tree, subject := ⟨1⟩, patience := 0 } :=
    Scene.settlesOfRoutines fun {id node tick} found ticks => by
      rcases Tree.pairBehavior found with same | same
      · rw [same] at ticks
        exact ⟨_, (Option.some.inj ticks).symm⟩
      · rw [same] at ticks
        exact ⟨_, (Option.some.inj ticks).symm⟩
  obtain ⟨report, left, enough, ran, bounded⟩ := runEnds settles (.pair _ _) .empty ()
  exact ⟨report, left, enough, ran enough (Nat.le_refl _), bounded⟩

end BehaviorTree
