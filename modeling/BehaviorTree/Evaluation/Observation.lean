import BehaviorTree.Evaluation.Run

/-!
An evaluation does not depend on its observer. With any observer it goes as it does with
the timeline, and what the observer has in the end is what it makes of that timeline
(`runTreeMap`). So the log of a run holds what its timeline records (`recordRunTree`).
-/
namespace BehaviorTree

variable {W T α β : Type}

namespace Moment

def afresh (m : Moment W T) : Moment W (Timeline W) :=
  { stage := m.stage, openNodes := m.openNodes, seen := [] }

def shownTo [Observer W T] (m : Moment W (Timeline W)) (before : T) : Moment W T :=
  { stage := m.stage, openNodes := m.openNodes, seen := m.seen.seenBy before }

theorem afreshShownTo [Observer W T] (m : Moment W (Timeline W)) (before : T) :
    (m.shownTo before).afresh = m.afresh := rfl

theorem shownToTwice [Observer W T] (m : Moment W (Timeline W)) (middle : Timeline W)
    (before : T) : (m.shownTo middle).shownTo before = m.shownTo (middle.seenBy before) := by
  simp [shownTo, Timeline.seenByAppend]

end Moment

/-- A walk for any observer that goes as with the timeline. -/
def Uniform (w : ∀ (T : Type) [Observer W T], Walk W T α) : Prop :=
  ∀ (T : Type) [Observer W T] (m : Moment W T),
    w T m = (w (Timeline W) m.afresh).map fun p => (p.1, p.2.shownTo m.seen)

namespace Uniform

theorem pure (a : α) : Uniform (W := W) fun _ _ => Pure.pure a := fun _ _ _ => rfl

theorem bind {x : ∀ (T : Type) [Observer W T], Walk W T α}
    {f : α → ∀ (T : Type) [Observer W T], Walk W T β} (hx : Uniform x)
    (hf : ∀ a, Uniform (f a)) : Uniform fun T _ => x T >>= fun a => f a T := by
  intro T _ m
  change (x T m).bind (fun p => f p.1 T p.2) =
    ((x (Timeline W) m.afresh).bind fun p => f p.1 (Timeline W) p.2).map _
  rw [hx T m]
  cases x (Timeline W) m.afresh with
  | none => rfl
  | some p =>
    obtain ⟨a, middle⟩ := p
    simp only [Option.map_some, Option.bind_some]
    rw [hf a T, hf a (Timeline W) middle, Option.map_map]
    congr 1
    funext p
    simp [Moment.shownToTwice]
    rfl

theorem note (o : Occurrence W) : Uniform fun _ _ => Walk.note o := fun _ _ _ => rfl

theorem isOpen (node : NodeId) : Uniform (W := W) fun _ _ => Walk.isOpen node := fun _ _ _ => rfl

theorem setOpen (node : NodeId) (b : Bool) : Uniform (W := W) fun _ _ => Walk.setOpen node b :=
  fun _ _ _ => rfl

theorem call (node : NodeId) (step : Step) (callback : Callback W) :
    Uniform fun _ _ => Walk.call node step callback := fun _ _ _ => rfl

theorem report (event : Trace.Event) : Uniform (W := W) fun _ _ => Walk.report event :=
  fun _ _ _ => rfl

theorem contain (scene : Scene W) (fault : Fault) :
    Uniform fun _ _ => scene.contain fault := fun _ _ _ => rfl

variable {scene : Scene W} {node : Node W}
  {descend : NodeId → ∀ (T : Type) [Observer W T], Walk W T Status}

theorem converse {tick : Tick W} (hd : ∀ id, Uniform (descend id)) (patience : Nat)
    (move : Move W tick.Memory) (T : Type) [Observer W T] (openNodes : OpenNodes) (seen : T) :
    Activation.converse (fun id => descend id T) node tick patience move openNodes seen =
      (Activation.converse (fun id => descend id (Timeline W)) node tick patience move openNodes
        []).map fun p => (p.1, p.2.shownTo seen) := by
  induction patience generalizing T move openNodes seen with
  | zero => cases move <;> rfl
  | succ patience ih =>
    cases move with
    | answer result stage => rfl
    | ask request stage memory =>
      simp only [Activation.converse]
      cases node.locate request with
      | error e => exact ih _ T openNodes seen
      | ok child =>
        dsimp only
        rw [hd child T]
        simp only [Moment.afresh]
        cases descend child (Timeline W) { stage, openNodes, seen := [] } with
        | none => rfl
        | some p =>
          obtain ⟨status, middle⟩ := p
          simp only [Option.map_some, Moment.shownTo]
          rw [ih _ T, ih _ (Timeline W) middle.openNodes middle.seen, Option.map_map]
          congr 1
          funext p
          simp [Moment.shownTo, Timeline.seenByAppend]

theorem tickNode (hd : ∀ id, Uniform (descend id)) :
    Uniform fun T _ => Activation.tickNode scene (fun id => descend id T) node := by
  refine bind (x := fun T _ => Activation.tickNode.played scene (fun id => descend id T) node)
    ?_ fun result => bind (note _) fun _ => pure result
  intro T _ m
  unfold Activation.tickNode.played
  cases node.content.behavior.tick with
  | none => rfl
  | some tick =>
    dsimp only
    rw [converse hd]
    conv =>
      rhs
      rw [converse hd]
    rw [Option.map_map]
    congr 1
    funext p
    simp [Moment.shownToTwice]
    rfl

theorem openWhenClosed : Uniform fun _ _ => Activation.openWhenClosed scene node := by
  refine bind (isOpen node.id) fun b => ?_
  cases b
  · exact bind (report _) fun _ => call _ _ _
  · exact pure _

theorem closeUnlessRunning (status : Status) :
    Uniform fun _ _ => Activation.closeUnlessRunning scene node status := by
  unfold Activation.closeUnlessRunning
  split
  · exact bind (setOpen _ _) fun _ => pure _
  · refine bind (report _) fun _ => bind (call _ _ _) fun closed => bind (setOpen _ _) fun _ => ?_
    cases closed <;> exact pure _

theorem settle (outcome : Outcome) : Uniform fun _ _ => Activation.settle scene node outcome := by
  cases outcome with
  | status s => exact bind (report _) fun _ => closeUnlessRunning _
  | unrecognized text =>
    exact bind (report _) fun _ => bind (report _) fun _ => closeUnlessRunning _

theorem steps (hd : ∀ id, Uniform (descend id)) :
    Uniform fun T _ => Activation.steps scene (fun id => descend id T) node := by
  refine bind (report _) fun _ => bind (call _ _ _) fun entered => ?_
  cases entered with
  | error e => exact pure _
  | ok =>
    refine bind openWhenClosed fun opened => ?_
    cases opened with
    | error e => exact pure _
    | ok =>
      refine bind (tickNode hd) fun ticked => ?_
      cases ticked with
      | error e => exact pure _
      | ok outcome => exact settle outcome

theorem leave (status : Status) : Uniform fun _ _ => Activation.leave scene node status := by
  refine bind (report _) fun _ => bind (call _ _ _) fun left => ?_
  cases left with
  | ok => exact pure _
  | error e => exact contain _ _

theorem activate (hd : ∀ id, Uniform (descend id)) :
    Uniform fun T _ => Activation.activate scene (fun id => descend id T) node := by
  have finish : ∀ status, Uniform (W := W) fun T _ => (do
      let final ← Activation.leave scene node status
      Walk.note (.ended node.id final)
      Pure.pure final : Walk W T Status) := fun status =>
    bind (leave status) fun _ => bind (note _) fun _ => pure _
  refine bind (note _) fun _ => bind (steps hd) fun result => ?_
  cases result with
  | ok status => exact bind (pure _) finish
  | error fault => exact bind (contain _ _) finish

theorem evaluate (scene : Scene W) (room : Nat) (id : NodeId) :
    Uniform fun _ _ => BehaviorTree.evaluate scene room id := by
  induction room generalizing id with
  | zero =>
    unfold BehaviorTree.evaluate
    cases scene.tree.node? id <;> exact bind (note _) fun _ => pure _
  | succ room ih =>
    unfold BehaviorTree.evaluate
    cases scene.tree.node? id with
    | none => exact bind (note _) fun _ => pure _
    | some node =>
      let descend (id : NodeId) (T : Type) [Observer W T] : Walk W T Status :=
        BehaviorTree.evaluate scene room id
      exact activate (show ∀ id, Uniform (descend id) from ih)

end Uniform

def Report.shownTo (r : Report W (Timeline W)) (T : Type) [Observer W T] : Report W T :=
  { status := r.status, seen := r.seen.seenBy (Observer.start W), world := r.world }

theorem Plan.equipShownTo [Observer W T] (plan : Plan W) (subject : SubjectId) (tree : TreeId)
    (openNodes : OpenNodes) (world : W) :
    plan.equip subject tree openNodes world =
      (plan.equip subject tree openNodes world : Moment W (Timeline W)).shownTo
        (Observer.start W : T) := by
  unfold Plan.equip
  cases plan.factory <;> rfl

theorem Plan.runTreeMap [Observer W T] (plan : Plan W) (patience : Nat) (tree : Tree W)
    (subject : SubjectId) (openNodes : OpenNodes) (world : W) :
    (plan.runTree patience tree subject openNodes world : Option (Report W T × OpenNodes)) =
      (plan.runTree patience tree subject openNodes world).map fun p => (p.1.shownTo T, p.2) := by
  unfold Plan.runTree
  cases tree.root with
  | none => rfl
  | some root =>
    dsimp only
    have go : ∀ (T : Type) [Observer W T] (m : Moment W T),
        evaluate { plan, tree, subject, patience } plan.room root m =
          (evaluate { plan, tree, subject, patience } plan.room root m.afresh).map
            fun p => (p.1, p.2.shownTo m.seen) :=
      fun T _ m => Uniform.evaluate _ _ root T m
    rw [Plan.equipShownTo]
    generalize (plan.equip subject tree.id openNodes world : Moment W (Timeline W)) = m
    rw [go T (m.shownTo _), go (Timeline W) m, Moment.afreshShownTo]
    cases evaluate { plan, tree, subject, patience } plan.room root m.afresh with
    | none => rfl
    | some p => simp [Moment.shownTo, Report.shownTo, Timeline.seenByAppend]

/-- The log of a run holds the events that its timeline records. -/
theorem Plan.recordRunTree (plan : Plan W) (patience : Nat) (tree : Tree W) (subject : SubjectId)
    (openNodes : OpenNodes) (world : W) :
    (plan.runTree patience tree subject openNodes world).map
        (fun p : Report W Trace.Log × OpenNodes => p.1.seen.events) =
      (plan.runTree patience tree subject openNodes world).map
        fun p : Report W (Timeline W) × OpenNodes => p.1.seen.record := by
  rw [Plan.runTreeMap, Option.map_map]
  congr 1
  funext p
  simp only [Function.comp_apply, Report.shownTo, Timeline.eventsSeenBy]
  rfl

end BehaviorTree
