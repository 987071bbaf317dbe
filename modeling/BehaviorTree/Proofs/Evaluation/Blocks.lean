import BehaviorTree.Proofs.Evaluation.Nesting
import BehaviorTree.Proofs.Evaluation.Recounting

/-! The events of a run as blocks. The events of an activation are a block, and the blocks of
the children that its tick evaluated stand inside, one after the other; so a run is recounted
activation by activation, from the root down to the depth limit. -/
namespace BehaviorTree

variable {W : Type}

inductive Block (scene : Scene W) : Nat → NodeId → Timeline W → Prop where
  | refused {depth id} (beyond : scene.plan.maxDepth.toNat < depth) :
      Block scene depth id [.refused id]
  | activation {depth id t} {before after : Timeline W} {children : List (NodeId × Timeline W)}
      {status} (within : depth ≤ scene.plan.maxDepth.toNat)
      (whole : t =
        .began id :: before ++ children.flatMap Prod.snd ++ after ++ [.ended id status])
      (inside : ∀ o ∈ before ++ after, o.Inside id)
      (asked : children = [] ∨ ∃ stage result,
        before.getLast? = some (.called id .tick stage) ∧
        after.head? = some (.returned id .tick result))
      (recounts : Recounts scene id t (children.flatMap fun child => child.2.events) t.events)
      (under : ∀ child ∈ children, scene.tree.Under child.1 id)
      (blocks : ∀ child ∈ children, Block scene (depth + 1) child.1 child.2) :
      Block scene depth id t

open BehaviorTree.Derivation

theorem Evaluates.block {scene : Scene W} (forest : scene.tree.Forest) {depth room id}
    {s last : Standing W} {t : Timeline W} {status}
    (down : room + depth = scene.plan.maxDepth.toNat + 1) (known : (scene.tree.node? id).isSome)
    (evaluates : Evaluates scene room id s t status last) : Block scene depth id t := by
  induction room generalizing depth id s t status last with
  | zero =>
    cases evaluates with
    | absent none => simp [none] at known
    | refused => exact .refused (by omega)
    | activated _ room => cases room
  | succ room ih =>
    cases evaluates with
    | absent none => simp [none] at known
    | refused _ limit => cases limit
    | @activated _ _ node _ _ _ _ found room activated =>
      cases room
      have same := forest.numbered found
      obtain ⟨body, before, after, children, whole, around, recounts⟩ :=
        activated.recounts (apartOfForest forest found)
      rw [same] at whole recounts
      have under {child request} (located : node.locate request = .ok child) :
          scene.tree.Under child id := forest.underOfAsks ⟨node, request, found, located⟩
      have inside := around.inside
      have asked := around.asked
      rw [same] at inside asked
      have shape : t =
          .began id :: before ++ children.flatMap Prod.snd ++ after ++ [.ended id status] := by
        rw [whole, around.whole]
        simp
      refine .activation (by omega) shape inside asked recounts ?_ ?_
      · intro child mem
        obtain ⟨request, _, _, _, located, _⟩ := around.located child mem
        exact under located
      · intro child mem
        obtain ⟨request, s, status, last, located, evaluated⟩ := around.located child mem
        exact ih (by omega) (Tree.Forest.knownOfParent (under located)) evaluated

structure Faithful (scene : Scene W) (start : Moment W (Timeline W)) (seen : Timeline W) :
    Prop where
  blocks : (scene.tree.root = none ∧ seen = []) ∨
    ∃ root t, scene.tree.root = some root ∧ seen = start.seen ++ t ∧ start.seen.events = [] ∧
      Block scene 0 root t
  -- Each event is of the innermost activation, and no other in progress is of that node.
  owned : ∀ {before after : Timeline W} {event recorded},
    seen = before ++ .reported event recorded :: after →
      before.active.head? = some event.node ∧ before.active.Nodup
  -- Whoever has a stage before it finds in the log all that was sent so far.
  logged : ∀ {before after : Timeline W} {o stage}, seen = before ++ o :: after →
    o.stage? = some stage → Traced start.stage before.events stage
  received : seen.record = if start.stage.records then seen.events else []

theorem equippedRecorded (plan : Plan W) (subject : SubjectId) (tree : TreeId)
    (openNodes : OpenNodes) (world : W) :
    let start : Moment W (Timeline W) := plan.equip subject tree openNodes world
    start.seen.events = [] ∧ Recorded start.standing start.seen start.standing := by
  intro start
  rcases plan.equipSeen subject tree openNodes world with none | equipped
  · have empty : start.seen = [] := none
    rw [empty]
    exact ⟨rfl, .rests (.refl _)⟩
  · have shown : start.seen = [.equipped start.stage] := equipped
    rw [shown]
    refine ⟨rfl, .still rfl (fun stage same => ?_) rfl⟩
    cases same
    rfl

theorem Plan.runRecorded {plan : Plan W} {patience} {tree : Tree W} {subject openNodes world}
    (discreet : ∀ {id node}, tree.node? id = some node → node.content.behavior.Discreet)
    {report : Report W (Timeline W)} {left}
    (ok : plan.runTree patience tree subject openNodes world = some (report, left)) :
    ∃ last, Recorded (plan.equip subject tree.id openNodes world : Moment W (Timeline W)).standing
      report.seen last := by
  cases rooted : tree.root with
  | none =>
    cases (Plan.runUnrooted rooted plan patience subject openNodes world).symm.trans ok
    exact ⟨_, .rests (.refl _)⟩
  | some root =>
    obtain ⟨t, last, seen, _, _, evaluates⟩ := Plan.runFrom rooted ok
    obtain ⟨_, equipped⟩ := equippedRecorded plan subject tree.id openNodes world
    have ran : Recorded _ t last :=
      evaluatesCarried (fun found => recordedCarries (discreet found)) boundsRecorded evaluates
    exact ⟨last, seen ▸ equipped.append ran⟩

theorem traceFaithful {plan : Plan W} {patience} {tree : Tree W} {subject openNodes world}
    (built : tree.Built)
    (discreet : ∀ {id node}, tree.node? id = some node → node.content.behavior.Discreet)
    {report : Report W (Timeline W)} {left}
    (ok : plan.runTree patience tree subject openNodes world = some (report, left)) :
    Faithful { plan, tree, subject, patience } (plan.equip subject tree.id openNodes world)
      report.seen := by
  have nested := Plan.runNested built ok
  have owned {before after : Timeline W} {event recorded}
      (split : report.seen = before ++ .reported event recorded :: after) :
      before.active.head? = some event.node ∧ before.active.Nodup := by
    obtain ⟨path, _, same⟩ := nested.here split
    exact ⟨same.symm, path.distinct built.forest⟩
  cases rooted : tree.root with
  | none =>
    unfold Plan.runTree at ok
    simp only [rooted] at ok
    cases ok
    exact ⟨.inl ⟨rooted, rfl⟩, owned, by simp [Report.idle, Observer.start], (ite_self _).symm⟩
  | some root =>
    obtain ⟨t, last, seen, _, _, evaluates⟩ := Plan.runFrom rooted ok
    obtain ⟨quiet, equipped⟩ := equippedRecorded plan subject tree.id openNodes world
    have ran : Recorded _ t last :=
      evaluatesCarried (fun found => recordedCarries (discreet found)) boundsRecorded evaluates
    have recorded := equipped.append ran
    rw [← seen] at recorded
    obtain ⟨node, found, _⟩ := built.forest.rooted rooted
    have known : (tree.node? root).isSome := by simp [found]
    have down : plan.room + 0 = plan.maxDepth.toNat + 1 := rfl
    have block := evaluates.block built.forest down known
    exact ⟨.inr ⟨root, t, rooted, seen, quiet, block⟩, owned, recorded.shown, recorded.received⟩

def Plan.logged : Plan Unit where
  factory := some fun _ stage =>
    { stage with toolbox := { stage.toolbox with
        slots := (stage.toolbox.slots.set Trace.sinkKey .recording).set Trace.logKey {} } }

def Behavior.odd : Behavior Unit where
  tick := some
    { Memory := Empty
      start := fun _ stage => .answer (.ok (.unrecognized "odd")) stage
      resume := fun memory => memory.elim }

theorem traceFaithfulOdd : ∃ (report : Report Unit (Timeline Unit)) (left : OpenNodes),
    let tree := Tree.pair .relaying .odd
    let start : Moment Unit (Timeline Unit) := Plan.logged.equip ⟨1⟩ tree.id .empty ()
    Plan.logged.runTree 1 tree ⟨1⟩ .empty () = some (report, left) ∧
      start.stage.log? = some {} ∧ start.stage.records = true ∧
      report.seen.record.map (fun event => (event.node.number, event.phase)) =
        [(0, .enter), (0, .opening), (1, .enter), (1, .opening), (1, .invalid), (1, .tick),
          (1, .close), (1, .exit), (0, .tick), (0, .close), (0, .exit)] ∧
      Faithful { plan := Plan.logged, tree, subject := ⟨1⟩, patience := 1 } start report.seen := by
  have relaying : (Behavior.relaying : Behavior Unit).Discreet :=
    .ofTick (fun _ => .refl) fun _ _ => .refl
  have odd : Behavior.odd.Discreet := .ofTick (fun _ => .refl) fun memory => memory.elim
  have ok : (Plan.logged.runTree 1 (Tree.pair .relaying .odd) ⟨1⟩ .empty () :
      Option (Report Unit (Timeline Unit) × OpenNodes)) = some (_, _) := rfl
  refine ⟨_, _, ok, rfl, rfl, by decide +kernel, ?_⟩
  refine traceFaithful (.pair _ _) (fun {id node} found => ?_) ok
  rcases Tree.pairBehavior found with same | same
  · exact same ▸ relaying
  · exact same ▸ odd

end BehaviorTree
