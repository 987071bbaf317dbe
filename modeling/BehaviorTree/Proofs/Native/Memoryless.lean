import BehaviorTree.Proofs.Evaluation.Coupling
import BehaviorTree.Proofs.Native.Forecast

/-! Native trees have no memory. Two runs of such a tree, whatever they start from, write the same
flags in the same order and come to the same status. So a second run leaves the flags as the
first one has left them. -/
namespace BehaviorTree

variable {W : Type}

namespace OpenNodes

def write (s : OpenNodes) (flag : NodeId × Bool) : OpenNodes :=
  if flag.2 then s.insert flag.1 else s.erase flag.1

def written (s : OpenNodes) (writes : List (NodeId × Bool)) : OpenNodes := writes.foldl write s

theorem containsWrite (s : OpenNodes) (flag : NodeId × Bool) (node : NodeId) :
    (s.write flag).contains node = if node = flag.1 then flag.2 else s.contains node := by
  obtain ⟨id, isOpen⟩ := flag
  cases isOpen <;> by_cases same : node = id <;>
    simp [write, containsInsert, containsErase, same]

theorem containsWritten (writes : List (NodeId × Bool)) (node : NodeId) :
    (∃ isOpen, ∀ s : OpenNodes, (s.written writes).contains node = isOpen) ∨
      ∀ s : OpenNodes, (s.written writes).contains node = s.contains node := by
  induction writes with
  | nil => exact .inr fun _ => rfl
  | cons flag rest ih =>
    rcases ih with ⟨isOpen, last⟩ | kept
    · exact .inl ⟨isOpen, fun s => last (s.write flag)⟩
    · have first (s : OpenNodes) : (s.written (flag :: rest)).contains node =
          if node = flag.1 then flag.2 else s.contains node :=
        (kept (s.write flag)).trans (s.containsWrite flag node)
      by_cases same : node = flag.1
      · exact .inl ⟨flag.2, fun s => (first s).trans (if_pos same)⟩
      · exact .inr fun s => (first s).trans (if_neg same)

theorem writtenTwice (s : OpenNodes) (writes : List (NodeId × Bool)) :
    (s.written writes).written writes = s.written writes := by
  refine extContains fun node => ?_
  rcases containsWritten writes node with ⟨isOpen, last⟩ | kept
  · rw [last, last]
  · exact kept _

end OpenNodes

-- Two moments with the same flags written since two starts, and with faults answered the same way.
structure Synced (answer : Fault → Status) (plan plan' : Plan W) (a b : OpenNodes)
    (m n : Moment W (Timeline W)) : Prop where
  first : plan.Answers m.stage.toolbox.hook answer
  second : plan'.Answers n.stage.toolbox.hook answer
  written : ∃ writes, m.openNodes = a.written writes ∧ n.openNodes = b.written writes

def Still {α : Type} (plan : Plan W) (answer : Fault → Status) (walk : Walk W (Timeline W) α)
    (result : α) : Prop :=
  ∀ m, plan.Answers m.stage.toolbox.hook answer →
    ∃ last, walk m = some (result, last) ∧
      last.stage.toolbox.hook = m.stage.toolbox.hook ∧ last.openNodes = m.openNodes

namespace Still
variable {α β : Type} {plan : Plan W} {answer : Fault → Status}

theorem bind {x : Walk W (Timeline W) α} {a : α} {f : α → Walk W (Timeline W) β} {b : β}
    (first : Still plan answer x a) (rest : Still plan answer (f a) b) :
    Still plan answer (x >>= f) b := by
  intro m answers
  obtain ⟨middle, came, hook, flags⟩ := first m answers
  obtain ⟨last, came', hook', flags'⟩ := rest middle (hook ▸ answers)
  exact ⟨last, Walk.bindIff.mpr ⟨a, middle, came, came'⟩, hook'.trans hook,
    flags'.trans flags⟩

theorem note (o : Occurrence W) : Still plan answer (Walk.note o) () :=
  fun _ _ => ⟨_, rfl, rfl, rfl⟩

theorem report (scene : Scene W) (id : NodeId) (phase : Trace.Phase) (status : Option Status) :
    Still plan answer (scene.report id phase status) () :=
  fun _ _ => ⟨_, rfl, rfl, rfl⟩

theorem skip (id : NodeId) (step : Step) : Still plan answer (Walk.call id step .skip) (.ok ()) :=
  fun _ _ => ⟨_, rfl, rfl, rfl⟩

theorem contain (scene : Scene W) (fault : Fault) :
    Still scene.plan answer (scene.contain fault) (answer fault) := by
  intro m answers
  rw [scene.containEq, answers.respond fault]
  exact ⟨_, rfl, rfl, rfl⟩

theorem openWhenClosed {scene : Scene W} {node : Node W}
    (skips : node.content.behavior.onOpen = .skip) :
    Still plan answer (Activation.openWhenClosed scene node) (.ok ()) := by
  have opens (m : Moment W (Timeline W)) (isOpen : Bool) :
      m.openNodes.contains node.id = isOpen → Walk.isOpen node.id m = some (isOpen, m) := by
    rintro rfl
    rfl
  intro m answers
  unfold Activation.openWhenClosed
  rw [skips]
  cases flag : m.openNodes.contains node.id with
  | true => exact ⟨m, Walk.bindIff.mpr ⟨true, m, opens m true flag, rfl⟩, rfl, rfl⟩
  | false =>
    have called : Still plan answer (do
        scene.report node.id .opening none
        Walk.call node.id .opening .skip) (.ok ()) :=
      (report scene node.id .opening none).bind (skip node.id .opening)
    obtain ⟨last, came, kept⟩ := called m answers
    exact ⟨last, Walk.bindIff.mpr ⟨false, m, opens m false flag, came⟩, kept⟩

theorem together {plan' : Plan W} {a b : OpenNodes} {x y : Walk W (Timeline W) α} {result : α}
    (first : Still plan answer x result) (second : Still plan' answer y result) :
    Together (Synced answer plan plan' a b) Eq x y := by
  intro m n synced
  obtain ⟨last, came, hook, flags⟩ := first m synced.first
  obtain ⟨last', came', hook', flags'⟩ := second n synced.second
  rw [came, came']
  refine .some ⟨rfl, hook ▸ synced.first, hook' ▸ synced.second, ?_⟩
  dsimp only
  rw [flags, flags']
  exact synced.written

end Still

namespace Synced
variable {answer : Fault → Status} {a b : OpenNodes} {node : Node W}

theorem setOpen (plan plan' : Plan W) (id : NodeId) (isOpen : Bool) :
    Together (Synced answer plan plan' a b) Eq (Walk.setOpen id isOpen) (Walk.setOpen id isOpen) := by
  intro m n synced
  obtain ⟨writes, first, second⟩ := synced.written
  refine .some ⟨rfl, synced.first, synced.second, writes ++ [(id, isOpen)], ?_, ?_⟩
  · change OpenNodes.write m.openNodes (id, isOpen) = _
    rw [first]
    simp [OpenNodes.written]
  · change OpenNodes.write n.openNodes (id, isOpen) = _
    rw [second]
    simp [OpenNodes.written]

theorem coupled (scene scene' : Scene W) {native : Native}
    (carries : node.content.behavior = native.behavior) :
    Couples (Synced answer scene.plan scene'.plan a b) scene scene' node node where
  id := rfl
  began := (Still.note _).together (.note _)
  ended _ := (Still.note _).together (.note _)
  opened := by
    have skips : node.content.behavior.onOpen = .skip := by rw [carries]; rfl
    exact (Still.openWhenClosed skips).together (.openWhenClosed skips)
  flagged := setOpen _ _ node.id
  told _ _ := (Still.report _ _ _ _).together (.report _ _ _ _)
  called step callback mem := by
    have has := node.content.behavior.hasCallback mem
    rw [carries] at has ⊢
    rw [native.behaviorSkips has]
    exact (Still.skip _ _).together (.skip _ _)
  contained fault := (Still.contain scene fault).together (.contain scene' fault)

theorem attuned (policy : Native.Policy) (plan plan' : Plan W) (view : View) :
    Attuned (Synced answer plan plan' a b) Eq view view policy.tick policy.tick Eq := by
  have along {Memory : Type} {move : Stage W → Move W Memory} (unstaged : Native.Unstaged move)
      {m n : Moment W (Timeline W)} (synced : Synced answer plan plan' a b m n) :
      Abreast Eq Eq (move m.stage) (move n.stage) ∧ Synced answer plan plan' a b
        { m with stage := (move m.stage).stage } { n with stage := (move n.stage).stage } := by
    rw [unstaged.stage, unstaged.stage]
    refine ⟨?_, synced⟩
    cases unstaged with
    | answers result => exact .answer (.same result)
    | asks => exact .ask rfl
  constructor
  · intro m n synced
    exact along (policy.startUnstaged view) synced
  · rintro m n memory _ synced rfl reply
    exact along (policy.resumeUnstaged memory reply) synced

theorem paired (scene scene' : Scene W) (patience : scene'.patience = scene.patience)
    {native : Native} (carries : node.content.behavior = native.behavior) :
    Paired (Synced answer scene.plan scene'.plan a b) Eq scene scene' node node := by
  refine (coupled scene scene' carries).paired patience
    (fun synced => ⟨synced.first, synced.second, synced.written⟩)
    (fun _ => (Still.note _).together (.note _))
    ((Still.report _ _ _ _).together (.report _ _ _ _)) fun ticks => ?_
  rw [carries, native.behaviorTick] at ticks
  cases ticks
  exact ⟨Eq, attuned native.policy _ _ node.view⟩

end Synced

section Run
variable {tree : Tree W} {native : NodeId → Native} {answer : Fault → Status} {plan plan' : Plan W}
  {patience : Nat} {subject subject' : SubjectId} {world world' : W}

theorem Tree.Carries.runs (carries : tree.Carries native)
    (answers : plan.Answers (plan.firstHook subject tree.id world) answer)
    (answers' : plan'.Answers (plan'.firstHook subject' tree.id world') answer)
    (depth : plan'.maxDepth = plan.maxDepth) (openNodes openNodes' : OpenNodes) :
    Option.Rel (fun p q => q.1.status = p.1.status ∧
        ∃ writes, p.2 = openNodes.written writes ∧ q.2 = openNodes'.written writes)
      (plan.runTree patience tree subject openNodes world :
        Option (Report W (Timeline W) × OpenNodes))
      (plan'.runTree patience tree subject' openNodes' world' :
        Option (Report W (Timeline W) × OpenNodes)) := by
  cases rooted : tree.root with
  | none =>
    rw [Plan.runUnrooted rooted, Plan.runUnrooted rooted]
    exact .some ⟨rfl, [], rfl, rfl⟩
  | some root =>
    have start : Synced answer plan plan' openNodes openNodes'
        (plan.equip subject tree.id openNodes world)
        (plan'.equip subject' tree.id openNodes' world') :=
      { first := (plan.equipHook _ _ _ _).symm ▸ answers
        second := (plan'.equipHook _ _ _ _).symm ▸ answers'
        written := ⟨[], plan.equipOpenNodes _ _ _ _, plan'.equipOpenNodes _ _ _ _⟩ }
    let scene : Scene W := { plan, tree, subject, patience }
    let scene' : Scene W := { plan := plan', tree, subject := subject', patience }
    have nodes (id : NodeId) : Option.Rel (Paired (Synced answer plan plan' openNodes openNodes')
        Eq scene scene') (tree.node? id) (tree.node? id) :=
      relSelf fun _ found => Synced.paired scene scene' rfl (carries found)
    have together := evaluateTogether nodes (fun _ => (Still.note _).together (.note _))
      (fun _ => (Still.note _).together (.note _)) plan.room root _ _ start
    unfold Plan.runTree
    simp only [rooted, show plan'.room = plan.room by rw [Plan.room, Plan.room, depth]]
    rcases relCases together with ⟨cut, cut'⟩ | ⟨⟨status, m⟩, ⟨_, n⟩, came, came', same, synced⟩
    · rw [cut, cut']
      exact .none
    · cases same
      rw [came, came']
      exact .some ⟨rfl, synced.written⟩

end Run

structure Memoryless (tree : Tree W) (native : NodeId → Native) (answer : Fault → Status)
    (maxDepth : UInt64) (patience : Nat) (report : Report W (Timeline W)) (left : OpenNodes) :
    Prop where
  status : report.status = tree.foretold native answer maxDepth
  activations : ∀ {id s s'}, .ended id s ∈ report.seen → .ended id s' ∈ report.seen → s = s'
  elsewhere : ∀ {plan : Plan W} {subject world}, plan.maxDepth = maxDepth →
    plan.Answers (plan.firstHook subject tree.id world) answer → ∀ openNodes,
      ∃ (report' : Report W (Timeline W)) (left' : OpenNodes),
        plan.runTree patience tree subject openNodes world = some (report', left') ∧
          report'.status = report.status
  again : ∀ {plan : Plan W} {subject world}, plan.maxDepth = maxDepth →
    plan.Answers (plan.firstHook subject tree.id world) answer →
      ∃ report' : Report W (Timeline W),
        plan.runTree patience tree subject left world = some (report', left) ∧
          report'.status = report.status

section
variable {tree : Tree W} {native : NodeId → Native} {answer : Fault → Status} {plan : Plan W}
  {patience : Nat} {subject : SubjectId} {openNodes left : OpenNodes} {world : W}
  {report : Report W (Timeline W)}

theorem Tree.Carries.foretold (forest : tree.Forest) (carries : tree.Carries native)
    (answers : plan.Answers (plan.firstHook subject tree.id world) answer)
    (ok : plan.runTree patience tree subject openNodes world = some (report, left)) :
    report.status = tree.foretold native answer plan.maxDepth ∧
      ∀ {id s s'}, .ended id s ∈ report.seen → .ended id s' ∈ report.seen → s = s' := by
  cases rooted : tree.root with
  | none =>
    cases (Plan.runUnrooted rooted plan patience subject openNodes world).symm.trans ok
    refine ⟨by simp only [Tree.foretold, rooted, Report.idle], fun seen => ?_⟩
    simp [Report.idle, Observer.start] at seen
  | some root =>
    obtain ⟨t, last, seen, _, _, evaluates⟩ := Plan.runFrom rooted ok
    have start : plan.Answers (plan.equip subject tree.id openNodes world :
        Moment W (Timeline W)).stage.toolbox.hook answer := (plan.equipHook _ _ _ _).symm ▸ answers
    refine ⟨?_, fun {id s s'} first second => ?_⟩
    · rw [evaluates.foretold carries start]
      simp only [Tree.foretold, rooted, Plan.room]
    · have inside {s} (ended : .ended id s ∈ report.seen) : .ended id s ∈ t := by
        rw [seen] at ended
        refine (List.mem_append.mp ended).resolve_left fun early => ?_
        rcases plan.equipSeen subject tree.id openNodes world with none | made
        · simp [none] at early
        · simp [made] at early
      obtain ⟨steps, _, up, same⟩ := evaluates.foretoldInside forest carries start (inside first)
      obtain ⟨steps', _, up', same'⟩ := evaluates.foretoldInside forest carries start (inside second)
      rw [same, same', forest.climbOnce up up']

theorem nativesMemoryless (built : tree.Built) (carries : tree.Carries native)
    (answers : plan.Answers (plan.firstHook subject tree.id world) answer)
    (ok : plan.runTree patience tree subject openNodes world = some (report, left)) :
    Memoryless tree native answer plan.maxDepth patience report left := by
  obtain ⟨status, activations⟩ := carries.foretold built.forest answers ok
  have beside {plan' : Plan W} {subject' world'} (depth : plan'.maxDepth = plan.maxDepth)
      (answers' : plan'.Answers (plan'.firstHook subject' tree.id world') answer)
      (openNodes' : OpenNodes) :
      ∃ (report' : Report W (Timeline W)) (left' : OpenNodes),
        plan'.runTree patience tree subject' openNodes' world' = some (report', left') ∧
          report'.status = report.status ∧
          ∃ writes, left = openNodes.written writes ∧ left' = openNodes'.written writes := by
    rcases relCases (carries.runs answers answers' depth openNodes openNodes') with
      ⟨cut, _⟩ | ⟨_, ⟨report', left'⟩, ran, ran', same, written⟩
    · cases cut.symm.trans ok
    · cases ran.symm.trans ok
      exact ⟨report', left', ran', same, written⟩
  exact {
    status
    activations
    elsewhere := fun depth answers' openNodes' => by
      obtain ⟨report', left', ran, same, _⟩ := beside depth answers' openNodes'
      exact ⟨report', left', ran, same⟩
    again := fun depth answers' => by
      obtain ⟨report', left', ran, same, writes, first, second⟩ := beside depth answers' left
      rw [first, OpenNodes.writtenTwice, ← first] at second
      exact ⟨report', second ▸ ran, same⟩
  }

end

/- A repeater over a leaf with the behavior of a decorator, which fails whenever it is ticked. -/
def Tree.misplaced : Tree Unit := .pair Native.repeater.behavior Native.inverter.behavior

theorem Tree.misplacedCarries :
    Tree.misplaced.Carries fun id => if id = ⟨0⟩ then .repeater else .inverter := by
  intro id node found
  have numbered := (Built.pair _ _).forest.numbered found
  have member : node ∈ Tree.misplaced.nodes := Array.mem_of_getElem? found
  simp only [Tree.misplaced, Tree.pair, List.mem_toArray, List.mem_cons, List.not_mem_nil, or_false]
    at member
  rcases member with rfl | rfl
  · cases numbered
    rfl
  · cases numbered
    rfl

def Plan.patient : Plan Unit where
  handler := some fun _ _ => (.running, ())

theorem memorylessMisplaced :
    ∃ (native : NodeId → Native) (report : Report Unit (Timeline Unit)) (left : OpenNodes),
      Plan.patient.runTree 1 Tree.misplaced ⟨1⟩ .empty () = some (report, left) ∧
      report.status = .running ∧ left.toList = [⟨0⟩] ∧
      Memoryless Tree.misplaced native (fun _ => .running) defaultMaxDepth 1 report left := by
  have answers : Plan.patient.Answers (Plan.patient.firstHook ⟨1⟩ Tree.misplaced.id ())
      fun _ => .running := .handler rfl fun _ _ => rfl
  have outcome : (Plan.patient.runTree 1 Tree.misplaced ⟨1⟩ .empty ()).map
      (fun ran : Report Unit (Timeline Unit) × OpenNodes => (ran.1.status, ran.2.toList)) =
      some (.running, [⟨0⟩]) := by
    decide +kernel
  obtain ⟨⟨report, left⟩, ok, same⟩ := Option.map_eq_some_iff.mp outcome
  obtain ⟨status, flags⟩ := Prod.mk.inj same
  exact ⟨_, report, left, ok, status, flags,
    nativesMemoryless (.pair _ _) Tree.misplacedCarries answers ok⟩

end BehaviorTree
