import BehaviorTree.Proofs.Evaluation.Pieces

/-! Two evaluations side by side. A link says how a moment of the one lies beside a moment of
the other. Where the pieces of an activation keep to the link on both sides, whole evaluations
do: they come to one status at linked moments, or both are cut off. -/
namespace BehaviorTree

variable {W : Type} {α β γ δ : Type}

abbrev Link (W : Type) := Moment W (Timeline W) → Moment W (Timeline W) → Prop

-- From linked moments both walks come to related results at linked moments, or neither ends.
def Together (L : Link W) (A : α → β → Prop) (x : Walk W (Timeline W) α)
    (y : Walk W (Timeline W) β) : Prop :=
  ∀ m n, L m n → Option.Rel (fun p q => A p.1 q.1 ∧ L p.2 q.2) (x m) (y n)

theorem relCases {α β : Type*} {R : α → β → Prop} {a b} (rel : Option.Rel R a b) :
    (a = none ∧ b = none) ∨ ∃ x y, a = some x ∧ b = some y ∧ R x y := by
  cases rel with
  | none => exact .inl ⟨rfl, rfl⟩
  | some both => exact .inr ⟨_, _, rfl, rfl, both⟩

theorem relAny {α β : Type*} {R : α → β → Prop} {a b} (rel : Option.Rel R a b) {p : α → Bool}
    (any : a.any p = true) : ∃ x y, a = some x ∧ b = some y ∧ p x = true ∧ R x y := by
  rcases relCases rel with ⟨rfl, _⟩ | ⟨x, y, rfl, there, both⟩
  · cases any
  · exact ⟨x, y, rfl, there, any, both⟩

theorem relSelf {α : Type*} {R : α → α → Prop} {a : Option α} (each : ∀ x, a = some x → R x x) :
    Option.Rel R a a := by
  cases a with
  | none => exact .none
  | some x => exact .some (each x rfl)

namespace Together
variable {L : Link W} {A : α → β → Prop} {B : γ → δ → Prop}

theorem pure {a b} (related : A a b) : Together L A (Pure.pure a) (Pure.pure b) :=
  fun _ _ linked => .some ⟨related, linked⟩

theorem bind {x y} {f : α → Walk W (Timeline W) γ} {g : β → Walk W (Timeline W) δ}
    (first : Together L A x y) (rest : ∀ {a b}, A a b → Together L B (f a) (g b)) :
    Together L B (x >>= f) (y >>= g) := by
  intro m n linked
  change Option.Rel _ ((x m).bind fun p => f p.1 p.2) ((y n).bind fun q => g q.1 q.2)
  rcases relCases (first m n linked) with ⟨cut, cut'⟩ | ⟨p, q, came, came', related, linked⟩
  · rw [cut, cut']
    exact .none
  · rw [came, came']
    exact rest related _ _ linked

theorem bindEq {x y : Walk W (Timeline W) α} {f : α → Walk W (Timeline W) γ}
    {g : α → Walk W (Timeline W) δ} (first : Together L Eq x y)
    (rest : ∀ a, Together L B (f a) (g a)) : Together L B (x >>= f) (y >>= g) := by
  refine first.bind ?_
  rintro a _ rfl
  exact rest a

theorem note {o o' : Occurrence W} (keeps : ∀ {m n}, L m n → L (m.see o) (n.see o')) :
    Together L Eq (Walk.note o) (Walk.note o') :=
  fun _ _ linked => .some ⟨rfl, keeps linked⟩

variable (flags : ∀ {m n}, L m n → n.openNodes = m.openNodes) {node : NodeId}
include flags

theorem isOpen : Together L Eq (Walk.isOpen node) (Walk.isOpen node) := by
  intro m n linked
  have same := flags linked
  exact .some ⟨by rw [same], linked⟩

theorem setOpen {isOpen : Bool}
    (written : ∀ {m n}, L m n → ∀ openNodes, L { m with openNodes } { n with openNodes })
    (seen : ∀ {m n}, L m n →
      L (m.see (.flagged node isOpen)) (n.see (.flagged node isOpen))) :
    Together L Eq (Walk.setOpen node isOpen) (Walk.setOpen node isOpen) := by
  intro m n linked
  unfold Walk.setOpen
  rw [flags linked]
  exact .some ⟨rfl, seen (written linked _)⟩

end Together

def Scene.answered (scene : Scene W) (fault : Fault) (m : Moment W (Timeline W)) :
    Moment W (Timeline W) :=
  { m.see (.consulted fault (scene.responder m.stage) m.stage) with
    stage := { m.stage with world := (scene.respond fault m.stage).2 } }.see
      (.contained fault (scene.respond fault m.stage).1)

theorem Scene.containEq (scene : Scene W) (fault : Fault) (m : Moment W (Timeline W)) :
    scene.contain fault m =
      (Walk.report (fault.event m.stage.toolbox.subject (scene.respond fault m.stage).1)
        (scene.answered fault m)).map fun p => ((scene.respond fault m.stage).1, p.2) := rfl

theorem Together.contain {L : Link W} {scene scene' : Scene W} {fault : Fault}
    (answers : ∀ {m n}, L m n → scene'.respond fault n.stage = scene.respond fault m.stage)
    (subject : ∀ {m n}, L m n → n.stage.toolbox.subject = m.stage.toolbox.subject)
    (consulted : ∀ {m n}, L m n → L (m.see (.consulted fault (scene.responder m.stage) m.stage))
      (n.see (.consulted fault (scene'.responder n.stage) n.stage)))
    (inWorld : ∀ {m n}, L m n → ∀ world, L { m with stage := { m.stage with world } }
      { n with stage := { n.stage with world } })
    (contained : ∀ {m n}, L m n → ∀ status,
      L (m.see (.contained fault status)) (n.see (.contained fault status)))
    (report : ∀ subject status, Together L Eq (Walk.report (fault.event subject status))
      (Walk.report (fault.event subject status))) :
    Together L Eq (scene.contain fault) (scene'.contain fault) := by
  intro m n linked
  have answered : L (scene.answered fault m) (scene'.answered fault n) := by
    unfold Scene.answered
    rw [answers linked]
    exact contained (inWorld (consulted linked) _) _
  rw [Scene.containEq, Scene.containEq, answers linked, subject linked]
  rcases relCases (report _ _ _ _ answered) with ⟨cut, _⟩ | ⟨_, _, sent, sent', _, linked⟩
  · cases cut
  · rw [sent, sent']
    exact .some ⟨rfl, linked⟩

inductive Returned (O : Outcome → Outcome → Prop) :
    Except CallbackError Outcome → Except CallbackError Outcome → Prop where
  | failed (e) : Returned O (.error e) (.error e)
  | answered {outcome outcome'} (related : O outcome outcome') :
      Returned O (.ok outcome) (.ok outcome')

theorem Returned.same (result : Except CallbackError Outcome) : Returned Eq result result := by
  cases result with
  | error e => exact .failed e
  | ok outcome => exact .answered rfl

-- Moves of two ticks, stages apart: both answer, or both ask for the same child.
inductive Abreast {M M' : Type} (O : Outcome → Outcome → Prop) (S : M → M' → Prop) :
    Move W M → Move W M' → Prop where
  | answer {result result' stage stage'} (returned : Returned O result result') :
      Abreast O S (.answer result stage) (.answer result' stage')
  | ask {request stage stage' memory memory'} (remembered : S memory memory') :
      Abreast O S (.ask request stage memory) (.ask request stage' memory')

structure Attuned (L : Link W) (O : Outcome → Outcome → Prop) (view view' : View)
    (tick tick' : Tick W) (S : tick.Memory → tick'.Memory → Prop) : Prop where
  starts : ∀ {m n}, L m n →
    Abreast O S (tick.start view m.stage) (tick'.start view' n.stage) ∧
      L { m with stage := (tick.start view m.stage).stage }
        { n with stage := (tick'.start view' n.stage).stage }
  resumes : ∀ {m n memory memory'}, L m n → S memory memory' → ∀ reply,
    Abreast O S (tick.resume memory reply m.stage) (tick'.resume memory' reply n.stage) ∧
      L { m with stage := (tick.resume memory reply m.stage).stage }
        { n with stage := (tick'.resume memory' reply n.stage).stage }

def Behavior.callbacks : List (Behavior W → Callback W) :=
  [Behavior.onEnter, Behavior.onOpen, Behavior.onClose, Behavior.onExit]

theorem Behavior.hasCallback (b : Behavior W) {callback : Behavior W → Callback W}
    (mem : callback ∈ callbacks) : b.Has (callback b) := by
  simp only [callbacks, List.mem_cons, List.not_mem_nil, or_false] at mem
  rcases mem with rfl | rfl | rfl | rfl <;> simp [Has]

theorem Together.openWhenClosed {L : Link W} {scene scene' : Scene W} {node node' : Node W}
    (id : node'.id = node.id)
    (isOpen : Together L Eq (Walk.isOpen node.id) (Walk.isOpen node.id))
    (told : Together L Eq (scene.report node.id .opening none)
      (scene'.report node.id .opening none))
    (called : Together L Eq (Walk.call node.id .opening node.content.behavior.onOpen)
      (Walk.call node.id .opening node'.content.behavior.onOpen)) :
    Together L Eq (Activation.openWhenClosed scene node)
      (Activation.openWhenClosed scene' node') := by
  unfold Activation.openWhenClosed
  rw [id]
  refine isOpen.bindEq fun isOpen => ?_
  cases isOpen
  · exact told.bindEq fun _ => called
  · exact .pure rfl

structure Couples (L : Link W) (scene scene' : Scene W) (node node' : Node W) : Prop where
  id : node'.id = node.id
  began : Together L Eq (Walk.note (.began node.id)) (Walk.note (.began node.id))
  ended : ∀ status,
    Together L Eq (Walk.note (.ended node.id status)) (Walk.note (.ended node.id status))
  opened : Together L Eq (Activation.openWhenClosed scene node)
    (Activation.openWhenClosed scene' node')
  flagged : ∀ isOpen,
    Together L Eq (Walk.setOpen node.id isOpen) (Walk.setOpen node.id isOpen)
  told : ∀ {phase}, phase ≠ .invalid → ∀ status,
    Together L Eq (scene.report node.id phase status) (scene'.report node.id phase status)
  called : ∀ step, ∀ callback ∈ Behavior.callbacks,
    Together L Eq (Walk.call node.id step (callback node.content.behavior))
      (Walk.call node.id step (callback node'.content.behavior))
  contained : ∀ fault, Together L Eq (scene.contain fault) (scene'.contain fault)

namespace Couples
variable {L : Link W} {scene scene' : Scene W} {node node' : Node W}
  (couples : Couples L scene scene' node node')
include couples

theorem closeUnlessRunning (status : Status) :
    Together L Eq (Activation.closeUnlessRunning scene node status)
      (Activation.closeUnlessRunning scene' node' status) := by
  unfold Activation.closeUnlessRunning
  rw [couples.id]
  split
  · exact (couples.flagged true).bindEq fun _ => .pure rfl
  · refine (couples.told (by decide) _).bindEq fun _ => ?_
    refine (couples.called .close _ (by simp [Behavior.callbacks])).bindEq fun closed => ?_
    refine (couples.flagged false).bindEq fun _ => ?_
    cases closed <;> exact .pure rfl

theorem settle (outcome : Outcome)
    (invalid : Together L Eq (scene.report node.id .invalid (some .error))
      (scene'.report node.id .invalid (some .error))) :
    Together L Eq (Activation.settle scene node outcome)
      (Activation.settle scene' node' outcome) := by
  unfold Activation.settle
  rw [couples.id]
  have apart : Trace.Phase.tick ≠ .invalid := by decide
  have told (status : Status) := couples.told apart (some status)
  cases outcome with
  | status status => exact (told status).bindEq fun _ => couples.closeUnlessRunning status
  | unrecognized text =>
    exact invalid.bindEq fun _ => (told .error).bindEq fun _ => couples.closeUnlessRunning .error

theorem leave (status : Status) :
    Together L Eq (Activation.leave scene node status) (Activation.leave scene' node' status) := by
  unfold Activation.leave
  rw [couples.id]
  refine (couples.told (by decide) _).bindEq fun _ => ?_
  refine (couples.called .exit _ (by simp [Behavior.callbacks])).bindEq fun left => ?_
  cases left with
  | ok => exact .pure rfl
  | error e => exact couples.contained _

variable {O : Outcome → Outcome → Prop} {descend descend' : NodeId → Walk W (Timeline W) Status}
  (ticked : Together L (Returned O) (Activation.tickNode scene descend node)
    (Activation.tickNode scene' descend' node'))
  (settles : ∀ {outcome outcome'}, O outcome outcome' →
    Together L Eq (Activation.settle scene node outcome) (Activation.settle scene' node' outcome'))
include ticked settles

theorem steps : Together L Eq (Activation.steps scene descend node)
    (Activation.steps scene' descend' node') := by
  unfold Activation.steps
  rw [couples.id]
  refine (couples.told (by decide) _).bindEq fun _ => ?_
  refine (couples.called .enter _ (by simp [Behavior.callbacks])).bindEq fun entered => ?_
  cases entered with
  | error e => exact .pure rfl
  | ok =>
    refine couples.opened.bindEq fun opened => ?_
    cases opened with
    | error e => exact .pure rfl
    | ok =>
      refine ticked.bind fun returned => ?_
      cases returned with
      | failed e => exact .pure rfl
      | answered related => exact settles related

theorem activate : Together L Eq (Activation.activate scene descend node)
    (Activation.activate scene' descend' node') := by
  have finish (status : Status) : Together L Eq
      (do
        let final ← Activation.leave scene node status
        Walk.note (.ended node.id final)
        pure final)
      (do
        let final ← Activation.leave scene' node' status
        Walk.note (.ended node.id final)
        pure final) :=
    (couples.leave status).bindEq fun final => (couples.ended final).bindEq fun _ => .pure rfl
  unfold Activation.activate
  rw [couples.id]
  refine couples.began.bindEq fun _ => (couples.steps ticked settles).bindEq fun result => ?_
  cases result with
  | ok status => exact finish status
  | error fault => exact (couples.contained fault).bindEq finish

end Couples

structure Paired (L : Link W) (O : Outcome → Outcome → Prop) (scene scene' : Scene W)
    (node node' : Node W) : Prop extends Couples L scene scene' node node' where
  located : ∀ request, node'.locate request = node.locate request
  patience : scene'.patience = scene.patience
  asked : ∀ {m n}, L m n →
    L (m.see (.called node.id .tick m.stage)) (n.see (.called node.id .tick n.stage))
  ticks : Option.Rel (fun tick tick' => ∃ S, Attuned L O node.view node'.view tick tick' S)
    node.content.behavior.tick node'.content.behavior.tick
  answered : ∀ {result result'}, Returned O result result' →
    Together L Eq (Walk.note (.returned node.id .tick (.ofOutcome result)))
      (Walk.note (.returned node.id .tick (.ofOutcome result')))
  settles : ∀ {outcome outcome'}, O outcome outcome' →
    Together L Eq (Activation.settle scene node outcome) (Activation.settle scene' node' outcome')

theorem Couples.paired {L : Link W} {scene scene' : Scene W} {node : Node W}
    (couples : Couples L scene scene' node node) (patience : scene'.patience = scene.patience)
    (asked : ∀ {m n}, L m n →
      L (m.see (.called node.id .tick m.stage)) (n.see (.called node.id .tick n.stage)))
    (returned : ∀ result, Together L Eq (Walk.note (.returned node.id .tick result))
      (Walk.note (.returned node.id .tick result)))
    (invalid : Together L Eq (scene.report node.id .invalid (some .error))
      (scene'.report node.id .invalid (some .error)))
    (attuned : ∀ {tick}, node.content.behavior.tick = some tick →
      ∃ S, Attuned L Eq node.view node.view tick tick S) : Paired L Eq scene scene' node node where
  toCouples := couples
  located _ := rfl
  patience := patience
  asked := asked
  ticks := relSelf fun _ => attuned
  answered same := by
    cases same with
    | failed e => exact returned _
    | answered same => exact same ▸ returned _
  settles same := same ▸ couples.settle _ invalid

namespace Paired
variable {L : Link W} {O : Outcome → Outcome → Prop} {scene scene' : Scene W}
  {node node' : Node W} {descend descend' : NodeId → Walk W (Timeline W) Status}

theorem converse {tick tick' : Tick W} {S : tick.Memory → tick'.Memory → Prop}
    (located : ∀ request, node'.locate request = node.locate request)
    (attuned : Attuned L O node.view node'.view tick tick' S)
    (below : ∀ {request id}, node.locate request = .ok id →
      Together L Eq (descend id) (descend' id)) {patience move move'}
    {openNodes openNodes' : OpenNodes} {seen seen' : Timeline W} (abreast : Abreast O S move move')
    (linked : L ⟨move.stage, openNodes, seen⟩ ⟨move'.stage, openNodes', seen'⟩) :
    Option.Rel (fun p q => Returned O p.1 q.1 ∧ L p.2 q.2)
      (Activation.converse descend node tick patience move openNodes seen)
      (Activation.converse descend' node' tick' patience move' openNodes' seen') := by
  induction patience generalizing move move' openNodes openNodes' seen seen' with
  | zero =>
    cases abreast with
    | answer returned => exact .some ⟨returned, linked⟩
    | ask => exact .none
  | succ patience ih =>
    cases abreast with
    | answer returned => exact .some ⟨returned, linked⟩
    | @ask request _ _ memory memory' remembered =>
      simp only [Activation.converse, located]
      cases found : node.locate request with
      | error e =>
        obtain ⟨abreast, linked⟩ := attuned.resumes linked remembered (.error e)
        exact ih abreast linked
      | ok child =>
        dsimp only
        rcases relCases (below found _ _ linked) with
          ⟨cut, cut'⟩ | ⟨⟨status, middle⟩, ⟨_, middle'⟩, came, came', same, linked⟩
        · simp only [Move.stage] at cut cut'
          rw [cut, cut']
          exact .none
        · simp only [Move.stage] at came came'
          cases same
          rw [came, came']
          obtain ⟨abreast, linked⟩ := attuned.resumes linked remembered (.ok status)
          exact ih abreast linked

variable (paired : Paired L O scene scene' node node')
  (below : ∀ {request id}, node.locate request = .ok id → Together L Eq (descend id) (descend' id))
include paired below

theorem tickNode : Together L (Returned O) (Activation.tickNode scene descend node)
    (Activation.tickNode scene' descend' node') := by
  have played : Together L (Returned O) (Activation.tickNode.played scene descend node)
      (Activation.tickNode.played scene' descend' node') := by
    intro m n linked
    have asked := paired.asked linked
    unfold Activation.tickNode.played
    rw [paired.id, paired.patience]
    rcases relCases paired.ticks with ⟨missing, missing'⟩ | ⟨_, _, ticks, ticks', _, attuned⟩
    · rw [missing, missing']
      exact .some ⟨.failed _, asked⟩
    · rw [ticks, ticks']
      obtain ⟨abreast, started⟩ := attuned.starts asked
      exact converse paired.located attuned below abreast started
  unfold Activation.tickNode
  rw [paired.id]
  refine played.bind fun returned => ?_
  exact (paired.answered returned).bindEq fun _ => .pure returned

theorem activate : Together L Eq (Activation.activate scene descend node)
    (Activation.activate scene' descend' node') :=
  paired.toCouples.activate (paired.tickNode below) paired.settles

end Paired

theorem Together.same (x : Walk W (Timeline W) α) : Together Eq Eq x x := by
  rintro m _ rfl
  cases x m with
  | none => exact .none
  | some p => exact .some ⟨rfl, rfl⟩

-- Scenes that an activation cannot tell apart, limits and other nodes left aside.
structure Scene.Twin (scene scene' : Scene W) : Prop where
  handler : scene'.plan.handler = scene.plan.handler
  subject : scene'.subject = scene.subject
  patience : scene'.patience = scene.patience

-- Nodes that differ in children only that no tick can ask for or count.
structure Node.Twin (node node' : Node W) : Prop where
  id : node'.id = node.id
  content : node'.content = node.content
  view : node'.view = node.view
  located : ∀ request, node'.locate request = node.locate request

theorem Paired.twins {scene scene' : Scene W} {node node' : Node W} (scenes : scene.Twin scene')
    (nodes : node.Twin node') : Paired Eq Eq scene scene' node node' := by
  have report : (scene'.report : _ → _ → _ → Walk W (Timeline W) Unit) = scene.report := by
    unfold Scene.report
    rw [scenes.subject]
  have contain : (scene'.contain : _ → Walk W (Timeline W) Status) = scene.contain := by
    unfold Scene.contain Scene.respond Scene.responder
    rw [scenes.handler]
  have told (phase : Trace.Phase) (status : Option Status) :
      Together Eq Eq (scene.report node.id phase status) (scene'.report node.id phase status) := by
    rw [report]
    exact .same _
  have couples : Couples Eq scene scene' node node' := {
    id := nodes.id
    began := .same _
    ended := fun _ => .same _
    opened := .openWhenClosed nodes.id (.same _) (told _ _) (by rw [nodes.content]; exact .same _)
    flagged := fun _ => .same _
    told := fun _ => told _
    called := fun _ _ _ => by rw [nodes.content]; exact .same _
    contained := fun _ => by rw [contain]; exact .same _
  }
  exact {
    toCouples := couples
    located := nodes.located
    patience := scenes.patience
    asked := fun same => by rw [same]
    ticks := by
      rw [nodes.content]
      cases node.content.behavior.tick with
      | none => exact .none
      | some tick =>
        have abreast (move : Move W tick.Memory) : Abreast Eq Eq move move := by
          cases move with
          | answer result => exact .answer (.same result)
          | ask => exact .ask rfl
        refine .some ⟨Eq, ?_, ?_⟩
        · rintro m _ rfl
          rw [nodes.view]
          exact ⟨abreast _, rfl⟩
        · rintro m _ memory _ rfl rfl reply
          exact ⟨abreast _, rfl⟩
    answered := fun returned => by
      cases returned with
      | failed => exact .same _
      | answered same => exact same ▸ .same _
    settles := fun same => same ▸ couples.settle _ (told _ _)
  }

section Evaluation
variable {L : Link W} {O : Outcome → Outcome → Prop} {scene scene' : Scene W}
  (nodes : ∀ id, Option.Rel (Paired L O scene scene') (scene.tree.node? id) (scene'.tree.node? id))
  (refused : ∀ id, Together L Eq (Walk.note (.refused id)) (Walk.note (.refused id)))
  (absent : ∀ id, Together L Eq (Walk.note (.absent id)) (Walk.note (.absent id)))
include nodes refused absent

theorem evaluateTogether (room : Nat) (id : NodeId) :
    Together L Eq (evaluate scene room id) (evaluate scene' room id) := by
  induction room generalizing id with
  | zero =>
    unfold evaluate
    rcases relCases (nodes id) with ⟨none, none'⟩ | ⟨_, _, found, found', paired⟩
    · rw [none, none']
      exact (absent id).bindEq fun _ => .pure rfl
    · rw [found, found']
      exact (refused id).bindEq fun _ => .pure rfl
  | succ room ih =>
    unfold evaluate
    rcases relCases (nodes id) with ⟨none, none'⟩ | ⟨_, _, found, found', paired⟩
    · rw [none, none']
      exact (absent id).bindEq fun _ => .pure rfl
    · rw [found, found']
      exact paired.activate fun _ => ih _

end Evaluation

def Link.Meets (L : Link W) (p q : Report W (Timeline W) × OpenNodes) : Prop :=
  ∃ status m n, L m n ∧ p = (⟨status, m.seen, m.stage.world⟩, m.openNodes) ∧
    q = (⟨status, n.seen, n.stage.world⟩, n.openNodes)

section Runs
variable {L : Link W} {O : Outcome → Outcome → Prop} {plan plan' : Plan W} {tree tree' : Tree W}
  {patience : Nat} {subject : SubjectId} {openNodes openNodes' : OpenNodes} {world world' : W}

theorem Plan.runBeside {root root'} (rooted : tree.root = some root)
    (rooted' : tree'.root = some root')
    (start : L (plan.equip subject tree.id openNodes world)
      (plan'.equip subject tree'.id openNodes' world'))
    (together : Together L Eq (evaluate { plan, tree, subject, patience } plan.room root)
      (evaluate { plan := plan', tree := tree', subject, patience } plan'.room root')) :
    Option.Rel L.Meets (plan.runTree patience tree subject openNodes world)
      (plan'.runTree patience tree' subject openNodes' world') := by
  unfold Plan.runTree
  simp only [rooted, rooted']
  rcases relCases (together _ _ start) with
    ⟨cut, cut'⟩ | ⟨⟨status, m⟩, ⟨_, n⟩, came, came', same, linked⟩
  · rw [cut, cut']
    exact .none
  · cases same
    rw [came, came']
    exact .some ⟨status, m, n, linked, rfl, rfl⟩

theorem Plan.runTogether {root} (rooted : tree.root = some root) (rooted' : tree'.root = some root)
    (room : plan'.maxDepth = plan.maxDepth)
    (start : L (plan.equip subject tree.id openNodes world)
      (plan'.equip subject tree'.id openNodes' world'))
    (nodes : ∀ id, Option.Rel (Paired L O { plan, tree, subject, patience }
      { plan := plan', tree := tree', subject, patience }) (tree.node? id) (tree'.node? id))
    (refused : ∀ id, Together L Eq (Walk.note (.refused id)) (Walk.note (.refused id)))
    (absent : ∀ id, Together L Eq (Walk.note (.absent id)) (Walk.note (.absent id))) :
    Option.Rel L.Meets (plan.runTree patience tree subject openNodes world)
      (plan'.runTree patience tree' subject openNodes' world') := by
  refine Plan.runBeside rooted rooted' start ?_
  rw [show plan'.room = plan.room by rw [Plan.room, Plan.room, room]]
  exact evaluateTogether nodes refused absent plan.room root

theorem Plan.runSame (beside : Option.Rel (Link.Meets Eq)
    (plan.runTree patience tree subject openNodes world)
    (plan'.runTree patience tree' subject openNodes' world')) :
    (plan'.runTree patience tree' subject openNodes' world' :
      Option (Report W (Timeline W) × OpenNodes)) =
        plan.runTree patience tree subject openNodes world := by
  rcases relCases beside with ⟨cut, cut'⟩ | ⟨_, _, ran, ran', _, m, _, rfl, rfl, rfl⟩
  · exact cut'.trans cut.symm
  · exact ran'.trans ran.symm

end Runs

structure Round (W : Type) where
  plan : Plan W
  subject : SubjectId

structure Series (W : Type) where
  reports : List (Report W (Timeline W))
  openNodes : OpenNodes
  world : W

def Tree.runs (tree : Tree W) (patience : Nat) :
    List (Round W) → OpenNodes → W → Option (Series W)
  | [], openNodes, world => some ⟨[], openNodes, world⟩
  | round :: rounds, openNodes, world => do
    let (report, left) ← round.plan.runTree patience tree round.subject openNodes world
    let later ← tree.runs patience rounds left report.world
    pure { later with reports := report :: later.reports }

structure Series.Beside (Q : Report W (Timeline W) → Report W (Timeline W) → Prop)
    (a b : Series W) : Prop where
  reports : List.Forall₂ Q a.reports b.reports
  openNodes : b.openNodes = a.openNodes
  world : b.world = a.world

theorem Tree.runsTogether {tree tree' : Tree W} {patience}
    {Q : Report W (Timeline W) → Report W (Timeline W) → Prop} {rounds rounds' : List (Round W)}
    (each : List.Forall₂ (fun round round' => ∀ openNodes world,
      Option.Rel (fun p q => Q p.1 q.1 ∧ q.1.world = p.1.world ∧ q.2 = p.2)
        (round.plan.runTree patience tree round.subject openNodes world)
        (round'.plan.runTree patience tree' round'.subject openNodes world)) rounds rounds')
    (openNodes : OpenNodes) (world : W) :
    Option.Rel (Series.Beside Q) (tree.runs patience rounds openNodes world)
      (tree'.runs patience rounds' openNodes world) := by
  induction each generalizing openNodes world with
  | nil => exact .some ⟨.nil, rfl, rfl⟩
  | cons first _ ih =>
    unfold Tree.runs
    rcases relCases (first openNodes world) with
      ⟨cut, cut'⟩ | ⟨⟨report, left⟩, ⟨report', left'⟩, ran, ran', beside, same, leaves⟩
    · rw [cut, cut']
      exact .none
    · dsimp only at same leaves
      rw [ran, ran', leaves]
      simp only [Option.bind_eq_bind, Option.bind_some, same]
      rcases relCases (ih left report.world) with ⟨cut, cut'⟩ | ⟨later, later', ran, ran', rest⟩
      · simp only [cut, cut', Option.bind_none]
        exact .none
      · simp only [ran, ran', Option.bind_some]
        exact .some ⟨.cons beside rest.reports, rest.openNodes, rest.world⟩

end BehaviorTree
