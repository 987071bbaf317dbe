import BehaviorTree.Evaluation.Run

/-! The evaluation as a relation beside the function. A derivation says what was seen, in
order, and how stage and open nodes went on; it does not mention patience. What one
activation can do is said here once, and every property of runs is read off from it. -/
namespace BehaviorTree

variable {W : Type}

structure Standing (W : Type) where
  stage : Stage W
  openNodes : OpenNodes

def Moment.standing {T : Type} (m : Moment W T) : Standing W := ⟨m.stage, m.openNodes⟩

namespace Standing

def records (s : Standing W) : Bool := Trace.isRecorded s.stage.toolbox.slots

def send (s : Standing W) (event : Trace.Event) : Standing W :=
  let toolbox := { s.stage.toolbox with slots := Trace.emit event s.stage.toolbox.slots }
  { s with stage := { s.stage with toolbox } }

def flag (s : Standing W) (node : NodeId) (isOpen : Bool) : Standing W :=
  { s with openNodes := if isOpen then s.openNodes.insert node else s.openNodes.erase node }

theorem flagContains (s : Standing W) (node other : NodeId) (isOpen : Bool) :
    (s.flag node isOpen).openNodes.contains other =
      if other = node then isOpen else s.openNodes.contains other := by
  by_cases same : other = node <;> cases isOpen <;>
    simp [flag, OpenNodes.containsInsert, OpenNodes.containsErase, same]

end Standing

def Step.phase : Step → Trace.Phase
  | .enter => .enter
  | .opening => .opening
  | .tick => .tick
  | .close => .close
  | .exit => .exit

def Scene.event (scene : Scene W) (node : NodeId) (phase : Trace.Phase) (status : Option Status) :
    Trace.Event :=
  { subject := scene.subject, node, phase, status }

def Fault.event (fault : Fault) (subject : SubjectId) (answer : Status) : Trace.Event :=
  { subject, node := fault.node, phase := .fault, status := some answer }

namespace Derivation

abbrev Judgement (W : Type) := NodeId → Standing W → Timeline W → Status → Standing W → Prop

inductive Called (scene : Scene W) (node : NodeId) (step : Step) (status : Option Status)
    (callback : Callback W) (s : Standing W) :
    Timeline W → Except CallbackError Unit → Standing W → Prop where
  | intro {result stage}
      (came : callback (s.send (scene.event node step.phase status)).stage = (result, stage)) :
      Called scene node step status callback s
        [.reported (scene.event node step.phase status) s.records,
          .called node step (s.send (scene.event node step.phase status)).stage,
          .returned node step (.ofResult result)]
        result { s with stage }

inductive Answered (scene : Scene W) (fault : Fault) (s : Standing W) :
    Timeline W → Status → Standing W → Prop where
  | intro {status world} (answer : scene.respond fault s.stage = (status, world)) :
      Answered scene fault s
        [.consulted fault (scene.responder s.stage) s.stage, .contained fault status,
          .reported (fault.event s.stage.toolbox.subject status) s.records]
        status
        (Standing.send { s with stage := { s.stage with world } }
          (fault.event s.stage.toolbox.subject status))

inductive Resolved (scene : Scene W) (s : Standing W) :
    Except Fault Status → Timeline W → Status → Standing W → Prop where
  | fine (status) : Resolved scene s (.ok status) [] status s
  | faulty {fault t status last} (answered : Answered scene fault s t status last) :
      Resolved scene s (.error fault) t status last

inductive Conversed (evaluated : Judgement W) (node : Node W) (tick : Tick W) :
    Move W tick.Memory → OpenNodes → Timeline W → Except CallbackError Outcome → Standing W →
      Prop where
  | answer (result stage openNodes) :
      Conversed evaluated node tick (.answer result stage) openNodes [] result ⟨stage, openNodes⟩
  | misses {request stage memory openNodes e t result last}
      (located : node.locate request = .error e)
      (rest : Conversed evaluated node tick (tick.resume memory (.error e) stage) openNodes
        t result last) :
      Conversed evaluated node tick (.ask request stage memory) openNodes t result last
  | child {request stage memory openNodes id first status middle t result last}
      (located : node.locate request = .ok id)
      (asked : evaluated id ⟨stage, openNodes⟩ first status middle)
      (rest : Conversed evaluated node tick (tick.resume memory (.ok status) middle.stage)
        middle.openNodes t result last) :
      Conversed evaluated node tick (.ask request stage memory) openNodes (first ++ t) result last

inductive Ticked (evaluated : Judgement W) (node : Node W) (s : Standing W) :
    Timeline W → Except CallbackError Outcome → Standing W → Prop where
  | missing (none : node.content.behavior.tick = none) :
      Ticked evaluated node s
        [.called node.id .tick s.stage, .returned node.id .tick (.failed .missingTick)]
        (.error .missingTick) s
  | played {tick talk result last} (some : node.content.behavior.tick = some tick)
      (conversed : Conversed evaluated node tick (tick.start node.view s.stage) s.openNodes
        talk result last) :
      Ticked evaluated node s
        (.called node.id .tick s.stage :: talk ++ [.returned node.id .tick (.ofOutcome result)])
        result last

inductive Opened (scene : Scene W) (node : Node W) (s : Standing W) :
    Timeline W → Except CallbackError Unit → Standing W → Prop where
  | already (isOpen : s.openNodes.contains node.id = true) : Opened scene node s [] (.ok ()) s
  | called {t result last} (closed : s.openNodes.contains node.id = false)
      (called : Called scene node.id .opening none node.content.behavior.onOpen s t result last) :
      Opened scene node s t result last

inductive Judged (scene : Scene W) (node : NodeId) (s : Standing W) :
    Outcome → Timeline W → Standing W → Prop where
  | status (status) :
      Judged scene node s (.status status)
        [.reported (scene.event node .tick (some status)) s.records]
        (s.send (scene.event node .tick (some status)))
  | unrecognized (text) :
      Judged scene node s (.unrecognized text)
        [.reported (scene.event node .invalid (some .error)) s.records,
          .reported (scene.event node .tick (some .error))
            (s.send (scene.event node .invalid (some .error))).records]
        ((s.send (scene.event node .invalid (some .error))).send
          (scene.event node .tick (some .error)))

inductive Settled (scene : Scene W) (node : Node W) (outcome : Outcome) (s : Standing W) :
    Timeline W → Except Fault Status → Standing W → Prop where
  | stays {t middle} (judged : Judged scene node.id s outcome t middle)
      (running : outcome.effective = .running) :
      Settled scene node outcome s (t ++ [.flagged node.id true]) (.ok .running)
        (middle.flag node.id true)
  | closes {t u middle last} (judged : Judged scene node.id s outcome t middle)
      (past : outcome.effective ≠ .running)
      (called : Called scene node.id .close none node.content.behavior.onClose middle
        u (.ok ()) last) :
      Settled scene node outcome s (t ++ u ++ [.flagged node.id false]) (.ok outcome.effective)
        (last.flag node.id false)
  | closeFails {t u e middle last} (judged : Judged scene node.id s outcome t middle)
      (past : outcome.effective ≠ .running)
      (called : Called scene node.id .close none node.content.behavior.onClose middle
        u (.error e) last) :
      Settled scene node outcome s (t ++ u ++ [.flagged node.id false])
        (.error ⟨node.id, .close, e⟩) (last.flag node.id false)

inductive Stepped (scene : Scene W) (evaluated : Judgement W) (node : Node W) (s : Standing W) :
    Timeline W → Except Fault Status → Standing W → Prop where
  | enterFails {t e last}
      (entered : Called scene node.id .enter none node.content.behavior.onEnter s
        t (.error e) last) :
      Stepped scene evaluated node s t (.error ⟨node.id, .enter, e⟩) last
  | openFails {t u e middle last}
      (entered : Called scene node.id .enter none node.content.behavior.onEnter s
        t (.ok ()) middle)
      (opened : Opened scene node middle u (.error e) last) :
      Stepped scene evaluated node s (t ++ u) (.error ⟨node.id, .opening, e⟩) last
  | tickFails {t u v e middle ready last}
      (entered : Called scene node.id .enter none node.content.behavior.onEnter s
        t (.ok ()) middle)
      (opened : Opened scene node middle u (.ok ()) ready)
      (ticked : Ticked evaluated node ready v (.error e) last) :
      Stepped scene evaluated node s (t ++ u ++ v) (.error ⟨node.id, .tick, e⟩) last
  | settles {t u v w outcome result middle ready told last}
      (entered : Called scene node.id .enter none node.content.behavior.onEnter s
        t (.ok ()) middle)
      (opened : Opened scene node middle u (.ok ()) ready)
      (ticked : Ticked evaluated node ready v (.ok outcome) told)
      (settled : Settled scene node outcome told w result last) :
      Stepped scene evaluated node s (t ++ u ++ v ++ w) result last

inductive Activated (scene : Scene W) (evaluated : Judgement W) (node : Node W) (s : Standing W) :
    Timeline W → Status → Standing W → Prop where
  | leaves {t u v soFar status middle resolved last}
      (stepped : Stepped scene evaluated node s t soFar middle)
      (settled : Resolved scene middle soFar u status resolved)
      (exited : Called scene node.id .exit (some status) node.content.behavior.onExit resolved
        v (.ok ()) last) :
      Activated scene evaluated node s
        (.began node.id :: t ++ u ++ v ++ [.ended node.id status]) status last
  | exitFails {t u v w e soFar status middle resolved left final last}
      (stepped : Stepped scene evaluated node s t soFar middle)
      (settled : Resolved scene middle soFar u status resolved)
      (exited : Called scene node.id .exit (some status) node.content.behavior.onExit resolved
        v (.error e) left)
      (answered : Answered scene ⟨node.id, .exit, e⟩ left w final last) :
      Activated scene evaluated node s
        (.began node.id :: t ++ u ++ v ++ w ++ [.ended node.id final]) final last

inductive Evaluated (scene : Scene W) (deeper : Option (Judgement W)) : Judgement W where
  | absent {id s} (none : scene.tree.node? id = none) :
      Evaluated scene deeper id s [.absent id] .error s
  | refused {id s node} (found : scene.tree.node? id = some node) (limit : deeper = none) :
      Evaluated scene deeper id s [.refused id] .error s
  | activated {id s node evaluated t status last} (found : scene.tree.node? id = some node)
      (room : deeper = some evaluated)
      (activated : Activated scene evaluated node s t status last) :
      Evaluated scene deeper id s t status last

end Derivation

def Evaluates (scene : Scene W) : Nat → Derivation.Judgement W
  | 0 => Derivation.Evaluated scene none
  | room + 1 => Derivation.Evaluated scene (some (Evaluates scene room))

namespace Derivation

def Follows (walk : NodeId → Walk W (Timeline W) Status) (evaluated : Judgement W) : Prop :=
  ∀ id m status last, walk id m = some (status, last) →
    ∃ t, last.seen = m.seen ++ t ∧ evaluated id m.standing t status last.standing

variable {scene : Scene W} {descend : NodeId → Walk W (Timeline W) Status}
  {evaluated : Judgement W} {node : Node W} {m sent last : Moment W (Timeline W)}

theorem calledSound {id} (step : Step) {status callback u result}
    (report : scene.report id step.phase status m = some (u, sent))
    (call : Walk.call id step callback sent = some (result, last)) :
    ∃ t, last.seen = m.seen ++ t ∧
      Called scene id step status callback m.standing t result last.standing := by
  cases report
  cases call
  refine ⟨_, ?_, .intro rfl⟩
  simp only [Moment.see, Observer.see, List.append_assoc]
  rfl

theorem answeredSound {fault status} (ok : scene.contain fault m = some (status, last)) :
    ∃ t, last.seen = m.seen ++ t ∧ Answered scene fault m.standing t status last.standing := by
  cases ok
  refine ⟨_, ?_, .intro rfl⟩
  simp only [Moment.see, Observer.see, List.append_assoc]
  rfl

theorem conversedSound {tick : Tick W} (follows : Follows descend evaluated) {patience move}
    {openNodes : OpenNodes} {seen : Timeline W} {result}
    (ok : Activation.converse descend node tick patience move openNodes seen =
      some (result, last)) :
    ∃ t, last.seen = seen ++ t ∧
      Conversed evaluated node tick move openNodes t result last.standing := by
  induction patience generalizing move openNodes seen with
  | zero =>
    cases move with
    | answer => cases ok; exact ⟨[], by simp, .answer _ _ _⟩
    | ask => cases ok
  | succ patience ih =>
    cases move with
    | answer => cases ok; exact ⟨[], by simp, .answer _ _ _⟩
    | ask request stage memory =>
      simp only [Activation.converse] at ok
      cases located : node.locate request with
      | error e =>
        obtain ⟨t, grown, rest⟩ := ih (by simpa only [located] using ok)
        exact ⟨t, grown, .misses located rest⟩
      | ok id =>
        simp only [located] at ok
        cases walked : descend id { stage, openNodes, seen } with
        | none => simp [walked] at ok
        | some p =>
          obtain ⟨status, middle⟩ := p
          obtain ⟨first, grown, asked⟩ := follows _ _ _ _ walked
          obtain ⟨t, last, rest⟩ := ih (by simpa only [walked] using ok)
          exact ⟨first ++ t, by rw [last, grown, List.append_assoc], .child located asked rest⟩

theorem tickedSound (follows : Follows descend evaluated) {result}
    (ok : Activation.tickNode scene descend node m = some (result, last)) :
    ∃ t, last.seen = m.seen ++ t ∧ Ticked evaluated node m.standing t result last.standing := by
  obtain ⟨result, middle, played, ok⟩ := Walk.bindIff.mp ok
  cases ok
  unfold Activation.tickNode.played at played
  cases present : node.content.behavior.tick with
  | none =>
    simp only [present] at played
    cases played
    refine ⟨_, ?_, .missing present⟩
    simp only [Moment.see, Observer.see, List.append_assoc]
    rfl
  | some tick =>
    simp only [present] at played
    obtain ⟨talk, grown, conversed⟩ := conversedSound follows played
    refine ⟨_, ?_, .played present conversed⟩
    simp only [Moment.see, Observer.see, grown, List.append_assoc]
    rfl

theorem openedSound {result}
    (ok : Activation.openWhenClosed scene node m = some (result, last)) :
    ∃ t, last.seen = m.seen ++ t ∧ Opened scene node m.standing t result last.standing := by
  obtain ⟨isOpen, _, asked, ok⟩ := Walk.bindIff.mp ok
  cases asked
  split at ok
  · cases ok
    rename_i isOpen
    exact ⟨[], by simp, .already isOpen⟩
  · rename_i closed
    obtain ⟨_, _, report, call⟩ := Walk.bindIff.mp ok
    obtain ⟨t, grown, called⟩ := calledSound .opening report call
    exact ⟨t, grown, .called (Bool.not_eq_true _ ▸ closed) called⟩

/- The reports of the outcome come first; what closes the node is the same for all. -/
theorem closedSound {outcome t middle result} (grown : middle.seen = m.seen ++ t)
    (judged : Judged scene node.id m.standing outcome t middle.standing)
    (ok : Activation.closeUnlessRunning scene node outcome.effective middle = some (result, last)) :
    ∃ t, last.seen = m.seen ++ t ∧ Settled scene node outcome m.standing t result last.standing := by
  unfold Activation.closeUnlessRunning at ok
  split at ok
  · rename_i running
    have running : outcome.effective = .running := by
      cases h : outcome.effective <;> simp [h, Status.isRunning] at running ⊢
    rw [running] at ok
    cases ok
    refine ⟨_, ?_, .stays judged running⟩
    simp only [Moment.see, Observer.see, grown, List.append_assoc]
  · rename_i past
    have past : outcome.effective ≠ .running := fun h => past (by simp [h, Status.isRunning])
    obtain ⟨_, _, report, ok⟩ := Walk.bindIff.mp ok
    obtain ⟨closed, afterwards, call, ok⟩ := Walk.bindIff.mp ok
    obtain ⟨_, _, flag, ok⟩ := Walk.bindIff.mp ok
    obtain ⟨u, later, called⟩ := calledSound .close report call
    cases flag
    cases closed with
    | ok =>
      cases ok
      refine ⟨_, ?_, .closes judged past called⟩
      simp only [Moment.see, Observer.see, later, grown, List.append_assoc]
    | error e =>
      cases ok
      refine ⟨_, ?_, .closeFails judged past called⟩
      simp only [Moment.see, Observer.see, later, grown, List.append_assoc]

theorem settledSound {outcome result}
    (ok : Activation.settle scene node outcome m = some (result, last)) :
    ∃ t, last.seen = m.seen ++ t ∧ Settled scene node outcome m.standing t result last.standing := by
  unfold Activation.settle at ok
  cases outcome with
  | status status =>
    obtain ⟨_, _, report, ok⟩ := Walk.bindIff.mp ok
    cases report
    exact closedSound rfl (.status status) ok
  | unrecognized text =>
    obtain ⟨_, _, invalid, ok⟩ := Walk.bindIff.mp ok
    obtain ⟨_, _, report, ok⟩ := Walk.bindIff.mp ok
    cases invalid
    cases report
    exact closedSound (List.append_assoc _ _ _) (.unrecognized text) ok

theorem steppedSound (follows : Follows descend evaluated) {result}
    (ok : Activation.steps scene descend node m = some (result, last)) :
    ∃ t, last.seen = m.seen ++ t ∧
      Stepped scene evaluated node m.standing t result last.standing := by
  obtain ⟨_, _, report, ok⟩ := Walk.bindIff.mp ok
  obtain ⟨enter, _, call, ok⟩ := Walk.bindIff.mp ok
  obtain ⟨t, seenT, entered⟩ := calledSound .enter report call
  cases enter with
  | error e =>
    cases ok
    exact ⟨t, seenT, .enterFails entered⟩
  | ok =>
    obtain ⟨opening, _, openWalk, ok⟩ := Walk.bindIff.mp ok
    obtain ⟨u, seenU, opened⟩ := openedSound openWalk
    cases opening with
    | error e =>
      cases ok
      exact ⟨t ++ u, by rw [seenU, seenT, List.append_assoc], .openFails entered opened⟩
    | ok =>
      obtain ⟨answer, _, tickWalk, ok⟩ := Walk.bindIff.mp ok
      obtain ⟨v, seenV, ticked⟩ := tickedSound follows tickWalk
      cases answer with
      | error e =>
        cases ok
        exact ⟨t ++ u ++ v, by simp only [seenV, seenU, seenT, List.append_assoc],
          .tickFails entered opened ticked⟩
      | ok outcome =>
        obtain ⟨w, seenW, settled⟩ := settledSound ok
        exact ⟨t ++ u ++ v ++ w, by simp only [seenW, seenV, seenU, seenT, List.append_assoc],
          .settles entered opened ticked settled⟩

theorem activatedSound (follows : Follows descend evaluated) {final}
    (ok : Activation.activate scene descend node m = some (final, last)) :
    ∃ t, last.seen = m.seen ++ t ∧
      Activated scene evaluated node m.standing t final last.standing := by
  obtain ⟨_, _, began, ok⟩ := Walk.bindIff.mp ok
  obtain ⟨soFar, middle, stepsWalk, ok⟩ := Walk.bindIff.mp ok
  cases began
  obtain ⟨t, seenT, stepped⟩ := steppedSound follows stepsWalk
  have resolution : ∃ status u, ∃ resolved : Moment W (Timeline W),
      resolved.seen = middle.seen ++ u ∧
      Resolved scene middle.standing soFar u status resolved.standing ∧
      (do
        let final ← Activation.leave scene node status
        Walk.note (.ended node.id final)
        pure final : Walk W (Timeline W) Status) resolved = some (final, last) := by
    cases soFar with
    | ok status => exact ⟨status, [], middle, by simp, .fine status, ok⟩
    | error fault =>
      obtain ⟨status, resolved, contained, ok⟩ := Walk.bindIff.mp ok
      obtain ⟨u, seenU, answered⟩ := answeredSound contained
      exact ⟨status, u, resolved, seenU, .faulty answered, ok⟩
  obtain ⟨status, u, _, seenU, resolved, ok⟩ := resolution
  obtain ⟨_, _, leave, ok⟩ := Walk.bindIff.mp ok
  obtain ⟨_, _, ended, ok⟩ := Walk.bindIff.mp ok
  obtain ⟨_, _, report, leave⟩ := Walk.bindIff.mp leave
  obtain ⟨left, _, call, leave⟩ := Walk.bindIff.mp leave
  obtain ⟨v, seenV, exited⟩ := calledSound .exit report call
  cases ended
  cases ok
  cases left with
  | ok =>
    cases leave
    refine ⟨_, ?_, .leaves stepped resolved exited⟩
    simp only [Moment.see, Observer.see, seenV, seenU, seenT, List.append_assoc]
    rfl
  | error e =>
    obtain ⟨w, seenW, answered⟩ := answeredSound leave
    refine ⟨_, ?_, .exitFails stepped resolved exited answered⟩
    simp only [Moment.see, Observer.see, seenW, seenV, seenU, seenT, List.append_assoc]
    rfl

end Derivation

open BehaviorTree.Derivation in
theorem evaluatesSound (scene : Scene W) (room : Nat) :
    Follows (evaluate scene room) (Evaluates scene room) := by
  induction room with
  | zero =>
    intro id m status last ok
    unfold evaluate at ok
    cases found : scene.tree.node? id with
    | none =>
      simp only [found] at ok
      cases ok
      exact ⟨[.absent id], rfl, .absent found⟩
    | some node =>
      simp only [found] at ok
      cases ok
      exact ⟨[.refused id], rfl, .refused found rfl⟩
  | succ room ih =>
    intro id m status last ok
    unfold evaluate at ok
    cases found : scene.tree.node? id with
    | none =>
      simp only [found] at ok
      cases ok
      exact ⟨[.absent id], rfl, .absent found⟩
    | some node =>
      simp only [found] at ok
      obtain ⟨t, grown, activated⟩ := activatedSound ih ok
      exact ⟨t, grown, .activated found rfl activated⟩

end BehaviorTree
