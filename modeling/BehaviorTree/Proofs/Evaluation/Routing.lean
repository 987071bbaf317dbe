import BehaviorTree.Proofs.Evaluation.Blocks
import BehaviorTree.Proofs.Evaluation.ExitEvent
import BehaviorTree.Proofs.Evaluation.Subjects
import BehaviorTree.Proofs.Host
import BehaviorTree.Routine

/-! Which faults a handler is asked about. An activation puts to it the failure of its one
failing step, if any, and then that of its exit, each right after the call has failed and
inside the activation it belongs to; the activations of the children stand before them. So the
handler is asked about the calls that failed, in the order they did, and about nothing else.
A fault event tells the answer, and the next stage that is handed out finds it told. -/
namespace BehaviorTree

variable {W : Type}

inductive Act where
  | began (node : NodeId)
  | failed (fault : Fault)
  | handled (fault : Fault)
  | ended (node : NodeId)
  deriving DecidableEq, Repr

namespace Act

def failure? : Act → Option Fault
  | failed fault => some fault
  | _ => none

def handled? : Act → Option Fault
  | handled fault => some fault
  | _ => none

end Act

namespace Occurrence

def act? : Occurrence W → Option Act
  | .began node => some (.began node)
  | .returned node step (.failed error) => some (.failed ⟨node, step, error⟩)
  | .consulted fault .handler _ => some (.handled fault)
  | .ended node _ => some (.ended node)
  | _ => none

def failure? : Occurrence W → Option Fault
  | .returned node step (.failed error) => some ⟨node, step, error⟩
  | _ => none

def handled? : Occurrence W → Option (Fault × Stage W)
  | .consulted fault .handler stage => some (fault, stage)
  | _ => none

end Occurrence

namespace Timeline

def acts (t : Timeline W) : List Act := t.filterMap Occurrence.act?

def failures (t : Timeline W) : List Fault := t.filterMap Occurrence.failure?

def handled (t : Timeline W) : List (Fault × Stage W) := t.filterMap Occurrence.handled?

def faultEvents (t : Timeline W) : List Trace.Event := t.events.filter fun e => e.phase = .fault

theorem actsAppend (t u : Timeline W) : (t ++ u).acts = t.acts ++ u.acts := List.filterMap_append

theorem failuresOfActs (t : Timeline W) : t.failures = t.acts.filterMap Act.failure? := by
  unfold failures acts
  rw [List.filterMap_filterMap]
  refine List.filterMap_congr fun o _ => ?_
  cases o with
  | returned _ _ result => cases result <;> rfl
  | consulted _ responder => cases responder <;> rfl
  | _ => rfl

theorem handledOfActs (t : Timeline W) :
    t.handled.map Prod.fst = t.acts.filterMap Act.handled? := by
  unfold handled acts
  rw [List.filterMap_filterMap, List.map_filterMap]
  refine List.filterMap_congr fun o _ => ?_
  cases o with
  | returned _ _ result => cases result <;> rfl
  | consulted _ responder => cases responder <;> rfl
  | _ => rfl

end Timeline

def Fault.acts (fault : Fault) : List Act := [.failed fault, .handled fault]

/- The acts of an activation: those of the children that it evaluated, and at most two faults of
its own, of a step and of the exit. -/
inductive Episode : NodeId → List Act → Prop where
  | activation {id} {children : List (NodeId × List Act)} {early late : Option Fault}
      (inner : ∀ child ∈ children, Episode child.1 child.2)
      (before : ∀ fault ∈ early, fault.node = id ∧ fault.step ≠ .exit)
      (exit : ∀ fault ∈ late, fault.node = id ∧ fault.step = .exit) :
      Episode id (.began id :: children.flatMap Prod.snd ++ early.toList.flatMap Fault.acts ++
        late.toList.flatMap Fault.acts ++ [.ended id])

theorem Fault.actsExact (fault : Option Fault) :
    (fault.toList.flatMap Fault.acts).filterMap Act.handled? =
      (fault.toList.flatMap Fault.acts).filterMap Act.failure? := by
  cases fault <;> rfl

theorem Episode.exact {id acts} (episode : Episode id acts) :
    acts.filterMap Act.handled? = acts.filterMap Act.failure? := by
  induction episode with
  | @activation id children early late _ _ _ ih =>
    have began (rest : List Act) :
        (Act.began id :: rest).filterMap Act.handled? = rest.filterMap Act.handled? ∧
          (Act.began id :: rest).filterMap Act.failure? = rest.filterMap Act.failure? := ⟨rfl, rfl⟩
    have inner : (children.flatMap Prod.snd).filterMap Act.handled? =
        (children.flatMap Prod.snd).filterMap Act.failure? := by
      rw [List.filterMap_flatMap, List.filterMap_flatMap]
      exact List.flatMap_congr ih
    simp only [List.cons_append, began, List.filterMap_append, inner, Fault.actsExact]
    rfl

def Fault.ofSteps : Except Fault Status → Option Fault
  | .ok _ => none
  | .error fault => some fault

def Fault.ofCall {α : Type} (node : NodeId) (step : Step) : Except CallbackError α → Option Fault
  | .ok _ => none
  | .error error => some ⟨node, step, error⟩

def Fault.pending (fault : Option Fault) : List Act := fault.toList.map .failed

namespace Derivation
variable {scene : Scene W} {evaluated : Judgement W} {node : Node W} {s last : Standing W}
  {t : Timeline W}

theorem Called.acts {id step status callback result}
    (called : Called scene id step status callback s t result last) :
    t.acts = Fault.pending (Fault.ofCall id step result) := by
  cases called
  cases result <;> rfl

theorem Opened.acts {result} (opened : Opened scene node s t result last) :
    t.acts = Fault.pending (Fault.ofCall node.id .opening result) := by
  cases opened with
  | already => rfl
  | called _ called => exact called.acts

theorem Judged.acts {id outcome} (judged : Judged scene id s outcome t last) : t.acts = [] := by
  cases judged <;> rfl

theorem Settled.acts {outcome result} (settled : Settled scene node outcome s t result last) :
    t.acts = Fault.pending (Fault.ofSteps result) := by
  have flagged (isOpen : Bool) :
      Timeline.acts ([.flagged node.id isOpen] : Timeline W) = [] := rfl
  cases settled with
  | stays judged => rw [Timeline.actsAppend, judged.acts]; rfl
  | closes judged _ called | closeFails judged _ called =>
    rw [Timeline.actsAppend, Timeline.actsAppend, judged.acts, called.acts, flagged]
    rfl

section Children
variable (child : ∀ {request id s t status last}, node.locate request = .ok id →
  evaluated id s t status last → t.acts = [] ∨ ∃ id, Episode id t.acts)
include child

theorem Conversed.episodes {tick : Tick W} {move openNodes result}
    (conversed : Conversed evaluated node tick move openNodes t result last) :
    ∃ children : List (NodeId × List Act), (∀ inner ∈ children, Episode inner.1 inner.2) ∧
      t.acts = children.flatMap Prod.snd := by
  induction conversed with
  | answer => exact ⟨[], by simp, rfl⟩
  | misses _ _ ih => exact ih
  | @child _ _ _ _ _ first _ _ t _ _ located asked _ ih =>
    obtain ⟨children, episodes, acts⟩ := ih
    rcases child located asked with none | ⟨id, episode⟩
    · exact ⟨children, episodes, by rw [Timeline.actsAppend, none, List.nil_append, acts]⟩
    · refine ⟨(id, first.acts) :: children, ?_, by rw [Timeline.actsAppend, acts]; rfl⟩
      exact List.forall_mem_cons.mpr ⟨episode, episodes⟩

theorem Ticked.episodes {result} (ticked : Ticked evaluated node s t result last) :
    ∃ children : List (NodeId × List Act), (∀ inner ∈ children, Episode inner.1 inner.2) ∧
      t.acts = children.flatMap Prod.snd ++ Fault.pending (Fault.ofCall node.id .tick result) := by
  cases ticked with
  | missing => exact ⟨[], by simp, rfl⟩
  | @played tick talk _ _ _ conversed =>
    obtain ⟨children, episodes, acts⟩ := conversed.episodes child
    refine ⟨children, episodes, ?_⟩
    have asked (rest : Timeline W) :
        Timeline.acts (.called node.id .tick s.stage :: rest) = rest.acts := rfl
    rw [Timeline.actsAppend, asked, acts]
    cases result <;> rfl

theorem Stepped.episodes {result} (stepped : Stepped scene evaluated node s t result last) :
    ∃ children : List (NodeId × List Act), (∀ inner ∈ children, Episode inner.1 inner.2) ∧
      t.acts = children.flatMap Prod.snd ++ Fault.pending (Fault.ofSteps result) := by
  cases stepped with
  | enterFails entered => exact ⟨[], by simp, entered.acts⟩
  | openFails entered opened =>
    refine ⟨[], by simp, ?_⟩
    rw [Timeline.actsAppend, entered.acts, opened.acts]
    rfl
  | tickFails entered opened ticked =>
    obtain ⟨children, episodes, acts⟩ := ticked.episodes child
    refine ⟨children, episodes, ?_⟩
    rw [Timeline.actsAppend, Timeline.actsAppend, entered.acts, opened.acts, acts]
    rfl
  | settles entered opened ticked settled =>
    obtain ⟨children, episodes, acts⟩ := ticked.episodes child
    refine ⟨children, episodes, ?_⟩
    rw [Timeline.actsAppend, Timeline.actsAppend, Timeline.actsAppend, entered.acts, opened.acts,
      acts, settled.acts]
    simp [Fault.ofCall, Fault.pending]

variable {handler : Fault → Stage W → Status × W} (given : scene.plan.handler = some handler)
include given

omit child in
theorem responderGiven (stage : Stage W) : scene.responder stage = .handler := by
  simp only [Scene.responder, given]

omit child in
theorem Answered.acts {fault status} (answered : Answered scene fault s t status last) :
    t.acts = [.handled fault] := by
  cases answered
  rw [responderGiven given]
  rfl

omit child in
theorem Resolved.acts {soFar status} (resolved : Resolved scene s soFar t status last) :
    t.acts = (Fault.ofSteps soFar).toList.map .handled := by
  cases resolved with
  | fine => rfl
  | faulty answered => exact answered.acts given

theorem Activated.episode {status} (activated : Activated scene evaluated node s t status last) :
    Episode node.id t.acts := by
  have began (rest : Timeline W) :
      Timeline.acts (.began node.id :: rest) = .began node.id :: rest.acts := rfl
  have ended (status : Status) :
      Timeline.acts ([.ended node.id status] : Timeline W) = [.ended node.id] := rfl
  have own {s t soFar last} (stepped : Stepped scene evaluated node s t soFar last) :
      ∀ fault ∈ Fault.ofSteps soFar, fault.node = node.id ∧ fault.step ≠ .exit := by
    intro fault mem
    cases soFar with
    | ok => cases mem
    | error e =>
      cases mem
      exact ⟨stepped.faultNode, stepped.faultStep⟩
  have paired (fault : Option Fault) : fault.toList.flatMap Fault.acts =
      Fault.pending fault ++ fault.toList.map .handled := by
    cases fault <;> rfl
  cases activated with
  | leaves stepped settled exited =>
    obtain ⟨children, episodes, acts⟩ := stepped.episodes child
    have fine : ∀ fault ∈ (none : Option Fault), fault.node = node.id ∧ fault.step = .exit := nofun
    have episode := Episode.activation episodes (own stepped) fine
    simpa [began, ended, Timeline.actsAppend, acts, settled.acts given, exited.acts, paired,
      Fault.ofCall, Fault.pending] using episode
  | @exitFails _ _ _ _ e _ _ _ _ _ _ _ stepped settled exited answered =>
    obtain ⟨children, episodes, acts⟩ := stepped.episodes child
    have failed : ∀ fault ∈ some (⟨node.id, .exit, e⟩ : Fault),
        fault.node = node.id ∧ fault.step = .exit := by simp
    have episode := Episode.activation episodes (own stepped) failed
    simpa [began, ended, Timeline.actsAppend, acts, settled.acts given, exited.acts,
      answered.acts given, paired, Fault.ofCall, Fault.pending, Fault.acts] using episode

end Children

theorem evaluatesEpisode {handler} (given : scene.plan.handler = some handler) {room id status}
    (evaluates : Evaluates scene room id s t status last) :
    t.acts = [] ∨ ∃ id, Episode id t.acts := by
  induction room generalizing id s t status last with
  | zero =>
    cases evaluates with
    | absent => exact .inl rfl
    | refused => exact .inl rfl
    | activated _ room => cases room
  | succ room ih =>
    cases evaluates with
    | absent => exact .inl rfl
    | refused => exact .inl rfl
    | activated _ room activated =>
      cases room
      exact .inr ⟨_, activated.episode (fun _ asked => ih asked) given⟩

end Derivation

def answerEvent (handler : Fault → Stage W → Status × W) (asked : Fault × Stage W) : Trace.Event :=
  asked.1.event asked.2.toolbox.subject (handler asked.1 asked.2).1

def Timeline.Answers (handler : Fault → Stage W → Status × W) (t : Timeline W) : Prop :=
  t.faultEvents = t.handled.map (answerEvent handler)

theorem Timeline.Answers.append {handler : Fault → Stage W → Status × W} {t u : Timeline W}
    (left : t.Answers handler) (right : u.Answers handler) : (t ++ u).Answers handler := by
  unfold Timeline.Answers Timeline.faultEvents Timeline.handled at *
  rw [Timeline.eventsAppend, List.filter_append, List.filterMap_append, List.map_append, left,
    right]

/- So do those of each part that ends where a stage is handed out. -/
structure Answering (handler : Fault → Stage W → Status × W) (t : Timeline W) : Prop where
  told : t.Answers handler
  soFar : ∀ {before after : Timeline W} {o stage}, t = before ++ o :: after →
    o.stage? = some stage → before.Answers handler

namespace Answering
variable {handler : Fault → Stage W → Status × W} {t u : Timeline W}

theorem nil : Answering handler ([] : Timeline W) := ⟨rfl, by simp⟩

theorem piece {o : Occurrence W} {rest : Timeline W}
    (told : Timeline.Answers handler (o :: rest)) (later : ∀ o' ∈ rest, o'.stage? = none) :
    Answering handler (o :: rest) where
  told := told
  soFar {before after o' stage} split staged := by
    cases before with
    | nil => rfl
    | cons first before =>
      cases split
      have none := later o' (by simp)
      rw [none] at staged
      contradiction

theorem append (left : Answering handler t) (right : Answering handler u) :
    Answering handler (t ++ u) where
  told := left.told.append right.told
  soFar {before after o stage} split staged := by
    rcases Timeline.splitAppend split with ⟨rest, here, _⟩ | ⟨inner, rfl, here⟩
    · exact left.soFar here staged
    · exact left.told.append (right.soFar here staged)

end Answering

namespace Derivation
variable {scene : Scene W} {node : Node W} {handler : Fault → Stage W → Status × W}

theorem answeringCarries (given : scene.plan.handler = some handler) :
    Carries scene node fun _ t _ => Answering handler t where
  nil _ := .nil
  append := .append
  told _ _ _ ordinary := .piece (by
    simp [Timeline.Answers, Timeline.faultEvents, Timeline.events, Timeline.handled,
      Occurrence.handled?, Scene.event, ordinary]) (by simp)
  called _ _ _ _ _ := .piece rfl (by simp)
  answered _ answered := by
    cases answered with
    | intro answer =>
      refine .piece ?_ (by simp)
      rw [responderGiven given]
      simp only [Scene.respond, given] at answer
      simp [Timeline.Answers, Timeline.faultEvents, Timeline.events, Timeline.handled,
        List.filterMap_cons, Occurrence.handled?, Fault.event, answerEvent, answer]
  flagged _ _ := .piece rfl (by simp)
  ticks _ := .piece rfl (by simp)
  starts _ _ := .nil
  resumes _ _ _ _ := .nil
  ticked _ _ := .piece rfl (by simp)

theorem boundsAnswering {o : Occurrence W} (bounds : o.Bounds) : Answering handler [o] := by
  cases o with
  | began | ended | refused | absent => exact .piece rfl (by simp)
  | _ => cases bounds

end Derivation

structure Routed (tree : Tree W) (handler : Fault → Stage W → Status × W) (start : Stage W)
    (seen : Timeline W) : Prop where
  exact : seen.handled.map Prod.fst = seen.failures
  episodes : seen.acts = [] ∨ ∃ id, Episode id seen.acts
  told : seen.faultEvents = seen.handled.map (answerEvent handler)
  received : (∀ {id node}, tree.node? id = some node → node.content.behavior.Discreet) →
    start.records = true →
    seen.record.filter (fun e => e.phase = .fault) = seen.handled.map (answerEvent handler)
  -- Whoever has a stage before it finds in the log what was sent so far.
  logged : (∀ {id node}, tree.node? id = some node → node.content.behavior.Discreet) →
    ∀ {before after : Timeline W} {o stage}, seen = before ++ o :: after → o.stage? = some stage →
      stage.log? = start.log?.map (fun log => .ofEvents (log.events ++ before.events)) ∧
      before.faultEvents = before.handled.map (answerEvent handler)

open BehaviorTree.Derivation

theorem equippedAnswering (handler : Fault → Stage W → Status × W) (plan : Plan W)
    (subject : SubjectId) (tree : TreeId) (openNodes : OpenNodes) (world : W) :
    let start : Moment W (Timeline W) := plan.equip subject tree openNodes world
    start.seen.acts = [] ∧ Answering handler start.seen := by
  intro start
  rcases plan.equipSeen subject tree openNodes world with none | equipped
  · have empty : start.seen = [] := none
    rw [empty]
    exact ⟨rfl, .nil⟩
  · have shown : start.seen = [.equipped start.stage] := equipped
    rw [shown]
    exact ⟨rfl, .piece rfl (by simp)⟩

theorem Plan.runRouted {plan : Plan W} {handler} (given : plan.handler = some handler) {patience}
    {tree : Tree W} {subject openNodes world left} {report : Report W (Timeline W)}
    (ok : plan.runTree patience tree subject openNodes world = some (report, left)) :
    Routed tree handler (plan.equip subject tree.id openNodes world : Moment W (Timeline W)).stage
      report.seen := by
  cases rooted : tree.root with
  | none =>
    cases (Plan.runUnrooted rooted plan patience subject openNodes world).symm.trans ok
    exact ⟨rfl, .inl rfl, rfl, fun _ _ => rfl,
      fun _ => by simp [Report.idle, Observer.start]⟩
  | some root =>
    obtain ⟨t, last, seen, _, _, evaluates⟩ := Plan.runFrom rooted ok
    obtain ⟨quiet, told⟩ := equippedAnswering handler plan subject tree.id openNodes world
    have acts : report.seen.acts = t.acts := by
      rw [seen, Timeline.actsAppend, quiet, List.nil_append]
    have episodes := evaluatesEpisode given evaluates
    have answering : Answering handler report.seen := by
      rw [seen]
      exact told.append (evaluatesCarried (R := fun _ t _ => Answering handler t)
        (fun _ => answeringCarries given) (fun _ _ => boundsAnswering) evaluates)
    constructor
    · rw [Timeline.handledOfActs, Timeline.failuresOfActs, acts]
      rcases episodes with none | ⟨_, episode⟩
      · rw [none]
        rfl
      · exact episode.exact
    · exact acts ▸ episodes
    · exact answering.told
    · intro discreet records
      obtain ⟨_, recorded⟩ := Plan.runRecorded discreet ok
      have records : (plan.equip subject tree.id openNodes world :
          Moment W (Timeline W)).standing.records = true := records
      rw [recorded.received, if_pos records]
      exact answering.told
    · intro discreet before after o stage split staged
      obtain ⟨_, recorded⟩ := Plan.runRecorded discreet ok
      exact ⟨(recorded.shown split staged).log, answering.soFar split staged⟩

theorem faultsReachHandler {plan : Plan W} {handler} (given : plan.handler = some handler) :
    (∀ {patience} {tree : Tree W} {subject openNodes world left} {report : Report W (Timeline W)},
      plan.runTree patience tree subject openNodes world = some (report, left) →
        Routed tree handler
          (plan.equip subject tree.id openNodes world : Moment W (Timeline W)).stage report.seen) ∧
    ∀ {h changed : Host W} {patience subject world} {report : Report W (Timeline W)},
      h.resolve subject = none → h.run plan patience subject world = some (report, changed) →
        report.seen = [] := by
  refine ⟨fun ok => Plan.runRouted given ok, fun unresolved ok => ?_⟩
  rcases Host.runExact ok with ⟨_, rfl, _⟩ | ⟨_, _, _, resolved, _⟩
  · rfl
  · rw [unresolved] at resolved
    contradiction

def Behavior.shaky : Behavior Unit where
  tick := some <| .ofRoutine fun _ =>
    (do
      let reply ← Staged.request .child
      return reply.map .status : Staged Unit (Except CallbackError Outcome))
  onExit := fun stage => (.error (.message "shaky"), stage)

def Plan.lenient : Plan Unit where
  factory := some fun _ stage =>
    { stage with toolbox := { stage.toolbox with
        slots := stage.toolbox.slots.set Trace.sinkKey .recording } }
  handler := some fun _ stage => (.failure, stage.world)

theorem faultsReachLenient :
    ∃ (handler : Fault → Stage Unit → Status × Unit) (report : Report Unit (Timeline Unit))
      (left : OpenNodes), Plan.lenient.handler = some handler ∧
      Plan.lenient.runTree 1 (Tree.pair .shaky .shut) ⟨1⟩ .empty () = some (report, left) ∧
      report.seen.failures =
        [⟨⟨1⟩, .enter, .message "shut"⟩, ⟨⟨0⟩, .exit, .message "shaky"⟩] ∧
      Routed (Tree.pair .shaky .shut) handler
        (Plan.lenient.equip ⟨1⟩ (Tree.pair .shaky .shut).id .empty () :
          Moment Unit (Timeline Unit)).stage report.seen := by
  have given : Plan.lenient.handler = some fun _ stage => (.failure, stage.world) := rfl
  have ok : (Plan.lenient.runTree 1 (Tree.pair .shaky .shut) ⟨1⟩ .empty () :
      Option (Report Unit (Timeline Unit) × OpenNodes)) = some (_, _) := rfl
  exact ⟨_, _, _, given, ok, rfl, (faultsReachHandler given).1 ok⟩

end BehaviorTree
