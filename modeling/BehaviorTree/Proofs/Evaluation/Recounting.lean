import BehaviorTree.Proofs.Evaluation.Lifecycle
import BehaviorTree.Proofs.Evaluation.Recording
import BehaviorTree.Proofs.Session.OpenFlags

/-! What one activation tells. Its events stand in a fixed order, each there exactly if what
it tells of happened, and those of the evaluated children stand where the tick was. The
events before the exit are told by the calls and returns of the node, one by one. -/
namespace BehaviorTree

variable {W : Type}

inductive Told {α : Type} (happened : α → Prop) (tells : α → Trace.Event → Prop) :
    List Trace.Event → Prop where
  | told {a event} (here : happened a) (telling : tells a event) : Told happened tells [event]
  | silent (never : ∀ a, ¬ happened a) : Told happened tells []

theorem Told.imp {α : Type} {happened happened' : α → Prop} {tells tells' : α → Trace.Event → Prop}
    {events : List Trace.Event} (told : Told happened tells events)
    (same : ∀ a, happened a ↔ happened' a) (telling : ∀ {a event}, tells a event → tells' a event) :
    Told happened' tells' events := by
  cases told with
  | told here tells => exact .told ((same _).mp here) (telling tells)
  | silent never => exact .silent fun a so => never a ((same a).mpr so)

def Timeline.Fails (t : Timeline W) (fault : Fault) : Prop :=
  .returned fault.node fault.step (.failed fault.error) ∈ t

def Scene.Tells (scene : Scene W) (t : Timeline W) (fault : Fault) (event : Trace.Event) : Prop :=
  ∃ stage, .consulted fault (scene.responder stage) stage ∈ t ∧
    event = fault.event stage.toolbox.subject (scene.respond fault stage).1

theorem Scene.Tells.within {scene : Scene W} {t u : Timeline W} {fault event}
    (tells : scene.Tells t fault event) (within : t ⊆ u) : scene.Tells u fault event := by
  obtain ⟨stage, mem, same⟩ := tells
  exact ⟨stage, within mem, same⟩

/- What an activation tells, with the events of the children that its tick evaluated. -/
inductive Recounts (scene : Scene W) (id : NodeId) (t : Timeline W) (inner : List Trace.Event) :
    List Trace.Event → Prop where
  | intro {opened invalid ticked closed faulted left : List Trace.Event} {shown : Status}
      (opens : Told (.called id .opening · ∈ t) (fun _ e => e = scene.event id .opening none) opened)
      (invalidates : Told (fun text => .returned id .tick (.answered (.unrecognized text)) ∈ t)
        (fun _ e => e = scene.event id .invalid (some .error)) invalid)
      (ticks : Told (fun outcome => .returned id .tick (.answered outcome) ∈ t)
        (fun outcome e => e = scene.event id .tick (some outcome.effective)) ticked)
      (closes : Told (.called id .close · ∈ t) (fun _ e => e = scene.event id .close none) closed)
      (faults : Told (fun fault => fault.node = id ∧ fault.step ≠ .exit ∧ t.Fails fault)
        (scene.Tells t) faulted)
      (leaves : Told (fun fault => fault.node = id ∧ fault.step = .exit ∧ t.Fails fault)
        (scene.Tells t) left) :
      Recounts scene id t inner
        (scene.event id .enter none :: opened ++ inner ++ invalid ++ ticked ++ closed ++ faulted ++
          [scene.event id .exit (some shown)] ++ left)

def Scene.judged (scene : Scene W) (id : NodeId) : Outcome → List Trace.Event
  | .status status => [scene.event id .tick (some status)]
  | .unrecognized _ =>
    [scene.event id .invalid (some .error), scene.event id .tick (some .error)]

def Mark.told (scene : Scene W) (id : NodeId) (inner : List Trace.Event) : Mark → List Trace.Event
  | .called .tick => inner
  | .called .exit => []
  | .called step => [scene.event id step.phase none]
  | .returned .tick (.answered outcome) => scene.judged id outcome
  | .returned _ _ => []

theorem Course.told {scene : Scene W} {id wasOpen calls soFar isOpen inner}
    (course : Course id wasOpen calls soFar isOpen)
    (unasked : .tick ∉ calls.map Call.step → inner = []) :
    (calls.flatMap Call.marks).flatMap (Mark.told scene id inner) =
      scene.event id .enter none ::
        (if .opening ∈ calls.map Call.step then [scene.event id .opening none] else []) ++ inner ++
        (Call.answers calls).flatMap (scene.judged id) ++
        (if .close ∈ calls.map Call.step then [scene.event id .close none] else []) := by
  cases course <;> cases wasOpen <;>
    simp_all [Call.ready, Call.marks, Mark.told, Call.answers, List.filterMap_cons, Mark.answer?,
      Step.phase]

theorem Course.fault {id wasOpen calls soFar isOpen}
    (course : Course id wasOpen calls soFar isOpen) (fault : Fault) :
    soFar = .error fault ↔ fault.node = id ∧ ⟨fault.step, .failed fault.error⟩ ∈ calls := by
  constructor
  · rintro rfl
    cases course <;> simp
  · rintro ⟨rfl, mem⟩
    exact course.failed mem

theorem Course.answersFew {id wasOpen calls soFar isOpen}
    (course : Course id wasOpen calls soFar isOpen) :
    Call.answers calls = [] ∨ ∃ outcome, Call.answers calls = [outcome] := by
  rcases course.answers with ⟨none, _⟩ | ⟨outcome, one, _⟩
  · exact .inl none
  · exact .inr ⟨outcome, one⟩

def Timeline.Tallies (scene : Scene W) (id : NodeId) (inner : List Trace.Event) (t : Timeline W) :
    Prop :=
  t.events = (t.marks id).flatMap (Mark.told scene id inner)

theorem Timeline.Tallies.append {scene : Scene W} {id inner} {t u : Timeline W}
    (left : t.Tallies scene id inner) (right : u.Tallies scene id inner) :
    (t ++ u).Tallies scene id inner := by
  unfold Timeline.Tallies at *
  rw [Timeline.eventsAppend, Timeline.marksAppend, List.flatMap_append, left, right]

theorem Timeline.answered {t : Timeline W} {id outcome} :
    outcome ∈ t.answers id ↔ .returned id .tick (.answered outcome) ∈ t := by
  rw [← marksReturned]
  constructor
  · intro mem
    obtain ⟨mark, seen, same⟩ := List.mem_filterMap.mp mem
    cases mark with
    | called => cases same
    | returned step result =>
      cases step <;> cases result <;> cases same
      exact seen
  · intro seen
    exact List.mem_filterMap.mpr ⟨_, seen, rfl⟩

theorem Timeline.eventsWithin (t : Timeline W) (id : NodeId) (status : Status) :
    Timeline.events (.began id :: t ++ [.ended id status]) = t.events := by
  change Timeline.events (t ++ [.ended id status]) = _
  rw [eventsAppend]
  exact List.append_nil _

theorem Timeline.marksWithin (t : Timeline W) (id other : NodeId) (status : Status) :
    Timeline.marks (.began id :: t ++ [.ended id status]) other = t.marks other := by
  change Timeline.marks (t ++ [.ended id status]) other = _
  rw [marksAppend]
  exact List.append_nil _

/- A tick answers once at most; what is told of it is apart from what is told of its text. -/
theorem Told.answers (scene : Scene W) (id : NodeId) {answers : List Outcome}
    (few : answers = [] ∨ ∃ outcome, answers = [outcome]) :
    ∃ invalid ticked, answers.flatMap (scene.judged id) = invalid ++ ticked ∧
      Told (fun text => .unrecognized text ∈ answers)
        (fun _ e => e = scene.event id .invalid (some .error)) invalid ∧
      Told (· ∈ answers) (fun outcome e => e = scene.event id .tick (some outcome.effective))
        ticked := by
  rcases few with rfl | ⟨outcome, rfl⟩
  · exact ⟨[], [], rfl, .silent (by simp), .silent (by simp)⟩
  · have ticked : Told (· ∈ [outcome])
        (fun outcome e => e = scene.event id .tick (some outcome.effective))
        [scene.event id .tick (some outcome.effective)] := .told List.mem_cons_self rfl
    cases outcome with
    | status status => exact ⟨[], _, rfl, .silent (by simp), ticked⟩
    | unrecognized text => exact ⟨[_], _, rfl, .told (a := text) (by simp) rfl, ticked⟩

theorem Told.call {t : Timeline W} {id step} {own : List Call} (event : Trace.Event)
    (called : t.calls id step ↔ step ∈ own.map Call.step) :
    Told (.called id step · ∈ t) (fun _ e => e = event)
      (if step ∈ own.map Call.step then [event] else []) := by
  split
  · rename_i mem
    obtain ⟨stage, seen⟩ := called.mpr mem
    exact .told seen rfl
  · rename_i never
    exact .silent fun stage seen => never (called.mp ⟨stage, seen⟩)

namespace Derivation
variable {scene : Scene W} {evaluated : Judgement W} {node : Node W} {s last : Standing W}
  {t before after : Timeline W} {children : List (NodeId × Timeline W)}

structure Around (evaluated : Judgement W) (node : Node W) (t before after : Timeline W)
    (children : List (NodeId × Timeline W)) : Prop where
  whole : t = before ++ children.flatMap Prod.snd ++ after
  inside : ∀ o ∈ before ++ after, o.Inside node.id
  asked : children = [] ∨ ∃ stage result,
    before.getLast? = some (.called node.id .tick stage) ∧
    after.head? = some (.returned node.id .tick result)
  located : ∀ child ∈ children, ∃ request s status last,
    node.locate request = .ok child.1 ∧ evaluated child.1 s child.2 status last

theorem Around.quiet (inside : ∀ o ∈ t, o.Inside node.id) : Around evaluated node t t [] [] where
  whole := by simp
  inside := by simpa using inside
  asked := .inl rfl
  located := by simp

theorem Around.follows (around : Around evaluated node t before after children) {first : Timeline W}
    (earlier : ∀ o ∈ first, o.Inside node.id) :
    Around evaluated node (first ++ t) (first ++ before) after children where
  whole := by rw [around.whole]; simp only [List.append_assoc]
  inside := by
    rw [List.append_assoc]
    exact insideAppend earlier around.inside
  asked := by
    rcases around.asked with none | ⟨stage, result, called, returned⟩
    · exact .inl none
    · exact .inr ⟨stage, result, by simp [called], returned⟩
  located := around.located

theorem Around.precedes (around : Around evaluated node t before after children) {final : Timeline W}
    (later : ∀ o ∈ final, o.Inside node.id) :
    Around evaluated node (t ++ final) before (after ++ final) children where
  whole := by rw [around.whole]; simp only [List.append_assoc]
  inside := by
    rw [← List.append_assoc]
    exact insideAppend around.inside later
  asked := by
    rcases around.asked with none | ⟨stage, result, called, returned⟩
    · exact .inl none
    · exact .inr ⟨stage, result, called, by simp [returned]⟩
  located := around.located

theorem Conversed.located {tick : Tick W} {move openNodes result}
    (conversed : Conversed evaluated node tick move openNodes t result last) :
    ∃ children : List (NodeId × Timeline W), t = children.flatMap Prod.snd ∧
      ∀ child ∈ children, ∃ request s status last,
        node.locate request = .ok child.1 ∧ evaluated child.1 s child.2 status last := by
  induction conversed with
  | answer => exact ⟨[], rfl, by simp⟩
  | misses _ _ ih => exact ih
  | @child request _ _ _ id first _ _ _ _ _ located asked _ ih =>
    obtain ⟨children, rfl, rest⟩ := ih
    refine ⟨(id, first) :: children, rfl, fun child mem => ?_⟩
    rcases List.mem_cons.mp mem with rfl | mem
    · exact ⟨request, _, _, _, located, asked⟩
    · exact rest child mem

theorem Ticked.around {result} (ticked : Ticked evaluated node s t result last) :
    ∃ children, Around evaluated node t [.called node.id .tick s.stage]
      [.returned node.id .tick (.ofOutcome result)] children := by
  have inside : ∀ o ∈ [.called node.id .tick s.stage] ++
      [.returned node.id .tick (.ofOutcome result)], Occurrence.Inside node.id o := by
    simp [Occurrence.Inside, Occurrence.node?, Occurrence.Bounds]
  cases ticked with
  | missing => exact ⟨[], rfl, inside, .inl rfl, by simp⟩
  | played _ conversed =>
    obtain ⟨children, rfl, located⟩ := conversed.located
    exact ⟨children, rfl, inside, .inr ⟨_, _, rfl, rfl⟩, located⟩

theorem Around.innerEvents (around : Around evaluated node t [.called node.id .tick s.stage]
      [.returned node.id .tick result] children) :
    t.events = children.flatMap fun child => child.2.events := by
  have called : Timeline.events ([.called node.id .tick s.stage] : Timeline W) = [] := rfl
  have returned : Timeline.events ([.returned node.id .tick result] : Timeline W) = [] := rfl
  rw [around.whole, Timeline.eventsAppend, Timeline.eventsAppend, called, returned, List.nil_append,
    List.append_nil]
  exact List.filterMap_flatMap

section Tallies
variable {inner : List Trace.Event}

theorem Called.tallies {step callback result} (ordinary : step ≠ .tick ∧ step ≠ .exit)
    (called : Called scene node.id step none callback s t result last) :
    t.Tallies scene node.id inner := by
  have told : t.events = [scene.event node.id step.phase none] := by
    cases called
    rfl
  have returned : Mark.told scene node.id inner (.returned step (.ofResult result)) = [] := by
    cases step <;> cases result <;> rfl
  rw [Timeline.Tallies, told, called.marks.1, Call.marks, List.flatMap_cons, List.flatMap_singleton,
    returned]
  cases step with
  | tick => exact absurd rfl ordinary.1
  | exit => exact absurd rfl ordinary.2
  | _ => rfl

theorem Opened.tallies {result} (opened : Opened scene node s t result last) :
    t.Tallies scene node.id inner := by
  cases opened with
  | already => rfl
  | called _ called => exact called.tallies (by decide)

theorem Judged.events {outcome} (judged : Judged scene node.id s outcome t last) :
    t.events = scene.judged node.id outcome := by
  cases judged <;> rfl

theorem Judged.closing {outcome} {u : Timeline W}
    (judged : Judged scene node.id s outcome t last) (closing : u.Tallies scene node.id inner) :
    Timeline.events (t ++ u ++ [.flagged node.id false]) = scene.judged node.id outcome ++
      (Timeline.marks (t ++ u ++ [.flagged node.id false]) node.id).flatMap
        (Mark.told scene node.id inner) := by
  have flagged : Timeline.Tallies scene node.id inner [.flagged node.id false] := rfl
  have rest := closing.append flagged
  rw [List.append_assoc, Timeline.eventsAppend, Timeline.marksAppend, judged.events,
    judged.marks.1, rest]
  rfl

theorem Settled.events (inner : List Trace.Event) {outcome result}
    (settled : Settled scene node outcome s t result last) :
    t.events = scene.judged node.id outcome ++
      (t.marks node.id).flatMap (Mark.told scene node.id inner) := by
  cases settled with
  | stays judged =>
    rw [Timeline.eventsAppend, Timeline.marksAppend, judged.events, judged.marks.1]
    rfl
  | closes judged _ called => exact judged.closing (called.tallies (by decide))
  | closeFails judged _ called => exact judged.closing (called.tallies (by decide))

end Tallies

theorem Stepped.around (apart : Apart evaluated node) {result}
    (stepped : Stepped scene evaluated node s t result last) :
    ∃ before after children, Around evaluated node t before after children ∧
      t.Tallies scene node.id (children.flatMap fun child => child.2.events) := by
  have inside := (insideCarries scene node).toPieces
  cases stepped with
  | enterFails entered =>
    exact ⟨_, _, _, .quiet (entered.carried inside rfl), entered.tallies (by decide)⟩
  | openFails entered opened =>
    have own := insideAppend (entered.carried inside rfl) (opened.carried inside)
    exact ⟨_, _, _, .quiet own, (entered.tallies (by decide)).append opened.tallies⟩
  | @tickFails t u v _ _ _ _ entered opened ticked =>
    have own := insideAppend (entered.carried inside rfl) (opened.carried inside)
    obtain ⟨children, around⟩ := ticked.around
    refine ⟨_, _, children, around.follows own, ?_⟩
    refine ((entered.tallies (by decide)).append opened.tallies).append ?_
    rw [Timeline.Tallies, around.innerEvents, (ticked.marks apart).1]
    simp [Call.marks, Mark.told, Return.ofOutcome]
  | @settles t u v w outcome _ _ _ _ _ entered opened ticked settled =>
    have own := insideAppend (entered.carried inside rfl) (opened.carried inside)
    obtain ⟨children, around⟩ := ticked.around
    refine ⟨_, _, children, (around.follows own).precedes (settled.carried inside), ?_⟩
    rw [List.append_assoc]
    refine ((entered.tallies (by decide)).append opened.tallies).append ?_
    have judged := settled.events (children.flatMap fun child => child.2.events)
    rw [Timeline.Tallies, Timeline.eventsAppend, Timeline.marksAppend, around.innerEvents,
      (ticked.marks apart).1, judged]
    simp [Call.marks, Mark.told, Return.ofOutcome]

def exitResult (id : NodeId) (status : Status) : Except CallbackError Unit → Except Fault Status
  | .ok () => .ok status
  | .error e => .error ⟨id, .exit, e⟩

theorem exitResultFault {id status result} {fault : Fault} :
    exitResult id status result = .error fault ↔
      fault.node = id ∧ fault.step = .exit ∧ Return.ofResult result = .failed fault.error := by
  obtain ⟨node, step, error⟩ := fault
  cases result <;> simp [exitResult, Return.ofResult, eq_comm]

theorem Activated.parts {final} (activated : Activated scene evaluated node s t final last) :
    ∃ (steps u v w : Timeline W) (soFar : Except Fault Status) (status : Status)
        (result : Except CallbackError Unit) (middle resolved left : Standing W),
      t = .began node.id :: (steps ++ (u ++ v ++ w)) ++ [.ended node.id final] ∧
      Stepped scene evaluated node s steps soFar middle ∧
      Resolved scene middle soFar u status resolved ∧
      Called scene node.id .exit (some status) node.content.behavior.onExit resolved v result left ∧
      Resolved scene left (exitResult node.id status result) w final last := by
  cases activated with
  | leaves stepped settled exited =>
    exact ⟨_, _, _, [], _, _, _, _, _, _, by simp, stepped, settled, exited, .fine _⟩
  | exitFails stepped settled exited answered =>
    exact ⟨_, _, _, _, _, _, _, _, _, _, by simp, stepped, settled, exited, .faulty answered⟩

theorem Resolved.told {soFar status} (resolved : Resolved scene s soFar t status last) :
    Told (fun fault => soFar = .error fault) (scene.Tells t) t.events := by
  cases resolved with
  | fine => exact .silent (by simp)
  | faulty answered =>
    cases answered with
    | intro answer => exact .told rfl ⟨s.stage, List.mem_cons_self, by rw [answer]⟩

section Leave
variable {u v w : Timeline W} {soFar status result final} {middle resolved left : Standing W}
  (resolves : Resolved scene middle soFar u status resolved)
  (exited : Called scene node.id .exit (some status) node.content.behavior.onExit resolved
    v result left)
  (ends : Resolved scene left (exitResult node.id status result) w final last)
include exited

theorem leaveEvents : (u ++ v ++ w).events =
    u.events ++ [scene.event node.id .exit (some status)] ++ w.events := by
  have exit : v.events = [scene.event node.id .exit (some status)] := by
    cases exited
    rfl
  rw [Timeline.eventsAppend, Timeline.eventsAppend, exit]

include resolves ends

theorem leaveMarks : (u ++ v ++ w).marks node.id = Call.marks ⟨.exit, .ofResult result⟩ := by
  rw [Timeline.marksAppend, Timeline.marksAppend, (resolves.marks node.id).1, exited.marks.1,
    (ends.marks node.id).1, List.nil_append, List.append_nil]

theorem leaveInside (own : ∀ fault, soFar = .error fault → fault.node = node.id) :
    ∀ o ∈ u ++ v ++ w, o.Inside node.id := by
  have inside := (insideCarries scene node).toPieces
  have last := ends.carried inside fun fault same => (exitResultFault.mp same).1
  exact insideAppend (insideAppend (resolves.carried inside own) (exited.carried inside rfl)) last

end Leave

end Derivation

namespace Conduct
variable {id : NodeId} {wasOpen isOpen : Bool} {t : Timeline W} {own : List Call}
  {soFar : Except Fault Status} {exit : Return}

theorem answers (conduct : Conduct id wasOpen t own soFar exit isOpen) :
    t.answers id = Call.answers own := by
  have quiet : Call.answers [⟨.exit, exit⟩] = [] := rfl
  rw [Timeline.answers, conduct.marked, ← Call.answers, Call.answersAppend, quiet, List.append_nil]

theorem failsBefore (conduct : Conduct id wasOpen t own soFar exit isOpen) {fault : Fault}
    (here : fault.node = id) :
    ⟨fault.step, .failed fault.error⟩ ∈ own ↔ fault.step ≠ .exit ∧ t.Fails fault := by
  unfold Timeline.Fails
  rw [here]
  constructor
  · intro mem
    have other : fault.step ≠ .exit := fun exits =>
      conduct.course.beforeExit (exits ▸ List.mem_map_of_mem mem)
    exact ⟨other, (conduct.came other).mpr mem⟩
  · rintro ⟨other, failed⟩
    exact (conduct.came other).mp failed

theorem failsLast (conduct : Conduct id wasOpen t own soFar exit isOpen) {fault : Fault}
    (here : fault.node = id) :
    fault.step = .exit ∧ exit = .failed fault.error ↔ fault.step = .exit ∧ t.Fails fault := by
  unfold Timeline.Fails
  refine and_congr_right fun exits => ?_
  rw [here, exits, conduct.left]

end Conduct

namespace Derivation
variable {scene : Scene W} {evaluated : Judgement W} {node : Node W} {s last : Standing W}
  {t before after : Timeline W} {children : List (NodeId × Timeline W)}

theorem Around.unasked (around : Around evaluated node t before after children) {calls : List Call}
    (marked : t.marks node.id = calls.flatMap Call.marks) (none : .tick ∉ calls.map Call.step) :
    children = [] := by
  rcases around.asked with empty | ⟨stage, _, called, _⟩
  · exact empty
  · have seen : .called node.id .tick stage ∈ t := by
      rw [around.whole, List.append_assoc]
      exact List.mem_append_left _ (List.mem_of_getLast? called)
    exact absurd ((Timeline.callsOfCalls marked .tick).mp ⟨stage, seen⟩) none

theorem Activated.recounts (apart : Apart evaluated node) {final}
    (activated : Activated scene evaluated node s t final last) :
    ∃ body before after children, t = .began node.id :: body ++ [.ended node.id final] ∧
      Around evaluated node body before after children ∧
      Recounts scene node.id t (children.flatMap fun child => child.2.events) t.events := by
  obtain ⟨steps, u, v, w, soFar, status, result, middle, resolved, left, whole, stepped, resolves,
    exited, ends⟩ := activated.parts
  obtain ⟨before, after, children, around, tallies⟩ := stepped.around apart
  obtain ⟨own, ownMarks, course⟩ := stepped.course apart
  have inside := leaveInside resolves exited ends fun fault same => by
    subst same
    exact stepped.faultNode
  refine ⟨_, _, _, children, whole, around.precedes inside, ?_⟩
  have marked : t.marks node.id =
      (own ++ [⟨.exit, .ofResult result⟩] : List Call).flatMap Call.marks := by
    rw [whole, Timeline.marksWithin, Timeline.marksAppend, ownMarks,
      leaveMarks resolves exited ends, List.flatMap_append, List.flatMap_singleton]
  have conduct : Conduct node.id _ t own soFar (.ofResult result) _ := ⟨marked, course⟩
  have silent (none : .tick ∉ own.map Call.step) :
      (children.flatMap fun child => child.2.events) = [] := by
    rw [around.unasked ownMarks none]
    rfl
  obtain ⟨invalid, ticked, split, invalidates, ticks⟩ :=
    Told.answers scene node.id course.answersFew
  have events : t.events = scene.event node.id .enter none ::
      (if .opening ∈ own.map Call.step then [scene.event node.id .opening none] else []) ++
      (children.flatMap fun child => child.2.events) ++ invalid ++ ticked ++
      (if .close ∈ own.map Call.step then [scene.event node.id .close none] else []) ++ u.events ++
      [scene.event node.id .exit (some status)] ++ w.events := by
    rw [whole, Timeline.eventsWithin, Timeline.eventsAppend, tallies, ownMarks,
      course.told silent, split, leaveEvents exited]
    simp only [List.append_assoc, List.cons_append]
  have answered (outcome : Outcome) :
      outcome ∈ Call.answers own ↔ .returned node.id .tick (.answered outcome) ∈ t := by
    rw [← conduct.answers, Timeline.answered]
  have within {part : Timeline W} (leaving : part ⊆ u ++ v ++ w) : part ⊆ t := by
    rw [whole]
    exact fun o mem => List.mem_append_left _ (List.mem_cons_of_mem _
      (List.mem_append_right _ (leaving mem)))
  rw [events]
  constructor
  case opens => exact .call _ (conduct.called (by decide))
  case invalidates => exact invalidates.imp (fun text => answered (.unrecognized text)) id
  case ticks => exact ticks.imp answered id
  case closes => exact .call _ (conduct.called (by decide))
  case faults =>
    refine resolves.told.imp (fun fault => (course.fault fault).trans ?_)
      fun tells => tells.within (within (by simp))
    exact and_congr_right fun here => conduct.failsBefore here
  case leaves =>
    refine ends.told.imp (fun fault => exitResultFault.trans ?_)
      fun tells => tells.within (within (by simp))
    exact and_congr_right fun here => conduct.failsLast here

end Derivation
end BehaviorTree
