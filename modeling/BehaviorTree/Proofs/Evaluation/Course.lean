import BehaviorTree.Proofs.Evaluation.Frame

/-! The callbacks of one node. Between its own calls a node of a forest sees nothing of
itself, so what an activation calls is one of six courses, followed by the exit. -/
namespace BehaviorTree

variable {W : Type}

inductive Mark where
  | called (step : Step)
  | returned (step : Step) (result : Return)
  deriving DecidableEq, Repr

def Occurrence.mark? (id : NodeId) : Occurrence W → Option Mark
  | .called node step _ => if node = id then some (.called step) else none
  | .returned node step result => if node = id then some (.returned step result) else none
  | _ => none

theorem markReturned {o : Occurrence W} {id step result}
    (same : o.mark? id = some (.returned step result)) : o = .returned id step result := by
  cases o with
  | returned node =>
    simp only [Occurrence.mark?] at same
    split at same
    · rename_i here
      cases same
      rw [here]
    · contradiction
  | called node =>
    simp only [Occurrence.mark?] at same
    split at same <;> cases same
  | _ => cases same

namespace Timeline

def marks (t : Timeline W) (id : NodeId) : List Mark := t.filterMap (Occurrence.mark? id)

theorem marksAppend (t u : Timeline W) (id : NodeId) : (t ++ u).marks id = t.marks id ++ u.marks id :=
  List.filterMap_append

theorem marksElsewhere {t : Timeline W} {id} (elsewhere : ∀ o ∈ t, o.node? ≠ some id) :
    t.marks id = [] := by
  refine List.filterMap_eq_nil_iff.mpr fun o mem => ?_
  have apart := elsewhere o mem
  cases o <;> simp_all [Occurrence.mark?, Occurrence.node?]

def calls (t : Timeline W) (id : NodeId) (step : Step) : Prop := ∃ stage, .called id step stage ∈ t

theorem marksCalled {t : Timeline W} {id step} : .called step ∈ t.marks id ↔ t.calls id step := by
  constructor
  · intro mem
    obtain ⟨o, seen, same⟩ := List.mem_filterMap.mp mem
    cases o with
    | called node _ stage =>
      simp only [Occurrence.mark?] at same
      split at same
      · rename_i here
        cases same
        exact ⟨stage, here ▸ seen⟩
      · contradiction
    | returned =>
      simp only [Occurrence.mark?] at same
      split at same <;> cases same
    | _ => cases same
  · rintro ⟨stage, seen⟩
    exact List.mem_filterMap.mpr ⟨_, seen, if_pos rfl⟩

end Timeline

structure Call where
  step : Step
  result : Return
  deriving DecidableEq, Repr

def Call.marks (call : Call) : List Mark := [.called call.step, .returned call.step call.result]

def Call.ready (wasOpen : Bool) : List Call :=
  ⟨.enter, .completed⟩ :: if wasOpen then [] else [⟨.opening, .completed⟩]

/- The calls before the exit, what they come to, and the flag they leave. -/
inductive Course (id : NodeId) (wasOpen : Bool) : List Call → Except Fault Status → Bool → Prop where
  | enterFails (e) : Course id wasOpen [⟨.enter, .failed e⟩] (.error ⟨id, .enter, e⟩) wasOpen
  | openFails (e) (closed : wasOpen = false) :
      Course id wasOpen [⟨.enter, .completed⟩, ⟨.opening, .failed e⟩]
        (.error ⟨id, .opening, e⟩) wasOpen
  | tickFails (e) :
      Course id wasOpen (Call.ready wasOpen ++ [⟨.tick, .failed e⟩]) (.error ⟨id, .tick, e⟩) wasOpen
  | stays (o : Outcome) (running : o.effective = .running) :
      Course id wasOpen (Call.ready wasOpen ++ [⟨.tick, .answered o⟩]) (.ok .running) true
  | closes (o : Outcome) (past : o.effective ≠ .running) :
      Course id wasOpen (Call.ready wasOpen ++ [⟨.tick, .answered o⟩, ⟨.close, .completed⟩])
        (.ok o.effective) false
  | closeFails (o : Outcome) (e) (past : o.effective ≠ .running) :
      Course id wasOpen (Call.ready wasOpen ++ [⟨.tick, .answered o⟩, ⟨.close, .failed e⟩])
        (.error ⟨id, .close, e⟩) false

namespace Derivation
variable {scene : Scene W} {evaluated : Judgement W} {node : Node W} {s last : Standing W}
  {t : Timeline W}

theorem Called.marks {id step status callback result}
    (called : Called scene id step status callback s t result last) :
    t.marks id = Call.marks ⟨step, .ofResult result⟩ ∧ last.openNodes = s.openNodes := by
  cases called
  simp [Timeline.marks, Occurrence.mark?, List.filterMap_cons, Call.marks]

theorem Answered.marks {fault status} (answered : Answered scene fault s t status last)
    (id : NodeId) : t.marks id = [] ∧ last.openNodes = s.openNodes := by
  cases answered
  simp [Timeline.marks, Occurrence.mark?, Standing.send]

theorem Resolved.marks {soFar status} (resolved : Resolved scene s soFar t status last)
    (id : NodeId) : t.marks id = [] ∧ last.openNodes = s.openNodes := by
  cases resolved with
  | fine => exact ⟨rfl, rfl⟩
  | faulty answered => exact answered.marks id

theorem Judged.marks {id outcome} (judged : Judged scene id s outcome t last) :
    t.marks id = [] ∧ last.openNodes = s.openNodes := by
  cases judged <;> simp [Timeline.marks, Occurrence.mark?, Standing.send]

theorem Opened.marks {result} (opened : Opened scene node s t result last) :
    last.openNodes = s.openNodes ∧
      ((s.openNodes.contains node.id = true ∧ result = .ok () ∧ t.marks node.id = []) ∨
        (s.openNodes.contains node.id = false ∧
          t.marks node.id = Call.marks ⟨.opening, .ofResult result⟩)) := by
  cases opened with
  | already isOpen => exact ⟨rfl, .inl ⟨isOpen, rfl, rfl⟩⟩
  | called closed called => exact ⟨called.marks.2, .inr ⟨closed, called.marks.1⟩⟩

/- What a tick asks for does not concern the node itself. -/
def Apart (evaluated : Judgement W) (node : Node W) : Prop :=
  ∀ {request id s t status last}, node.locate request = .ok id →
    evaluated id s t status last → Undisturbed node.id s.openNodes t last.openNodes

theorem Ticked.talk (apart : Apart evaluated node) {result}
    (ticked : Ticked evaluated node s t result last) :
    ∃ talk, t = [.called node.id .tick s.stage] ++ talk ++
        [.returned node.id .tick (.ofOutcome result)] ∧
      Undisturbed node.id s.openNodes talk last.openNodes := by
  cases ticked with
  | missing => exact ⟨[], rfl, (Undisturbed.sequential node.id).nil _⟩
  | played _ conversed => exact ⟨_, rfl, conversed.chain (Undisturbed.sequential node.id) apart⟩

theorem Ticked.marks (apart : Apart evaluated node) {result}
    (ticked : Ticked evaluated node s t result last) :
    t.marks node.id = Call.marks ⟨.tick, .ofOutcome result⟩ ∧
      last.openNodes.contains node.id = s.openNodes.contains node.id := by
  obtain ⟨talk, rfl, quiet⟩ := ticked.talk apart
  refine ⟨?_, quiet.flag⟩
  rw [Timeline.marksAppend, Timeline.marksAppend, Timeline.marksElsewhere quiet.seen]
  simp [Timeline.marks, Occurrence.mark?, Call.marks]

theorem entering {u middle}
    (entered : Called scene node.id .enter none node.content.behavior.onEnter s
      t (.ok ()) middle)
    (opened : Opened scene node middle u (.ok ()) last) :
    (t ++ u).marks node.id = (Call.ready (s.openNodes.contains node.id)).flatMap Call.marks ∧
      last.openNodes = s.openNodes := by
  obtain ⟨marked, kept⟩ := entered.marks
  obtain ⟨kept', ⟨isOpen, _, marked'⟩ | ⟨closed, marked'⟩⟩ := opened.marks
  · rw [kept] at isOpen
    exact ⟨by rw [Timeline.marksAppend, marked, marked', isOpen]; rfl, kept'.trans kept⟩
  · rw [kept] at closed
    exact ⟨by rw [Timeline.marksAppend, marked, marked', closed]; rfl, kept'.trans kept⟩

theorem Settled.marks {outcome result} (settled : Settled scene node outcome s t result last) :
    (t.marks node.id = [] ∧ outcome.effective = .running ∧ result = .ok .running ∧
        last.openNodes.contains node.id = true) ∨
      (outcome.effective ≠ .running ∧ last.openNodes.contains node.id = false ∧
        ((t.marks node.id = Call.marks ⟨.close, .completed⟩ ∧ result = .ok outcome.effective) ∨
          ∃ e, t.marks node.id = Call.marks ⟨.close, .failed e⟩ ∧
            result = .error ⟨node.id, .close, e⟩)) := by
  have flagged (isOpen : Bool) :
      Timeline.marks ([.flagged node.id isOpen] : Timeline W) node.id = [] := rfl
  cases settled with
  | stays judged running =>
    refine .inl ⟨?_, running, rfl, by rw [Standing.flagContains, if_pos rfl]⟩
    rw [Timeline.marksAppend, judged.marks.1, flagged, List.append_nil]
  | closes judged past called =>
    refine .inr ⟨past, by rw [Standing.flagContains, if_pos rfl], .inl ⟨?_, rfl⟩⟩
    rw [Timeline.marksAppend, Timeline.marksAppend, judged.marks.1, called.marks.1, flagged]
    rfl
  | closeFails judged past called =>
    refine .inr ⟨past, by rw [Standing.flagContains, if_pos rfl], .inr ⟨_, ?_, rfl⟩⟩
    rw [Timeline.marksAppend, Timeline.marksAppend, judged.marks.1, called.marks.1, flagged]
    rfl

theorem Stepped.course (apart : Apart evaluated node) {result}
    (stepped : Stepped scene evaluated node s t result last) :
    ∃ calls, t.marks node.id = calls.flatMap Call.marks ∧
      Course node.id (s.openNodes.contains node.id) calls result
        (last.openNodes.contains node.id) := by
  cases stepped with
  | enterFails entered =>
    obtain ⟨marked, kept⟩ := entered.marks
    rw [marked, kept]
    exact ⟨_, by simp [Return.ofResult], .enterFails _⟩
  | openFails entered opened =>
    obtain ⟨marked, kept⟩ := entered.marks
    obtain ⟨kept', ⟨_, failed, _⟩ | ⟨closed, marked'⟩⟩ := opened.marks
    · cases failed
    · rw [kept] at closed
      rw [Timeline.marksAppend, marked, marked', kept', kept]
      exact ⟨_, rfl, .openFails _ closed⟩
  | tickFails entered opened ticked =>
    obtain ⟨ready, kept⟩ := entering entered opened
    obtain ⟨marked, same⟩ := ticked.marks apart
    rw [Timeline.marksAppend, ready, marked, same, kept]
    exact ⟨_, by simp [Return.ofOutcome], .tickFails _⟩
  | settles entered opened ticked settled =>
    obtain ⟨ready, kept⟩ := entering entered opened
    obtain ⟨marked, same⟩ := ticked.marks apart
    rw [Timeline.marksAppend, Timeline.marksAppend, ready, marked]
    rcases settled.marks with ⟨none, running, rfl, isOpen⟩ |
      ⟨past, closed, ⟨closing, rfl⟩ | ⟨e, closing, rfl⟩⟩
    · rw [none, isOpen]
      exact ⟨_, by simp [Return.ofOutcome], .stays _ running⟩
    · rw [closing, closed]
      exact ⟨_, by simp [Return.ofOutcome], .closes _ past⟩
    · rw [closing, closed]
      exact ⟨_, by simp [Return.ofOutcome], .closeFails _ e past⟩

end Derivation

def Scene.Answers (scene : Scene W) (t : Timeline W) (fault : Fault) (status : Status) : Prop :=
  ∃ stage, .consulted fault (scene.responder stage) stage ∈ t ∧
    status = (scene.respond fault stage).1

def Scene.Shows (scene : Scene W) (t : Timeline W) : Except Fault Status → Status → Prop
  | .ok status, shown => shown = status
  | .error fault, shown => scene.Answers t fault shown

theorem Scene.Answers.within {scene : Scene W} {t u : Timeline W} {fault status}
    (answers : scene.Answers t fault status) (within : t ⊆ u) : scene.Answers u fault status := by
  obtain ⟨stage, mem, same⟩ := answers
  exact ⟨stage, within mem, same⟩

/- A whole activation: the status it shows at its exit and the one it ends with. -/
inductive Account (scene : Scene W) (id : NodeId) (wasOpen : Bool) (t : Timeline W) :
    List Call → Status → Status → Bool → Prop where
  | leaves {calls soFar shown isOpen} (course : Course id wasOpen calls soFar isOpen)
      (shows : scene.Shows t soFar shown) :
      Account scene id wasOpen t (calls ++ [⟨.exit, .completed⟩]) shown shown isOpen
  | exitFails {calls soFar shown isOpen e final} (course : Course id wasOpen calls soFar isOpen)
      (shows : scene.Shows t soFar shown) (answers : scene.Answers t ⟨id, .exit, e⟩ final) :
      Account scene id wasOpen t (calls ++ [⟨.exit, .failed e⟩]) shown final isOpen

namespace Derivation
variable {scene : Scene W} {evaluated : Judgement W} {node : Node W} {s last : Standing W}
  {t : Timeline W}

theorem Answered.answers {fault status} (answered : Answered scene fault s t status last) :
    scene.Answers t fault status := by
  cases answered with
  | intro answer => exact ⟨s.stage, List.mem_cons_self, by rw [answer]⟩

theorem Resolved.shows {soFar status} (resolved : Resolved scene s soFar t status last)
    {u : Timeline W} (within : t ⊆ u) : scene.Shows u soFar status := by
  cases resolved with
  | fine => rfl
  | faulty answered => exact answered.answers.within within

theorem Activated.account (apart : Apart evaluated node) {final}
    (activated : Activated scene evaluated node s t final last) :
    ∃ calls shown, t.marks node.id = calls.flatMap Call.marks ∧
      Account scene node.id (s.openNodes.contains node.id) t calls shown final
        (last.openNodes.contains node.id) := by
  have began (rest : Timeline W) :
      Timeline.marks (.began node.id :: rest) node.id = rest.marks node.id := rfl
  have ended (status : Status) :
      Timeline.marks ([.ended node.id status] : Timeline W) node.id = [] := rfl
  cases activated with
  | leaves stepped settled exited =>
    obtain ⟨calls, marked, course⟩ := stepped.course apart
    obtain ⟨none, kept⟩ := settled.marks node.id
    obtain ⟨exit, kept'⟩ := exited.marks
    rw [kept', kept]
    refine ⟨_, _, ?_, .leaves course (settled.shows ?_)⟩
    · simp only [List.cons_append, began, Timeline.marksAppend, marked, none, exit, ended,
        List.flatMap_append]
      simp [Return.ofResult]
    · intro o mem
      simp [mem]
  | exitFails stepped settled exited answered =>
    obtain ⟨calls, marked, course⟩ := stepped.course apart
    obtain ⟨none, kept⟩ := settled.marks node.id
    obtain ⟨exit, kept'⟩ := exited.marks
    obtain ⟨none', kept''⟩ := answered.marks node.id
    rw [kept'', kept', kept]
    refine ⟨_, _, ?_, .exitFails course (settled.shows ?_) (answered.answers.within ?_)⟩
    · simp only [List.cons_append, began, Timeline.marksAppend, marked, none, exit, none', ended,
        List.flatMap_append]
      simp [Return.ofResult]
    · intro o mem
      simp [mem]
    · intro o mem
      simp [mem]

end Derivation

inductive Visits (id : NodeId) (wasOpen : Bool) : List Call → Bool → Prop where
  | none : Visits id wasOpen [] wasOpen
  | more {calls between next soFar isOpen} (before : Visits id wasOpen calls between)
      (course : Course id between next soFar isOpen) (exit : Return) :
      Visits id wasOpen (calls ++ (next ++ [⟨.exit, exit⟩])) isOpen

theorem Visits.append {id a calls b more c} (left : Visits id a calls b)
    (right : Visits id b more c) : Visits id a (calls ++ more) c := by
  induction right with
  | none => simpa using left
  | more _ course exit ih =>
    rw [← List.append_assoc]
    exact ih.more course exit

theorem Account.visits {scene : Scene W} {id wasOpen t calls shown final isOpen}
    (account : Account scene id wasOpen t calls shown final isOpen) :
    Visits id wasOpen calls isOpen := by
  cases account with
  | leaves course => exact Visits.none.more course _
  | exitFails course => exact Visits.none.more course _

def Visited (id : NodeId) (a : OpenNodes) (t : Timeline W) (b : OpenNodes) : Prop :=
  ∃ calls, t.marks id = calls.flatMap Call.marks ∧ Visits id (a.contains id) calls (b.contains id)

open BehaviorTree.Derivation

theorem Visited.sequential (id : NodeId) : Sequential (Visited (W := W) id) where
  nil _ := ⟨[], rfl, .none⟩
  append left right := by
    obtain ⟨calls, marked, visits⟩ := left
    obtain ⟨more, marked', visits'⟩ := right
    exact ⟨calls ++ more, by rw [Timeline.marksAppend, marked, marked', List.flatMap_append],
      visits.append visits'⟩

theorem Visited.elsewhere {id a b} {t : Timeline W} (undisturbed : Undisturbed id a t b) :
    Visited id a t b :=
  ⟨[], Timeline.marksElsewhere undisturbed.seen, by rw [undisturbed.flag]; exact .none⟩

variable {scene : Scene W} {room : Nat} {s last : Standing W} {t : Timeline W} {status : Status}

theorem apartOfForest (forest : scene.tree.Forest) {id node}
    (found : scene.tree.node? id = some node) : Apart (Evaluates scene room) node := by
  intro request child s t status last located evaluates
  have same := forest.numbered found
  exact evaluates.undisturbed forest ⟨node, request, by rw [same]; exact found, located⟩

theorem Evaluates.visited (forest : scene.tree.Forest) (other : NodeId) {id}
    (evaluates : Evaluates scene room id s t status last) :
    Visited other s.openNodes t last.openNodes := by
  induction room generalizing id s t status last with
  | zero =>
    cases evaluates with
    | absent => exact ⟨[], rfl, .none⟩
    | refused => exact ⟨[], rfl, .none⟩
    | activated _ room => cases room
  | succ room ih =>
    cases evaluates with
    | absent => exact ⟨[], rfl, .none⟩
    | refused => exact ⟨[], rfl, .none⟩
    | @activated _ _ node _ _ _ _ found room activated =>
      cases room
      by_cases here : other = node.id
      · obtain ⟨calls, _, marked, account⟩ := activated.account (apartOfForest forest found)
        exact here ▸ ⟨calls, marked, account.visits⟩
      · exact activated.chain (Visited.sequential other) (fun _ asked => ih asked)
          (fun own => .elsewhere (own.undisturbed here))

theorem Evaluates.activated {id node} (found : scene.tree.node? id = some node)
    (evaluates : Evaluates scene (room + 1) id s t status last) :
    Activated scene (Evaluates scene room) node s t status last := by
  cases evaluates with
  | absent none =>
    rw [found] at none
    contradiction
  | refused _ limit => contradiction
  | activated found' room activated =>
    cases found.symm.trans found'
    cases room
    exact activated

theorem activatedOfEvaluate (built : scene.tree.Built) {id node}
    (found : scene.tree.node? id = some node) {depth : Nat}
    (within : depth ≤ scene.plan.maxDepth.toNat) {m last : Moment W (Timeline W)}
    (ok : evaluate scene (scene.plan.room - depth) id m = some (status, last)) :
    let below := scene.plan.maxDepth.toNat - depth
    ∃ t, last.seen = m.seen ++ t ∧ node.id = id ∧ Apart (Evaluates scene below) node ∧
      Activated scene (Evaluates scene below) node m.standing t status last.standing := by
  intro below
  have left : scene.plan.room - depth = below + 1 := by
    simp only [Plan.room, below]
    omega
  rw [left] at ok
  obtain ⟨t, grown, evaluates⟩ := evaluatesSound _ _ _ _ _ _ ok
  exact ⟨t, grown, built.forest.numbered found, apartOfForest built.forest found,
    evaluates.activated found⟩

end BehaviorTree
