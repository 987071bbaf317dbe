import BehaviorTree.Proofs.Evaluation.Performance

/-! The lifecycle of one activation, whatever its callbacks do and whatever goes on below
the node: which callbacks are called, and what the status comes from. -/
namespace BehaviorTree

variable {W : Type}

def Occurrence.call? : Occurrence W → Option (NodeId × Step)
  | .called node step _ => some (node, step)
  | _ => none

def Mark.step? : Mark → Option Step
  | .called step => some step
  | .returned _ _ => none

namespace Timeline

def called (t : Timeline W) : List (NodeId × Step) := t.filterMap Occurrence.call?

def steps (t : Timeline W) (id : NodeId) : List Step :=
  (t.called.filter fun call => call.1 = id).map Prod.snd

theorem calledAppend (t u : Timeline W) : (t ++ u).called = t.called ++ u.called :=
  List.filterMap_append

theorem stepsMarks (t : Timeline W) (id : NodeId) :
    t.steps id = (t.marks id).filterMap Mark.step? := by
  unfold steps called marks
  rw [List.filter_filterMap, List.map_filterMap, List.filterMap_filterMap]
  refine List.filterMap_congr fun o _ => ?_
  cases o with
  | called node step stage =>
    by_cases here : node = id <;> simp [Occurrence.call?, Occurrence.mark?, Mark.step?, here]
  | returned node step result =>
    by_cases here : node = id <;> simp [Occurrence.call?, Occurrence.mark?, Mark.step?, here]
  | _ => rfl

theorem marksReturned {t : Timeline W} {id step result} :
    .returned step result ∈ t.marks id ↔ .returned id step result ∈ t := by
  constructor
  · intro mem
    obtain ⟨o, seen, same⟩ := List.mem_filterMap.mp mem
    exact markReturned same ▸ seen
  · intro seen
    exact List.mem_filterMap.mpr ⟨_, seen, if_pos rfl⟩

end Timeline

structure Lifecycle (scene : Scene W) (evaluated : Derivation.Judgement W) (node : Node W)
    (s : Standing W) (t : Timeline W) (status : Status) (last : Standing W) : Prop where
  -- In lifecycle order, and none of them twice.
  ordered : (t.steps node.id).Sublist Step.all
  entersFirst : t.called.head? = some (node.id, .enter)
  exitsLast : t.called.getLast? = some (node.id, .exit)
  performs : ∀ {before after : Timeline W} {step stage},
    t = before ++ .called node.id step stage :: after →
      Performance scene evaluated node s before step stage after last
  returns : ∀ step, t.calls node.id step ↔ ∃ result, .returned node.id step result ∈ t
  returnsOnce : ∀ {step result other}, .returned node.id step result ∈ t →
    .returned node.id step other ∈ t → result = other
  opens : t.calls node.id .opening ↔
    .returned node.id .enter .completed ∈ t ∧ s.openNodes.contains node.id = false
  ticks : t.calls node.id .tick ↔ .returned node.id .enter .completed ∈ t ∧
    (¬ t.calls node.id .opening ∨ .returned node.id .opening .completed ∈ t)
  closes : t.calls node.id .close ↔
    ∃ outcome, .returned node.id .tick (.answered outcome) ∈ t ∧ outcome.effective ≠ .running
  exitFault : ∀ {e}, .returned node.id .exit (.failed e) ∈ t →
    scene.Answers t ⟨node.id, .exit, e⟩ status
  oneFault : ∀ {step other e e'}, step ≠ .exit → other ≠ .exit →
    .returned node.id step (.failed e) ∈ t → .returned node.id other (.failed e') ∈ t →
      step = other
  stepFault : ∀ {step e}, step ≠ .exit → .returned node.id step (.failed e) ∈ t →
    .returned node.id .exit .completed ∈ t → scene.Answers t ⟨node.id, step, e⟩ status
  noFault : (∀ step e, .returned node.id step (.failed e) ∉ t) →
    (∃ outcome, .returned node.id .tick (.answered outcome) ∈ t ∧ status = outcome.effective) ∧
      (status = .running ↔ last.openNodes.contains node.id = true)

namespace Course
variable {id : NodeId} {wasOpen isOpen : Bool} {calls : List Call} {soFar : Except Fault Status}

theorem ordered (course : Course id wasOpen calls soFar isOpen) :
    (calls.map Call.step ++ [Step.exit]).Sublist Step.all := by
  cases course <;> cases wasOpen <;> exact List.isSublist_iff_sublist.mp rfl

theorem beforeExit (course : Course id wasOpen calls soFar isOpen) :
    .exit ∉ calls.map Call.step := by
  cases course <;> cases wasOpen <;> simp [Call.ready]

theorem callsOpening (course : Course id wasOpen calls soFar isOpen) :
    .opening ∈ calls.map Call.step ↔ ⟨.enter, .completed⟩ ∈ calls ∧ wasOpen = false := by
  cases course <;> cases wasOpen <;> simp_all [Call.ready]

theorem callsTick (course : Course id wasOpen calls soFar isOpen) :
    .tick ∈ calls.map Call.step ↔ ⟨.enter, .completed⟩ ∈ calls ∧
      (.opening ∉ calls.map Call.step ∨ ⟨.opening, .completed⟩ ∈ calls) := by
  cases course <;> cases wasOpen <;> simp_all [Call.ready]

theorem callsClose (course : Course id wasOpen calls soFar isOpen) :
    .close ∈ calls.map Call.step ↔
      ∃ outcome : Outcome, ⟨.tick, .answered outcome⟩ ∈ calls ∧ outcome.effective ≠ .running := by
  cases course <;> cases wasOpen <;> simp_all [Call.ready]

theorem failed (course : Course id wasOpen calls soFar isOpen) {step e}
    (mem : ⟨step, .failed e⟩ ∈ calls) : soFar = .error ⟨id, step, e⟩ := by
  cases course <;> cases wasOpen <;> simp_all [Call.ready]

theorem fine (course : Course id wasOpen calls soFar isOpen)
    (none : ∀ step e, ⟨step, .failed e⟩ ∉ calls) :
    ∃ outcome : Outcome, ⟨.tick, .answered outcome⟩ ∈ calls ∧ soFar = .ok outcome.effective ∧
      (outcome.effective = .running ↔ isOpen = true) := by
  cases course <;> cases wasOpen <;> simp_all [Call.ready]

end Course

namespace Derivation
variable {scene : Scene W} {evaluated : Judgement W} {node : Node W} {s last : Standing W}
  {t : Timeline W}

theorem Called.called {id step status callback result}
    (called : Called scene id step status callback s t result last) : t.called = [(id, step)] := by
  cases called
  rfl

theorem Answered.called {fault status} (answered : Answered scene fault s t status last) :
    t.called = [] := by
  cases answered
  rfl

theorem Stepped.called {result} (stepped : Stepped scene evaluated node s t result last) :
    t.called.head? = some (node.id, .enter) := by
  cases stepped with
  | enterFails entered => rw [entered.called, List.head?_cons]
  | openFails entered => rw [Timeline.calledAppend, entered.called]; rfl
  | tickFails entered => rw [List.append_assoc, Timeline.calledAppend, entered.called]; rfl
  | settles entered =>
    rw [List.append_assoc, List.append_assoc, Timeline.calledAppend, entered.called]; rfl

theorem Activated.called {final} (activated : Activated scene evaluated node s t final last) :
    t.called.head? = some (node.id, .enter) ∧ t.called.getLast? = some (node.id, .exit) := by
  have began (rest : Timeline W) :
      Timeline.called (.began node.id :: rest) = rest.called := rfl
  have ended (status : Status) :
      Timeline.called ([.ended node.id status] : Timeline W) = [] := rfl
  cases activated with
  | leaves stepped settled exited =>
    have first := stepped.called
    simp [began, ended, Timeline.calledAppend, exited.called, first]
  | exitFails stepped settled exited answered =>
    have first := stepped.called
    simp [began, ended, Timeline.calledAppend, exited.called, answered.called, first]

end Derivation

theorem Call.stepsOfMarks (calls : List Call) :
    (calls.flatMap Call.marks).filterMap Mark.step? = calls.map Call.step := by
  induction calls with
  | nil => rfl
  | cons call calls ih =>
    rw [List.flatMap_cons, List.filterMap_append, ih]
    rfl

section Reading
variable {t : Timeline W} {id : NodeId} {calls : List Call}
  (marked : t.marks id = calls.flatMap Call.marks)
include marked

theorem Timeline.stepsOfCalls : t.steps id = calls.map Call.step := by
  rw [stepsMarks, marked, Call.stepsOfMarks]

theorem Timeline.callsOfCalls (step : Step) : t.calls id step ↔ step ∈ calls.map Call.step := by
  rw [← marksCalled, marked]
  simp [Call.marks, eq_comm]

theorem Timeline.returnedOfCalls (step : Step) (result : Return) :
    .returned id step result ∈ t ↔ ⟨step, result⟩ ∈ calls := by
  rw [← marksReturned, marked, List.mem_flatMap]
  constructor
  · rintro ⟨call, mem, same⟩
    simp only [Call.marks, List.mem_cons, List.not_mem_nil, reduceCtorEq, false_or, or_false,
      Mark.returned.injEq] at same
    obtain ⟨rfl, rfl⟩ := same
    exact mem
  · intro mem
    exact ⟨_, mem, by simp [Call.marks]⟩

end Reading

structure Conduct (id : NodeId) (wasOpen : Bool) (t : Timeline W) (own : List Call)
    (soFar : Except Fault Status) (exit : Return) (isOpen : Bool) : Prop where
  marked : t.marks id = (own ++ [⟨.exit, exit⟩] : List Call).flatMap Call.marks
  course : Course id wasOpen own soFar isOpen

namespace Conduct
variable {id : NodeId} {wasOpen isOpen : Bool} {t : Timeline W} {own : List Call}
  {soFar : Except Fault Status} {exit : Return}

theorem called (conduct : Conduct id wasOpen t own soFar exit isOpen) {step}
    (other : step ≠ .exit) : t.calls id step ↔ step ∈ own.map Call.step := by
  rw [Timeline.callsOfCalls conduct.marked, List.map_append, List.mem_append]
  simp [other]

theorem came (conduct : Conduct id wasOpen t own soFar exit isOpen) {step result}
    (other : step ≠ .exit) : .returned id step result ∈ t ↔ ⟨step, result⟩ ∈ own := by
  rw [Timeline.returnedOfCalls conduct.marked, List.mem_append]
  simp [other]

theorem left (conduct : Conduct id wasOpen t own soFar exit isOpen) {result} :
    .returned id .exit result ∈ t ↔ exit = result := by
  have earlier : ⟨.exit, result⟩ ∉ own := fun mem =>
    conduct.course.beforeExit (List.mem_map_of_mem mem)
  rw [Timeline.returnedOfCalls conduct.marked, List.mem_append]
  simp [earlier, eq_comm]

theorem ordered (conduct : Conduct id wasOpen t own soFar exit isOpen) :
    (t.steps id).Sublist Step.all := by
  rw [Timeline.stepsOfCalls conduct.marked, List.map_append]
  exact conduct.course.ordered

theorem returns (conduct : Conduct id wasOpen t own soFar exit isOpen) (step : Step) :
    t.calls id step ↔ ∃ result, .returned id step result ∈ t := by
  simp only [Timeline.callsOfCalls conduct.marked, Timeline.returnedOfCalls conduct.marked,
    List.mem_map]
  constructor
  · rintro ⟨call, mem, rfl⟩
    exact ⟨call.result, mem⟩
  · rintro ⟨result, mem⟩
    exact ⟨_, mem, rfl⟩

theorem returnsOnce (conduct : Conduct id wasOpen t own soFar exit isOpen) {step result other}
    (here : .returned id step result ∈ t) (there : .returned id step other ∈ t) :
    result = other := by
  have ordered := conduct.ordered
  rw [Timeline.stepsOfCalls conduct.marked] at ordered
  have distinct := ordered.nodup (by decide)
  rw [Timeline.returnedOfCalls conduct.marked] at here there
  exact congrArg Call.result (List.inj_on_of_nodup_map distinct here there rfl)

theorem opens (conduct : Conduct id wasOpen t own soFar exit isOpen) :
    t.calls id .opening ↔ .returned id .enter .completed ∈ t ∧ wasOpen = false := by
  rw [conduct.called (by decide), conduct.came (by decide), conduct.course.callsOpening]

theorem ticks (conduct : Conduct id wasOpen t own soFar exit isOpen) :
    t.calls id .tick ↔ .returned id .enter .completed ∈ t ∧
      (¬ t.calls id .opening ∨ .returned id .opening .completed ∈ t) := by
  rw [conduct.called (by decide), conduct.called (by decide), conduct.came (by decide),
    conduct.came (by decide), conduct.course.callsTick]

theorem closes (conduct : Conduct id wasOpen t own soFar exit isOpen) :
    t.calls id .close ↔
      ∃ outcome, .returned id .tick (.answered outcome) ∈ t ∧ outcome.effective ≠ .running := by
  simp only [conduct.called (show Step.close ≠ .exit by decide),
    conduct.came (show Step.tick ≠ .exit by decide), conduct.course.callsClose]

theorem failed (conduct : Conduct id wasOpen t own soFar exit isOpen) {step e}
    (other : step ≠ .exit) (failed : .returned id step (.failed e) ∈ t) :
    soFar = .error ⟨id, step, e⟩ :=
  conduct.course.failed ((conduct.came other).mp failed)

theorem fine (conduct : Conduct id wasOpen t own soFar exit isOpen)
    (none : ∀ step e, .returned id step (.failed e) ∉ t) :
    ∃ outcome : Outcome, .returned id .tick (.answered outcome) ∈ t ∧
      soFar = .ok outcome.effective ∧ (outcome.effective = .running ↔ isOpen = true) := by
  have quiet (step e) : ⟨step, .failed e⟩ ∉ own := fun mem =>
    none step e ((Timeline.returnedOfCalls conduct.marked _ _).mpr (List.mem_append_left _ mem))
  obtain ⟨outcome, answered, same, flag⟩ := conduct.course.fine quiet
  exact ⟨outcome, (conduct.came (by decide)).mpr answered, same, flag⟩

end Conduct

/- The status shown at the exit is the answer to the fault so far, and a failing exit has it
replaced by the answer to its own. -/
inductive Leaves (scene : Scene W) (id : NodeId) (t : Timeline W) (soFar : Except Fault Status) :
    Return → Status → Prop where
  | completes {status} (shows : scene.Shows t soFar status) :
      Leaves scene id t soFar .completed status
  | fails {e status} (answers : scene.Answers t ⟨id, .exit, e⟩ status) :
      Leaves scene id t soFar (.failed e) status

theorem Account.conduct {scene : Scene W} {id wasOpen t calls shown final isOpen}
    (account : Account scene id wasOpen t calls shown final isOpen)
    (marked : t.marks id = calls.flatMap Call.marks) :
    ∃ own soFar exit, Conduct id wasOpen t own soFar exit isOpen ∧
      Leaves scene id t soFar exit final := by
  cases account with
  | leaves course shows => exact ⟨_, _, _, ⟨marked, course⟩, .completes shows⟩
  | exitFails course _ answers => exact ⟨_, _, _, ⟨marked, course⟩, .fails answers⟩

theorem Derivation.Activated.lifecycle {scene : Scene W} {evaluated : Judgement W} {node : Node W}
    {s last : Standing W} {t : Timeline W} {status} (apart : Apart evaluated node)
    (activated : Activated scene evaluated node s t status last) :
    Lifecycle scene evaluated node s t status last := by
  obtain ⟨calls, shown, marked, account⟩ := activated.account apart
  obtain ⟨own, soFar, exit, conduct, leaves⟩ := account.conduct marked
  constructor
  case ordered => exact conduct.ordered
  case entersFirst => exact activated.called.1
  case exitsLast => exact activated.called.2
  case performs => exact activated.enacted.performance apart
  case returns => exact conduct.returns
  case returnsOnce => exact conduct.returnsOnce
  case opens => exact conduct.opens
  case ticks => exact conduct.ticks
  case closes => exact conduct.closes
  case exitFault =>
    intro e failed
    cases conduct.left.mp failed
    cases leaves with
    | fails answers => exact answers
  case oneFault =>
    intro step other e e' here there failed failed'
    cases (conduct.failed here failed).symm.trans (conduct.failed there failed')
    rfl
  case stepFault =>
    intro step e here failed completed
    cases conduct.left.mp completed
    cases conduct.failed here failed
    cases leaves with
    | completes shows => exact shows
  case noFault =>
    intro none
    obtain ⟨outcome, answered, rfl, flag⟩ := conduct.fine none
    cases leaves with
    | completes shows =>
      cases shows
      exact ⟨⟨outcome, answered, rfl⟩, flag⟩
    | fails => exact absurd (conduct.left.mpr rfl) (none .exit _)

/- Depth is counted from the root of the run, and the limit itself is still evaluated. -/
theorem activationLifecycle {scene : Scene W} (built : scene.tree.Built) {id node}
    (found : scene.tree.node? id = some node) {depth : Nat}
    (within : depth ≤ scene.plan.maxDepth.toNat) {m last : Moment W (Timeline W)} {status}
    (ok : evaluate scene (scene.plan.room - depth) id m = some (status, last)) :
    ∃ t, last.seen = m.seen ++ t ∧ node.id = id ∧
      Lifecycle scene (Evaluates scene (scene.plan.maxDepth.toNat - depth)) node m.standing t status
        last.standing := by
  obtain ⟨t, grown, same, apart, activated⟩ := activatedOfEvaluate built found within ok
  exact ⟨t, grown, same, activated.lifecycle apart⟩

def Behavior.relaying : Behavior W where
  tick := some
    { Memory := Unit
      start := fun _ stage => .ask .child stage ()
      resume := fun _ reply stage => .answer (reply.map .status) stage }

def Behavior.jammed : Behavior Nat where
  tick := Behavior.relaying.tick
  onClose := fun stage => (.error (.message "jammed"), { stage with world := stage.world + 1 })

theorem activationLifecycleJammed :
    let scene : Scene Nat :=
      { plan := { handler := some fun _ stage => (.failure, stage.world), maxDepth := 1 }
        tree := Tree.pair .jammed { tick := some (.ofStatus .success) }
        subject := ⟨1⟩, patience := 1 }
    let m : Moment Nat (Timeline Nat) := scene.plan.equip ⟨1⟩ scene.tree.id .empty 4
    ∃ last t node, scene.tree.node? ⟨0⟩ = some node ∧
      evaluate scene scene.plan.room ⟨0⟩ m = some (.failure, last) ∧ last.seen = m.seen ++ t ∧
      last.stage.world = 5 ∧ .returned ⟨0⟩ .close (.failed (.message "jammed")) ∈ last.seen ∧
      Lifecycle scene (Evaluates scene 1) node m.standing t .failure last.standing := by
  intro scene m
  have came : ((evaluate scene (scene.plan.room - 0) ⟨0⟩ m).any fun (status, last) =>
      status = .failure ∧ last.stage.world = 5 ∧
        .returned .close (.failed (.message "jammed")) ∈ last.seen.marks ⟨0⟩) = true := by
    decide +kernel
  obtain ⟨⟨status, last⟩, ok, shown⟩ := (Option.any_eq_true _ _).mp came
  obtain ⟨rfl, counted, failed⟩ := of_decide_eq_true shown
  obtain ⟨t, grown, _, lifecycle⟩ :=
    activationLifecycle (Tree.Built.pair _ _) rfl (Nat.zero_le _) ok
  exact ⟨last, t, _, rfl, ok, grown, counted, Timeline.marksReturned.mp failed, lifecycle⟩

end BehaviorTree
