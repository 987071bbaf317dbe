import BehaviorTree.Proofs.Evaluation.Pieces
import BehaviorTree.Proofs.Session

/-! Whom the events of a run name. Events of the lifecycle name the subject that is run. A
fault event names the subject of the toolbox its fault was put on, and the factory or any
callback may have replaced that toolbox; so all events name the run's subject exactly when
every fault was put on a toolbox of that subject. -/
namespace BehaviorTree

variable {W : Type}

def Occurrence.faultSubject? : Occurrence W → Option SubjectId
  | .reported event _ => if event.phase = .fault then some event.subject else none
  | _ => none

def Occurrence.putSubject? : Occurrence W → Option SubjectId
  | .consulted _ _ stage => some stage.toolbox.subject
  | _ => none

namespace Timeline

def faultSubjects (t : Timeline W) : List SubjectId := t.filterMap Occurrence.faultSubject?

def putSubjects (t : Timeline W) : List SubjectId := t.filterMap Occurrence.putSubject?

theorem memFaultSubjects {t : Timeline W} {event recorded} (sent : .reported event recorded ∈ t)
    (fault : event.phase = .fault) : event.subject ∈ t.faultSubjects :=
  List.mem_filterMap.mpr ⟨_, sent, if_pos fault⟩

theorem reportedOfFaultSubject {t : Timeline W} {subject} (mem : subject ∈ t.faultSubjects) :
    ∃ event recorded, .reported event recorded ∈ t ∧ event.subject = subject := by
  obtain ⟨o, seen, same⟩ := List.mem_filterMap.mp mem
  cases o with
  | reported event recorded =>
    simp only [Occurrence.faultSubject?] at same
    split at same
    · exact ⟨event, recorded, seen, Option.some.inj same⟩
    · contradiction
  | _ => cases same

theorem memPutSubjects {t : Timeline W} {fault responder stage}
    (put : .consulted fault responder stage ∈ t) : stage.toolbox.subject ∈ t.putSubjects :=
  List.mem_filterMap.mpr ⟨_, put, rfl⟩

theorem consultedOfPutSubject {t : Timeline W} {subject} (mem : subject ∈ t.putSubjects) :
    ∃ fault responder stage, .consulted fault responder stage ∈ t ∧
      stage.toolbox.subject = subject := by
  obtain ⟨o, seen, same⟩ := List.mem_filterMap.mp mem
  cases o with
  | consulted fault responder stage => exact ⟨fault, responder, stage, seen, Option.some.inj same⟩
  | _ => cases same

end Timeline

structure Named (subject : SubjectId) (t : Timeline W) : Prop where
  lifecycle : ∀ {event recorded}, .reported event recorded ∈ t → event.phase ≠ .fault →
    event.subject = subject
  faults : t.faultSubjects = t.putSubjects

namespace Named
variable {subject : SubjectId} {t u : Timeline W}

theorem append (left : Named subject t) (right : Named subject u) : Named subject (t ++ u) where
  lifecycle sent phase :=
    (List.mem_append.mp sent).elim (left.lifecycle · phase) (right.lifecycle · phase)
  faults := by
    have first := left.faults
    have second := right.faults
    unfold Timeline.faultSubjects Timeline.putSubjects at *
    rw [List.filterMap_append, List.filterMap_append, first, second]

theorem silent (unsent : ∀ event recorded, .reported event recorded ∉ t)
    (unput : ∀ fault responder stage, .consulted fault responder stage ∉ t) : Named subject t where
  lifecycle sent := absurd sent (unsent _ _)
  faults := by
    have none : t.faultSubjects = [] := by
      refine List.eq_nil_iff_forall_not_mem.mpr fun subject mem => ?_
      obtain ⟨event, recorded, sent, _⟩ := Timeline.reportedOfFaultSubject mem
      exact unsent event recorded sent
    have none' : t.putSubjects = [] := by
      refine List.eq_nil_iff_forall_not_mem.mpr fun subject mem => ?_
      obtain ⟨fault, responder, stage, put, _⟩ := Timeline.consultedOfPutSubject mem
      exact unput fault responder stage put
    rw [none, none']

theorem allIff (named : Named subject t) :
    (∀ {event recorded}, .reported event recorded ∈ t → event.subject = subject) ↔
      ∀ {fault responder stage}, .consulted fault responder stage ∈ t →
        stage.toolbox.subject = subject := by
  constructor
  · intro all fault responder stage put
    have mem := Timeline.memPutSubjects put
    rw [← named.faults] at mem
    obtain ⟨event, recorded, sent, same⟩ := Timeline.reportedOfFaultSubject mem
    exact same.symm.trans (all sent)
  · intro all event recorded sent
    by_cases fault : event.phase = .fault
    · have mem := Timeline.memFaultSubjects sent fault
      rw [named.faults] at mem
      obtain ⟨_, _, stage, put, same⟩ := Timeline.consultedOfPutSubject mem
      exact same.symm.trans (all put)
    · exact named.lifecycle sent fault

end Named

namespace Derivation
variable {scene : Scene W} {node : Node W}

theorem Answered.named {fault s t status last} (answered : Answered scene fault s t status last) :
    Named scene.subject t := by
  cases answered with
  | intro answer =>
    refine ⟨fun {event recorded} sent phase => ?_, rfl⟩
    obtain ⟨same, _⟩ : event = fault.event s.stage.toolbox.subject status ∧ recorded = s.records := by
      simpa using sent
    exact absurd (congrArg Trace.Event.phase same) phase

theorem namedCarries : Carries scene node fun _ t _ => Named scene.subject t where
  nil _ := .silent (by simp) (by simp)
  append := .append
  told s phase status ordinary := by
    refine ⟨fun {event recorded} sent _ => ?_, ?_⟩
    · have same : event = scene.event node.id phase status := by
        have both := List.mem_singleton.mp sent
        injection both
      rw [same]
      rfl
    · simp [Timeline.faultSubjects, Timeline.putSubjects, Occurrence.faultSubject?,
        Occurrence.putSubject?, Scene.event, ordinary]
  called _ _ _ _ _ := .silent (by simp) (by simp)
  answered _ answered := answered.named
  flagged _ _ := .silent (by simp) (by simp)
  ticks _ := .silent (by simp) (by simp)
  starts _ _ := .silent (by simp) (by simp)
  resumes _ _ _ _ := .silent (by simp) (by simp)
  ticked _ _ := .silent (by simp) (by simp)

theorem boundsNamed {subject} {o : Occurrence W} (bounds : o.Bounds) : Named subject [o] := by
  cases o with
  | began | ended | refused | absent => exact .silent (by simp) (by simp)
  | _ => cases bounds

end Derivation

theorem Plan.runNamed {plan : Plan W} {patience tree subject openNodes world}
    {report : Report W (Timeline W)} {left}
    (ok : plan.runTree patience tree subject openNodes world = some (report, left)) :
    Named subject report.seen := by
  rcases Plan.runSound ok with ⟨_, rfl, _⟩ |
    ⟨root, equipped, t, stage, last, _, shown, seen, _, _, evaluates⟩
  · exact .silent (by simp [Report.idle, Observer.start]) (by simp [Report.idle, Observer.start])
  · rw [seen]
    have ran : Named subject t :=
      Derivation.evaluatesCarried (R := fun _ t _ => Named subject t)
        (fun _ => Derivation.namedCarries) (fun _ _ => Derivation.boundsNamed) evaluates
    refine .append ?_ ran
    rcases shown with rfl | ⟨stage, rfl⟩ <;> exact .silent (by simp) (by simp)

theorem eventsNameSubject {plan : Plan W} {patience tree subject openNodes world}
    {report : Report W (Timeline W)} {left}
    (ok : plan.runTree patience tree subject openNodes world = some (report, left)) :
    Named subject report.seen ∧
      ((∀ {event recorded}, .reported event recorded ∈ report.seen → event.subject = subject) ↔
        ∀ {fault responder stage}, .consulted fault responder stage ∈ report.seen →
          stage.toolbox.subject = subject) :=
  ⟨Plan.runNamed ok, (Plan.runNamed ok).allIff⟩

def Behavior.shut : Behavior Unit where
  onEnter := fun stage => (.error (.message "shut"), stage)

def Plan.estranged : Plan Unit where
  factory := some fun _ stage =>
    { stage with toolbox :=
      { subject := ⟨9⟩, tree := stage.toolbox.tree,
        slots := Slots.empty.set Trace.sinkKey .recording } }

theorem eventsNameEstranged : ∃ (report : Report Unit (Timeline Unit)) (left : OpenNodes),
    Plan.estranged.runTree 0 (Tree.sapling .shut) ⟨1⟩ .empty () = some (report, left) ∧
      report.seen.faultSubjects = [⟨9⟩] ∧ Named ⟨1⟩ report.seen ∧
      ((∀ {event recorded}, .reported event recorded ∈ report.seen → event.subject = ⟨1⟩) ↔
        ∀ {fault responder stage}, .consulted fault responder stage ∈ report.seen →
          stage.toolbox.subject = ⟨1⟩) := by
  have ok : (Plan.estranged.runTree 0 (Tree.sapling .shut) ⟨1⟩ .empty () :
      Option (Report Unit (Timeline Unit) × OpenNodes)) = some (_, _) := rfl
  exact ⟨_, _, ok, rfl, eventsNameSubject ok⟩

/- The sink is told of a fault of subject 9 in a run of subject 1. -/
theorem faultNamesAnother :
    ∃ ends : (Plan.estranged.runTree 0 (Tree.sapling .shut) ⟨1⟩ .empty () :
        Option (Report Unit (Timeline Unit) × OpenNodes)).isSome = true,
      (Option.get _ ends).1.seen.record.map (fun event => (event.phase, event.subject)) =
        [(.enter, ⟨1⟩), (.fault, ⟨9⟩), (.exit, ⟨1⟩)] :=
  ⟨by decide +kernel, by decide +kernel⟩

end BehaviorTree
