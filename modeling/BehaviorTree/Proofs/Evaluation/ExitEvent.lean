import BehaviorTree.Proofs.Evaluation.Lifecycle

/-! The event that an activation sends on its exit. It is sent before the exit callback is
called, with the status so far, and a failing exit callback replaces that status; so the
event tells the result exactly when the callback completes or its fault is answered with
the status that was told. Events are taken as they were sent, whether or not a slot is
there to take them. -/
namespace BehaviorTree

variable {W : Type}

def Occurrence.exit? (id : NodeId) : Occurrence W → Option (Option Status)
  | .reported event _ => if event.node = id ∧ event.phase = .exit then some event.status else none
  | _ => none

def Timeline.exits (t : Timeline W) (id : NodeId) : List (Option Status) :=
  t.filterMap (Occurrence.exit? id)

inductive Leaving (W : Type) where
  | told (status : Option Status)
  | returned (result : Return)
  | put (error : CallbackError) (stage : Stage W)

def Occurrence.leaving? (id : NodeId) : Occurrence W → Option (Leaving W)
  | .reported event _ =>
    if event.node = id ∧ event.phase = .exit then some (.told event.status) else none
  | .returned node step result => if node = id ∧ step = .exit then some (.returned result) else none
  | .consulted fault _ stage =>
    if fault.node = id ∧ fault.step = .exit then some (.put fault.error stage) else none
  | _ => none

def Leaving.status? : Leaving W → Option (Option Status)
  | .told status => some status
  | _ => none

namespace Timeline

def leaving (t : Timeline W) (id : NodeId) : List (Leaving W) := t.filterMap (Occurrence.leaving? id)

theorem leavingAppend (t u : Timeline W) (id : NodeId) :
    (t ++ u).leaving id = t.leaving id ++ u.leaving id :=
  List.filterMap_append

theorem leavingElsewhere {t : Timeline W} {id} (elsewhere : ∀ o ∈ t, o.node? ≠ some id) :
    t.leaving id = [] := by
  refine List.filterMap_eq_nil_iff.mpr fun o mem => ?_
  have apart := elsewhere o mem
  cases o <;> simp_all [Occurrence.leaving?, Occurrence.node?]

theorem exitsLeaving (t : Timeline W) (id : NodeId) :
    t.exits id = (t.leaving id).filterMap Leaving.status? := by
  unfold exits leaving
  rw [List.filterMap_filterMap]
  refine List.filterMap_congr fun o _ => ?_
  cases o with
  | reported event recorded =>
    simp only [Occurrence.exit?, Occurrence.leaving?]
    split <;> rfl
  | returned node step result =>
    simp only [Occurrence.exit?, Occurrence.leaving?]
    split <;> rfl
  | consulted fault responder stage =>
    simp only [Occurrence.exit?, Occurrence.leaving?]
    split <;> rfl
  | _ => rfl

theorem leavingReturned {t : Timeline W} {id result} :
    .returned result ∈ t.leaving id ↔ .returned id .exit result ∈ t := by
  constructor
  · intro mem
    obtain ⟨o, seen, same⟩ := List.mem_filterMap.mp mem
    cases o with
    | returned =>
      simp only [Occurrence.leaving?] at same
      split at same
      · rename_i here
        obtain ⟨rfl, rfl⟩ := here
        cases same
        exact seen
      · contradiction
    | reported | consulted =>
      simp only [Occurrence.leaving?] at same
      split at same <;> cases same
    | _ => cases same
  · intro mem
    exact List.mem_filterMap.mpr ⟨_, mem, if_pos ⟨rfl, rfl⟩⟩

theorem leavingConsulted {t : Timeline W} {id e responder stage}
    (mem : .consulted ⟨id, .exit, e⟩ responder stage ∈ t) : .put e stage ∈ t.leaving id :=
  List.mem_filterMap.mpr ⟨_, mem, if_pos ⟨rfl, rfl⟩⟩

end Timeline

namespace Derivation
variable {scene : Scene W} {evaluated : Judgement W} {node : Node W} {s last : Standing W}
  {t : Timeline W}

theorem Called.leaving {id step status callback result}
    (called : Called scene id step status callback s t result last) :
    t.leaving id =
      if step = .exit then [.told status, .returned (.ofResult result)] else [] := by
  cases called
  cases step <;>
    simp [Timeline.leaving, Occurrence.leaving?, List.filterMap_cons, Scene.event, Step.phase]

theorem Answered.leaving {fault status} (answered : Answered scene fault s t status last) :
    t.leaving fault.node = if fault.step = .exit then [.put fault.error s.stage] else [] := by
  cases answered
  by_cases exit : fault.step = .exit <;>
    simp [Timeline.leaving, Occurrence.leaving?, Fault.event, exit]

theorem Opened.leaving {result} (opened : Opened scene node s t result last) :
    t.leaving node.id = [] := by
  cases opened with
  | already => rfl
  | called _ called => exact called.leaving

theorem Ticked.leaving (apart : Apart evaluated node) {result}
    (ticked : Ticked evaluated node s t result last) : t.leaving node.id = [] := by
  obtain ⟨talk, rfl, quiet⟩ := ticked.talk apart
  rw [Timeline.leavingAppend, Timeline.leavingAppend, Timeline.leavingElsewhere quiet.seen]
  simp [Timeline.leaving, Occurrence.leaving?]

theorem Judged.leaving {id outcome} (judged : Judged scene id s outcome t last) :
    t.leaving id = [] := by
  cases judged <;> simp [Timeline.leaving, Occurrence.leaving?, Scene.event]

theorem Settled.leaving {outcome result} (settled : Settled scene node outcome s t result last) :
    t.leaving node.id = [] := by
  have flagged (isOpen : Bool) :
      Timeline.leaving ([.flagged node.id isOpen] : Timeline W) node.id = [] := rfl
  cases settled with
  | stays judged => simp [Timeline.leavingAppend, judged.leaving, flagged]
  | closes judged _ called => simp [Timeline.leavingAppend, judged.leaving, called.leaving, flagged]
  | closeFails judged _ called =>
    simp [Timeline.leavingAppend, judged.leaving, called.leaving, flagged]

theorem Stepped.leaving (apart : Apart evaluated node) {result}
    (stepped : Stepped scene evaluated node s t result last) : t.leaving node.id = [] := by
  cases stepped with
  | enterFails entered => exact entered.leaving
  | openFails entered opened => simp [Timeline.leavingAppend, entered.leaving, opened.leaving]
  | tickFails entered opened ticked =>
    simp [Timeline.leavingAppend, entered.leaving, opened.leaving, ticked.leaving apart]
  | settles entered opened ticked settled =>
    simp [Timeline.leavingAppend, entered.leaving, opened.leaving, ticked.leaving apart,
      settled.leaving]

theorem Stepped.faultStep {fault} (stepped : Stepped scene evaluated node s t (.error fault) last) :
    fault.step ≠ .exit := by
  cases stepped with
  | settles _ _ _ settled => cases settled; nofun
  | _ => nofun

theorem Resolved.leaving {start u soFar status}
    (stepped : Stepped scene evaluated node start u soFar s)
    (resolved : Resolved scene s soFar t status last) : t.leaving node.id = [] := by
  cases resolved with
  | fine => rfl
  | faulty answered => rw [← stepped.faultNode, answered.leaving, if_neg stepped.faultStep]

theorem Activated.leaving (apart : Apart evaluated node) {final}
    (activated : Activated scene evaluated node s t final last) :
    t.leaving node.id = [.told (some final), .returned .completed] ∨
      ∃ shown e stage, t.leaving node.id =
        [.told (some shown), .returned (.failed e), .put e stage] ∧
        .consulted ⟨node.id, .exit, e⟩ (scene.responder stage) stage ∈ t ∧
        final = (scene.respond ⟨node.id, .exit, e⟩ stage).1 := by
  have began (rest : Timeline W) :
      Timeline.leaving (.began node.id :: rest) node.id = rest.leaving node.id := rfl
  have ended (status : Status) :
      Timeline.leaving ([.ended node.id status] : Timeline W) node.id = [] := rfl
  cases activated with
  | leaves stepped settled exited =>
    refine .inl ?_
    simp [began, ended, Timeline.leavingAppend, stepped.leaving apart,
      settled.leaving stepped, exited.leaving, Return.ofResult]
  | @exitFails _ _ _ _ e _ shown _ _ left _ _ stepped settled exited answered =>
    refine .inr ⟨shown, e, left.stage, ?_, ?_, ?_⟩
    · have put := answered.leaving
      simp only [if_true] at put
      simp [began, ended, Timeline.leavingAppend, stepped.leaving apart,
        settled.leaving stepped, exited.leaving, put, Return.ofResult]
    · cases answered
      simp
    · cases answered with
      | intro answer => rw [answer]

end Derivation

theorem exitEventExact {scene : Scene W} (built : scene.tree.Built) {id node}
    (found : scene.tree.node? id = some node) {depth : Nat}
    (within : depth ≤ scene.plan.maxDepth.toNat) {m last : Moment W (Timeline W)} {status}
    (ok : evaluate scene (scene.plan.room - depth) id m = some (status, last)) :
    ∃ t shown, last.seen = m.seen ++ t ∧ t.exits id = [some shown] ∧
      (shown = status ↔ .returned id .exit .completed ∈ t ∨
        ∃ e, scene.Answers t ⟨id, .exit, e⟩ shown) := by
  obtain ⟨t, grown, rfl, apart, activated⟩ := activatedOfEvaluate built found within ok
  rcases activated.leaving apart with left | ⟨shown, e, stage, left, consulted, rfl⟩
  · have completed : .returned node.id .exit .completed ∈ t :=
      Timeline.leavingReturned.mp (by simp [left])
    exact ⟨t, status, grown, by rw [Timeline.exitsLeaving, left]; rfl, by simp [completed]⟩
  · refine ⟨t, shown, grown, by rw [Timeline.exitsLeaving, left]; rfl, ?_⟩
    constructor
    · intro same
      exact .inr ⟨e, stage, consulted, same⟩
    · rintro (completed | ⟨other, stage', consulted', same⟩)
      · have mem := Timeline.leavingReturned.mpr completed
        simp [left] at mem
      · have mem := Timeline.leavingConsulted consulted'
        rw [left] at mem
        simp at mem
        obtain ⟨rfl, rfl⟩ := mem
        exact same

def Behavior.stuck : Behavior Unit where
  tick := some (.ofStatus .success)
  onExit := fun stage => (.error (.message "stuck"), stage)

theorem exitEventOfStuck :
    let scene : Scene Unit :=
      { plan := { maxDepth := 0 }, tree := Tree.sapling .stuck, subject := ⟨0⟩, patience := 0 }
    let m : Moment Unit (Timeline Unit) := scene.plan.equip ⟨0⟩ scene.tree.id .empty ()
    ∃ last t shown, evaluate scene scene.plan.room ⟨0⟩ m = some (.error, last) ∧
      last.seen = m.seen ++ t ∧ t.exits ⟨0⟩ = [some shown] ∧
      (shown = .error ↔ .returned ⟨0⟩ .exit .completed ∈ t ∨
        ∃ e, scene.Answers t ⟨⟨0⟩, .exit, e⟩ shown) := by
  intro scene m
  have ok : evaluate scene (scene.plan.room - 0) ⟨0⟩ m = some (.error, _) := rfl
  obtain ⟨t, shown, grown, told, agrees⟩ :=
    exitEventExact (Tree.Built.sapling _) rfl (Nat.zero_le _) ok
  exact ⟨_, t, shown, ok, grown, told, agrees⟩

def Plan.recorded : Plan Unit where
  factory := some fun _ stage =>
    { stage with toolbox := { stage.toolbox with
        slots := stage.toolbox.slots.set Trace.sinkKey .recording } }

/- The sink is told of a success on the exit of a node whose run ends in an error. -/
theorem exitEventMisleads :
    ∃ ends : (Plan.recorded.runTree 0 (Tree.sapling .stuck) ⟨0⟩ .empty () :
        Option (Report Unit (Timeline Unit) × OpenNodes)).isSome = true,
      (Option.get _ ends).1.status = .error ∧
      (Option.get _ ends).1.seen.record.filter (fun event => event.phase = .exit) =
        [{ subject := ⟨0⟩, node := ⟨0⟩, phase := .exit, status := some .success }] :=
  ⟨by decide +kernel, by decide +kernel, by decide +kernel⟩

end BehaviorTree
