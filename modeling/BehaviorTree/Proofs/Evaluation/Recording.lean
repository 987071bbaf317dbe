import BehaviorTree.Proofs.Evaluation.Pieces

/-! What becomes of the events that are sent. Callbacks that leave the trace slots alone find
in the log of their toolbox what it held at first and, in order, all events sent since; and a
sink that records at first records all of them. -/
namespace BehaviorTree

variable {W : Type}

theorem Trace.logEmit (event : Event) (slots : ToolSlots) :
    (emit event slots).get? logKey = (slots.get? logKey).map fun log => Log.push log event :=
  slots.getModify logKey _

theorem Trace.sinkEmit (event : Event) (slots : ToolSlots) :
    (emit event slots).get? sinkKey = slots.get? sinkKey :=
  slots.getModifyOther _ (by decide)

namespace Stage

def log? (stage : Stage W) : Option Trace.Log := stage.toolbox.slots.get? Trace.logKey

def sink? (stage : Stage W) : Option Trace.Sink := stage.toolbox.slots.get? Trace.sinkKey

def records (stage : Stage W) : Bool := Trace.isRecorded stage.toolbox.slots

end Stage

@[simp] def Occurrence.event? : Occurrence W → Option Trace.Event
  | .reported event _ => some event
  | _ => none

@[simp] def Occurrence.stage? : Occurrence W → Option (Stage W)
  | .equipped stage | .called _ _ stage | .consulted _ _ stage => some stage
  | _ => none

namespace Timeline

def events (t : Timeline W) : List Trace.Event := t.filterMap Occurrence.event?

theorem eventsAppend (t u : Timeline W) : (t ++ u).events = t.events ++ u.events :=
  List.filterMap_append

theorem recordOfFlags {t : Timeline W} {records : Bool}
    (flags : ∀ {event recorded}, .reported event recorded ∈ t → recorded = records) :
    t.record = if records then t.events else [] := by
  cases records with
  | true =>
    refine List.filterMap_congr fun o mem => ?_
    cases o with
    | reported event recorded => rw [flags mem]; rfl
    | _ => rfl
  | false =>
    refine List.filterMap_eq_nil_iff.mpr fun o mem => ?_
    cases o with
    | reported event recorded => rw [flags mem]
    | _ => rfl

end Timeline

/- The trace slots of a later stage: the log has taken the events that were sent in between. -/
structure Traced (first : Stage W) (events : List Trace.Event) (later : Stage W) : Prop where
  log : later.log? = first.log?.map fun log => .ofEvents (log.events ++ events)
  sink : later.sink? = first.sink?

namespace Traced
variable {first middle later : Stage W} {events more : List Trace.Event}

theorem same (log : later.log? = first.log?) (sink : later.sink? = first.sink?) :
    Traced first [] later where
  log := by
    have kept : (fun log : Trace.Log => Trace.Log.ofEvents (log.events ++ [])) = id := by
      funext log
      exact Trace.Log.extEvents (by simp)
    rw [kept, Option.map_id, log, id]
  sink := sink

theorem refl (stage : Stage W) : Traced stage [] stage := .same rfl rfl

theorem trans (left : Traced first events middle) (right : Traced middle more later) :
    Traced first (events ++ more) later where
  log := by
    rw [right.log, left.log, Option.map_map]
    congr 1
    funext log
    simp
  sink := right.sink.trans left.sink

theorem records (traced : Traced first events later) : later.records = first.records := by
  have same := traced.sink
  unfold Stage.sink? at same
  unfold Stage.records Trace.isRecorded
  rw [same]

theorem send (s : Standing W) (event : Trace.Event) :
    Traced s.stage [event] (s.send event).stage where
  log := by
    have pushed : (fun log : Trace.Log => log.push event) =
        fun log => .ofEvents (log.events ++ [event]) := by
      funext log
      exact Trace.Log.extEvents (by simp)
    rw [← pushed]
    exact Trace.logEmit event s.stage.toolbox.slots
  sink := Trace.sinkEmit event s.stage.toolbox.slots

end Traced

structure Behavior.Discreet (b : Behavior W) : Prop where
  calls : ∀ {callback}, b.Has callback → ∀ stage, Traced stage [] (callback stage).2
  starts : ∀ {tick}, b.tick = some tick → ∀ view stage, Traced stage [] (tick.start view stage).stage
  resumes : ∀ {tick}, b.tick = some tick → ∀ memory reply stage,
    Traced stage [] (tick.resume memory reply stage).stage

theorem Behavior.Discreet.ofTick {tick : Tick W}
    (starts : ∀ view stage, Traced stage [] (tick.start view stage).stage)
    (resumes : ∀ memory reply stage, Traced stage [] (tick.resume memory reply stage).stage) :
    Behavior.Discreet { tick := some tick } where
  calls has stage := by rcases has with rfl | rfl | rfl | rfl <;> exact .refl stage
  starts same := by
    cases same
    exact starts
  resumes same := by
    cases same
    exact resumes

namespace Derivation

structure Recorded (s : Standing W) (t : Timeline W) (last : Standing W) : Prop where
  traced : Traced s.stage t.events last.stage
  flags : ∀ {event recorded}, .reported event recorded ∈ t → recorded = s.records
  shown : ∀ {before after : Timeline W} {o stage}, t = before ++ o :: after →
    o.stage? = some stage → Traced s.stage before.events stage

namespace Recorded
variable {s middle last : Standing W} {t u : Timeline W}

theorem rests (same : Traced s.stage [] last.stage) : Recorded s [] last :=
  ⟨same, by simp, by simp⟩

/- At most the first occurrence has a stage before it, the one that things stand at. -/
theorem piece {o : Occurrence W} {rest : Timeline W}
    (traced : Traced s.stage (Timeline.events (o :: rest)) last.stage)
    (flags : ∀ {event recorded}, .reported event recorded ∈ o :: rest → recorded = s.records)
    (here : ∀ stage, o.stage? = some stage → stage = s.stage)
    (later : ∀ o' ∈ rest, o'.stage? = none) : Recorded s (o :: rest) last where
  traced := traced
  flags := flags
  shown {before after o' stage} split staged := by
    cases before with
    | nil =>
      cases split
      rw [here stage staged]
      exact .refl s.stage
    | cons first before =>
      cases split
      have none := later o' (by simp)
      rw [none] at staged
      contradiction

theorem silent {o : Occurrence W} {rest : Timeline W} (quiet : ∀ o' ∈ o :: rest, o'.event? = none)
    (same : Traced s.stage [] last.stage) (here : ∀ stage, o.stage? = some stage → stage = s.stage)
    (later : ∀ o' ∈ rest, o'.stage? = none) : Recorded s (o :: rest) last := by
  have unsent : Timeline.events (o :: rest) = [] := List.filterMap_eq_nil_iff.mpr quiet
  refine .piece (unsent ▸ same) (fun mem => ?_) here later
  have none := quiet _ mem
  cases none

theorem still {o : Occurrence W} (quiet : o.event? = none)
    (here : ∀ stage, o.stage? = some stage → stage = s.stage) (kept : last.stage = s.stage) :
    Recorded s [o] last :=
  .silent (fun _ mem => List.mem_singleton.mp mem ▸ quiet) (kept ▸ .refl s.stage) here (by simp)

theorem append (left : Recorded s t middle) (right : Recorded middle u last) :
    Recorded s (t ++ u) last where
  traced := Timeline.eventsAppend t u ▸ left.traced.trans right.traced
  flags mem := by
    rcases List.mem_append.mp mem with mem | mem
    · exact left.flags mem
    · exact (right.flags mem).trans left.traced.records
  shown {before after o stage} split staged := by
    rcases Timeline.splitAppend split with ⟨rest, here, _⟩ | ⟨inner, rfl, here⟩
    · exact left.shown here staged
    · rw [Timeline.eventsAppend]
      exact left.traced.trans (right.shown here staged)

theorem received (recorded : Recorded s t last) :
    t.record = if s.records then t.events else [] :=
  Timeline.recordOfFlags recorded.flags

end Recorded

theorem Answered.recorded {scene : Scene W} {fault s t status last}
    (answered : Answered scene fault s t status last) : Recorded s t last := by
  cases answered with
  | @intro status world answer =>
    let between : Standing W := { s with stage := { s.stage with world } }
    have same : Traced s.stage [] between.stage := .same rfl rfl
    exact .piece (same.trans (.send between _)) (by simp) (by simp) (by simp)

theorem recordedCarries {scene : Scene W} {node : Node W}
    (discreet : node.content.behavior.Discreet) : Carries scene node Recorded where
  nil s := .rests (.refl s.stage)
  append := .append
  told s phase status _ := .piece (.send s _) (by simp) (by simp) (by simp)
  called own s result stage came := by
    have kept : Traced s.stage [] stage := by
      simpa only [came] using discreet.calls (Behavior.hasOfStep own) s.stage
    exact .silent (by simp) kept (by simp) (by simp)
  answered _ answered := answered.recorded
  flagged s _ := .still rfl (by simp) rfl
  ticks s := .still rfl (by simp) rfl
  starts some s := .rests (discreet.starts some node.view s.stage)
  resumes some memory reply s := .rests (discreet.resumes some memory reply s.stage)
  ticked s _ := .still rfl (by simp) rfl

theorem boundsRecorded (s : Standing W) {o : Occurrence W} (bounds : o.Bounds) :
    Recorded s [o] s := by
  cases o with
  | began | ended | refused | absent => exact .still rfl (by simp) rfl
  | _ => cases bounds

end Derivation
end BehaviorTree
