import BehaviorTree.Proofs.Evaluation.Frame

/-! What holds piece by piece. An activation shows short pieces of its own: an event, a call
with its return, an answered fault, a flag; inside its tick stand the evaluations of
children. A relation between two standings and what was seen from one to the other, that
can be joined and holds of every piece, holds of the whole. -/
namespace BehaviorTree

variable {W : Type}

namespace Behavior

def Has (b : Behavior W) (callback : Callback W) : Prop :=
  callback = b.onEnter ∨ callback = b.onOpen ∨ callback = b.onClose ∨ callback = b.onExit

def callback? (b : Behavior W) : Step → Option (Callback W)
  | .enter => some b.onEnter
  | .opening => some b.onOpen
  | .tick => none
  | .close => some b.onClose
  | .exit => some b.onExit

theorem hasOfStep {b : Behavior W} {step callback} (own : b.callback? step = some callback) :
    b.Has callback := by
  cases step <;> cases own <;> simp [Has]

end Behavior

def Move.stage {Memory : Type} : Move W Memory → Stage W
  | answer _ stage => stage
  | ask _ stage _ => stage

def Occurrence.Bounds : Occurrence W → Prop
  | .began _ | .ended _ _ | .refused _ | .absent _ => True
  | _ => False

def Occurrence.Inside (id : NodeId) (o : Occurrence W) : Prop := o.node? = some id ∧ ¬ o.Bounds

namespace Timeline
variable {σ : Type}

/- What holds of every occurrence, at the state the earlier ones have led to. -/
def Along (next : σ → Occurrence W → σ) (P : σ → Occurrence W → Prop) : σ → Timeline W → Prop
  | _, [] => True
  | state, o :: rest => P state o ∧ Along next P (next state o) rest

variable {next : σ → Occurrence W → σ} {P : σ → Occurrence W → Prop} {state : σ}
  {t u : Timeline W}

theorem alongAppend : Along next P state (t ++ u) ↔
    Along next P state t ∧ Along next P (t.foldl next state) u := by
  induction t generalizing state with
  | nil => simp [Along]
  | cons o rest ih => simp [Along, ih, and_assoc]

theorem Along.holds (along : Along next P state t) {before o after}
    (split : t = before ++ o :: after) : P (before.foldl next state) o := by
  rw [split, alongAppend] at along
  exact along.2.1

theorem splitAppend {before after : Timeline W} {o} (split : t ++ u = before ++ o :: after) :
    (∃ rest, t = before ++ o :: rest ∧ after = rest ++ u) ∨
      ∃ inner, before = t ++ inner ∧ u = inner ++ o :: after := by
  rcases List.append_eq_append_iff.mp split with ⟨inner, prior, here⟩ | ⟨rest, here, later⟩
  · exact .inr ⟨inner, prior, here⟩
  · cases rest with
    | nil => exact .inr ⟨[], by simpa using here.symm, by simpa using later.symm⟩
    | cons first rest =>
      obtain ⟨rfl, rfl⟩ := List.cons.inj later
      exact .inl ⟨rest, here, rfl⟩

theorem splitSingle {before after : Timeline W} {o o'} (split : [o'] = before ++ o :: after) :
    before = [] ∧ o = o' ∧ after = [] := by
  cases before with
  | nil =>
    obtain ⟨rfl, rfl⟩ := List.cons.inj split
    exact ⟨rfl, rfl, rfl⟩
  | cons first rest => simp at split

theorem splitEquipped {before after : Timeline W} {stage o}
    (split : .equipped stage :: t = before ++ o :: after) (concerns : o.node? ≠ none) :
    ∃ inner, before = .equipped stage :: inner ∧ t = inner ++ o :: after := by
  cases before with
  | nil =>
    cases split
    exact absurd rfl concerns
  | cons first inner =>
    obtain ⟨rfl, rest⟩ := List.cons.inj split
    exact ⟨inner, rfl, rest⟩

end Timeline

namespace Derivation

abbrev Passage (W : Type) := Standing W → Timeline W → Standing W → Prop

structure Pieces (scene : Scene W) (node : Node W) (R : Passage W) : Prop where
  nil : ∀ s, R s [] s
  append : ∀ {a t b u c}, R a t b → R b u c → R a (t ++ u) c
  told : ∀ s {phase} status, phase ≠ .fault →
    R s [.reported (scene.event node.id phase status) s.records]
      (s.send (scene.event node.id phase status))
  called : ∀ {step callback}, node.content.behavior.callback? step = some callback →
    ∀ {s result stage}, callback s.stage = (result, stage) →
      R s [.called node.id step s.stage, .returned node.id step (.ofResult result)]
        { s with stage }
  answered : ∀ {fault s t status last}, fault.node = node.id →
    Answered scene fault s t status last → R s t last
  flagged : ∀ s isOpen, R s [.flagged node.id isOpen] (s.flag node.id isOpen)

structure Carries (scene : Scene W) (node : Node W) (R : Passage W) : Prop
    extends Pieces scene node R where
  ticks : ∀ s, R s [.called node.id .tick s.stage] s
  starts : ∀ {tick}, node.content.behavior.tick = some tick → ∀ s,
    R s [] { s with stage := (tick.start node.view s.stage).stage }
  resumes : ∀ {tick}, node.content.behavior.tick = some tick → ∀ memory reply s,
    R s [] { s with stage := (tick.resume memory reply s.stage).stage }
  ticked : ∀ s result, R s [.returned node.id .tick result] s

variable {scene : Scene W} {evaluated : Judgement W} {node : Node W} {R : Passage W}
  {s last : Standing W} {t : Timeline W}

theorem insideAppend {id} {t u : Timeline W} (left : ∀ o ∈ t, o.Inside id)
    (right : ∀ o ∈ u, o.Inside id) : ∀ o ∈ t ++ u, o.Inside id := fun o mem =>
  (List.mem_append.mp mem).elim (left o) (right o)

theorem insideCarries (scene : Scene W) (node : Node W) :
    Carries scene node fun _ t _ => ∀ o ∈ t, o.Inside node.id where
  nil _ := by simp
  append := insideAppend
  told _ _ _ _ := by simp [Occurrence.Inside, Occurrence.node?, Occurrence.Bounds, Scene.event]
  called _ _ _ _ _ := by simp [Occurrence.Inside, Occurrence.node?, Occurrence.Bounds]
  answered same answered := by
    cases answered
    simp [Occurrence.Inside, Occurrence.node?, Occurrence.Bounds, Fault.event, same]
  flagged _ _ := by simp [Occurrence.Inside, Occurrence.node?, Occurrence.Bounds]
  ticks _ := by simp [Occurrence.Inside, Occurrence.node?, Occurrence.Bounds]
  starts _ _ := by simp
  resumes _ _ _ _ := by simp
  ticked _ _ := by simp [Occurrence.Inside, Occurrence.node?, Occurrence.Bounds]

section Pieces
variable (pieces : Pieces scene node R)
include pieces

theorem Called.carried {step status callback result}
    (own : node.content.behavior.callback? step = some callback)
    (called : Called scene node.id step status callback s t result last) : R s t last := by
  cases called with
  | intro came =>
    have told := pieces.told s status (show step.phase ≠ .fault by cases step <;> decide)
    exact pieces.append told (pieces.called own came)

theorem Opened.carried {result} (opened : Opened scene node s t result last) : R s t last := by
  cases opened with
  | already => exact pieces.nil s
  | called _ called => exact called.carried pieces rfl

theorem Judged.carried {outcome} (judged : Judged scene node.id s outcome t last) : R s t last := by
  cases judged with
  | status status => exact pieces.told s _ (by decide)
  | unrecognized =>
    have invalid := pieces.told s (some .error) (show Trace.Phase.invalid ≠ .fault by decide)
    exact pieces.append invalid (pieces.told _ _ (by decide))

theorem Settled.carried {outcome result} (settled : Settled scene node outcome s t result last) :
    R s t last := by
  have join := @pieces.append
  cases settled with
  | stays judged => exact join (judged.carried pieces) (pieces.flagged _ _)
  | closes judged _ called =>
    exact join (join (judged.carried pieces) (called.carried pieces rfl)) (pieces.flagged _ _)
  | closeFails judged _ called =>
    exact join (join (judged.carried pieces) (called.carried pieces rfl)) (pieces.flagged _ _)

theorem Resolved.carried {soFar status} (resolved : Resolved scene s soFar t status last)
    (own : ∀ fault, soFar = .error fault → fault.node = node.id) : R s t last := by
  cases resolved with
  | fine => exact pieces.nil _
  | faulty answered => exact pieces.answered (own _ rfl) answered

variable (ticks : ∀ {s t result last}, Ticked evaluated node s t result last → R s t last)
include ticks

theorem Stepped.carried {result} (stepped : Stepped scene evaluated node s t result last) :
    R s t last := by
  have join := @pieces.append
  cases stepped with
  | enterFails entered => exact entered.carried pieces rfl
  | openFails entered opened => exact join (entered.carried pieces rfl) (opened.carried pieces)
  | tickFails entered opened ticked =>
    exact join (join (entered.carried pieces rfl) (opened.carried pieces)) (ticks ticked)
  | settles entered opened ticked settled =>
    exact join (join (join (entered.carried pieces rfl) (opened.carried pieces)) (ticks ticked))
      (settled.carried pieces)

theorem Activated.inside {final} (activated : Activated scene evaluated node s t final last) :
    ∃ inside, t = [.began node.id] ++ inside ++ [.ended node.id final] ∧ R s inside last := by
  have join := @pieces.append
  have resolves {s t soFar middle u status resolved}
      (stepped : Stepped scene evaluated node s t soFar middle)
      (settled : Resolved scene middle soFar u status resolved) : R middle u resolved :=
    settled.carried pieces fun fault same => Stepped.faultNode (same ▸ stepped)
  cases activated with
  | leaves stepped settled exited =>
    refine ⟨_, rfl, ?_⟩
    exact join (join (stepped.carried pieces ticks) (resolves stepped settled))
      (exited.carried pieces rfl)
  | exitFails stepped settled exited answered =>
    refine ⟨_, rfl, ?_⟩
    exact join (join (join (stepped.carried pieces ticks) (resolves stepped settled))
      (exited.carried pieces rfl)) (pieces.answered rfl answered)

end Pieces

section Ticks
variable (carries : Carries scene node R)
  (child : ∀ {request id s t status last}, node.locate request = .ok id →
    evaluated id s t status last → R s t last)
include carries child

theorem Conversed.carried {tick : Tick W} {move : Move W tick.Memory} {openNodes result}
    (some : node.content.behavior.tick = some tick)
    (conversed : Conversed evaluated node tick move openNodes t result last) :
    R ⟨move.stage, openNodes⟩ t last := by
  induction conversed with
  | answer => exact carries.nil _
  | @misses request stage memory openNodes _ t _ _ _ _ ih =>
    exact carries.append (carries.resumes some memory _ ⟨stage, openNodes⟩) ih
  | @child request stage memory openNodes _ first _ middle _ _ _ located asked _ ih =>
    have resumed := carries.append (carries.resumes some memory _ middle) ih
    exact carries.append (child located asked) resumed

theorem Ticked.carried {result} (ticked : Ticked evaluated node s t result last) : R s t last := by
  cases ticked with
  | missing => exact carries.append (carries.ticks s) (carries.ticked s _)
  | @played tick talk _ _ some conversed =>
    have started := carries.append (carries.ticks s) (carries.starts some s)
    have talked := carries.append started (conversed.carried carries child some)
    exact carries.append talked (carries.ticked last _)

theorem Activated.carried {final} (activated : Activated scene evaluated node s t final last) :
    ∃ inside, t = [.began node.id] ++ inside ++ [.ended node.id final] ∧ R s inside last :=
  activated.inside carries.toPieces fun ticked => ticked.carried carries child

end Ticks

theorem evaluatesCarried (carries : ∀ {id node}, scene.tree.node? id = some node →
      Carries scene node R) (bounds : ∀ s {o : Occurrence W}, o.Bounds → R s [o] s)
    {room id status} (evaluates : Evaluates scene room id s t status last) : R s t last := by
  induction room generalizing id s t status last with
  | zero =>
    cases evaluates with
    | absent => exact bounds s trivial
    | refused => exact bounds s trivial
    | activated _ room => cases room
  | succ room ih =>
    cases evaluates with
    | absent => exact bounds s trivial
    | refused => exact bounds s trivial
    | activated found room activated =>
      cases room
      have join := @(carries found).append
      obtain ⟨inside, rfl, carried⟩ := activated.carried (carries found) fun _ asked => ih asked
      exact join (join (bounds s trivial) carried) (bounds last trivial)

end Derivation
end BehaviorTree
