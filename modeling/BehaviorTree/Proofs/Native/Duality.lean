import BehaviorTree.Proofs.Native.Wrapping

/-! Natives that mirror each other. A composite or a repeater comes to what its opposite comes to
over inverted children, inverted again. What is below does not notice the difference: it is
evaluated as often, in the same order and to the same effect. -/
namespace BehaviorTree
open Relation

variable {W : Type}

theorem Status.invertSame {s t : Status} : s.invert = t.invert ↔ s = t :=
  (Function.Involutive.injective Status.invertTwice).eq_iff

namespace Native

inductive GoesOn : Native → Status → Prop where
  | untilFailure : GoesOn .repeatUntilFailure .success
  | untilSuccess : GoesOn .repeatUntilSuccess .failure

theorem GoesOn.policy {n : Native} {again : Status} (goesOn : n.GoesOn again) :
    n.policy = .repeating true (· == again) ∧ n.kind = .decorator := by
  cases goesOn <;> exact ⟨rfl, rfl⟩

inductive Opposed (node node' : Node W) : Native → Native → List NodeId → Prop where
  | composites {n n' passing children} (passes : n.Passes passing)
      (passes' : n'.Passes passing.invert) : Opposed node node' n n' children
  | repeaters {n n' again child cap} (goesOn : n.GoesOn again) (goesOn' : n'.GoesOn again.invert)
      (capped : Cap true (node.content.properties.get? maxLoopName) cap)
      (capped' : Cap true (node'.content.properties.get? maxLoopName) cap) :
      Opposed node node' n n' [child]

theorem maxLoopSame {properties properties' : Properties} {unbounded : Bool} {cap : Option Nat}
    (capped : Cap unbounded (properties.get? maxLoopName) cap)
    (capped' : Cap unbounded (properties'.get? maxLoopName) cap) :
    ∃ bound, maxLoop properties unbounded = .ok bound ∧
      maxLoop properties' unbounded = .ok bound := by
  obtain ⟨bound, valid, reads⟩ := Native.capped capped
  obtain ⟨bound', valid', reads'⟩ := Native.capped capped'
  have same : bound = bound' :=
    Option.map_injective (fun _ _ => UInt64.toNat_inj.mp) (reads.trans reads'.symm)
  exact ⟨bound, valid, same ▸ valid'⟩

end Native

/- A native over some children in one tree. In the other one its opposite stands over an inverter
for each of them, and under one more. -/
structure Tree.Mirrors (t t' : Tree W) (n n' : Native) (node node' : Node W) (p p' q : NodeId)
    (wrap : NodeId → NodeId) (children : List NodeId) : Prop where
  opposed : Native.Opposed node node' n n' children
  direct : t.Over p n children node
  top : ∃ node, t'.Over p' .inverter [q] node
  middle : t'.Over q n' (children.map wrap) node'
  bottom : ∀ child ∈ children, ∃ node, t'.Over (wrap child) .inverter [child] node

def wrappers (p p' q : NodeId) (wrap : NodeId → NodeId) (children : List NodeId) : List NodeId :=
  p :: p' :: q :: children.map wrap

namespace Tree.Mirrors
variable {t t' : Tree W} {n n' : Native} {node node' : Node W} {p p' q child : NodeId}
  {wrap : NodeId → NodeId} {children : List NodeId}
  (mirrors : t.Mirrors t' n n' node node' p p' q wrap children)
include mirrors

theorem never (forest : t.Forest) (forest' : t'.Forest) (mem : child ∈ children) :
    ∀ other ∈ wrappers p p' q wrap children, t.Reaches child other → ¬ t'.Reaches child other := by
  obtain ⟨_, top⟩ := mirrors.top
  obtain ⟨_, bottom⟩ := mirrors.bottom child mem
  have first : t'.Asks p' q := top.asks List.mem_cons_self
  have second {child} (mem : child ∈ children) : t'.Asks q (wrap child) :=
    mirrors.middle.asks (List.mem_map_of_mem mem)
  have third : t'.Asks (wrap child) child := bottom.asks List.mem_cons_self
  have below : TransGen t'.Asks q child := .tail (.single (second mem)) third
  intro other stands reaches reaches'
  simp only [wrappers, List.mem_cons, List.mem_map] at stands
  rcases stands with rfl | rfl | rfl | ⟨another, among, rfl⟩
  · exact forest.noReturn (mirrors.direct.asks mem) reaches
  · exact forest'.noReturnFar (below.head first) reaches'
  · exact forest'.noReturnFar below reaches'
  · rcases forest'.reachesOver (second among) reaches' with same | up
    · -- A child that is a wrapper as well would have two parents.
      have twice : q = wrap child := forest'.asksOnce (same ▸ second among) third
      exact forest'.noReturn (twice ▸ second mem) .refl
    · exact forest'.noReturnFar below up

end Tree.Mirrors

section Evaluation
variable {scene scene' : Scene W} {n n' : Native} {node node' : Node W} {p p' q : NodeId}
  {wrap : NodeId → NodeId} {children : List NodeId} {room room' : Nat}
  (forest : scene.tree.Forest) (forest' : scene'.tree.Forest)
  (mirrors : scene.tree.Mirrors scene'.tree n n' node node' p p' q wrap children)
include forest forest' mirrors

theorem wrappedParallel (twin : scene.Twin scene') (patient : 0 < scene'.patience) {child : NodeId}
    (mem : child ∈ children)
    (shares : ∀ {id}, scene.tree.Reaches child id → scene.tree.Shares scene'.tree id)
    (fits : scene.tree.Fits room child) (fits' : scene'.tree.Fits room' (wrap child)) :
    Together (Parallel (wrappers p p' q wrap children))
      (fun status status' => status' = status.invert) (evaluate scene room child)
      (evaluate scene' room' (wrap child)) := by
  obtain ⟨_, bottom⟩ := mirrors.bottom child mem
  obtain ⟨below, rfl, inside⟩ := bottom.fits fits'
  have kept : Together (Parallel (wrappers p p' q wrap children)) Eq (evaluate scene room child)
      (evaluate scene' below child) :=
    sharedParallel twin forest (fun reaches _ => shares reaches) (mirrors.never forest forest' mem)
      fits (inside child List.mem_cons_self)
  have stands : wrap child ∈ wrappers p p' q wrap children := by
    simp only [wrappers, List.mem_cons, List.mem_map]
    exact .inr (.inr (.inr ⟨child, mem, rfl⟩))
  refine (inverterParallel forest' stands bottom patient kept).imp ?_
  rintro _ status rfl
  exact status.invertTwice.symm

theorem opposedParallel (twin : scene.Twin scene') (patient : children.length ≤ scene.patience)
    (inverted : ∀ child ∈ children, Together (Parallel (wrappers p p' q wrap children))
      (fun status status' => status' = status.invert) (evaluate scene room child)
      (evaluate scene' room' (wrap child))) :
    Together (Parallel (wrappers p p' q wrap children))
      (fun status status' => status' = status.invert) (evaluate scene (room + 1) p)
      (evaluate scene' (room' + 1) q) := by
  have patience : scene'.patience = scene.patience := twin.patience
  have first : p ∈ wrappers p p' q wrap children := by simp [wrappers]
  have third : q ∈ wrappers p p' q wrap children := by simp [wrappers]
  cases mirrors.opposed with
  | @composites passing _ passes passes' =>
    have marches := Native.marchBeside (fun s => Status.invertSame (s := s) (t := passing))
      (List.forall₂_map_right_iff.mpr (List.forall₂_same.mpr inverted))
    have patient' : (children.map wrap).length ≤ scene'.patience := by
      rw [List.length_map, patience]
      exact patient
    have beside := compositeParallel forest' third passes' mirrors.middle patient' marches
    exact (compositeParallel forest first passes mirrors.direct patient beside.flip).flip
  | @repeaters again child _ goesOn goesOn' capped capped' =>
    obtain ⟨bound, valid, valid'⟩ := Native.maxLoopSame capped capped'
    have alike (status : Status) : (status.invert == again.invert) = (status == again) := by
      simp only [beq_eq_beq, Status.invertSame]
    have rounds := Native.roundsBeside (· == again) (· == again.invert) alike
      (inverted child List.mem_cons_self) bound scene.patience 1
    have beside := repeaterParallel forest' third mirrors.middle goesOn'.policy.1 goesOn'.policy.2
      valid' (by rwa [patience])
    exact (repeaterParallel forest first mirrors.direct goesOn.policy.1 goesOn.policy.2 valid
      beside.flip).flip

theorem mirrorParallel (twin : scene.Twin scene') (patient : children.length < scene.patience)
    (shares : ∀ child ∈ children, ∀ {id}, scene.tree.Reaches child id →
      scene.tree.Shares scene'.tree id)
    (fits : scene.tree.Fits room p) (fits' : scene'.tree.Fits room' p') :
    Together (Parallel (wrappers p p' q wrap children)) Eq (evaluate scene room p)
      (evaluate scene' room' p') := by
  obtain ⟨_, top⟩ := mirrors.top
  obtain ⟨below, rfl, each⟩ := mirrors.direct.fits fits
  obtain ⟨below', rfl, each'⟩ := top.fits fits'
  obtain ⟨under, rfl, wrapped⟩ := mirrors.middle.fits (each' q List.mem_cons_self)
  have patience : scene'.patience = scene.patience := twin.patience
  have patient' : 0 < scene'.patience := by omega
  have middle := opposedParallel forest forest' mirrors twin patient.le fun child mem =>
    wrappedParallel forest forest' mirrors twin patient' mem (shares child mem) (each child mem)
      (wrapped _ (List.mem_map_of_mem mem))
  have stands : p' ∈ wrappers p p' q wrap children := by simp [wrappers]
  refine (inverterParallel forest' stands top patient' middle).imp ?_
  intro status status' same
  simpa using congrArg Status.invert same.symm

end Evaluation

theorem oppositesAgree {t t' : Tree W} (built : t.Built) (built' : t'.Built) {n n' : Native}
    {node node' : Node W} {p p' q : NodeId} {wrap : NodeId → NodeId} {children : List NodeId}
    (mirrors : t.Mirrors t' n n' node node' p p' q wrap children) :
    (∀ child ∈ children, (∀ {id}, t.Reaches child id → t.Shares t' id) →
      ∀ {id}, t.Reaches child id → id ∉ wrappers p p' q wrap children) ∧
    (∀ {plan plan' : Plan W} {subject patience room room'}, plan'.handler = plan.handler →
      children.length < patience →
      (∀ child ∈ children, ∀ {id}, t.Reaches child id → t.Shares t' id) →
      t.Fits room p → t'.Fits room' p' →
      Together (Parallel (wrappers p p' q wrap children)) Eq
        (evaluate { plan, tree := t, subject, patience } room p)
        (evaluate { plan := plan', tree := t', subject, patience } room' p')) ∧
    ∀ {plan : Plan W} {subject patience world} {openNodes openNodes' : OpenNodes},
      children.length < patience →
      (∀ child ∈ children, ∀ {id}, t.Reaches child id → t.Shares t' id) →
      t.root = some p → t'.root = some p' → t'.id = t.id → plan.Covers t → plan.Covers t' →
      (plan.equip subject t.id openNodes world : Moment W (Timeline W)).stage.Holds {} →
      (∀ id ∉ wrappers p p' q wrap children, openNodes'.contains id = openNodes.contains id) →
      Option.Rel (Link.Meets (Parallel (wrappers p p' q wrap children)))
        (plan.runTree patience t subject openNodes world)
        (plan.runTree patience t' subject openNodes' world) := by
  have agree {plan plan' : Plan W} {subject patience room room'}
      (handler : plan'.handler = plan.handler) (patient : children.length < patience)
      (shares : ∀ child ∈ children, ∀ {id}, t.Reaches child id → t.Shares t' id)
      (fits : t.Fits room p) (fits' : t'.Fits room' p') :
      Together (Parallel (wrappers p p' q wrap children)) Eq
        (evaluate { plan, tree := t, subject, patience } room p)
        (evaluate { plan := plan', tree := t', subject, patience } room' p') := by
    let scene : Scene W := { plan, tree := t, subject, patience }
    let scene' : Scene W := { plan := plan', tree := t', subject, patience }
    have twin : scene.Twin scene' := ⟨handler, rfl, rfl⟩
    exact mirrorParallel built.forest built'.forest mirrors twin patient shares fits fits'
  have below : ∀ child ∈ children, (∀ {id}, t.Reaches child id → t.Shares t' id) →
      ∀ {id}, t.Reaches child id → id ∉ wrappers p p' q wrap children :=
    fun child mem shares _ reaches => (Tree.Shares.reaches (fun reaches _ => shares reaches)
      (mirrors.never built.forest built'.forest mem) reaches).1
  refine ⟨below, agree, fun patient shares rooted rooted' named covers covers' bare flags => ?_⟩
  exact Plan.runParallel rooted rooted' named bare flags (agree rfl patient shares
    (covers.fits built.forest rooted) (covers'.fits built'.forest rooted'))

def Tree.lingeringEdits : List (Edit Nat) :=
  [.addNode (.detached "Sequence" .composite Native.sequence.behavior .empty),
    .addNode (.detached "Leaf" .leaf .improving .empty),
    .addNode (.detached "Leaf" .leaf Native.runner.behavior .empty),
    .setRoot ⟨0⟩, .addChild ⟨0⟩ ⟨1⟩, .addChild ⟨0⟩ ⟨2⟩]

def Tree.lingeringMirroredEdits : List (Edit Nat) :=
  [.addNode (.detached "Inverter" .decorator Native.inverter.behavior .empty),
    .addNode (.detached "Leaf" .leaf .improving .empty),
    .addNode (.detached "Leaf" .leaf Native.runner.behavior .empty),
    .addNode (.detached "Priority" .composite Native.priority.behavior .empty),
    .addNode (.detached "Inverter" .decorator Native.inverter.behavior .empty),
    .addNode (.detached "Inverter" .decorator Native.inverter.behavior .empty),
    .setRoot ⟨0⟩, .addChild ⟨0⟩ ⟨3⟩, .addChild ⟨3⟩ ⟨4⟩, .addChild ⟨3⟩ ⟨5⟩, .addChild ⟨4⟩ ⟨1⟩,
    .addChild ⟨5⟩ ⟨2⟩]

def Tree.retryingMirroredEdits : List (Edit Nat) :=
  [.addNode (.detached "Inverter" .decorator Native.inverter.behavior .empty),
    .addNode (.detached "Leaf" .leaf .improving .empty),
    .addNode (.detached "Repeat" .decorator Native.repeatUntilFailure.behavior
      (.ofList [(Native.maxLoopName, .whole (3 : Nat))])),
    .addNode (.detached "Inverter" .decorator Native.inverter.behavior .empty),
    .setRoot ⟨0⟩, .addChild ⟨0⟩ ⟨2⟩, .addChild ⟨2⟩ ⟨3⟩, .addChild ⟨3⟩ ⟨1⟩]

theorem lingeringMirrors : ∃ node node',
    (Tree.attempts { id := ⟨"lingering"⟩ } Tree.lingeringEdits).Mirrors
      (Tree.attempts { id := ⟨"lingering"⟩ } Tree.lingeringMirroredEdits) .sequence .priority
      node node' ⟨0⟩ ⟨0⟩ ⟨3⟩ (fun id => ⟨id.number + 3⟩) [⟨1⟩, ⟨2⟩] :=
  ⟨_, _, {
    opposed := .composites .sequence .priority
    direct := ⟨rfl, rfl, rfl, rfl⟩
    top := ⟨_, rfl, rfl, rfl, rfl⟩
    middle := ⟨rfl, rfl, rfl, rfl⟩
    bottom := by
      simp only [List.forall_mem_cons]
      exact ⟨⟨_, rfl, rfl, rfl, rfl⟩, ⟨_, rfl, rfl, rfl, rfl⟩, List.forall_mem_nil _⟩
  }⟩

theorem retryingMirrors : ∃ node node',
    (Tree.attempts { id := ⟨"retrying"⟩ } Tree.retryingEdits).Mirrors
      (Tree.attempts { id := ⟨"retrying"⟩ } Tree.retryingMirroredEdits)
      .repeatUntilSuccess .repeatUntilFailure node node' ⟨0⟩ ⟨0⟩ ⟨2⟩ (fun _ => ⟨3⟩) [⟨1⟩] := by
  let properties : Properties := .ofList [(Native.maxLoopName, .whole (3 : Nat))]
  obtain ⟨node, direct, same⟩ : ∃ node,
      (Tree.attempts { id := ⟨"retrying"⟩ } Tree.retryingEdits).Over ⟨0⟩ .repeatUntilSuccess [⟨1⟩]
        node ∧ node.content.properties = properties := ⟨_, ⟨rfl, rfl, rfl, rfl⟩, rfl⟩
  obtain ⟨node', middle, same'⟩ : ∃ node,
      (Tree.attempts { id := ⟨"retrying"⟩ } Tree.retryingMirroredEdits).Over ⟨2⟩
        .repeatUntilFailure [⟨3⟩] node ∧ node.content.properties = properties :=
    ⟨_, ⟨rfl, rfl, rfl, rfl⟩, rfl⟩
  have three : Cap true (properties.get? Native.maxLoopName) (some 3) := by
    rw [show properties.get? Native.maxLoopName = some (.whole (3 : Nat)) from
      (SortedMap.getInsert _ _ _ _).trans (if_pos rfl)]
    exact .whole (by decide) (by decide)
  exact ⟨node, node', {
    opposed := .repeaters .untilSuccess .untilFailure (same.symm ▸ three) (same'.symm ▸ three)
    direct
    top := ⟨_, rfl, rfl, rfl, rfl⟩
    middle
    bottom := List.forall_mem_singleton.mpr ⟨_, rfl, rfl, rfl, rfl⟩
  }⟩

/- A sequence of two leaves and three attempts at most, each with its mirror image. -/
theorem oppositesAgreeLingering :
    let lingering := Tree.attempts { id := ⟨"lingering"⟩ } Tree.lingeringEdits
    let lingering' := Tree.attempts { id := ⟨"lingering"⟩ } Tree.lingeringMirroredEdits
    let retrying := Tree.attempts { id := ⟨"retrying"⟩ } Tree.retryingEdits
    let retrying' := Tree.attempts { id := ⟨"retrying"⟩ } Tree.retryingMirroredEdits
    let plan : Plan Nat := {}
    let wrap (id : NodeId) : NodeId := ⟨id.number + 3⟩
    (∃ a b, plan.runTree 3 lingering ⟨1⟩ .empty 1 = some a ∧
      plan.runTree 3 lingering' ⟨1⟩ .empty 1 = some b ∧ a.1.status = .running ∧
      Link.Meets (Parallel (wrappers ⟨0⟩ ⟨0⟩ ⟨3⟩ wrap [⟨1⟩, ⟨2⟩])) a b) ∧
    ∃ a b, plan.runTree 2 retrying ⟨1⟩ .empty 0 = some a ∧
      plan.runTree 2 retrying' ⟨1⟩ .empty 0 = some b ∧ a.1.status = .success ∧
      Link.Meets (Parallel (wrappers ⟨0⟩ ⟨0⟩ ⟨2⟩ (fun _ => ⟨3⟩) [⟨1⟩])) a b := by
  intro lingering lingering' retrying retrying' plan wrap
  constructor
  · have built : lingering.Built := (Tree.Built.empty _ _).attempts Tree.lingeringEdits
    have built' : lingering'.Built := (Tree.Built.empty _ _).attempts Tree.lingeringMirroredEdits
    obtain ⟨_, _, mirrors⟩ := lingeringMirrors
    have shares : ∀ child ∈ [⟨1⟩, ⟨2⟩], ∀ {id}, lingering.Reaches child id →
        lingering.Shares lingering' id := by
      simp only [List.forall_mem_cons]
      exact ⟨.leaf .improving rfl rfl, .leaf (.native .runner) rfl rfl, List.forall_mem_nil _⟩
    have beside : Option.Rel (Link.Meets (Parallel (wrappers ⟨0⟩ ⟨0⟩ ⟨3⟩ wrap [⟨1⟩, ⟨2⟩])))
        (plan.runTree 3 lingering ⟨1⟩ .empty 1) (plan.runTree 3 lingering' ⟨1⟩ .empty 1) :=
      (oppositesAgree built built' mirrors).2.2 (by decide) shares rfl rfl rfl
        (Plan.Covers.ofSize built.forest (by decide)) (Plan.Covers.ofSize built'.forest (by decide))
        ⟨rfl, rfl⟩ fun _ _ => rfl
    have came : (plan.runTree 3 lingering ⟨1⟩ .empty 1 :
        Option (Report Nat (Timeline Nat) × OpenNodes)).any
          (fun (report, _) => report.status = .running) = true := by
      decide +kernel
    obtain ⟨a, b, ran, ran', running, meets⟩ := relAny beside came
    exact ⟨a, b, ran, ran', of_decide_eq_true running, meets⟩
  · have built : retrying.Built := (Tree.Built.empty _ _).attempts Tree.retryingEdits
    have built' : retrying'.Built := (Tree.Built.empty _ _).attempts Tree.retryingMirroredEdits
    obtain ⟨_, _, mirrors⟩ := retryingMirrors
    have shares : ∀ child ∈ [⟨1⟩], ∀ {id}, retrying.Reaches child id →
        retrying.Shares retrying' id :=
      List.forall_mem_singleton.mpr (.leaf .improving rfl rfl)
    have beside : Option.Rel (Link.Meets (Parallel (wrappers ⟨0⟩ ⟨0⟩ ⟨2⟩ (fun _ => ⟨3⟩) [⟨1⟩])))
        (plan.runTree 2 retrying ⟨1⟩ .empty 0) (plan.runTree 2 retrying' ⟨1⟩ .empty 0) :=
      (oppositesAgree built built' mirrors).2.2 (by decide) shares rfl rfl rfl
        (Plan.Covers.ofSize built.forest (by decide)) (Plan.Covers.ofSize built'.forest (by decide))
        ⟨rfl, rfl⟩ fun _ _ => rfl
    have came : (plan.runTree 2 retrying ⟨1⟩ .empty 0 :
        Option (Report Nat (Timeline Nat) × OpenNodes)).any
          (fun (report, _) => report.status = .success) = true := by
      decide +kernel
    obtain ⟨a, b, ran, ran', success, meets⟩ := relAny beside came
    exact ⟨a, b, ran, ran', of_decide_eq_true success, meets⟩

end BehaviorTree
