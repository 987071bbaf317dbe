import BehaviorTree.Proofs.Native.Wrapping

/-! Composites inside composites. Any children of a composite that stand next to each other may be
put under a composite of the same kind in their place, and none of the nodes that were there before
notices it. Without children such a composite is as good as none. -/
namespace BehaviorTree
open Relation

variable {W : Type}

/- A composite, and the same with some of its children under another one of its kind. -/
structure Tree.Nests (t t' : Tree W) (n : Native) (p q : NodeId)
    (before block after : List NodeId) : Prop where
  flat : ∃ node, t.Over p n (before ++ block ++ after) node
  outer : ∃ node, t'.Over p n (before ++ q :: after) node
  inner : ∃ node, t'.Over q n block node

namespace Tree.Nests
variable {t t' : Tree W} {n : Native} {p q child : NodeId} {before block after : List NodeId}
  (nests : t.Nests t' n p q before block after)
include nests

theorem asksInner : t'.Asks p q := by
  obtain ⟨_, outer⟩ := nests.outer
  exact outer.asks (by simp)

theorem different (forest' : t'.Forest) : p ≠ q := by
  rintro rfl
  exact forest'.noReturn nests.asksInner .refl

theorem never (forest' : t'.Forest) (mem : child ∈ before ++ block ++ after) :
    ¬ t'.Reaches child q := by
  obtain ⟨node, outer⟩ := nests.outer
  obtain ⟨_, inner⟩ := nests.inner
  intro reaches
  by_cases within : child ∈ block
  · exact forest'.noReturn (inner.asks within) reaches
  · have beside : child ∈ before ++ after := by
      simp only [List.mem_append] at mem ⊢
      tauto
    have asks : t'.Asks p child := outer.asks (by
      simp only [List.mem_append, List.mem_cons] at beside ⊢
      tauto)
    rcases forest'.reachesOver nests.asksInner reaches with rfl | up
    · have distinct := node.servedSublist.nodup (forest'.distinct outer.found)
      rw [outer.served] at distinct
      exact (List.nodup_middle.mp distinct).notMem beside
    · exact forest'.noReturn asks up

end Tree.Nests

section Evaluation
variable {scene scene' : Scene W} {n : Native} {passing : Status} {p q : NodeId}
  {before block after : List NodeId}

theorem marchGrouped {L : Link W} {descend descend' : NodeId → Walk W (Timeline W) Status}
    (same : ∀ child ∈ before ++ after, Together L Eq (descend child) (descend' child))
    (grouped : Together L Eq (Native.march descend passing block) (descend' q)) :
    Together L Eq (Native.march descend passing (before ++ block ++ after))
      (Native.march descend' passing (before ++ q :: after)) := by
  simp only [List.append_assoc, Native.marchAppend, Native.march]
  refine (Native.marchSame passing fun child mem =>
    same child (List.mem_append_left _ mem)).bindEq fun status => ?_
  split
  · refine grouped.bindEq fun status => ?_
    split
    · exact Native.marchSame passing fun child mem => same child (List.mem_append_right _ mem)
    · exact .pure rfl
  · exact .pure rfl

theorem nestParallel (passes : n.Passes passing) (twin : scene.Twin scene')
    (forest : scene.tree.Forest) (forest' : scene'.tree.Forest)
    (nests : scene.tree.Nests scene'.tree n p q before block after)
    (patient : (before ++ block ++ after).length < scene.patience)
    (shares : ∀ child ∈ before ++ block ++ after, ∀ {id}, scene.tree.Reaches child id → id ≠ q →
      scene.tree.Shares scene'.tree id)
    {room room' : Nat} (fits : scene.tree.Fits room p) (fits' : scene'.tree.Fits room' p) :
    Together (Parallel [q]) Eq (evaluate scene room p) (evaluate scene' room' p) := by
  obtain ⟨_, flat⟩ := nests.flat
  obtain ⟨_, outer⟩ := nests.outer
  obtain ⟨_, inner⟩ := nests.inner
  obtain ⟨below, rfl, each⟩ := flat.fits fits
  obtain ⟨below', rfl, each'⟩ := outer.fits fits'
  obtain ⟨under, rfl, inside⟩ := inner.fits (each' q (by simp))
  have patience : scene'.patience = scene.patience := twin.patience
  have kept {child} (mem : child ∈ before ++ block ++ after) {room'}
      (fits' : scene'.tree.Fits room' child) : Together (Parallel [q]) Eq
        (evaluate scene below child) (evaluate scene' room' child) := by
    refine sharedParallel twin forest (fun reaches apart => shares child mem reaches ?_)
      (fun other stands _ => ?_) (each child mem) fits'
    · simpa using apart
    · exact List.mem_singleton.mp stands ▸ nests.never forest' mem
  have grouped : Together (Parallel [q]) Eq (Native.march (evaluate scene below) passing block)
      (evaluate scene' (under + 1) q) := by
    refine compositeParallel forest' (by simp) passes inner ?_
      (Native.marchSame passing fun child mem => kept (by simp [mem]) (inside child mem))
    simp only [List.length_append] at patient
    omega
  have marches : Together (Parallel [q]) Eq
      (Native.march (evaluate scene below) passing (before ++ block ++ after))
      (Native.march (evaluate scene' (under + 1)) passing (before ++ q :: after)) := by
    refine marchGrouped (fun child mem => ?_) grouped
    rcases List.mem_append.mp mem with early | late
    · exact kept (by simp [early]) (each' child (by simp [early]))
    · exact kept (by simp [late]) (each' child (by simp [late]))
  have apart : p ∉ [q] := by simpa using nests.different forest'
  refine compositeBoth twin forest forest' passes apart flat outer patient.le ?_ marches
  simp only [List.length_append, List.length_cons] at patient ⊢
  omega

theorem nestAround (passes : n.Passes passing) (twin : scene.Twin scene')
    (forest : scene.tree.Forest) (forest' : scene'.tree.Forest)
    (nests : scene.tree.Nests scene'.tree n p q before block after)
    (patient : (before ++ block ++ after).length < scene.patience)
    {root : NodeId} (shares : ∀ {id}, scene.tree.Reaches root id → id ≠ p → id ≠ q →
      scene.tree.Shares scene'.tree id)
    (different : root ≠ q) {room room' : Nat} (fits : scene.tree.Fits room root)
    (fits' : scene'.tree.Fits room' root) :
    Together (Parallel [q]) Eq (evaluate scene room root) (evaluate scene' room' root) := by
  obtain ⟨_, flat⟩ := nests.flat
  refine evaluateParallel (fun id => scene.tree.Reaches root id ∧ id ≠ q) twin forest
    (fun {id} ⟨below, apart⟩ => ?_) ⟨.refl, different⟩ fits fits'
  by_cases here : id = p
  · refine .inr fun fits fits' => ?_
    subst here
    refine nestParallel passes twin forest forest' nests patient (fun child mem _ reaches apart =>
      shares ((below.tail (flat.asks mem)).trans reaches) ?_ apart) fits fits'
    rintro rfl
    exact forest.noReturn (flat.asks mem) reaches
  · have shared := shares below here apart
    refine .inl ⟨by simpa using apart, shared, fun {child} asks => ⟨below.tail asks, ?_⟩⟩
    rintro rfl
    exact here (forest'.asksOnce (shared.asks asks) nests.asksInner)

end Evaluation

theorem groupingUnseen {n : Native} {passing : Status} (passes : n.Passes passing)
    {t t' : Tree W} (built : t.Built) (built' : t'.Built) {p q : NodeId}
    {before block after : List NodeId} (nests : t.Nests t' n p q before block after) :
    (∀ child ∈ before ++ block ++ after, (∀ {id}, t.Reaches child id → t.Shares t' id) →
      ¬ t.Reaches child q) ∧
    (∀ {plan plan' : Plan W} {subject patience room room'}, plan'.handler = plan.handler →
      (before ++ block ++ after).length < patience →
      (∀ child ∈ before ++ block ++ after, ∀ {id}, t.Reaches child id → t.Shares t' id) →
      t.Fits room p → t'.Fits room' p →
      Together (Parallel [q]) Eq (evaluate { plan, tree := t, subject, patience } room p)
        (evaluate { plan := plan', tree := t', subject, patience } room' p)) ∧
    ∀ {plan : Plan W} {subject patience root world} {openNodes openNodes' : OpenNodes},
      (before ++ block ++ after).length < patience →
      (∀ {id}, t.Reaches root id → id ≠ p → id ≠ q → t.Shares t' id) →
      t.root = some root → t'.root = some root → t'.id = t.id →
      plan.Covers t → plan.Covers t' →
      (plan.equip subject t.id openNodes world : Moment W (Timeline W)).stage.Holds {} →
      (∀ id ≠ q, openNodes'.contains id = openNodes.contains id) →
      Option.Rel (Link.Meets (Parallel [q])) (plan.runTree patience t subject openNodes world)
        (plan.runTree patience t' subject openNodes' world) := by
  refine ⟨fun child mem shares reaches => ?_,
    fun {plan plan' subject patience _ _} handler patient shares fits fits' => ?_,
    fun {plan subject patience root world _ _} patient shares rooted rooted' named covers covers'
      bare flags => ?_⟩
  · have never : ∀ other ∈ [q], t.Reaches child other → ¬ t'.Reaches child other :=
      List.forall_mem_singleton.mpr fun _ => nests.never built'.forest mem
    have apart := (Tree.Shares.reaches (fun reaches _ => shares reaches) never reaches).1
    exact apart List.mem_cons_self
  · let scene : Scene W := { plan, tree := t, subject, patience }
    let scene' : Scene W := { plan := plan', tree := t', subject, patience }
    have twin : scene.Twin scene' := ⟨handler, rfl, rfl⟩
    exact nestParallel passes twin built.forest built'.forest nests patient
      (fun child mem _ reaches _ => shares child mem reaches) fits fits'
  · let scene : Scene W := { plan, tree := t, subject, patience }
    let scene' : Scene W := { scene with tree := t' }
    have twin : scene.Twin scene' := ⟨rfl, rfl, rfl⟩
    have different : root ≠ q := by
      rintro rfl
      obtain ⟨node, found, orphan⟩ := built'.forest.rooted rooted'
      have under := built'.forest.underOfAsks nests.asksInner
      simp [Tree.Under, Tree.parent?, found, orphan] at under
    have around := nestAround passes twin built.forest built'.forest nests patient shares different
      (covers.fits built.forest rooted) (covers'.fits built'.forest rooted')
    refine Plan.runParallel rooted rooted' named bare (fun id apart => flags id ?_) around
    simpa using apart

def Tree.stepNodes : List (Edit Nat) :=
  [.addNode (.detached "Sequence" .composite Native.sequence.behavior .empty),
    .addNode (.detached "Leaf" .leaf .improving .empty),
    .addNode (.detached "Leaf" .leaf .improving .empty),
    .addNode (.detached "Leaf" .leaf Native.runner.behavior .empty), .setRoot ⟨0⟩,
    .addChild ⟨0⟩ ⟨1⟩]

def Tree.stepsEdits : List (Edit Nat) :=
  Tree.stepNodes ++ [.addChild ⟨0⟩ ⟨2⟩, .addChild ⟨0⟩ ⟨3⟩]

def Tree.stepsNestedEdits : List (Edit Nat) :=
  Tree.stepNodes ++
    [.addNode (.detached "Sequence" .composite Native.sequence.behavior .empty),
      .addChild ⟨0⟩ ⟨4⟩, .addChild ⟨4⟩ ⟨2⟩, .addChild ⟨4⟩ ⟨3⟩]

theorem groupingUnseenSteps :
    let flat := Tree.attempts { id := ⟨"steps"⟩ } Tree.stepsEdits
    let nested := Tree.attempts { id := ⟨"steps"⟩ } Tree.stepsNestedEdits
    let plan : Plan Nat := {}
    ∃ a b, plan.runTree 4 flat ⟨1⟩ .empty 1 = some a ∧
      plan.runTree 4 nested ⟨1⟩ .empty 1 = some b ∧ a.1.status = .running ∧
      Link.Meets (Parallel [⟨4⟩]) a b := by
  intro flat nested plan
  have built : flat.Built := (Tree.Built.empty _ _).attempts Tree.stepsEdits
  have built' : nested.Built := (Tree.Built.empty _ _).attempts Tree.stepsNestedEdits
  obtain ⟨node, heads, children⟩ : ∃ node, flat.Over ⟨0⟩ .sequence [⟨1⟩, ⟨2⟩, ⟨3⟩] node ∧
      node.children = [⟨1⟩, ⟨2⟩, ⟨3⟩] := ⟨_, ⟨rfl, rfl, rfl, rfl⟩, rfl⟩
  have nests : flat.Nests nested .sequence ⟨0⟩ ⟨4⟩ [⟨1⟩] [⟨2⟩, ⟨3⟩] [] :=
    ⟨⟨node, heads⟩, ⟨_, rfl, rfl, rfl, rfl⟩, ⟨_, rfl, rfl, rfl, rfl⟩⟩
  have each : ∀ child ∈ node.children, ∀ {id}, flat.Reaches child id → flat.Shares nested id := by
    simp only [children, List.forall_mem_cons]
    exact ⟨.leaf .improving rfl rfl, .leaf .improving rfl rfl, .leaf (.native .runner) rfl rfl,
      List.forall_mem_nil _⟩
  have shares {id : NodeId} (reaches : flat.Reaches ⟨0⟩ id) (other : id ≠ ⟨0⟩) (_ : id ≠ ⟨4⟩) :
      flat.Shares nested id := by
    rcases ReflTransGen.cases_head reaches with same | ⟨child, ⟨_, _, found, located⟩, below⟩
    · exact absurd same.symm other
    · cases heads.found.symm.trans found
      exact each child (Tree.locatedChild located) below
  have beside : Option.Rel (Link.Meets (Parallel [⟨4⟩])) (plan.runTree 4 flat ⟨1⟩ .empty 1)
      (plan.runTree 4 nested ⟨1⟩ .empty 1) :=
    (groupingUnseen .sequence built built' nests).2.2 (by decide) shares rfl rfl rfl
      (Plan.Covers.ofSize built.forest (by decide)) (Plan.Covers.ofSize built'.forest (by decide))
      ⟨rfl, rfl⟩ fun _ _ => rfl
  have came : (plan.runTree 4 flat ⟨1⟩ .empty 1 :
      Option (Report Nat (Timeline Nat) × OpenNodes)).any
        (fun (report, _) => report.status = .running) = true := by
    decide +kernel
  obtain ⟨a, b, ran, ran', running, meets⟩ := relAny beside came
  exact ⟨a, b, ran, ran', of_decide_eq_true running, meets⟩

end BehaviorTree
