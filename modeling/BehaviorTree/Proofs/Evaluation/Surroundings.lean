import BehaviorTree.Proofs.Evaluation.Enclosure

/-! What an activation leaves alone. It concerns the nodes that lie below it by links a tick can
follow, and no others. A child that it skips is left as it was with all that lies below it. While
a tick is in progress, its node keeps its flag, and so do the nodes above. -/
namespace BehaviorTree
open Relation

variable {W : Type}

namespace Tree
variable {t : Tree W}

inductive Serves (t : Tree W) (parent : NodeId) : NodeId → Prop where
  | composite {node child} (found : t.node? parent = some node) (kind : node.kind = .composite)
      (mem : child ∈ node.children) : Serves t parent child
  | decorator {node first rest} (found : t.node? parent = some node)
      (kind : node.kind = .decorator) (children : node.children = first :: rest) :
      Serves t parent first

theorem asksExact {parent child} : t.Asks parent child ↔ t.Serves parent child := by
  constructor
  · rintro ⟨node, request, found, located⟩
    have member := locatedChild located
    cases request with
    | child =>
      by_cases decorator : node.kind = .decorator
      · cases children : node.children with
        | nil => simp [children] at member
        | cons first rest =>
          simp only [Node.locate, decorator, if_true, children, Except.ok.injEq] at located
          exact located ▸ .decorator found decorator children
      · simp [Node.locate, decorator] at located
    | childAt index =>
      by_cases composite : node.kind = .composite
      · exact .composite found composite member
      · simp [Node.locate, composite] at located
  · intro serves
    cases serves with
    | composite found kind mem =>
      obtain ⟨index, there⟩ := List.mem_iff_getElem?.mp mem
      exact ⟨_, .childAt index, found, by simp [Node.locate, kind, there]⟩
    | decorator found kind children =>
      exact ⟨_, .child, found, by simp [Node.locate, kind, children]⟩

theorem reachesExact {id other} : t.Reaches id other ↔ ReflTransGen t.Serves id other := by
  have same : t.Asks = t.Serves := by
    funext parent child
    exact propext asksExact
  rw [Reaches, same]

theorem Forest.aboveOfReaches (forest : t.Forest) {id other} (reach : t.Reaches id other) :
    ReflTransGen t.Under other id :=
  reflTransGen_swap.mp (ReflTransGen.mono (fun _ _ => forest.underOfAsks) _ _ reach)

theorem aboveTotal {id above other} (left : ReflTransGen t.Under id above)
    (right : ReflTransGen t.Under id other) :
    ReflTransGen t.Under above other ∨ ReflTransGen t.Under other above :=
  ReflTransGen.total_of_right_unique
    (fun _ _ _ under under' => Option.some.inj (under.symm.trans under')) left right

theorem Forest.notBothAbove (forest : t.Forest) {id other} (left : ReflTransGen t.Under id other)
    (right : ReflTransGen t.Under other id) : id = other := by
  rcases ReflTransGen.cases_head left with same | ⟨next, under, rest⟩
  · exact same
  · exact absurd (.head' under (rest.trans right)) (forest.acyclic id)

end Tree

theorem Timeline.beforeEnd {t u during after : Timeline W} {o}
    (parts : during ++ after = t ++ o :: u) (never : o ∉ during) : during ⊆ t := by
  rcases List.append_eq_append_iff.mp parts with ⟨rest, here, _⟩ | ⟨rest, here, next⟩
  · exact here ▸ List.subset_append_left _ _
  · cases rest with
    | nil => exact (here.trans (List.append_nil _)) ▸ List.Subset.refl _
    | cons first rest =>
      obtain rfl := (List.cons.inj next).1
      exact absurd (here ▸ List.mem_append_right _ List.mem_cons_self) never

structure Untouched (id : NodeId) (openNodes : OpenNodes) (t : Timeline W) : Prop where
  passed : ∀ o ∈ t, o.node? = some id → o = .refused id ∨ o = .absent id
  flag : ∀ {before after : Timeline W}, t = before ++ after →
    (before.flags openNodes).contains id = openNodes.contains id

theorem Untouched.ofPassed {id : NodeId} {t : Timeline W}
    (passed : ∀ o ∈ t, o.node? = some id → o = .refused id ∨ o = .absent id)
    (openNodes : OpenNodes) : Untouched id openNodes t where
  passed := passed
  flag {before after} split := by
    refine Timeline.flagsKept fun isOpen mem => ?_
    rcases passed _ (split ▸ List.mem_append_left after mem) rfl with same | same <;> cases same

structure Framed (tree : Tree W) (id : NodeId) (a : OpenNodes) (t : Timeline W) (b : OpenNodes) :
    Prop where
  concerns : ∀ o ∈ t, ∃ node, o.node? = some node ∧ ReflTransGen tree.Serves id node
  ends : b = t.flags a
  elsewhere : ∀ {other}, ¬ ReflTransGen tree.Serves id other → Untouched other a t
  skipped : ∀ {other below}, ReflTransGen tree.Under other id → .began other ∉ t →
    ReflTransGen tree.Under below other → Untouched below a t
  -- From the call of a tick on, as long as it has not returned.
  steady : ∀ {before during after : Timeline W} {node stage},
    t = before ++ .called node .tick stage :: during ++ after →
      (∀ result, .returned node .tick result ∉ during) → ∀ {above},
        ReflTransGen tree.Under node above →
          ((before ++ .called node .tick stage :: during).flags a).contains above =
            (before.flags a).contains above

open BehaviorTree.Derivation

variable {scene : Scene W} {room : Nat} {s last : Standing W} {t : Timeline W} {status : Status}

-- A node shows itself only after every node between it and the one that is evaluated.
def Preceded (tree : Tree W) (id : NodeId) (t : Timeline W) (node : NodeId) : Prop :=
  ∀ {between}, ReflTransGen tree.Under node between → ReflTransGen tree.Under between id →
    .began between ∈ t

theorem Preceded.above {tree : Tree W} (forest : tree.Forest) {id child node}
    {inner t : Timeline W} (asks : tree.Asks id child) (reach : tree.Reaches child node)
    (inside : Preceded tree child inner node) (within : inner ⊆ t) (began : .began id ∈ t) :
    Preceded tree id t node := by
  intro between low high
  rcases Tree.aboveTotal low (forest.aboveOfReaches reach) with under | higher
  · exact within (inside low under)
  · rcases ReflTransGen.cases_head higher with rfl | ⟨next, under, rest⟩
    · exact within (inside low .refl)
    · cases (forest.underOfAsks asks).symm.trans under
      exact forest.notBothAbove high rest ▸ began

theorem Derivation.Activated.begun (forest : scene.tree.Forest) {top : Node W}
    (found : scene.tree.node? top.id = some top)
    (activated : Activated scene (Evaluates scene room) top s t status last)
    (below : ∀ {child s t status last}, Evaluates scene room child s t status last →
      ∀ {o node}, o ∈ t → o.node? = some node →
        (o = .refused node ∨ o = .absent node) ∨ Preceded scene.tree child t node)
    {o node} (mem : o ∈ t) (here : o.node? = some node) :
    (o = .refused node ∨ o = .absent node) ∨ Preceded scene.tree top.id t node := by
  have began : .began top.id ∈ t := by
    obtain ⟨_, rfl, _⟩ := activated.parted
    simp
  have own (same : node = top.id) : Preceded scene.tree top.id t node := fun low high =>
    forest.notBothAbove high (same ▸ low) ▸ began
  obtain ⟨before, after, split⟩ := List.append_of_mem mem
  rcases activated.place (fun evaluates => evaluates.flags) split with ⟨_, rfl⟩ | place
  · cases here
    exact .inr (own rfl)
  · cases place with
    | aside aside =>
      cases here.symm.trans aside.1
      exact .inr (own rfl)
    | ticks =>
      cases here
      exact .inr (own rfl)
    | @asked _ _ outer inner rest later request child _ _ _ located prior next _ asked =>
      have stretch : inner ++ o :: rest ⊆ t := by
        rw [split, prior, next]
        intro x inside
        simp only [List.append_assoc, List.mem_append, List.mem_cons] at inside ⊢
        tauto
      obtain ⟨_, same, reach⟩ := (asked.confined forest).seen o (by simp)
      cases here.symm.trans same
      exact (below asked (by simp) here).imp id fun inside =>
        inside.above forest ⟨top, request, found, located⟩ reach stretch began

theorem Evaluates.begun (forest : scene.tree.Forest) {id}
    (evaluates : Evaluates scene room id s t status last) {o node} (mem : o ∈ t)
    (here : o.node? = some node) :
    (o = .refused node ∨ o = .absent node) ∨ Preceded scene.tree id t node := by
  induction room generalizing id s t status last o node with
  | zero =>
    cases evaluates with
    | absent none =>
      cases List.mem_singleton.mp mem
      cases here
      exact .inl (.inr rfl)
    | refused =>
      cases List.mem_singleton.mp mem
      cases here
      exact .inl (.inl rfl)
    | activated _ room => cases room
  | succ room ih =>
    cases evaluates with
    | absent none =>
      cases List.mem_singleton.mp mem
      cases here
      exact .inl (.inr rfl)
    | refused _ limit => cases limit
    | @activated _ _ top _ _ _ _ found room activated =>
      cases room
      obtain rfl : top.id = id := forest.numbered found
      exact activated.begun forest found ih mem here

theorem Derivation.Ticked.below (forest : scene.tree.Forest) {node block result told}
    {s : Standing W} (found : scene.tree.node? node.id = some node)
    (ticked : Ticked (Evaluates scene room) node s block result told) :
    ∃ talk, block = .called node.id .tick s.stage :: talk ++
        [.returned node.id .tick (.ofOutcome result)] ∧
      ∀ {above}, ReflTransGen scene.tree.Under node.id above →
        Undisturbed above s.openNodes talk told.openNodes := by
  cases ticked with
  | missing => exact ⟨[], rfl, fun _ => (Undisturbed.sequential _).nil _⟩
  | played _ conversed =>
    refine ⟨_, rfl, fun {above} higher => conversed.chain (Undisturbed.sequential above) ?_⟩
    intro request child s t status last located asked
    have under := forest.underOfAsks ⟨node, request, found, located⟩
    have apart : ¬ scene.tree.Reaches child above := fun reach =>
      forest.acyclic child (.head' under (higher.trans (forest.aboveOfReaches reach)))
    refine ⟨fun o mem same => ?_, (asked.confined forest).flags above apart⟩
    obtain ⟨other, here, reach⟩ := (asked.confined forest).seen o mem
    cases here.symm.trans same
    exact apart reach

theorem Evaluates.framed (forest : scene.tree.Forest) {id}
    (evaluates : Evaluates scene room id s t status last) :
    Framed scene.tree id s.openNodes t last.openNodes where
  concerns o mem := by
    obtain ⟨node, same, reach⟩ := (evaluates.confined forest).seen o mem
    exact ⟨node, same, Tree.reachesExact.mp reach⟩
  ends := evaluates.flags
  elsewhere {other} apart := by
    refine .ofPassed (fun o mem here => ?_) _
    obtain ⟨node, same, reach⟩ := (evaluates.confined forest).seen o mem
    cases here.symm.trans same
    exact absurd (Tree.reachesExact.mp reach) apart
  skipped {other below} high never low := by
    refine .ofPassed (fun o mem here => ?_) _
    rcases evaluates.begun forest mem here with passed | begun
    · exact passed
    · exact absurd (begun low high) never
  steady {before during after node stage} split waiting {above} higher := by
    have place := evaluates.enclosed forest (split.trans (List.append_assoc _ _ _))
    cases place with
    | aside _ aside => exact aside.notTicks.elim
    | ticks lies ticked whole =>
      obtain ⟨talk, rfl, apart⟩ := ticked.below forest lies.found
      have parts : during ++ after = talk ++ _ :=
        (List.cons.inj whole).2.trans (List.append_assoc _ _ _)
      have within := Timeline.beforeEnd parts (waiting _)
      rw [Timeline.flagsAppend]
      refine Timeline.flagsKept fun isOpen mem => ?_
      rcases List.mem_cons.mp mem with same | inside
      · cases same
      · exact (apart higher).seen _ (within inside) rfl

theorem evaluationFramed (built : scene.tree.Built) {id} {m last : Moment W (Timeline W)}
    (ok : evaluate scene room id m = some (status, last)) :
    ∃ t, last.seen = m.seen ++ t ∧ Framed scene.tree id m.openNodes t last.openNodes := by
  obtain ⟨t, grown, evaluates⟩ := evaluatesSound _ _ _ _ _ _ ok
  exact ⟨t, grown, evaluates.framed built.forest⟩

def Behavior.choosing : Behavior Unit where
  tick := some
    { Memory := Unit
      start := fun _ stage => .ask (.childAt 0) stage ()
      resume := fun _ reply stage => .answer (reply.map .status) stage }

def Tree.fork : Tree Unit where
  id := ⟨"fork"⟩
  root := some ⟨0⟩
  nodes := #[
    { id := ⟨0⟩, content := .detached "Composite" .composite .choosing .empty
      children := [⟨1⟩, ⟨2⟩] },
    { id := ⟨1⟩, content := .detached "Leaf" .leaf { tick := some (.ofStatus .success) } .empty
      parent := some ⟨0⟩ },
    { id := ⟨2⟩, content := .detached "Leaf" .leaf { tick := some (.ofStatus .success) } .empty
      parent := some ⟨0⟩ }]

def Tree.forkEdits : List (Edit Unit) :=
  [.addNode (.detached "Composite" .composite .choosing .empty),
    .addNode (.detached "Leaf" .leaf { tick := some (.ofStatus .success) } .empty),
    .addNode (.detached "Leaf" .leaf { tick := some (.ofStatus .success) } .empty),
    .setRoot ⟨0⟩, .addChild ⟨0⟩ ⟨1⟩, .addChild ⟨0⟩ ⟨2⟩]

theorem Tree.Built.fork : Tree.fork.Built := (Built.empty ⟨"fork"⟩ .strict).attempts forkEdits

theorem evaluationFramedSkipping :
    let scene : Scene Unit := { plan := {}, tree := .fork, subject := ⟨1⟩, patience := 1 }
    let m : Moment Unit (Timeline Unit) :=
      { stage := { toolbox := { subject := ⟨1⟩, tree := ⟨"fork"⟩ }, world := () }
        openNodes := OpenNodes.empty.insert ⟨2⟩
        seen := [] }
    ∃ last t, evaluate scene 2 ⟨0⟩ m = some (.success, last) ∧ last.seen = t ∧
      Framed .fork ⟨0⟩ m.openNodes t last.openNodes ∧ Untouched ⟨2⟩ m.openNodes t := by
  intro scene m
  have came : ((evaluate scene 2 ⟨0⟩ m).any fun (status, last) =>
      status = .success ∧ ⟨2⟩ ∉ last.seen.filterMap Occurrence.node?) = true := by decide +kernel
  obtain ⟨⟨status, last⟩, ok, shown⟩ := (Option.any_eq_true _ _).mp came
  obtain ⟨rfl, never⟩ := of_decide_eq_true shown
  obtain ⟨t, grown, framed⟩ := evaluationFramed .fork ok
  have second : scene.tree.Under ⟨2⟩ ⟨0⟩ := rfl
  refine ⟨_, t, ok, grown, framed, framed.skipped (.single second) (fun mem => never ?_) .refl⟩
  rw [grown]
  exact List.mem_filterMap.mpr ⟨_, List.mem_append_right _ mem, rfl⟩

end BehaviorTree
