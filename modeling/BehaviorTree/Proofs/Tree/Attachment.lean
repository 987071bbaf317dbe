import BehaviorTree.Proofs.Tree.Edits

/-! Which attachments are accepted. Seven objections can be made to one, and the first of them
in a fixed order is the reason of a refusal; without any the child is put at the end, and
nothing else changes. The last objection is found by a loop over the parents. It ends, and
what it meets on its way up are the nodes from which child links lead down again. -/
namespace BehaviorTree.Tree
open Relation

variable {W : Type} {t changed : Tree W} {parent child : NodeId}

def Holds (t : Tree W) (parent child : NodeId) : Prop := child ∈ t.childrenOf parent

/- The loop over the parents of a node, with its rounds and whether it meets the one above. -/
inductive Ascent (t : Tree W) (above : NodeId) : NodeId → Nat → Bool → Prop where
  | meets : Ascent t above above 1 true
  | ends {id} (other : id ≠ above) (top : t.parent? id = none) : Ascent t above id 1 false
  | climbs {id parent rounds met} (other : id ≠ above) (under : t.Under id parent)
      (rest : Ascent t above parent rounds met) : Ascent t above id (rounds + 1) met

inductive Objection (t : Tree W) (parent child : NodeId) : Nat → TreeError → Prop where
  | itself (same : parent = child) : Objection t parent child 0 (.selfChild child)
  | noParent (unknown : t.node? parent = none) : Objection t parent child 1 (.unknownNode parent)
  | noChild (unknown : t.node? child = none) : Objection t parent child 2 (.unknownNode child)
  | parented {existing} (under : t.Under child existing) :
      Objection t parent child 3 (.alreadyParented child existing)
  | root (root : t.root = some child) : Objection t parent child 4 (.rootAsChild child)
  | full {node bound} (strict : t.arity = .strict) (found : t.node? parent = some node)
      (bounded : node.kind.maxChildren = some bound) (full : bound ≤ node.children.length) :
      Objection t parent child 5 (.arityExceeded parent node.kind bound)
  | below (below : TransGen t.Holds child parent) :
      Objection t parent child 6 (.cycle parent child)

structure Attachable (t : Tree W) (parent child : NodeId) : Prop where
  different : parent ≠ child
  parentKnown : (t.node? parent).isSome
  childKnown : (t.node? child).isSome
  orphan : t.parent? child = none
  unrooted : t.root ≠ some child
  roomy : t.arity = .strict → ∀ {node bound}, t.node? parent = some node →
    node.kind.maxChildren = some bound → node.children.length < bound
  apart : ¬ TransGen t.Holds child parent

structure Grafted (t : Tree W) (parent child : NodeId) (changed : Tree W) : Prop where
  appended : changed.childrenOf parent = t.childrenOf parent ++ [child]
  parented : changed.parent? child = some parent
  childrenElsewhere : ∀ {id}, id ≠ parent → changed.childrenOf id = t.childrenOf id
  parentElsewhere : ∀ {id}, id ≠ child → changed.parent? id = t.parent? id
  contents : ∀ id, (changed.node? id).map (fun node => (node.id, node.content)) =
    (t.node? id).map fun node => (node.id, node.content)
  sameSize : changed.size = t.size
  sameId : changed.id = t.id
  sameArity : changed.arity = t.arity
  sameRoot : changed.root = t.root

theorem aboveParent {id above} (other : id ≠ above) (under : t.Under id parent) :
    ReflTransGen t.Under id above ↔ ReflTransGen t.Under parent above := by
  constructor
  · intro reach
    rcases ReflTransGen.cases_head reach with same | ⟨next, up, rest⟩
    · exact absurd same other
    · cases under.symm.trans up
      exact rest
  · exact .head under

theorem ascentOfClimb (above : NodeId) {steps id top} (up : t.climb steps id = some top)
    (ends : t.parent? top = none) :
    ∃ rounds ≤ steps + 1, ∃ met, t.Ascent above id rounds met ∧
      (met = true ↔ ReflTransGen t.Under id above) := by
  induction steps generalizing id with
  | zero =>
    obtain rfl : id = top := Option.some.inj up
    by_cases here : id = above
    · exact ⟨1, Nat.le_refl _, true, here ▸ .meets, iff_of_true rfl (here ▸ .refl)⟩
    · refine ⟨1, Nat.le_refl _, false, .ends here ends, iff_of_false nofun fun reach => ?_⟩
      rcases ReflTransGen.cases_head reach with same | ⟨next, under, _⟩
      · exact here same
      · rw [Under, ends] at under
        contradiction
  | succ steps ih =>
    by_cases here : id = above
    · exact ⟨1, by omega, true, here ▸ .meets, iff_of_true rfl (here ▸ .refl)⟩
    · obtain ⟨parent, under, up⟩ := Option.bind_eq_some_iff.mp up
      obtain ⟨rounds, few, met, ascent, exact⟩ := ih up
      refine ⟨rounds + 1, by omega, met, .climbs here under ascent, ?_⟩
      rw [exact, aboveParent here under]

theorem fullAtExact {node : Node W} {bound : Nat} :
    t.fullAt node = some bound ↔
      t.arity = .strict ∧ node.kind.maxChildren = some bound ∧ bound ≤ node.children.length := by
  unfold fullAt
  cases t.arity with
  | relaxed => simp
  | strict =>
    cases node.kind.maxChildren with
    | none => simp
    | some limit =>
      by_cases full : limit ≤ node.children.length
      · simp only [full, if_true, Option.some.injEq, true_and]
        refine ⟨fun same => ⟨same, same ▸ full⟩, fun both => both.1⟩
      · simp only [full, if_false, Option.some.injEq, true_and, reduceCtorEq, false_iff]
        rintro ⟨rfl, reached⟩
        exact full reached

namespace Forest

theorem holdsSwap (forest : t.Forest) : t.Holds = Function.swap t.Under := by
  funext parent child
  exact propext forest.linkedChildren

theorem ascends (forest : t.Forest) (above id : NodeId) :
    ∃ rounds ≤ max 1 t.size, ∃ met, t.Ascent above id rounds met ∧
      ((t.node? id).isSome → met = t.isAncestor above id) := by
  cases found : t.node? id with
  | none =>
    have top : t.parent? id = none := by simp [parent?, found]
    have up : t.climb 0 id = some id := rfl
    obtain ⟨rounds, few, met, ascent, _⟩ := ascentOfClimb above up top
    exact ⟨rounds, by omega, met, ascent, by simp⟩
  | some node =>
    have known : (t.node? id).isSome := by simp [found]
    obtain ⟨steps, short, top, highest, up, there, orphan⟩ := forest.tops known
    have ends : t.parent? top = none := by simp [parent?, there, orphan]
    obtain ⟨rounds, few, met, ascent, exact⟩ := ascentOfClimb above up ends
    refine ⟨rounds, by omega, met, ascent, fun _ => ?_⟩
    rw [← forest.isAncestorExact known] at exact
    exact Bool.eq_iff_iff.mpr exact

/- The loop looks along parent links, the objection is about child links. -/
theorem descends (forest : t.Forest) (different : parent ≠ child)
    (known : (t.node? parent).isSome) :
    t.isAncestor child parent = true ↔ TransGen t.Holds child parent := by
  rw [forest.isAncestorExact known, forest.holdsSwap, transGen_swap,
    reflTransGen_iff_eq_or_transGen]
  exact or_iff_right different.symm

end Forest

def Clear (t : Tree W) (parent child : NodeId) (rank : Nat) : Prop :=
  ∀ earlier < rank, ∀ e, ¬ t.Objection parent child earlier e

theorem Clear.next {rank} (clear : t.Clear parent child rank)
    (none : ∀ e, ¬ t.Objection parent child rank e) : t.Clear parent child (rank + 1) := by
  intro earlier less e objection
  rcases Nat.lt_succ_iff_lt_or_eq.mp less with before | rfl
  · exact clear earlier before e objection
  · exact none e objection

inductive Decided (t : Tree W) (parent child : NodeId) : Except TreeError (Tree W) → Prop where
  | accepted {result : Tree W} (attachable : t.Attachable parent child)
      (attaches : t.Attaches parent child result) : Decided t parent child (.ok result)
  | refused {rank e} (objection : t.Objection parent child rank e)
      (clear : t.Clear parent child rank) : Decided t parent child (.error e)

theorem Forest.decides (forest : t.Forest) (parent child : NodeId) :
    t.Decided parent child (t.addChild parent child) := by
  unfold addChild
  have clear : t.Clear parent child 0 := fun earlier less => absurd less (Nat.not_lt_zero _)
  split
  · rename_i same
    exact .refused (.itself same) clear
  rename_i different
  have clear := clear.next fun e objection => by cases objection; contradiction
  split
  · rename_i unknown
    exact .refused (.noParent unknown) clear
  · rename_i p above unknown
    have clear := clear.next fun e objection => by cases objection; simp_all
    exact .refused (.noChild unknown) clear
  rename_i p c above below
  have parentKnown : (t.node? parent).isSome := by simp [above]
  have childKnown : (t.node? child).isSome := by simp [below]
  have parentOf : t.parent? child = c.parent := by simp [parent?, below]
  have clear := clear.next fun e objection => by cases objection; simp_all
  have clear := clear.next fun e objection => by cases objection; simp_all
  split
  · rename_i existing parented
    exact .refused (.parented (parentOf.trans parented)) clear
  rename_i orphan
  have clear := clear.next fun e objection => by
    cases objection with
    | parented under => cases (parentOf.trans orphan).symm.trans under
  split
  · rename_i root
    exact .refused (.root root) clear
  rename_i unrooted
  have clear := clear.next fun e objection => by cases objection; contradiction
  split
  · rename_i bound reached
    obtain ⟨strict, bounded, full⟩ := fullAtExact.mp reached
    exact .refused (.full strict above bounded full) clear
  rename_i room
  have clear := clear.next fun e objection => by
    cases objection with
    | full strict found bounded full =>
      cases above.symm.trans found
      cases room.symm.trans (fullAtExact.mpr ⟨strict, bounded, full⟩)
  split
  · rename_i lies
    exact .refused (.below ((forest.descends different parentKnown).mp lies)) clear
  rename_i fresh
  have apart : ¬ TransGen t.Holds child parent :=
    fun below => fresh ((forest.descends different parentKnown).mpr below)
  refine .accepted ⟨different, parentKnown, childKnown, parentOf.trans orphan, unrooted, ?_, apart⟩
    ⟨different, ⟨p, above, room⟩, ⟨c, below, orphan⟩, unrooted, by simpa using fresh, rfl⟩
  intro strict node bound found bounded
  refine Nat.lt_of_not_le fun full => ?_
  exact clear 5 (by decide) _ (.full strict found bounded full)

theorem Attachable.unobjectionable (attachable : t.Attachable parent child) {rank e} :
    ¬ t.Objection parent child rank e := by
  intro objection
  cases objection with
  | itself same => exact attachable.different same
  | noParent unknown => simpa [unknown] using attachable.parentKnown
  | noChild unknown => simpa [unknown] using attachable.childKnown
  | parented under => cases attachable.orphan.symm.trans under
  | root root => exact attachable.unrooted root
  | full strict found bounded full =>
    exact Nat.not_lt_of_le full (attachable.roomy strict found bounded)
  | below below => exact attachable.apart below

/- At each place of the order one objection can stand. -/
theorem Objection.unique {rank e other} (objection : t.Objection parent child rank e)
    (objection' : t.Objection parent child rank other) : e = other := by
  cases objection with
  | itself | noParent | noChild | root | below => cases objection'; rfl
  | parented under =>
    cases objection' with
    | parented under' => cases under.symm.trans under'; rfl
  | full _ found bounded =>
    cases objection' with
    | full _ found' bounded' =>
      cases found.symm.trans found'
      cases bounded.symm.trans bounded'
      rfl

theorem Objection.first {rank e rank' e'} (objection : t.Objection parent child rank e)
    (clear : t.Clear parent child rank) (objection' : t.Objection parent child rank' e')
    (clear' : t.Clear parent child rank') : e = e' := by
  rcases Nat.lt_trichotomy rank rank' with less | rfl | more
  · exact absurd objection (clear' rank less e)
  · exact objection.unique objection'
  · exact absurd objection' (clear rank' more e')

theorem Attaches.grafted (a : t.Attaches parent child changed) :
    t.Grafted parent child changed where
  appended := by
    obtain ⟨node, found, _⟩ := a.above
    simp [childrenOf, a.node?, found, attached]
  parented := by
    obtain ⟨node, found, _⟩ := a.orphan
    simp [parent?, a.node?, found, attached]
  childrenElsewhere {id} other := by
    unfold childrenOf
    rw [a.node?]
    cases t.node? id <;> simp [attached, other]
  parentElsewhere {id} other := by
    unfold parent?
    rw [a.node?]
    cases t.node? id <;> simp [attached, other]
  contents id := by
    rw [a.node?]
    cases t.node? id <;> rfl
  sameSize := by simp [a.result, change, size]
  sameId := by rw [a.result]; rfl
  sameArity := a.arity
  sameRoot := a.root

theorem attachmentExact (built : t.Built) (parent child : NodeId) :
    ((∃ changed, t.addChild parent child = .ok changed) ↔ t.Attachable parent child) ∧
      (∀ {changed}, t.addChild parent child = .ok changed → t.Grafted parent child changed) ∧
      (∀ {e}, t.addChild parent child = .error e ↔
        ∃ rank, t.Objection parent child rank e ∧
          ∀ earlier < rank, ∀ other, ¬ t.Objection parent child earlier other) ∧
      ∀ above id, ∃ rounds ≤ max 1 t.size, ∃ met, t.Ascent above id rounds met ∧
        ((t.node? id).isSome → met = t.isAncestor above id) := by
  have decided := built.forest.decides parent child
  refine ⟨⟨?_, ?_⟩, fun accepted => (addChildExact accepted).grafted, ⟨?_, ?_⟩,
    built.forest.ascends⟩
  · rintro ⟨changed, accepted⟩
    rw [accepted] at decided
    cases decided with
    | accepted attachable => exact attachable
  · intro attachable
    cases came : t.addChild parent child with
    | ok changed => exact ⟨changed, rfl⟩
    | error e =>
      rw [came] at decided
      cases decided with
      | refused objection => exact absurd objection attachable.unobjectionable
  · intro refusal
    rw [refusal] at decided
    cases decided with
    | refused objection clear => exact ⟨_, objection, clear⟩
  · rintro ⟨rank, objection, clear⟩
    cases came : t.addChild parent child with
    | ok changed =>
      rw [came] at decided
      cases decided with
      | accepted attachable => exact absurd objection attachable.unobjectionable
    | error e =>
      rw [came] at decided
      cases decided with
      | refused objection' clear' => rw [objection'.first clear' objection clear]

def chainEdits : List (Edit Unit) :=
  let plain : Instance Unit := .detached "Plain" .composite {} .empty
  [.addNode plain, .addNode plain, .addNode plain, .addNode plain, .addChild ⟨0⟩ ⟨1⟩,
    .addChild ⟨1⟩ ⟨2⟩]

theorem attachmentBelowItself :
    let t : Tree Unit := attempts { id := ⟨"chain"⟩ } chainEdits
    t.addChild ⟨2⟩ ⟨0⟩ = .error (.cycle ⟨2⟩ ⟨0⟩) ∧ ¬ t.Attachable ⟨2⟩ ⟨0⟩ ∧
      (∃ rank, t.Objection ⟨2⟩ ⟨0⟩ rank (.cycle ⟨2⟩ ⟨0⟩) ∧
        ∀ earlier < rank, ∀ other, ¬ t.Objection ⟨2⟩ ⟨0⟩ earlier other) ∧
      ∃ changed, t.addChild ⟨2⟩ ⟨3⟩ = .ok changed ∧ t.Grafted ⟨2⟩ ⟨3⟩ changed := by
  intro t
  have built : t.Built := (Built.empty _ _).attempts chainEdits
  have refusal : t.addChild ⟨2⟩ ⟨0⟩ = .error (.cycle ⟨2⟩ ⟨0⟩) := rfl
  have accepted : t.addChild ⟨2⟩ ⟨3⟩ = .ok _ := rfl
  obtain ⟨legal, _, objections, _⟩ := attachmentExact built ⟨2⟩ ⟨0⟩
  obtain ⟨_, grafted, _, _⟩ := attachmentExact built ⟨2⟩ ⟨3⟩
  refine ⟨refusal, fun attachable => ?_, objections.mp refusal, _, accepted, grafted accepted⟩
  obtain ⟨changed, taken⟩ := legal.mpr attachable
  cases refusal.symm.trans taken

end BehaviorTree.Tree
