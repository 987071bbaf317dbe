import BehaviorTree.Proofs.Evaluation.Pieces
import BehaviorTree.Proofs.Host
import BehaviorTree.Proofs.Tree.Edits

/-! The nodes that the subjects of a host have left open are nodes of the trees they run. Node
numbers begin at zero in each tree, so what one tree left open must not outlive it: a run
opens nodes of its own tree only, edits remove none, and with a tree goes all that was open in
it. A subject that has not run since its tree was created is as good as new. -/
namespace BehaviorTree

variable {W : Type}

namespace Derivation

def Opens (tree : Tree W) : Passage W := fun s _ last =>
  ∀ {id}, last.openNodes.contains id = true →
    s.openNodes.contains id = true ∨ (tree.node? id).isSome

theorem opensCarries {scene : Scene W} {node : Node W}
    (known : (scene.tree.node? node.id).isSome) : Carries scene node (Opens scene.tree) where
  nil _ := .inl
  append left right := fun {_} isOpen => (right isOpen).elim left .inr
  told _ _ _ _ := .inl
  called _ _ _ _ _ := .inl
  answered _ answered := by
    cases answered
    exact .inl
  flagged s flag := fun {id} isOpen => by
    rw [Standing.flagContains] at isOpen
    split at isOpen
    · rename_i here
      exact .inr (here ▸ known)
    · exact .inl isOpen
  ticks _ := .inl
  starts _ _ := .inl
  resumes _ _ _ _ := .inl
  ticked _ _ := .inl

end Derivation

theorem Plan.runOpens {plan : Plan W} {patience tree subject openNodes world} (built : tree.Built)
    {report : Report W (Timeline W)} {left}
    (ok : plan.runTree patience tree subject openNodes world = some (report, left)) {id}
    (isOpen : left.contains id = true) :
    openNodes.contains id = true ∨ (tree.node? id).isSome := by
  rcases Plan.runSound ok with ⟨_, _, rfl⟩ |
    ⟨root, equipped, t, stage, last, _, _, _, rfl, _, evaluates⟩
  · exact .inl isOpen
  · have opens : Derivation.Opens tree ⟨stage, openNodes⟩ t last :=
      Derivation.evaluatesCarried (R := Derivation.Opens tree)
        (fun {id node} found => by
          have same := built.forest.numbered found
          exact Derivation.opensCarries (by rw [same, found]; rfl))
        (fun _ _ _ => .inl) evaluates
    exact opens isOpen

namespace Host
variable {h last : Host W}

structure Consistent (h : Host W) : Prop where
  built : ∀ {id tree}, h.trees.get? id = some tree → tree.Built
  own : ∀ {id subject}, h.subjects.get? id = some subject → subject.id = id
  known : ∀ {id subject node}, h.subjects.get? id = some subject →
    subject.openNodes.contains node = true →
    ∃ tree, h.trees.get? subject.tree = some tree ∧ (tree.node? node).isSome

theorem Consistent.fresh (settings : Settings) : (ofSettings settings : Host W).Consistent where
  built found := by simp [ofSettings] at found
  own found := by simp [ofSettings] at found
  known found := by simp [ofSettings] at found

theorem Consistent.unstored (consistent : h.Consistent) {id subject}
    (bound : h.subjects.get? id = some subject) (unstored : h.trees.get? subject.tree = none) :
    subject.openNodes = .empty := by
  refine OpenNodes.extContains fun node => ?_
  rw [OpenNodes.containsEmpty]
  refine Bool.eq_false_iff.mpr fun isOpen => ?_
  obtain ⟨tree, stored, _⟩ := consistent.known bound isOpen
  rw [unstored] at stored
  contradiction

def KeepsTree (h last : Host W) (id : TreeId) : Prop :=
  ∀ tree, h.trees.get? id = some tree → ∃ changed, last.trees.get? id = some changed ∧
    ∀ {node}, (tree.node? node).isSome → (changed.node? node).isSome

theorem KeepsTree.same {id} (trees : last.trees = h.trees) : KeepsTree h last id := by
  intro tree stored
  exact ⟨tree, by rw [trees, stored], fun present => present⟩

inductive Origin (h last : Host W) (command : Command W) (id : SubjectId) : Subject → Prop where
  | kept {subject} (bound : h.subjects.get? id = some subject)
      (tree : KeepsTree h last subject.tree) : Origin h last command id subject
  | created {tree} : Origin h last command id { id, tree }
  | cleared {subject} (bound : h.subjects.get? id = some subject) :
      Origin h last command id { subject with openNodes := .empty }
  | ran {plan subject tree patience world left} {report : Report W (Timeline W)}
      (run : command = .run id plan) (bound : h.subjects.get? id = some subject)
      (stored : h.trees.get? subject.tree = some tree)
      (ok : plan.runTree patience tree id subject.openNodes world = some (report, left))
      (trees : last.trees = h.trees) :
      Origin h last command id { subject with openNodes := left }

theorem KeepsTree.edited {changedId tree changed edit answer}
    (stored : h.trees.get? changedId = some tree) (edited : tree.edit edit = .ok (answer, changed))
    (trees : last.trees = h.trees.insert changedId changed) (id : TreeId) :
    KeepsTree h last id := by
  intro before held
  rw [trees, SortedMap.getInsert]
  split
  · rename_i here
    rw [here, stored] at held
    cases held
    refine ⟨changed, rfl, fun present => ?_⟩
    obtain ⟨node, found⟩ := Option.isSome_iff_exists.mp present
    obtain ⟨kept, here, _⟩ := Tree.keptByEdit edited found
    exact Option.isSome_of_eq_some here
  · exact ⟨before, held, fun present => present⟩

theorem Effect.origin {command id subject} (effect : Effect h last command)
    (found : last.subjects.get? id = some subject) : Origin h last command id subject := by
  cases effect with
  | none trees subjects =>
    rw [subjects] at found
    exact .kept found (.same trees)
  | @treeCreated _ new _ fresh trees subjects =>
    rw [subjects] at found
    refine .kept found fun tree stored => ⟨tree, ?_, fun present => present⟩
    have elsewhere : subject.tree ≠ new := by
      intro same
      rw [same, fresh] at stored
      contradiction
    rw [trees, SortedMap.getInsert, if_neg elsewhere, stored]
  | @nodeCreated _ _ _ tree content stored trees subjects =>
    rw [subjects] at found
    have added : tree.edit (.addNode content) = .ok (some tree.nextId, tree.addNode content) := rfl
    exact .kept found (.edited stored added trees _)
  | treeEdited stored edited trees subjects =>
    rw [subjects] at found
    exact .kept found (.edited stored edited trees _)
  | @treeDestroyed gone trees subjects =>
    rw [subjects, SortedMap.getMapValues] at found
    obtain ⟨old, bound, same⟩ := Option.map_eq_some_iff.mp found
    split at same
    · cases same
      exact .cleared bound
    · rename_i elsewhere
      cases same
      refine .kept bound fun tree held => ⟨tree, ?_, fun present => present⟩
      rw [trees, SortedMap.getErase, if_neg elsewhere, held]
  | subjectCreated trees subjects =>
    rw [subjects, SortedMap.getInsert] at found
    split at found
    · rename_i here
      cases found
      exact here ▸ .created
    · exact .kept found (.same trees)
  | subjectDestroyed trees subjects =>
    rw [subjects, SortedMap.getErase] at found
    split at found
    · contradiction
    · exact .kept found (.same trees)
  | ran bound stored ok trees subjects =>
    rw [subjects, SortedMap.getInsert] at found
    split at found
    · rename_i here
      cases found
      cases here
      exact .ran rfl bound stored ok trees
    · exact .kept found (.same trees)

theorem Effect.built {command} (effect : Effect h last command)
    (before : ∀ {id tree}, h.trees.get? id = some tree → tree.Built) {id tree}
    (stored : last.trees.get? id = some tree) : tree.Built := by
  cases effect with
  | none trees | subjectCreated trees | subjectDestroyed trees | ran _ _ _ trees =>
    rw [trees] at stored
    exact before stored
  | treeCreated _ trees =>
    rw [trees, SortedMap.getInsert] at stored
    split at stored
    · cases stored
      exact .empty _ _
    · exact before stored
  | @nodeCreated _ _ _ tree content held trees =>
    have added : tree.edit (.addNode content) = .ok (some tree.nextId, tree.addNode content) := rfl
    rw [trees, SortedMap.getInsert] at stored
    split at stored
    · cases stored
      exact (before held).edited added
    · exact before stored
  | treeEdited held edited trees =>
    rw [trees, SortedMap.getInsert] at stored
    split at stored
    · cases stored
      exact (before held).edited edited
    · exact before stored
  | treeDestroyed trees =>
    rw [trees, SortedMap.getErase] at stored
    split at stored
    · contradiction
    · exact before stored

theorem Effect.consistent {command} (effect : Effect h last command) (before : h.Consistent) :
    last.Consistent where
  built := effect.built before.built
  own found := by
    cases effect.origin found with
    | kept bound => exact before.own bound
    | created => rfl
    | cleared bound =>
      have own := before.own bound
      exact own
    | ran _ bound =>
      have own := before.own bound
      exact own
  known found isOpen := by
    cases effect.origin found with
    | kept bound tree =>
      obtain ⟨held, stored, present⟩ := before.known bound isOpen
      obtain ⟨changed, stored', kept⟩ := tree _ stored
      exact ⟨changed, stored', kept present⟩
    | created | cleared =>
      rw [OpenNodes.containsEmpty] at isOpen
      contradiction
    | ran _ bound stored ok trees =>
      rw [trees]
      rcases Plan.runOpens (before.built stored) ok isOpen with already | present
      · exact (before.known bound already :)
      · exact ⟨_, stored, present⟩

theorem Leads.consistent {commands} (leads : Leads h commands last) (first : h.Consistent) :
    last.Consistent := by
  induction leads with
  | start => exact first
  | next _ ok ih => exact (effect ok).consistent ih

def Rested (id : SubjectId) (tree : TreeId) (h : Host W) : Prop :=
  ∀ {subject}, h.subjects.get? id = some subject → subject.tree = tree →
    subject.openNodes = .empty

theorem Effect.rested {command id tree} (effect : Effect h last command)
    (unrun : ∀ plan, command ≠ .run id plan) (before : Rested id tree h) : Rested id tree last := by
  intro subject found bound
  cases effect.origin found with
  | kept old => exact before old bound
  | created | cleared => rfl
  | ran run => exact absurd run (unrun _)

theorem Leads.rested {commands id tree} (leads : Leads h commands last)
    (unrun : ∀ plan, .run id plan ∉ commands) (first : Rested id tree h) : Rested id tree last := by
  induction leads with
  | start => exact first
  | next before ok ih =>
    refine (effect ok).rested (fun plan same => unrun plan (by simp [same])) (ih fun plan mem => ?_)
    exact unrun plan (List.mem_append_left _ mem)

/- A tree can be created only under a name that is free, and then whatever its subjects had left
running is gone: until its first run a subject is the one that would be created now. -/
theorem openNodesOfStoredTree {settings : Settings} {commands}
    (leads : Leads (ofSettings settings) commands h) :
    (∀ {id subject}, h.subjects.get? id = some subject →
      (∀ {tree}, h.trees.get? subject.tree = some tree →
        ∀ {node}, subject.openNodes.contains node = true → (tree.node? node).isSome) ∧
      (h.trees.get? subject.tree = none → subject.openNodes = .empty)) ∧
    ∀ {name tree created since later}, h.createTree name = .ok (tree, created) →
      Leads created since later → ∀ {id subject}, later.subjects.get? id = some subject →
        subject.tree = tree → (∀ plan, .run id plan ∉ since) → subject = { id, tree } := by
  have consistent := leads.consistent (.fresh settings)
  constructor
  · intro id subject bound
    refine ⟨fun {tree} stored {node} isOpen => ?_, consistent.unstored bound⟩
    obtain ⟨held, stored', present⟩ := consistent.known bound isOpen
    rw [stored] at stored'
    cases stored'
    exact present
  · intro name tree created since later ok after id subject found bound unrun
    obtain ⟨free, _, _, same⟩ := createTreeExact ok
    have creates : Effect h created (.createTree name) :=
      .treeCreated free (by rw [same]) (by rw [same])
    have created' := creates.consistent consistent
    have own := (after.consistent created').own found
    have rested : Rested id tree created := by
      intro subject held bound
      rw [same] at held
      exact consistent.unstored held (bound ▸ free)
    have closed := after.rested unrun rested found bound
    cases subject
    cases own
    cases bound
    cases closed
    rfl

theorem openNodesOfRebornTree :
    let running := afterwards (ofSettings { registerNatives := false }) leavingOpen
    let gone := running.afterwards [.destroyTree ⟨"tree"⟩]
    let reborn := gone.afterwards [.createTree (some "tree")]
    let later := reborn.afterwards [.createSubject ⟨"tree"⟩, .run ⟨2⟩ {}]
    running.subjects.get? ⟨1⟩ =
        some { id := ⟨1⟩, tree := ⟨"tree"⟩, openNodes := .ofList [⟨0⟩] } ∧
      (∃ tree, running.trees.get? ⟨"tree"⟩ = some tree ∧ (tree.node? ⟨0⟩).isSome) ∧
      ∃ subject, later.subjects.get? ⟨1⟩ = some subject ∧
        subject = { id := ⟨1⟩, tree := ⟨"tree"⟩ } := by
  intro running gone reborn later
  have runs : Leads _ leavingOpen running := .afterwards (by decide +kernel)
  have fells : Leads running _ gone := .afterwards (by decide +kernel)
  have goesOn : Leads reborn _ later := .afterwards (by decide +kernel)
  have left : running.subjects.get? ⟨1⟩ =
      some { id := ⟨1⟩, tree := ⟨"tree"⟩, openNodes := .ofList [⟨0⟩] } := by decide +kernel
  have valid := (openNodesOfStoredTree runs).1 left
  have stored : (running.trees.get? ⟨"tree"⟩).isSome = true := by decide +kernel
  have creates : gone.createTree (some "tree") = .ok (⟨"tree"⟩, reborn) := rfl
  have bound : (later.subjects.get? ⟨1⟩).map Subject.tree = some ⟨"tree"⟩ := by decide +kernel
  obtain ⟨subject, found, same⟩ := Option.map_eq_some_iff.mp bound
  have fresh := (openNodesOfStoredTree (runs.append fells)).2 creates goesOn found same (by simp)
  exact ⟨left, ⟨_, (Option.some_get stored).symm, valid.1 (Option.some_get stored).symm
    (by decide +kernel)⟩, subject, found, fresh⟩

end Host
end BehaviorTree
