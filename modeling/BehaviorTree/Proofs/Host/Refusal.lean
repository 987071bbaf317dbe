import BehaviorTree.Proofs.Host
import BehaviorTree.Proofs.Host.Operations

/-! Operations that fail change nothing: a command carried out in place does what `perform` says,
and leaves a host that it refuses as it was, with its names, classes, links and counters. Nor does
a run that has nothing to run. -/
namespace BehaviorTree

variable {W : Type}

namespace Host
variable {T : Type}

inductive Idle (h : Host W) (id : SubjectId) : Prop where
  | unknown (missing : h.subjects.get? id = none)
  | treeless {subject} (bound : h.subjects.get? id = some subject)
      (missing : h.trees.get? subject.tree = none)
  | rootless {subject tree} (bound : h.subjects.get? id = some subject)
      (stored : h.trees.get? subject.tree = some tree) (rootless : tree.root = none)

def answering {ε : Type} {α : Type*} (world : W) (tell : Except ε α → Answer W T)
    (op : InPlace (Host W) ε α) (h : Host W) : Option (Answer W T × Host W × W) :=
  (op h).map fun (result, last) => (tell result, last, world)

def carryOut [Observer W T] (patience : Nat) (h : Host W) (world : W) :
    Command W → Option (Answer W T × Host W × W)
  | .createTree name => answering world .treeCreated (createTreeInPlace name) h
  | .destroyTree id =>
    answering world (fun result => .treeDestroyed result.toOption) (destroyTreeInPlace id) h
  | .createNode id className overrides =>
    answering world .nodeCreated (createNodeInPlace id className overrides) h
  | .editTree id edit =>
    answering world
      (fun
        | .ok added => .treeEdited (some (.ok added))
        | .error (some e) => .treeEdited (some (.error e))
        | .error none => .treeEdited none)
      (editTreeInPlace id edit) h
  | .createSubject id =>
    answering world (fun | .ok subject => .subjectCreated subject) (createSubjectInPlace id) h
  | .destroySubject id =>
    answering world (fun result => .subjectDestroyed result.isOk) (destroySubjectInPlace id) h
  | .register cls =>
    answering world .registered (inCatalog (fun e => e) (Catalog.registerInPlace cls)) h
  | .instantiate className overrides =>
    answering world (fun result => .instantiated result.toOption)
      (inCatalog (fun e => e) (Catalog.instantiateInPlace className overrides)) h
  | .run id plan =>
    (h.run plan patience id world).map fun (report, changed) =>
      (.ran report.status report.seen, changed, report.world)

section
variable {h last : Host W} {world world' : W} {answer : Answer W T} {ε : Type} {α : Type*}
  {tell : Except ε α → Answer W T} {op : InPlace (Host W) ε α}

theorem refusedClean (ok : answering world tell op h = some (answer, last, world'))
    (refused : answer.Refusal) (clean : op.Clean) (tells : ∀ a, ¬(tell (.ok a)).Refusal) :
    last = h ∧ world' = world := by
  obtain ⟨⟨result, left⟩, gone, same⟩ := Option.map_eq_some_iff.mp ok
  cases same
  cases result with
  | ok a => exact absurd refused (tells a)
  | error e => exact ⟨clean h e last gone, rfl⟩

theorem answeringSettled {f : Host W → Except ε (α × Host W)} (clean : op.Clean)
    (yields : op.Yields f h) :
    answering world tell op h = some (match f h with
      | .ok (a, last) => (tell (.ok a), last, world)
      | .error e => (tell (.error e), h, world)) := by
  rw [answering, clean.settled yields]
  cases f h <;> rfl

end

theorem carryOutExact [Observer W T] {h : Host W} (few : h.trees.size < UInt64.size)
    (patience : Nat) (world : W) (command : Command W) :
    h.carryOut (T := T) patience world command = h.perform patience world command := by
  cases command with
  | createTree name =>
    rw [carryOut, perform, answeringSettled (createTreeClean name) (createTreeYields few name)]
    cases h.createTree name <;> rfl
  | destroyTree id =>
    rw [carryOut, perform, answeringSettled (destroyTreeClean id) (destroyTreeYields id h)]
    cases h.destroyTree id <;> rfl
  | createNode id className overrides =>
    rw [carryOut, perform, answeringSettled (createNodeClean id className overrides)
      (createNodeYields id className overrides h)]
    cases h.createNode id className overrides <;> rfl
  | editTree id edit =>
    rw [carryOut, perform, answeringSettled (editTreeClean id edit) (editTreeYields id edit h)]
    rcases h.editTree id edit with _ | _ | _ <;> rfl
  | createSubject id =>
    rw [carryOut, perform, answeringSettled (.ofSure (createSubjectSure id))
      (createSubjectYields id h)]
  | destroySubject id =>
    rw [carryOut, perform, answeringSettled (destroySubjectClean id) (destroySubjectYields id h)]
    cases h.destroySubject id <;> rfl
  | register cls =>
    rw [carryOut, perform, answeringSettled (inCatalogClean (Catalog.registerClean cls))
      (inCatalogYields _ (Catalog.registerYields cls h.catalog))]
    cases h.catalog.register cls <;> rfl
  | instantiate className overrides =>
    rw [carryOut, perform,
      answeringSettled (inCatalogClean (Catalog.instantiateClean className overrides))
        (inCatalogYields _ (Catalog.instantiateYields className overrides h.catalog))]
    cases h.catalog.instantiate className overrides <;> rfl
  | run id plan => rfl

theorem refusedUnchanged [Observer W T] {h last : Host W} {patience : Nat} {world world' : W}
    {command : Command W} {answer : Answer W T}
    (ok : h.carryOut patience world command = some (answer, last, world'))
    (refused : answer.Refusal) : last = h ∧ world' = world := by
  cases command <;> rw [carryOut] at ok
  case createTree name => exact refusedClean ok refused (createTreeClean name) fun _ => nofun
  case destroyTree id => exact refusedClean ok refused (destroyTreeClean id) fun _ => nofun
  case createNode id className overrides =>
    exact refusedClean ok refused (createNodeClean id className overrides) fun _ => nofun
  case editTree id edit => exact refusedClean ok refused (editTreeClean id edit) fun _ => nofun
  case createSubject id =>
    exact refusedClean ok refused (.ofSure (createSubjectSure id)) fun _ => nofun
  case destroySubject id =>
    exact refusedClean ok refused (destroySubjectClean id) fun _ => nofun
  case register cls =>
    exact refusedClean ok refused (inCatalogClean (Catalog.registerClean cls)) fun _ => nofun
  case instantiate className overrides =>
    exact refusedClean ok refused (inCatalogClean (Catalog.instantiateClean className overrides))
      fun _ => nofun
  case run id plan =>
    obtain ⟨_, _, same⟩ := Option.map_eq_some_iff.mp ok
    cases same
    contradiction

theorem idleRun [Observer W T] {h : Host W} {id : SubjectId} (idle : h.Idle id) (plan : Plan W)
    (patience : Nat) (world : W) :
    h.run (T := T) plan patience id world = some (.idle world, h) := by
  cases idle with
  | unknown missing => simp [run, resolve, missing]
  | treeless bound missing => simp [run, resolve, bound, missing]
  | rootless bound stored rootless =>
    simp [run, resolve, bound, stored, Plan.runTree, rootless, setOpenNodes,
      SortedMap.insertFound bound]

end Host

theorem refusalChangesNothing (patience : Nat) (h : Host W) (world : W) (command : Command W) :
    (h.trees.size < UInt64.size →
      h.carryOut (T := Timeline W) patience world command = h.perform patience world command) ∧
    (∀ (answer : Answer W (Timeline W)) (last : Host W) (world' : W),
      h.carryOut patience world command = some (answer, last, world') → answer.Refusal →
        last = h ∧ world' = world) ∧
    (∀ id plan, command = .run id plan → h.Idle id →
      h.carryOut patience world command = some (.ran .error ([] : Timeline W), h, world)) := by
  refine ⟨fun few => Host.carryOutExact few patience world command,
    fun _ _ _ ok refused => Host.refusedUnchanged ok refused, ?_⟩
  rintro id plan rfl idle
  rw [Host.carryOut, Host.idleRun idle]
  rfl

-- The name of a tree that exists is refused, and its subject has nothing to run once it is gone.
theorem refusalChangesNothingDuplicate :
    let h := Host.afterwards (.ofSettings { registerNatives := false }) Host.leavingOpen
    let gone := h.afterwards [.destroyTree ⟨"tree"⟩]
    (∃ last, h.carryOut (T := Timeline Unit) 0 () (.createTree (some "tree")) =
      some (.treeCreated (.error (.duplicateTree ⟨"tree"⟩)), last, ()) ∧ last = h) ∧
    gone.carryOut (T := Timeline Unit) 0 () (.run ⟨1⟩ {}) = some (.ran .error [], gone, ()) := by
  intro h gone
  refine ⟨⟨_, rfl, ?_⟩, ?_⟩
  · have kept := (refusalChangesNothing 0 h () (.createTree (some "tree"))).2.1
    exact (kept _ _ _ rfl (.treeCreated _)).1
  · exact (refusalChangesNothing 0 gone () (.run ⟨1⟩ {})).2.2 ⟨1⟩ {} rfl (.treeless rfl rfl)

end BehaviorTree
