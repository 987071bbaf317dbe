import BehaviorTree.Host
import BehaviorTree.Proofs.Host.InPlace
import BehaviorTree.Proofs.Host.Naming
import BehaviorTree.Proofs.SortedMap

/-! The operations on a host, written out as ones that work on it in place, with their checks and
their writes in order. Each does what the function on hosts says, and each is clean: what it has
written when it fails, if anything, is what stood there before. -/
namespace BehaviorTree

variable {W : Type}

namespace Catalog

def registerInPlace (cls : NodeClass W) : InPlace (Catalog W) CatalogError Unit :=
  .refuse (cls.name = "") .emptyName <|
  .refuse (cls.behavior.isTickable = false) (.missingTick cls.name) <|
  .read (·.classes.contains cls.name) fun known =>
  .refuse (known = true) (.duplicate cls.name) <|
  .write (fun c => { c with classes := c.classes.insert cls.name cls }) <|
  .done ()

def instantiateInPlace (name : String) (overrides : Properties) :
    InPlace (Catalog W) Unit (Instance W) :=
  .read (·.get? name) fun found =>
  .need found () fun cls =>
  .write (fun c => { c with issued := c.issued + 1 }) <|
  .read (·.issued) fun number =>
  .done
    { name := name ++ "-" ++ toString number
      className := cls.name
      kind := cls.kind
      properties := cls.parameters.insertAll overrides.toList
      behavior := cls.behavior }

end Catalog

def Edit.inPlace : Edit W → InPlace (Tree W) TreeError (Option NodeId)
  | .addNode content =>
    .read Tree.nextId fun id =>
    .write (·.addNode content) <|
    .done (some id)
  | .setRoot node =>
    .read (·.node? node) fun found =>
    .need found (.unknownNode node) fun n =>
    .refuse (n.parent.isSome = true) (.parentedRoot node) <|
    .write (fun t => { t with root := some node }) <|
    .done none
  | .addChild parent child =>
    .refuse (parent = child) (.selfChild child) <|
    .read (fun t => t) fun t =>
    .need (t.node? parent) (.unknownNode parent) fun p =>
    .need (t.node? child) (.unknownNode child) fun c =>
    .forbid c.parent (.alreadyParented child) <|
    .refuse (t.root = some child) (.rootAsChild child) <|
    .forbid (t.fullAt p) (.arityExceeded parent p.kind) <|
    .refuse (t.isAncestor child parent = true) (.cycle parent child) <|
    .write (·.change parent fun n => { n with children := n.children ++ [child] }) <|
    .write (·.change child fun n => { n with parent := some parent }) <|
    .done none

namespace Host

def searchInPlace : Nat → InPlace (Host W) HostError TreeId
  | 0 => fun _ => none
  | trials + 1 =>
    .write (fun h => { h with lastTree := h.lastTree + 1 }) <|
    .read (fun h => (generatedName h.lastTree, h.trees.contains (generatedName h.lastTree)))
      fun (name, taken) => if taken then searchInPlace trials else .done name

def plantInPlace (id : TreeId) : InPlace (Host W) HostError TreeId :=
  .read (·.trees.contains id) fun taken =>
  .refuse (taken = true) (.duplicateTree id) <|
  .read (fun h => if h.settings.strictArity then Arity.strict else .relaxed) fun arity =>
  .write (fun h => { h with trees := h.trees.insert id { id, arity } }) <|
  .done id

def createTreeInPlace (name : Option String) : InPlace (Host W) HostError TreeId :=
  match name with
  | some text => if text = "" then generated else plantInPlace ⟨text⟩
  | none => generated
where
  generated : InPlace (Host W) HostError TreeId :=
    .read (·.trees.size) fun trees => (searchInPlace (trees + 1)).andThen plantInPlace

def destroyTreeInPlace (id : TreeId) : InPlace (Host W) Unit (Tree W) :=
  .read (·.trees.get? id) fun removed =>
  .write (fun h => { h with trees := h.trees.erase id }) <|
  .need removed () fun tree =>
  .write (fun h =>
    { h with subjects := h.subjects.mapValues fun s =>
        if s.tree = id then { s with openNodes := .empty } else s }) <|
  .done tree

def inCatalog {ε δ : Type} {α : Type*} (tell : ε → δ) (op : InPlace (Catalog W) ε α) :
    InPlace (Host W) δ α :=
  .within (fun h => .ok h.catalog) (fun catalog h => { h with catalog }) tell op

def createNodeInPlace (id : TreeId) (className : String) (overrides : Properties) :
    InPlace (Host W) HostError NodeId :=
  .read (·.trees.get? id) fun found =>
  .need found (.unknownTree id) fun tree =>
  (inCatalog (fun _ => HostError.unknownClass className)
    (Catalog.instantiateInPlace className overrides)).andThen fun content =>
  .write (fun h => { h with trees := h.trees.insert id (tree.addNode content) }) <|
  .done tree.nextId

def editTreeInPlace (id : TreeId) (edit : Edit W) :
    InPlace (Host W) (Option TreeError) (Option NodeId) :=
  .within (fun h => (h.trees.get? id).elim (.error none) .ok)
    (fun tree h => { h with trees := h.trees.insert id tree }) some edit.inPlace

def createSubjectInPlace (tree : TreeId) : InPlace (Host W) Empty SubjectId :=
  .write (fun h => { h with lastSubject := h.lastSubject + 1 }) <|
  .read (fun h => ⟨h.lastSubject⟩) fun id =>
  .write (fun h => { h with subjects := h.subjects.insert id { id, tree } }) <|
  .done id

def destroySubjectInPlace (id : SubjectId) : InPlace (Host W) Unit Unit :=
  .read (·.subjects.get? id) fun removed =>
  .write (fun h => { h with subjects := h.subjects.erase id }) <|
  .need removed () fun _ =>
  .done ()

end Host

section Cleanness

theorem Catalog.registerClean (cls : NodeClass W) : (registerInPlace cls).Clean :=
  .refuse <| .refuse <| .read fun _ => .refuse <| .ofSure <| .write (.done ())

theorem Catalog.instantiateClean (name : String) (overrides : Properties) :
    (instantiateInPlace (W := W) name overrides).Clean :=
  .read fun _ => .need fun _ => .ofSure <| .write <| .read fun _ => .done _

theorem Edit.clean (edit : Edit W) : edit.inPlace.Clean := by
  unfold inPlace
  cases edit with
  | addNode content => exact .ofSure <| .read fun _ => .write (.done _)
  | setRoot node =>
    refine .read fun _ => .need fun _ => .refuse ?_
    exact .ofSure <| .write (.done _)
  | addChild parent child =>
    refine .refuse <| .read fun _ => .need fun _ => .need fun _ => ?_
    refine .forbid <| .refuse <| .forbid <| .refuse ?_
    exact .ofSure <| .write <| .write (.done _)

namespace Host

def counted (trials : Nat) (h : Host W) : Host W :=
  { h with lastTree := freeNumber h.trees trials h.lastTree }

theorem searchExact {trials : Nat} {h : Host W} :
    searchInPlace (trials + 1) h =
      if h.trees.contains (generatedName (h.counted trials).lastTree) = true then none
      else some (.ok (generatedName (h.counted trials).lastTree), h.counted trials) := by
  have step (trials : Nat) (h : Host W) : searchInPlace (trials + 1) h =
      if h.trees.contains (generatedName (h.lastTree + 1)) = true then
        searchInPlace trials { h with lastTree := h.lastTree + 1 }
      else some (.ok (generatedName (h.lastTree + 1)), { h with lastTree := h.lastTree + 1 }) := by
    simp only [searchInPlace, InPlace.write, InPlace.read]
    split <;> rfl
  induction trials generalizing h with
  | zero => exact step 0 h
  | succ trials ih =>
    rw [step, counted, freeNumber]
    split
    · exact ih
    · rfl

theorem plantClean (id : TreeId) : (plantInPlace (W := W) id).Clean :=
  .read fun _ => .refuse <| .read fun _ => .ofSure <| .write (.done _)

theorem generatedExact {h : Host W} :
    createTreeInPlace.generated h =
      if h.trees.contains (generatedName (h.counted h.trees.size).lastTree) = true then none
      else plantInPlace (generatedName (h.counted h.trees.size).lastTree)
        (h.counted h.trees.size) := by
  simp only [createTreeInPlace.generated, InPlace.read, InPlace.andThen, searchExact]
  by_cases taken : h.trees.contains (generatedName (h.counted h.trees.size).lastTree) = true
  · simp only [if_pos taken]
  · simp only [if_neg taken]

theorem planted {h : Host W} {id : TreeId} (free : h.trees.contains id ≠ true) :
    ∃ last, plantInPlace id h = some (.ok id, last) := by
  simp [plantInPlace, InPlace.read, InPlace.refuse, InPlace.write, InPlace.done, free]

-- A search that ends has found a free name, so planting has nothing to refuse after it.
theorem generatedSure : (createTreeInPlace.generated (W := W)).Sure := by
  intro h e last failed
  rw [generatedExact] at failed
  split at failed
  · contradiction
  · rename_i free
    obtain ⟨_, ok⟩ := planted (h := h.counted h.trees.size) free
    rw [ok] at failed
    cases failed

theorem createTreeClean (name : Option String) : (createTreeInPlace (W := W) name).Clean := by
  unfold createTreeInPlace
  split
  · split
    · exact .ofSure generatedSure
    · exact plantClean _
  · exact .ofSure generatedSure

theorem destroyTreeClean (id : TreeId) : (destroyTreeInPlace (W := W) id).Clean := by
  refine .needAfter (fun h missing => ?_) fun tree => .write (.done _)
  rw [SortedMap.eraseMissing missing]

theorem inCatalogClean {ε δ : Type} {α : Type*} {tell : ε → δ} {op : InPlace (Catalog W) ε α}
    (clean : op.Clean) : (inCatalog tell op).Clean := by
  refine .within (fun h catalog here => ?_) clean
  cases here
  rfl

theorem createNodeClean (id : TreeId) (className : String) (overrides : Properties) :
    (createNodeInPlace (W := W) id className overrides).Clean := by
  refine .read fun _ => .need fun tree => .andThen ?_ fun content => .write (.done _)
  exact inCatalogClean (Catalog.instantiateClean className overrides)

theorem editTreeClean (id : TreeId) (edit : Edit W) : (editTreeInPlace id edit).Clean := by
  refine .within (fun h tree here => ?_) edit.clean
  cases found : h.trees.get? id with
  | none =>
    rw [found] at here
    contradiction
  | some target =>
    rw [found] at here
    cases here
    rw [SortedMap.insertFound found]

theorem createSubjectSure (tree : TreeId) : (createSubjectInPlace (W := W) tree).Sure :=
  .write <| .read fun _ => .write (.done _)

theorem destroySubjectClean (id : SubjectId) : (destroySubjectInPlace (W := W) id).Clean := by
  refine .needAfter (fun h missing => ?_) fun _ => .done _
  rw [SortedMap.eraseMissing missing]

end Host
end Cleanness

section Agreement
open InPlace

theorem Catalog.registerYields (cls : NodeClass W) (c : Catalog W) :
    (registerInPlace cls).Yields (fun c => (c.register cls).map fun changed => ((), changed)) c := by
  refine .refuse (fun unnamed => ?_) fun named => ?_
  · simp [register, Except.map, unnamed]
  refine .refuse (fun mute => ?_) fun tickable => ?_
  · simp [register, Except.map, named, mute]
  refine .read <| .refuse (fun known => ?_) fun fresh => .ending rfl ?_
  · simp [register, Except.map, named, tickable, known]
  · simp [register, Except.map, named, tickable, fresh]

theorem Catalog.instantiateYields (name : String) (overrides : Properties) (c : Catalog W) :
    (instantiateInPlace name overrides).Yields
      (fun c => (c.instantiate name overrides).elim (.error ()) .ok) c := by
  refine .read <| .need (fun unknown => ?_) fun cls found => .ending rfl ?_
  · simp [instantiate, unknown]
  · simp [instantiate, found]

theorem Edit.yields (edit : Edit W) (t : Tree W) : edit.inPlace.Yields (·.edit edit) t := by
  unfold inPlace
  cases edit with
  | addNode content => exact .ending rfl rfl
  | setRoot node =>
    refine .read <| .need (fun unknown => ?_) fun n found => .refuse (fun below => ?_) fun free =>
      .ending rfl ?_
    all_goals simp [Tree.edit, Tree.setRoot, Except.map, *]
  | addChild parent child =>
    refine .refuse (fun same => ?_) fun distinct => .read <| .need (fun lost => ?_) fun p above =>
      .need (fun lost => ?_) fun c below => .forbid (fun old attached => ?_) fun free =>
      .refuse (fun isRoot => ?_) fun notRoot => .forbid (fun bound full => ?_) fun room =>
      .refuse (fun cyclic => ?_) fun acyclic => .ending rfl ?_
    all_goals simp [Tree.edit, Tree.addChild, Except.map, *]

namespace Host

theorem plantYields {f : Host W → Except HostError (TreeId × Host W)} {id : TreeId} {h : Host W}
    (taken : h.trees.contains id = true → f h = .error (.duplicateTree id))
    (free : h.trees.contains id = false →
      let arity := if h.settings.strictArity then Arity.strict else .relaxed
      f h = .ok (id, { h with trees := h.trees.insert id { id, arity } })) :
    (plantInPlace id).Yields f h :=
  .read <| .refuse taken fun absent => .ending rfl (free (Bool.eq_false_iff.mpr absent))

theorem createTreeYields {h : Host W} (few : h.trees.size < UInt64.size) (name : Option String) :
    (createTreeInPlace name).Yields (·.createTree name) h := by
  have free : h.trees.contains (generatedName (h.counted h.trees.size).lastTree) = false :=
    freeNumberExact few h.lastTree
  have generated : createTreeInPlace.generated.Yields (·.createTree none) h := by
    obtain ⟨result, last, ok, same⟩ :
        (plantInPlace (generatedName (h.counted h.trees.size).lastTree)).Yields
          (fun _ => h.createTree none) (h.counted h.trees.size) := by
      refine plantYields (fun taken => absurd taken (Bool.eq_false_iff.mp free)) fun _ => ?_
      exact if_neg (Bool.eq_false_iff.mp free)
    refine ⟨result, last, ?_, same⟩
    rw [generatedExact, if_neg (Bool.eq_false_iff.mp free)]
    exact ok
  cases name with
  | none => exact generated
  | some text =>
    rw [createTreeInPlace]
    split
    · rename_i unnamed
      subst unnamed
      exact generated
    · rename_i named
      refine plantYields (fun taken => ?_) fun free => ?_
      · simp [createTree, named, taken]
      · simp [createTree, named, free]

theorem destroyTreeYields (id : TreeId) (h : Host W) :
    (destroyTreeInPlace id).Yields (fun h => (h.destroyTree id).elim (.error ()) .ok) h := by
  refine .read <| .write <| .need (fun missing => ?_) fun tree found => .ending rfl ?_
  · simp [destroyTree, missing]
  · simp [destroyTree, found]

theorem inCatalogYields {ε δ : Type} {α : Type*} {op : InPlace (Catalog W) ε α}
    {g : Catalog W → Except ε (α × Catalog W)} {h : Host W} (tell : ε → δ)
    (yields : op.Yields g h.catalog) :
    (inCatalog tell op).Yields
      (fun h => match g h.catalog with
        | .ok (a, catalog) => .ok (a, { h with catalog })
        | .error e => .error (tell e)) h := by
  refine .within rfl yields ?_
  cases g h.catalog <;> rfl

theorem createNodeYields (id : TreeId) (className : String) (overrides : Properties)
    (h : Host W) :
    (createNodeInPlace id className overrides).Yields (·.createNode id className overrides) h := by
  have made := inCatalogYields (fun _ => HostError.unknownClass className)
    (Catalog.instantiateYields className overrides h.catalog)
  refine .read <| .need (fun lost => ?_) fun tree found => .andThen made ?_ ?_
  · simp [createNode, lost]
  · intro e unknown
    cases same : h.catalog.instantiate className overrides <;> simp [same] at unknown
    simp [createNode, found, same, unknown]
  · intro content middle known
    cases same : h.catalog.instantiate className overrides <;> simp [same] at known
    refine .ending rfl ?_
    obtain ⟨rfl, rfl⟩ := known
    simp [createNode, found, same]

theorem editTreeYields (id : TreeId) (edit : Edit W) (h : Host W) :
    (editTreeInPlace id edit).Yields (fun h => match h.editTree id edit with
      | none => .error none
      | some (.error e) => .error (some e)
      | some (.ok edited) => .ok edited) h := by
  cases found : h.trees.get? id with
  | none =>
    have missing : editTreeInPlace id edit h = some (.error none, h) := by
      simp [editTreeInPlace, InPlace.within, found]
    exact .failing missing (by simp [editTree, found])
  | some tree =>
    refine .within (t := tree) (by simp [found]) (edit.yields tree) ?_
    simp only [editTree, found, Option.map_some]
    cases tree.edit edit <;> rfl

theorem createSubjectYields (tree : TreeId) (h : Host W) :
    (createSubjectInPlace tree).Yields (fun h => .ok (h.createSubject tree)) h :=
  .ending rfl rfl

theorem destroySubjectYields (id : SubjectId) (h : Host W) :
    (destroySubjectInPlace id).Yields
      (fun h => (h.destroySubject id).elim (.error ()) fun last => .ok ((), last)) h := by
  refine .read <| .write <| .need (fun missing => ?_) fun subject found => .ending rfl ?_
  · simp [destroySubject, SortedMap.contains, missing]
  · simp [destroySubject, SortedMap.contains, found]

end Host

end Agreement

end BehaviorTree
