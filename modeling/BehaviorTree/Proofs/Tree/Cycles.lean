import BehaviorTree.Proofs.Tree.WellFormed
import Mathlib.Data.List.Permutation
import Mathlib.Logic.Relation

/-!
# Missions that lead back to themselves

Definitions and the references between them are a graph. The loader follows references depth first
and refuses a mission exactly if this graph has a cycle, wherever it is and however often
definitions are shared. The search itself knows no bound: it ends because no definition stands twice
on a path. A reference that leads back onto the path closes a cycle, and without such a reference
all definitions are put into an order that references only descend.
-/

namespace BehaviorTree

namespace NodeSource

/-- A node is another one, or stands in it. -/
inductive Within : NodeSource → NodeSource → Prop where
  | self {node : NodeSource} : Within node node
  | child {inner child outer : NodeSource} (listed : child ∈ outer.children)
      (within : Within inner child) : Within inner outer

end NodeSource

namespace MissionSource

/-- Some node in a definition refers to another definition of the mission. The names of kinds are no
references. -/
def Refers (mission : MissionSource) (name target : String) : Prop :=
  ∃ tree ∈ mission.trees, tree.name = name ∧
    ∃ node : NodeSource, node.Within tree.root ∧ node.kind = target ∧
      NodeKind.ofName? target = none ∧ target ∈ mission.trees.map TreeSource.name

def IsCyclic (mission : MissionSource) : Prop :=
  ∃ name, Relation.TransGen mission.Refers name name

/-- The tree of a mission that is laid out with every check but the one for recursion. -/
def layOut (mission : MissionSource) : Except (Failure LoadError) Tree := do
  let declared ← mission.declarations.mapError .error
  if !declared.contains "main" then throw (.error .missingTree)
  let (nodes, roots) ← mission.trees.foldlM (layoutTree declared) (#[], .empty)
  match roots.get? "main" with
  | some main => return ⟨nodes, roots, main⟩
  | none => throw (.error .missingTree)

/-- The search for recursion, however deep it goes: from the definition in front of a path, it
follows references to targets, some definitions being verified before. -/
inductive Search (mission : MissionSource) :
    (path verified targets : List String) → Except LoadError (List String) → Prop where
  | done {path verified : List String} : Search mission path verified [] (.ok verified)
  /-- A target on the path is a recursion. -/
  | back {path verified targets : List String} {target : String} (onPath : target ∈ path) :
      Search mission path verified (target :: targets) (.error (.infiniteRecursion target))
  /-- A target that is verified is not followed again. -/
  | known {path verified targets : List String} {target : String}
      {result : Except LoadError (List String)} (new : target ∉ path)
      (isVerified : target ∈ verified) (rest : Search mission path verified targets result) :
      Search mission path verified (target :: targets) result
  | deeper {path verified middle targets : List String} {target : String}
      {result : Except LoadError (List String)} (new : target ∉ path)
      (unverified : target ∉ verified)
      (inner : Search mission (target :: path) verified (mission.referencesOf target) (.ok middle))
      (rest : Search mission path (target :: middle) targets result) :
      Search mission path verified (target :: targets) result
  | failed {path verified targets : List String} {target : String} {error : LoadError}
      (new : target ∉ path) (unverified : target ∉ verified)
      (inner : Search mission (target :: path) verified (mission.referencesOf target)
        (.error error)) :
      Search mission path verified (target :: targets) (.error error)

end MissionSource

namespace NodeSource

mutual

/-- The references of a node are the names of the nodes in it that are no names of kinds. -/
theorem mem_references_iff {target : String} : (source : NodeSource) →
    (target ∈ source.references ↔
      ∃ node : NodeSource, node.Within source ∧ node.kind = target ∧
        NodeKind.ofName? target = none)
  | .node kind label ports children => by
    have deeper : target ∈ referencesOfAll children ↔ ∃ child ∈ children, ∃ node : NodeSource,
        node.Within child ∧ node.kind = target ∧ NodeKind.ofName? target = none :=
      mem_referencesOfAll_iff children
    constructor
    · intro listed
      have here : target ∈ referencesOfAll children ∨
          kind = target ∧ NodeKind.ofName? target = none := by
        unfold references at listed
        split at listed
        · exact Or.inl listed
        · rename_i unnamed
          rcases List.mem_cons.1 listed with rfl | listed
          · exact Or.inr ⟨rfl, unnamed⟩
          · exact Or.inl listed
      rcases here with listed | ⟨same, unnamed⟩
      · rcases deeper.1 listed with ⟨child, isChild, node, within, named⟩
        exact ⟨node, .child isChild within, named⟩
      · exact ⟨_, .self, same, unnamed⟩
    · rintro ⟨node, within, named, unnamed⟩
      have inside : target ∈ referencesOfAll children ∨ kind = target := by
        cases within with
        | self => exact Or.inr named
        | child isChild within => exact Or.inl (deeper.2 ⟨_, isChild, node, within, named, unnamed⟩)
      unfold references
      rcases inside with listed | rfl
      · split
        · exact listed
        · exact List.mem_cons_of_mem _ listed
      · rw [unnamed]
        exact List.mem_cons_self

theorem mem_referencesOfAll_iff {target : String} : (sources : List NodeSource) →
    (target ∈ referencesOfAll sources ↔
      ∃ source ∈ sources, ∃ node : NodeSource, node.Within source ∧ node.kind = target ∧
        NodeKind.ofName? target = none)
  | [] => by simp [referencesOfAll]
  | source :: sources => by
    rw [referencesOfAll, List.mem_append, mem_references_iff source,
      mem_referencesOfAll_iff sources, List.exists_mem_cons_iff]

end

end NodeSource

mutual

/-- What is laid out refers to declared definitions only. -/
theorem declared_of_layout {declared : Table String (List Parameter)} {tree : TreeSource}
    {nodes after : Array Node} {index : NodeIndex} : (source : NodeSource) →
    layout declared tree nodes source = .ok (index, after) →
    ∀ target ∈ source.references, declared.contains target = true
  | .node kindName label ports sources, laid => by
    unfold layout at laid
    rw [bind_eq_ok] at laid
    rcases laid with ⟨⟨children, inner⟩, laidAll, laid⟩
    have deeper := declared_of_layoutAll sources laidAll
    unfold NodeSource.references
    simp only at laid
    split at laid
    · rename_i kind _ named
      rw [named]
      exact deeper
    · rename_i parameters unnamed known
      rw [unnamed]
      intro target listed
      rcases List.mem_cons.1 listed with rfl | listed
      · exact Table.contains_iff.2 ⟨parameters, known⟩
      · exact deeper target listed
    · cases laid

theorem declared_of_layoutAll {declared : Table String (List Parameter)} {tree : TreeSource}
    {nodes after : Array Node} {indices : List NodeIndex} : (sources : List NodeSource) →
    layoutAll declared tree nodes sources = .ok (indices, after) →
    ∀ target ∈ NodeSource.referencesOfAll sources, declared.contains target = true
  | [], _ => by simp [NodeSource.referencesOfAll]
  | source :: sources, laid => by
    unfold layoutAll at laid
    rw [bind_eq_ok] at laid
    rcases laid with ⟨⟨root, middle⟩, laidFirst, laid⟩
    simp only [bind_eq_ok] at laid
    rcases laid with ⟨⟨rest, last⟩, laidRest, -⟩
    intro target listed
    rw [NodeSource.referencesOfAll, List.mem_append] at listed
    exact listed.elim (declared_of_layout source laidFirst target)
      (declared_of_layoutAll sources laidRest target)

end

theorem declared_of_foldlM {declared : Table String (List Parameter)} {trees : List TreeSource}
    {before after : Array Node × Table String NodeIndex}
    (laid : trees.foldlM (layoutTree declared) before = .ok after) :
    ∀ tree ∈ trees, ∀ target ∈ tree.root.references, declared.contains target = true := by
  induction trees generalizing before with
  | nil => simp
  | cons tree rest ih =>
    rw [List.foldlM_cons, bind_eq_ok] at laid
    rcases laid with ⟨middle, laidTree, laid⟩
    rw [List.forall_mem_cons]
    refine ⟨?_, ih laid⟩
    unfold layoutTree at laidTree
    rw [bind_eq_ok] at laidTree
    rcases laidTree with ⟨⟨root, nodes⟩, laidRoot, -⟩
    exact declared_of_layout tree.root laidRoot

namespace MissionSource

variable {mission : MissionSource}

/-- Every reference leads to a definition, and no two definitions have the same name. -/
structure Linked (mission : MissionSource) : Prop where
  distinct : (mission.trees.map TreeSource.name).Nodup
  known : ∀ tree ∈ mission.trees, ∀ target ∈ tree.root.references,
    target ∈ mission.trees.map TreeSource.name

/-- A mission that is laid out has its tree if the check for recursion finds nothing. -/
theorem ofSource_of_layOut {tree : Tree} (laid : mission.layOut = .ok tree) :
    mission.Linked ∧
      Tree.ofSource mission = (mission.checkRecursion.mapError .error).map fun _ => tree := by
  unfold layOut at laid
  rw [bind_eq_ok] at laid
  rcases laid with ⟨declared, declaredOk, laid⟩
  split at laid
  · cases laid
  rename_i hasMain
  dsimp only at laid
  rw [bind_eq_ok] at laid
  rcases laid with ⟨⟨nodes, roots⟩, laidTrees, laid⟩
  dsimp only at laid
  split at laid
  swap
  · cases laid
  rename_i main mainRoot
  cases laid
  refine ⟨?_, ?_⟩
  · rw [mapError_eq_ok] at declaredOk
    rcases declarations_names declaredOk with ⟨distinct, -, names⟩
    refine ⟨distinct, fun definition listed target refers => ?_⟩
    have isDeclared := declared_of_foldlM laidTrees definition listed target refers
    simpa [Table.contains] using (names target).1 isDeclared
  · unfold Tree.ofSource
    rw [declaredOk]
    simp only [bind, Except.bind, hasMain, laidTrees]
    cases mission.checkRecursion with
    | error error => rfl
    | ok verified => simp [Except.mapError, Except.map, mainRoot, pure, Except.pure]

theorem Linked.refers_of_mem (linked : mission.Linked) {name target : String}
    (listed : target ∈ mission.referencesOf name) : mission.Refers name target := by
  unfold referencesOf at listed
  split at listed
  · rename_i tree found
    have isTree : tree ∈ mission.trees := List.mem_of_find?_eq_some found
    have named : tree.name = name := by simpa using List.find?_some found
    rcases NodeSource.mem_references_iff tree.root |>.1 listed with ⟨node, within, isNode⟩
    exact ⟨tree, isTree, named, node, within, isNode.1, isNode.2,
      linked.known tree isTree target listed⟩
  · cases listed

theorem Linked.mem_of_refers (linked : mission.Linked) {name target : String}
    (refers : mission.Refers name target) : target ∈ mission.referencesOf name := by
  rcases refers with ⟨tree, isTree, rfl, node, within, named, unnamed, -⟩
  rw [referencesOf_eq linked.distinct isTree]
  exact (NodeSource.mem_references_iff tree.root).2 ⟨node, within, named, unnamed⟩

/-- The search without a bound has one result. -/
theorem Search.unique {path verified targets : List String}
    {first second : Except LoadError (List String)}
    (searched : Search mission path verified targets first)
    (again : Search mission path verified targets second) : first = second := by
  induction searched generalizing second with
  | done =>
    cases again
    rfl
  | back onPath =>
    cases again with
    | back => rfl
    | known new => exact absurd onPath new
    | deeper new => exact absurd onPath new
    | failed new => exact absurd onPath new
  | known new isVerified rest ih =>
    cases again with
    | back onPath => exact absurd onPath new
    | known _ _ rest => exact ih rest
    | deeper _ unverified => exact absurd isVerified unverified
    | failed _ unverified => exact absurd isVerified unverified
  | deeper new unverified inner rest ihInner ihRest =>
    cases again with
    | back onPath => exact absurd onPath new
    | known _ isVerified => exact absurd isVerified unverified
    | deeper _ _ inner rest =>
      cases ihInner inner
      exact ihRest rest
    | failed _ _ inner => cases ihInner inner
  | failed new unverified inner ih =>
    cases again with
    | back onPath => exact absurd onPath new
    | known _ isVerified => exact absurd isVerified unverified
    | deeper _ _ inner => cases ih inner
    | failed _ _ inner =>
      cases ih inner
      rfl

/-- Different definitions of a mission are at most as many as the mission has. -/
theorem length_le_of_nodup {path : List String} (distinct : path.Nodup)
    (known : ∀ name ∈ path, name ∈ mission.trees.map TreeSource.name) :
    path.length ≤ mission.trees.length := by
  have atMost := (List.subperm_of_subset distinct known).length_le
  rwa [List.length_map] at atMost

/-- The bound on the depth of the search is never met: a path has no definition twice, so it ends
before the bound does. -/
theorem Linked.search_followReferences (linked : mission.Linked) {depth : Nat}
    {path verified targets : List String} (distinct : path.Nodup)
    (pathKnown : ∀ name ∈ path, name ∈ mission.trees.map TreeSource.name)
    (targetsKnown : ∀ name ∈ targets, name ∈ mission.trees.map TreeSource.name)
    (deep : mission.trees.length < path.length + depth) :
    Search mission path verified targets
      (mission.followReferences depth path verified targets) := by
  have referenced : ∀ name, ∀ target ∈ mission.referencesOf name,
      target ∈ mission.trees.map TreeSource.name := by
    intro name target listed
    rcases linked.refers_of_mem listed with ⟨-, -, -, -, -, -, -, known⟩
    exact known
  fun_induction followReferences mission depth path verified targets with
  | case1 => exact .done
  | case2 _ _ _ _ _ onPath => exact .back onPath
  | case3 _ _ _ _ _ new isVerified ih =>
    exact .known new isVerified
      (ih distinct pathKnown (fun name later => targetsKnown name (.tail _ later)) deep)
  | case4 path _ target _ new =>
    have longer : (target :: path).length ≤ mission.trees.length :=
      length_le_of_nodup (List.nodup_cons.2 ⟨new, distinct⟩)
        (List.forall_mem_cons.2 ⟨targetsKnown target List.mem_cons_self, pathKnown⟩)
    simp only [List.length_cons] at longer
    omega
  | case5 path _ target _ new unverified depth middle deepest ihInner ihRest =>
    have inner := ihInner (List.nodup_cons.2 ⟨new, distinct⟩)
      (List.forall_mem_cons.2 ⟨targetsKnown target List.mem_cons_self, pathKnown⟩)
      (referenced target) (by simp only [List.length_cons]; omega)
    rw [deepest] at inner
    exact .deeper new unverified inner
      (ihRest distinct pathKnown (fun name later => targetsKnown name (.tail _ later)) deep)
  | case6 path _ target _ new unverified depth error deepest ihInner =>
    have inner := ihInner (List.nodup_cons.2 ⟨new, distinct⟩)
      (List.forall_mem_cons.2 ⟨targetsKnown target List.mem_cons_self, pathKnown⟩)
      (referenced target) (by simp only [List.length_cons]; omega)
    rw [deepest] at inner
    exact .failed new unverified inner

/-- From every definition the search has one result, and the loader finds it. -/
theorem Linked.search_iff (linked : mission.Linked) {tree : TreeSource}
    (isTree : tree ∈ mission.trees) (verified : List String)
    (result : Except LoadError (List String)) :
    Search mission [tree.name] verified tree.root.references result ↔
      mission.followReferences mission.trees.length [tree.name] verified tree.root.references =
        result := by
  have named : tree.name ∈ mission.trees.map TreeSource.name := List.mem_map_of_mem isTree
  have found : Search mission [tree.name] verified tree.root.references
      (mission.followReferences mission.trees.length [tree.name] verified tree.root.references) :=
    linked.search_followReferences (List.nodup_singleton tree.name) (by simpa using named)
      (linked.known tree isTree) (by simp)
  constructor
  · intro searched
    exact found.unique searched
  · rintro rfl
    exact found

/-- If every definition on the path leads to the one in front, a search that fails has found a
cycle: a target on the path leads to the front, and the front refers to the target. -/
theorem Linked.cycle_of_search (linked : mission.Linked) {front : String}
    {path verified targets : List String} {result : Except LoadError (List String)}
    {error : LoadError}
    (searched : Search mission (front :: path) verified targets result)
    (leads : ∀ name ∈ front :: path, Relation.ReflTransGen mission.Refers name front)
    (refers : ∀ target ∈ targets, mission.Refers front target)
    (fails : result = .error error) :
    ∃ name, error = .infiniteRecursion name ∧ Relation.TransGen mission.Refers name name := by
  generalize whole : front :: path = onPath at searched
  induction searched generalizing front path with
  | done => cases fails
  | @back _ _ _ target listed =>
    subst whole
    cases fails
    exact ⟨target, rfl, .tail' (leads target listed) (refers target List.mem_cons_self)⟩
  | known _ _ _ ih => exact ih leads (fun target later => refers target (.tail _ later)) fails whole
  | deeper _ _ _ _ _ ih =>
    exact ih leads (fun target later => refers target (.tail _ later)) fails whole
  | @failed _ _ _ target _ _ _ _ ih =>
    subst whole
    have step := refers target List.mem_cons_self
    refine ih ?_ (fun next listed => linked.refers_of_mem listed) fails rfl
    intro name listed
    rcases List.mem_cons.1 listed with rfl | onPath
    · exact .refl
    · exact .tail (leads name onPath) step

theorem Linked.cycle_of_checkRecursion (linked : mission.Linked) {error : LoadError}
    (found : mission.checkRecursion = .error error) :
    ∃ name, error = .infiniteRecursion name ∧ Relation.TransGen mission.Refers name name := by
  have someFails : ∀ (trees : List TreeSource) (before : List String),
      trees.foldlM (fun verified tree =>
        (mission.followReferences mission.trees.length [tree.name] verified
          tree.root.references).map (tree.name :: ·)) before = .error error →
      ∃ tree ∈ trees, ∃ verified, mission.followReferences mission.trees.length [tree.name]
        verified tree.root.references = .error error := by
    intro trees
    induction trees with
    | nil =>
      intro before fails
      cases fails
    | cons tree trees ih =>
      intro before fails
      rw [List.foldlM_cons] at fails
      cases followed : mission.followReferences mission.trees.length [tree.name] before
          tree.root.references with
      | error other =>
        rw [followed] at fails
        cases fails
        exact ⟨tree, List.mem_cons_self, before, followed⟩
      | ok middle =>
        rw [followed] at fails
        rcases ih (tree.name :: middle) fails with ⟨other, listed, failed⟩
        exact ⟨other, List.mem_cons_of_mem _ listed, failed⟩
  rcases someFails mission.trees [] found with ⟨tree, isTree, verified, followed⟩
  have searched := (linked.search_iff isTree verified _).2 followed
  refine linked.cycle_of_search searched ?_ ?_ rfl
  · intro name listed
    rw [List.mem_singleton] at listed
    rw [listed]
  · intro target listed
    exact linked.refers_of_mem (by rwa [referencesOf_eq linked.distinct isTree])

/-- If the check finds nothing, the place of definitions in the order of the search goes down along
every reference. -/
theorem Linked.acyclic_of_checkRecursion (linked : mission.Linked) {order : List String}
    (checked : mission.checkRecursion = .ok order) : ¬ mission.IsCyclic := by
  rcases postorder_checkRecursion checked linked.distinct with ⟨ordered, complete⟩
  have descends : ∀ {name target : String}, mission.Refers name target →
      rankIn order target < rankIn order name := by
    intro name target refers
    have listed : name ∈ order := by
      rcases refers with ⟨tree, isTree, rfl, -⟩
      exact complete tree isTree
    exact ordered.rankIn_lt listed (linked.mem_of_refers refers)
  rintro ⟨name, cycle⟩
  have lower : ∀ target, Relation.TransGen mission.Refers name target →
      rankIn order target < rankIn order name := by
    intro target reached
    induction reached with
    | single refers => exact descends refers
    | tail _ refers ih => exact (descends refers).trans ih
  exact Nat.lt_irrefl _ (lower name cycle)

/-- Recursion is found exactly. If every other check of a mission passes, the search for recursion
ends from every definition, the mission is refused for a recursion if definitions lead back to
themselves, and it is accepted if none does. -/
theorem recursion_found_iff_cyclic {tree : Tree} (laid : mission.layOut = .ok tree) :
    (∀ definition ∈ mission.trees, ∀ verified result,
      Search mission [definition.name] verified definition.root.references result ↔
        mission.followReferences mission.trees.length [definition.name] verified
          definition.root.references = result) ∧
    (mission.IsCyclic → ∃ name,
      Tree.ofSource mission = .error (.error (.infiniteRecursion name)) ∧
        Relation.TransGen mission.Refers name name) ∧
    (¬ mission.IsCyclic → Tree.ofSource mission = .ok tree) := by
  rcases ofSource_of_layOut laid with ⟨linked, loaded⟩
  refine ⟨fun definition listed => linked.search_iff listed, fun cyclic => ?_, fun acyclic => ?_⟩
  · cases checked : mission.checkRecursion with
    | ok order => exact absurd cyclic (linked.acyclic_of_checkRecursion checked)
    | error error =>
      rcases linked.cycle_of_checkRecursion checked with ⟨name, rfl, cycle⟩
      exact ⟨name, by rw [loaded, checked]; rfl, cycle⟩
  · cases checked : mission.checkRecursion with
    | ok order => rw [loaded, checked]; rfl
    | error error =>
      rcases linked.cycle_of_checkRecursion checked with ⟨name, -, cycle⟩
      exact absurd ⟨name, cycle⟩ acyclic

/-- Two definitions refer to each other, and the main one refers to neither. -/
def detached : MissionSource :=
  ⟨[⟨"main", [], .node "Sequence" none [] []⟩,
    ⟨"ask", [], .node "Sequence" none [] [.node "answer" none [] []]⟩,
    ⟨"answer", [], .node "ask" none [] []⟩]⟩

theorem detached_recursion_found :
    ∃ name, Tree.ofSource detached = .error (.error (.infiniteRecursion name)) := by
  have laid : detached.layOut = .ok (detached.layOut.toOption.getD default) := by cbv
  have asks : detached.Refers "ask" "answer" :=
    ⟨_, .tail _ (.head _), rfl, .node "answer" none [] [], .child (.head _) .self, rfl, by cbv,
      by decide⟩
  have answers : detached.Refers "answer" "ask" :=
    ⟨_, .tail _ (.tail _ (.head _)), rfl, _, .self, rfl, by cbv, by decide⟩
  have cyclic : detached.IsCyclic := ⟨"ask", .tail (.single asks) answers⟩
  rcases (recursion_found_iff_cyclic laid).2.1 cyclic with ⟨name, refused, -⟩
  exact ⟨name, refused⟩

end MissionSource

end BehaviorTree
