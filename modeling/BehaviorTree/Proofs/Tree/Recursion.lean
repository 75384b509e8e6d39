import BehaviorTree.Tree.Recursion
import Mathlib.Data.List.Nodup

/-!
# Missions without recursion

The check for recursion returns the definitions in an order in which every definition stands
behind the ones that it refers to. The place in this order is a rank that goes down along every
reference.
-/

namespace BehaviorTree

namespace MissionSource

/-- The latest definition in front, every definition refers to older ones only. -/
def Postorder (mission : MissionSource) : List String → Prop
  | [] => True
  | name :: older =>
    (∀ target ∈ mission.referencesOf name, target ∈ older) ∧ mission.Postorder older

/-- The place of a definition in an order whose latest definition is in front. -/
def rankIn (order : List String) (name : String) : Nat := order.reverse.idxOf name

variable {mission : MissionSource}

theorem Postorder.closed {order : List String} (ordered : mission.Postorder order)
    {name target : String} (listed : name ∈ order) (refers : target ∈ mission.referencesOf name) :
    target ∈ order := by
  induction order with
  | nil => cases listed
  | cons latest older ih =>
    rcases List.mem_cons.1 listed with rfl | listed
    · exact List.mem_cons_of_mem _ (ordered.1 target refers)
    · exact List.mem_cons_of_mem _ (ih ordered.2 listed)

theorem rankIn_cons_of_mem {latest name : String} {older : List String} (listed : name ∈ older) :
    rankIn (latest :: older) name = rankIn older name := by
  unfold rankIn
  rw [List.reverse_cons, List.idxOf_append_of_mem (List.mem_reverse.2 listed)]

theorem rankIn_lt_length {name : String} {order : List String} (listed : name ∈ order) :
    rankIn order name < order.length := by
  have bound := List.idxOf_lt_length_of_mem (List.mem_reverse.2 listed)
  rwa [List.length_reverse] at bound

theorem Postorder.rankIn_lt {order : List String} (ordered : mission.Postorder order)
    {name target : String} (listed : name ∈ order) (refers : target ∈ mission.referencesOf name) :
    rankIn order target < rankIn order name := by
  induction order with
  | nil => cases listed
  | cons latest older ih =>
    by_cases old : name ∈ older
    · rw [rankIn_cons_of_mem old, rankIn_cons_of_mem (ordered.2.closed old refers)]
      exact ih ordered.2 old
    · have same : name = latest := by
        rcases List.mem_cons.1 listed with same | old'
        · exact same
        · exact absurd old' old
      subst same
      have targetOld := ordered.1 target refers
      have last : rankIn (name :: older) name = older.length := by
        unfold rankIn
        rw [List.reverse_cons, List.idxOf_append_of_notMem (by simpa using old)]
        simp
      rw [rankIn_cons_of_mem targetOld, last]
      exact rankIn_lt_length targetOld

theorem postorder_followReferences {depth : Nat} {path verified targets order : List String}
    (followed : mission.followReferences depth path verified targets = .ok order)
    (ordered : mission.Postorder verified) :
    mission.Postorder order ∧ (∀ name ∈ verified, name ∈ order) ∧
      ∀ target ∈ targets, target ∈ order := by
  fun_induction followReferences mission depth path verified targets generalizing order with
  | case1 =>
    cases followed
    exact ⟨ordered, fun _ listed => listed, by simp⟩
  | case2 => cases followed
  | case3 _ _ verified target targets _ known ih =>
    rcases ih followed ordered with ⟨orderedAll, kept, reached⟩
    refine ⟨orderedAll, kept, ?_⟩
    intro name listed
    rcases List.mem_cons.1 listed with rfl | later
    · exact kept name known
    · exact reached name later
  | case4 => cases followed
  | case5 path verified target targets _ _ depth deeper deepest ihDeeper ihRest =>
    rcases ihDeeper deepest ordered with ⟨orderedDeeper, keptDeeper, reachedDeeper⟩
    rcases ihRest followed ⟨reachedDeeper, orderedDeeper⟩ with ⟨orderedAll, kept, reached⟩
    refine ⟨orderedAll, ?_, ?_⟩
    · intro name listed
      exact kept name (List.mem_cons_of_mem _ (keptDeeper name listed))
    · intro name listed
      rcases List.mem_cons.1 listed with rfl | later
      · exact kept name List.mem_cons_self
      · exact reached name later
  | case6 => cases followed

/-- If the names of definitions are different, a definition is found by its name. -/
theorem referencesOf_eq (distinct : (mission.trees.map TreeSource.name).Nodup)
    {tree : TreeSource} (listed : tree ∈ mission.trees) :
    mission.referencesOf tree.name = tree.root.references := by
  have found : mission.tree? tree.name = some tree := by
    unfold tree?
    cases located : mission.trees.find? fun other => other.name = tree.name with
    | none =>
      have missing := List.find?_eq_none.1 located tree listed
      simp at missing
    | some other =>
      have sameName : other.name = tree.name := by simpa using List.find?_some located
      rw [List.inj_on_of_nodup_map distinct (List.mem_of_find?_eq_some located) listed sameName]
  simp [referencesOf, found]

/-- Following the references of some definitions keeps the order and reaches the definitions. -/
theorem postorder_foldlM (distinct : (mission.trees.map TreeSource.name).Nodup)
    (trees : List TreeSource) (known : ∀ tree ∈ trees, tree ∈ mission.trees)
    {before after : List String} (ordered : mission.Postorder before)
    (folded : trees.foldlM (fun verified tree =>
      (mission.followReferences mission.trees.length [tree.name] verified
        tree.root.references).map (tree.name :: ·)) before = .ok after) :
    mission.Postorder after ∧ (∀ name ∈ before, name ∈ after) ∧
      ∀ tree ∈ trees, tree.name ∈ after := by
  induction trees generalizing before with
  | nil =>
    cases folded
    exact ⟨ordered, fun _ listed => listed, by simp⟩
  | cons tree trees ih =>
    rw [List.foldlM_cons] at folded
    cases followed : mission.followReferences mission.trees.length [tree.name] before
        tree.root.references with
    | error error =>
      rw [followed] at folded
      cases folded
    | ok middle =>
      rw [followed] at folded
      rcases postorder_followReferences followed ordered with ⟨orderedMiddle, kept, reached⟩
      rw [← referencesOf_eq distinct (known tree List.mem_cons_self)] at reached
      have orderedNext : mission.Postorder (tree.name :: middle) := ⟨reached, orderedMiddle⟩
      rcases ih (fun other listed => known other (List.mem_cons_of_mem _ listed)) orderedNext
        folded with ⟨orderedAfter, keptAll, reachedAll⟩
      refine ⟨orderedAfter, ?_, ?_⟩
      · intro name listed
        exact keptAll name (List.mem_cons_of_mem _ (kept name listed))
      · intro other listed
        rcases List.mem_cons.1 listed with rfl | later
        · exact keptAll _ List.mem_cons_self
        · exact reachedAll other later

/-- The check finds an order of all definitions, if their names are different. -/
theorem postorder_checkRecursion {verified : List String}
    (checked : mission.checkRecursion = .ok verified)
    (distinct : (mission.trees.map TreeSource.name).Nodup) :
    mission.Postorder verified ∧ ∀ tree ∈ mission.trees, tree.name ∈ verified := by
  have start : mission.Postorder [] := trivial
  rcases postorder_foldlM distinct mission.trees (fun _ listed => listed) start checked with
    ⟨ordered, -, reached⟩
  exact ⟨ordered, reached⟩

end MissionSource

end BehaviorTree
