import BehaviorTree.Lease.Registry
import BehaviorTree.Proofs.Engine.RemoteSessions
import BehaviorTree.Proofs.Runner.Leases
import BehaviorTree.Proofs.Tree.Assignments
import BehaviorTree.Proofs.Tree.Rebinding
import BehaviorTree.Remote.Script
import Mathlib

/-!
# Leases of requests

Which resources a remote node needs is known when it is loaded: the list of them is a literal or the
one of the operation, and overrides are filled into other fields. So with whatever values a node is
configured on a tick, its configuration lists the resources that the node named, and they are among
those that are acquired when the tree is played.
-/

namespace BehaviorTree

variable {σ π : Type}

section Configurations

variable {operation : RemoteOperation} {fields : FieldTable} {remote : RemoteConfiguration}

theorem configureRemote_leases (configured : configureRemote operation fields = .ok remote) :
    ∃ list, fields.text? "leases" = .ok list ∧
      remote.leases = (list.map splitLeases).getD operation.defaultLeases := by
  simp only [configureRemote, bind_eq_ok, mapError_eq_ok] at configured
  rcases configured with ⟨service, -, configured⟩
  split at configured
  · cases configured
  · simp only [bind_eq_ok, mapError_eq_ok] at configured
    rcases configured with ⟨list, listed, _, -, _, -, _, -, done⟩
    cases done
    exact ⟨list, listed, rfl⟩

/-- Only a text is a text, and it is the same one. -/
theorem text_of_coerce? {value coerced : Value} (fits : value.coerce? .string = some coerced) :
    coerced.text = value.text := by
  cases value with
  | string text =>
    cases fits
    rfl
  | bool | int | float | message => cases fits

/-- The list of the fields names the resources of a node with the same list. -/
theorem leases_of_text? {node : Node} {list : Option String}
    (isRemote : node.kind = .remote operation)
    (same : fields.get? "leases" = node.fields.get? "leases")
    (listed : fields.text? "leases" = .ok list) :
    (list.map splitLeases).getD operation.defaultLeases = node.leaseResources := by
  simp only [Node.leaseResources, isRemote, ← same]
  simp only [FieldTable.text?, map_eq_ok] at listed
  rcases listed with ⟨value, given, rfl⟩
  unfold FieldTable.constant? at given
  split at given
  · rename_i missing
    cases given
    rw [missing]
    rfl
  · rename_i literal found
    rw [map_eq_ok] at given
    rcases given with ⟨coerced, fits, rfl⟩
    have sameText : coerced.text = literal.text := text_of_coerce? (coerceFor_eq_ok.1 fits)
    rw [found]
    simp [sameText]
  · cases given

end Configurations

/-- The resources of a node are known when it is loaded: no override changes them, and the
configuration that the node has is made of its fields. -/
structure Node.LeasesKnown (node : Node) : Prop where
  free : ∀ change ∈ node.overrides, change.field ≠ "leases"
  configured : ∀ configuration, node.configuration = some configuration →
    node.kind ≠ .reference → node.kind.configure node.fields = .ok configuration

section Nodes

variable {declared : Table String (List Parameter)} {tree : TreeSource} {kind : NodeKind}
  {ports after : NodePorts} {title : String}

/-- A port that is no literal is refused in the place of the leases. -/
theorem free_of_add {port : PortSource} (free : ∀ change ∈ ports.overrides, change.field ≠ "leases")
    (added : ports.add tree kind title port = .ok after) :
    ∀ change ∈ after.overrides, change.field ≠ "leases" := by
  unfold NodePorts.add at added
  split at added
  · unfold NodePorts.addOutput at added
    split at added
    · split at added <;> cases added
      exact free
    · cases added
  · rw [bind_eq_ok] at added
    rcases added with ⟨operand, -, added⟩
    split at added
    · cases added
      exact free
    · unfold NodePorts.addField at added
      split at added
      · cases added
      · split at added
        · cases added
          exact free
        · rw [bind_eq_ok] at added
          rcases added with ⟨value, -, done⟩
          cases done
          exact free
        · split at added <;> cases added
          rename_i other
          intro change listed
          rcases List.mem_append.1 listed with listed | new
          · exact free change listed
          · rw [List.mem_singleton.1 new]
            exact other

theorem free_of_foldlM_add {list : List PortSource}
    (free : ∀ change ∈ ports.overrides, change.field ≠ "leases")
    (sorted : list.foldlM (NodePorts.add tree kind title) ports = .ok after) :
    ∀ change ∈ after.overrides, change.field ≠ "leases" := by
  induction list generalizing ports with
  | nil =>
    cases sorted
    exact free
  | cons first rest ih =>
    rw [List.foldlM_cons, bind_eq_ok] at sorted
    rcases sorted with ⟨middle, added, sorted⟩
    exact ih (free_of_add free added) sorted

theorem ensures_leasesKnown : Ensures declared tree Node.LeasesKnown := by
  refine ⟨fun {kind source children node} ordinary laid => ?_,
    fun {parameters source children node} known laid => ?_⟩
  · rcases sorts_of_layoutNode laid with ⟨ports, settled, sorts, settling, rfl⟩
    refine ⟨free_of_foldlM_add (by simp [NodePorts.empty]) sorts.sorted, ?_⟩
    intro configuration configured _
    have same : some configuration = (kind.configure ports.fields).toOption :=
      configured.symm.trans (toOption_of_settle settling)
    change kind.configure ports.fields = .ok configuration
    cases made : kind.configure ports.fields with
    | ok chosen =>
      rw [made] at same
      cases same
      rfl
    | error cause =>
      rw [made] at same
      cases same
  · have fits := layoutReference_fits laid
    have isReference : node.kind = .reference := fits.1.kind_eq_reference_iff.2 ⟨_, fits.2.2⟩
    have noOverrides : node.overrides = [] := (fits.1.reference isReference).1
    refine ⟨?_, ?_⟩
    · simp [noOverrides]
    · intro configuration _ ordinary
      exact absurd isReference ordinary

/-- On every tick a remote node asks for the resources that it names, whatever its overrides are
filled with. -/
theorem Node.LeasesKnown.leases_eq {node : Node} (known : node.LeasesKnown)
    {operation : RemoteOperation} (isRemote : node.kind = .remote operation) {context : Context σ}
    {configuration : Configuration}
    (effective : node.effectiveConfiguration context = .ok configuration) :
    ∃ remote, configuration = .remote remote ∧ remote.leases = node.leaseResources := by
  have ordinary : node.kind ≠ .reference := by simp [isRemote]
  -- With or without overrides the configuration is made of fields with the list of the node.
  have made : ∃ fields, fields.get? "leases" = node.fields.get? "leases" ∧
      node.kind.configure fields = .ok configuration := by
    rcases effectiveConfiguration_eq_ok effective with
      ⟨-, configured⟩ | ⟨-, fields, filled, configured⟩
    · exact ⟨node.fields, rfl, known.configured configuration configured ordinary⟩
    · exact ⟨fields, get?_of_foldlM_fill known.free filled, configured⟩
  rcases made with ⟨fields, same, configured⟩
  rw [isRemote, NodeKind.configure, map_eq_ok] at configured
  rcases configured with ⟨remote, configured, rfl⟩
  rcases configureRemote_leases configured with ⟨list, listed, leases⟩
  exact ⟨remote, rfl, leases.trans (leases_of_text? isRemote same listed)⟩

end Nodes

theorem Tree.leasesKnown_ofSource {mission : MissionSource} {tree : Tree}
    (loaded : Tree.ofSource mission = .ok tree) {index : NodeIndex} {node : Node}
    (found : tree.node? index = some node) : node.LeasesKnown :=
  forall_ofSource (fun _ _ _ known => ⟨known.free, known.configured⟩)
    (fun _ _ => ensures_leasesKnown) loaded index node found

/-- The tree needs what its nodes need. -/
theorem Tree.mem_leaseResources {tree : Tree} {index : NodeIndex} {node : Node} {resource : String}
    (found : tree.node? index = some node) (needed : resource ∈ node.leaseResources) :
    resource ∈ tree.leaseResources := by
  unfold leaseResources
  rw [mem_sortedNames, List.mem_flatMap]
  exact ⟨node, Array.mem_toList_iff.2 (Array.mem_of_getElem? found), needed⟩

/-- A mission that is played has acquired what its tree needs. -/
theorem Runner.acquireAll_of_play [RemoteService σ] [LeaseProvider π] {runner after : Runner σ}
    {tree : Tree} {now : Duration} {provider later : π} (waiting : runner.state ≠ .playing)
    (loaded : runner.tree = some tree)
    (played : runner.play now provider = (.ok after, later)) :
    runner.leases.acquireAll provider tree.leaseResources = (.ok after.leases, later) := by
  cases played_of_play played with
  | already playing => exact absurd playing waiting
  | @started other leases _ _ known granted =>
    rw [loaded, Option.some.injEq] at known
    subst known
    have kept := (prepare_keeps { runner with leases := leases }).1
    rw [granted]
    exact congrArg (fun held => (Except.ok held, later)) kept.symm

/-- Leases cover every request. Whatever the overrides of a remote node are filled with, its
configuration lists the resources that the node names, and the tree needs all of them. These are
the resources that are acquired when a runner plays the tree. -/
theorem requests_ask_for_acquired_leases [RemoteService σ] [LeaseProvider π]
    {mission : MissionSource} {tree : Tree} (loaded : Tree.ofSource mission = .ok tree)
    {index : NodeIndex} {node : Node} {operation : RemoteOperation}
    (found : tree.node? index = some node) (isRemote : node.kind = .remote operation)
    {context : Context σ} {configuration : Configuration}
    (effective : node.effectiveConfiguration context = .ok configuration) :
    (∃ remote, configuration = .remote remote ∧ remote.leases = node.leaseResources ∧
      ∀ resource ∈ remote.leases, resource ∈ tree.leaseResources) ∧
    ∀ (runner after : Runner σ) (now : Duration) (provider later : π),
      runner.tree = some tree → runner.state ≠ .playing →
      runner.play now provider = (.ok after, later) →
      runner.leases.acquireAll provider tree.leaseResources = (.ok after.leases, later) := by
  have known := Tree.leasesKnown_ofSource loaded found
  rcases known.leases_eq isRemote effective with ⟨remote, same, leases⟩
  refine ⟨⟨remote, same, leases, ?_⟩, ?_⟩
  · rw [leases]
    exact fun resource needed => Tree.mem_leaseResources found needed
  · intro runner after now provider later has waiting played
    exact Runner.acquireAll_of_play waiting has played

/-- The way and the host are taken from variables, and the resources are listed. -/
def delivery : MissionSource :=
  ⟨[⟨"main", [], .node "NavigateRoute" none
    [⟨.input, "waypoint_ids", .path "way"⟩, ⟨.input, "host", .path "robot"⟩,
      ⟨.input, "leases", .constant (.string "body, gripper")⟩] []⟩]⟩

def deliveryTree : Tree := (Tree.ofSource delivery).toOption.getD default

def deliveryNode : Node := (deliveryTree.node? 0).getD default

/-- There is also a variable with other resources, which no node reads. -/
def deliveryContext : Context ScriptedService :=
  .atRoot
    ⟨[⟨0, some ⟨none, .ofList [("way", ⟨.string "hall,dock", .zero, none⟩),
      ("robot", ⟨.string "rover", .zero, none⟩),
      ("leases", ⟨.string "arm", .zero, none⟩)]⟩⟩], []⟩
    .empty .empty []

def deliveryConfiguration : Configuration :=
  (deliveryNode.effectiveConfiguration deliveryContext).toOption.getD .simpleParallel

/-- A runner that is ready to play the mission. -/
def deliveryRunner : Runner ScriptedService :=
  { Runner.create .standard .empty with tree := some deliveryTree }

def playedDelivery : Runner ScriptedService :=
  (deliveryRunner.play .zero LeaseRegistry.empty).1.toOption.getD deliveryRunner

def registryAfterDelivery : LeaseRegistry := (deliveryRunner.play .zero LeaseRegistry.empty).2

set_option maxRecDepth 100000 in
theorem delivery_asks_for_gripper :
    deliveryNode.leaseResources = ["body", "gripper"] ∧
      (∃ remote, deliveryConfiguration = .remote remote ∧
        remote.leases = deliveryNode.leaseResources ∧
        ∀ resource ∈ remote.leases, resource ∈ deliveryTree.leaseResources) ∧
      playedDelivery.leases.resources = ["body", "gripper"] ∧
      deliveryRunner.leases.acquireAll LeaseRegistry.empty deliveryTree.leaseResources =
        (.ok playedDelivery.leases, registryAfterDelivery) := by
  have loaded : Tree.ofSource delivery = .ok deliveryTree := by cbv
  have found : deliveryTree.node? 0 = some deliveryNode := by cbv
  have isRemote : deliveryNode.kind = .remote .navigateRoute := by cbv
  have effective :
      deliveryNode.effectiveConfiguration deliveryContext = .ok deliveryConfiguration := by cbv
  have played : deliveryRunner.play .zero LeaseRegistry.empty =
      (.ok playedDelivery, registryAfterDelivery) := by cbv
  have asks := requests_ask_for_acquired_leases (π := LeaseRegistry) loaded found isRemote effective
  refine ⟨by cbv, asks.1, by cbv, ?_⟩
  exact asks.2 deliveryRunner playedDelivery .zero .empty registryAfterDelivery rfl
    (fun playing => by cases playing) played

end BehaviorTree
