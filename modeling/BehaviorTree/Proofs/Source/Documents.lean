import BehaviorTree.Proofs.Node.Fields
import BehaviorTree.Source.Document
import Mathlib

/-!
# What documents describe

A document describes a mission if every entry of its sections stands for a part of the mission and
every part of the mission for an entry, in their order. A mission is read from every document that
describes it. The other way around, a document from which a mission is read describes it exactly if
its sections have the right shape, as a section of another shape is not looked at.
-/

namespace BehaviorTree

namespace Yaml

/-- The entries of a section, which may be left out or null. -/
inductive Lists : Option Yaml → List (Yaml × Yaml) → Prop where
  | absent : Lists none []
  | null : Lists (some .null) []
  | mapping (entries : List (Yaml × Yaml)) : Lists (some (.mapping entries)) entries

/-- The items of a section, which may be left out or null. -/
inductive Itemizes : Option Yaml → List Yaml → Prop where
  | absent : Itemizes none []
  | null : Itemizes (some .null) []
  | sequence (items : List Yaml) : Itemizes (some (.sequence items)) items

/-- A port is connected with a variable, with a parameter or with the value of a literal. -/
inductive DescribesOperand : Yaml → Operand → Prop where
  | path {yaml : Yaml} {path : String} (leads : yaml.get? "var" = some (.string path)) :
    DescribesOperand yaml (.path path)
  | parameter (name : String) : DescribesOperand (.string ("$" ++ name)) (.parameter name)
  | constant {yaml : Yaml} {content : Json} (plain : yaml.get? "var" = none)
    (literal : ∀ name, yaml ≠ .string ("$" ++ name)) (read : yaml.toJson? = some content) :
    DescribesOperand yaml (.constant (.ofJson content))

inductive DescribesInput : Yaml × Yaml → PortSource → Prop where
  | input {value : Yaml} {operand : Operand} (name : String)
    (connected : value.DescribesOperand operand) :
    DescribesInput (.string name, value) ⟨.input, name, operand⟩

inductive DescribesOutput : Yaml × Yaml → PortSource → Prop where
  | output (name path : String) :
    DescribesOutput (.string name, .string path) ⟨.output, name, .path path⟩

inductive DescribesParameter : Yaml × Yaml → ParameterSource → Prop where
  | kind (name kind : String) :
    DescribesParameter (.string name, .string kind) ⟨name, kind, none⟩
  | needed {declaration : Yaml} {kind : String} (name : String)
    (typed : declaration.get? "type" = some (.string kind))
    (without : declaration.get? "default" = none) :
    DescribesParameter (.string name, declaration) ⟨name, kind, none⟩
  | optional {declaration default : Yaml} {kind : String} {content : Json} (name : String)
    (typed : declaration.get? "type" = some (.string kind))
    (given : declaration.get? "default" = some default) (read : default.toJson? = some content) :
    DescribesParameter (.string name, declaration) ⟨name, kind, some (.ofJson content)⟩

mutual

/-- A node has a port, an output or a child for everything that its sections hold, and nothing
else. -/
inductive DescribesNode : Yaml → NodeSource → Prop where
  | node {yaml : Yaml} {kind : String} {label : Option String} {inputs outputs : List PortSource}
    {children : List NodeSource} {inputEntries outputEntries : List (Yaml × Yaml)}
    {items : List Yaml} (named : yaml.get? "type" = some (.string kind))
    (labelled : yaml.get? "name" = label.map .string)
    (listsInputs : Lists (yaml.get? "ports") inputEntries)
    (describesInputs : List.Forall₂ DescribesInput inputEntries inputs)
    (listsOutputs : Lists (yaml.get? "outputs") outputEntries)
    (describesOutputs : List.Forall₂ DescribesOutput outputEntries outputs)
    (itemizes : Itemizes (yaml.get? "children") items) (nested : DescribesChildren items children) :
    DescribesNode yaml (.node kind label (inputs ++ outputs) children)

/-- Only definitions declare parameters, the nodes in them do not. -/
inductive DescribesChildren : List Yaml → List NodeSource → Prop where
  | nil : DescribesChildren [] []
  | cons {item : Yaml} {items : List Yaml} {child : NodeSource} {children : List NodeSource}
    (undeclared : Lists (item.get? "parameters") []) (first : DescribesNode item child)
    (rest : DescribesChildren items children) :
    DescribesChildren (item :: items) (child :: children)

end

inductive DescribesTree : Yaml × Yaml → TreeSource → Prop where
  | tree {yaml : Yaml} {entries : List (Yaml × Yaml)} {parameters : List ParameterSource}
    {root : NodeSource} (name : String) (lists : Lists (yaml.get? "parameters") entries)
    (declared : List.Forall₂ DescribesParameter entries parameters)
    (rooted : yaml.DescribesNode root) :
    DescribesTree (.string name, yaml) ⟨name, parameters, root⟩

/-- A document describes a mission with exactly the definitions under `behavior_tree`. -/
inductive Describes : Yaml → MissionSource → Prop where
  | mission {yaml : Yaml} {entries : List (Yaml × Yaml)} {trees : List TreeSource}
    (found : yaml.get? "behavior_tree" = some (.mapping entries))
    (defined : List.Forall₂ DescribesTree entries trees) : Describes yaml ⟨trees⟩

def IsTable (name : String) (yaml : Yaml) : Prop := ∃ entries, Lists (yaml.get? name) entries

def IsList (name : String) (yaml : Yaml) : Prop := ∃ items, Itemizes (yaml.get? name) items

/-- Every section of a node and of the nodes in it is of the right shape. -/
inductive IsShapedNode : Yaml → Prop where
  | node {yaml : Yaml} (inputs : yaml.IsTable "ports") (outputs : yaml.IsTable "outputs")
    (children : yaml.IsList "children")
    (undeclared : ∀ item ∈ yaml.itemsUnder "children", Lists (item.get? "parameters") [])
    (deeper : ∀ item ∈ yaml.itemsUnder "children", item.IsShapedNode) : IsShapedNode yaml

/-- Every section of every definition is of the right shape. -/
def IsShaped (yaml : Yaml) : Prop :=
  ∀ entry ∈ yaml.entriesUnder "behavior_tree",
    entry.2.IsTable "parameters" ∧ entry.2.IsShapedNode

end Yaml

open Yaml

variable {yaml value : Yaml} {entry : Yaml × Yaml} {kind name : String}

theorem lists_iff {entries : List (Yaml × Yaml)} :
    Lists (yaml.get? name) entries ↔ yaml.IsTable name ∧ yaml.entriesUnder name = entries := by
  have entriesUnder_eq : ∀ entries, Lists (yaml.get? name) entries →
      yaml.entriesUnder name = entries := by
    intro entries lists
    unfold entriesUnder
    generalize yaml.get? name = content at lists
    cases lists <;> rfl
  constructor
  · exact fun lists => ⟨⟨entries, lists⟩, entriesUnder_eq entries lists⟩
  · rintro ⟨⟨others, lists⟩, rfl⟩
    rwa [entriesUnder_eq others lists]

theorem itemizes_iff {items : List Yaml} :
    Itemizes (yaml.get? name) items ↔ yaml.IsList name ∧ yaml.itemsUnder name = items := by
  have itemsUnder_eq : ∀ items, Itemizes (yaml.get? name) items →
      yaml.itemsUnder name = items := by
    intro items itemizes
    unfold itemsUnder
    generalize yaml.get? name = content at itemizes
    cases itemizes <;> rfl
  constructor
  · exact fun itemizes => ⟨⟨items, itemizes⟩, itemsUnder_eq items itemizes⟩
  · rintro ⟨⟨others, itemizes⟩, rfl⟩
    rwa [itemsUnder_eq others itemizes]

theorem Value.ofYaml_eq_ok_iff {literal : Value} :
    Value.ofYaml yaml = .ok literal ↔ ∃ content, yaml.toJson? = some content ∧
      literal = .ofJson content := by
  unfold Value.ofYaml
  split
  · rename_i content read
    rw [read]
    grind
  · rename_i unread
    simp [unread]

theorem Operand.ofYaml_eq_ok_iff {operand : Operand} :
    Operand.ofYaml yaml = .ok operand ↔ yaml.DescribesOperand operand := by
  constructor
  · intro read
    unfold Operand.ofYaml at read
    split at read
    · rename_i path leads
      cases read
      exact .path leads
    · cases read
    · rename_i text plain
      split at read
      · rename_i name spelled
        cases read
        have marked : text = "$" ++ String.ofList name := by
          rw [← String.toList_inj, spelled]
          simp
        rw [marked]
        exact .parameter (String.ofList name)
      · rename_i unmarked
        cases read
        refine .constant plain ?_ rfl
        rintro name same
        cases same
        exact unmarked name.toList (by simp)
    · rename_i notText plain
      rw [map_eq_ok] at read
      rcases read with ⟨literal, valued, rfl⟩
      rcases Value.ofYaml_eq_ok_iff.1 valued with ⟨content, read, rfl⟩
      exact .constant plain (fun name same => notText _ same) read
  · rintro (leads | name | ⟨plain, literal, read⟩)
    · simp [Operand.ofYaml, leads]
    · simp [Operand.ofYaml, get?]
    · unfold Operand.ofYaml
      split
      · rename_i leads
        cases plain.symm.trans leads
      · rename_i leads
        cases plain.symm.trans leads
      · rename_i text _
        split
        · rename_i name spelled
          refine absurd (congrArg Yaml.string ?_) (literal (String.ofList name))
          rw [← String.toList_inj, spelled]
          simp
        · cases read
          rfl
      · rw [Value.ofYaml_eq_ok_iff.2 ⟨_, read, rfl⟩]
        rfl

theorem PortSource.inputOfYaml_eq_ok_iff {port : PortSource} :
    PortSource.inputOfYaml kind entry = .ok port ↔ DescribesInput entry port := by
  rcases entry with ⟨key, value⟩
  constructor
  · intro read
    unfold PortSource.inputOfYaml at read
    split at read
    · rename_i name keyed
      rw [map_eq_ok] at read
      rcases read with ⟨operand, read, rfl⟩
      cases keyed
      exact .input name (Operand.ofYaml_eq_ok_iff.1 read)
    · cases read
  · rintro ⟨name, connected⟩
    simp [PortSource.inputOfYaml, Operand.ofYaml_eq_ok_iff.2 connected, Except.map]

theorem PortSource.outputOfYaml_eq_ok_iff {port : PortSource} :
    PortSource.outputOfYaml kind entry = .ok port ↔ DescribesOutput entry port := by
  constructor
  · intro read
    unfold PortSource.outputOfYaml at read
    split at read
    · rename_i name path
      cases read
      exact .output name path
    · cases read
  · rintro ⟨name, path⟩
    rfl

theorem ParameterSource.ofYaml_eq_ok_iff {parameter : ParameterSource} :
    ParameterSource.ofYaml entry = .ok parameter ↔ DescribesParameter entry parameter := by
  rcases entry with ⟨key, declaration⟩
  constructor
  · intro read
    unfold ParameterSource.ofYaml at read
    split at read
    · rename_i name kind keyed typed
      cases keyed
      cases typed
      cases read
      exact .kind name kind
    · rename_i name keyed _
      cases keyed
      split at read
      · rename_i kind default typed given
        rw [map_eq_ok] at read
        rcases read with ⟨literal, valued, rfl⟩
        rcases Value.ofYaml_eq_ok_iff.1 valued with ⟨content, read, rfl⟩
        exact .optional name typed given read
      · rename_i kind typed without
        cases read
        exact .needed name typed without
      · cases read
    · cases read
  · rintro (⟨name, kind⟩ | ⟨name, typed, without⟩ | ⟨name, typed, given, read⟩)
    · rfl
    · cases declaration with
      | mapping entries =>
        simp [ParameterSource.ofYaml, typed, without]
      | _ => cases typed
    · cases declaration with
      | mapping entries =>
        have valued := Value.ofYaml_eq_ok_iff.2 ⟨_, read, rfl⟩
        simp [ParameterSource.ofYaml, typed, given, valued, Except.map]
      | _ => cases typed

namespace NodeSource

theorem kindOfYaml_eq_ok_iff :
    kindOfYaml yaml = .ok kind ↔ yaml.get? "type" = some (.string kind) := by
  unfold kindOfYaml
  split <;> grind

theorem labelOfYaml_eq_ok_iff {label : Option String} :
    labelOfYaml kind yaml = .ok label ↔ yaml.get? "name" = label.map .string := by
  unfold labelOfYaml
  cases label <;> split <;> grind

theorem ofYaml_eq (yaml : Yaml) : ofYaml yaml = (do
    let kind ← kindOfYaml yaml
    let label ← labelOfYaml kind yaml
    let inputs ← (yaml.entriesUnder "ports").mapM (PortSource.inputOfYaml kind)
    let outputs ← (yaml.entriesUnder "outputs").mapM (PortSource.outputOfYaml kind)
    let children ← (yaml.itemsUnder "children").mapM ofYaml
    return .node kind label (inputs ++ outputs) children) := by
  rw [ofYaml]
  simp only [List.mapM_subtype, List.unattach_attach]

/-- A node is read from the entries and items that its sections have, if they have the right
shape. -/
theorem ofYaml_eq_ok_iff {label : Option String} {ports : List PortSource}
    {children : List NodeSource} :
    ofYaml yaml = .ok (.node kind label ports children) ↔
      yaml.get? "type" = some (.string kind) ∧ yaml.get? "name" = label.map .string ∧
        (∃ inputs outputs, List.Forall₂ DescribesInput (yaml.entriesUnder "ports") inputs ∧
          List.Forall₂ DescribesOutput (yaml.entriesUnder "outputs") outputs ∧
          ports = inputs ++ outputs) ∧
        List.Forall₂ (fun item child => ofYaml item = .ok child) (yaml.itemsUnder "children")
          children := by
  rw [ofYaml_eq]
  simp only [bind_eq_ok, mapM_eq_ok, kindOfYaml_eq_ok_iff, labelOfYaml_eq_ok_iff,
    PortSource.inputOfYaml_eq_ok_iff, PortSource.outputOfYaml_eq_ok_iff]
  constructor
  · rintro ⟨_, named, _, labelled, inputs, readInputs, outputs, readOutputs, _, nested, done⟩
    cases done
    exact ⟨named, labelled, ⟨inputs, outputs, readInputs, readOutputs, rfl⟩, nested⟩
  · rintro ⟨named, labelled, ⟨inputs, outputs, readInputs, readOutputs, rfl⟩, nested⟩
    exact ⟨kind, named, label, labelled, inputs, readInputs, outputs, readOutputs, children, nested,
      rfl⟩

mutual

/-- A node is read from every document that describes it. -/
theorem ofYaml_of_describesNode {yaml : Yaml} {source : NodeSource} :
    yaml.DescribesNode source → ofYaml yaml = .ok source
  | .node named labelled listsInputs describesInputs listsOutputs describesOutputs itemizes
      nested => by
    rw [lists_iff] at listsInputs listsOutputs
    rcases listsInputs with ⟨-, rfl⟩
    rcases listsOutputs with ⟨-, rfl⟩
    rcases itemizes_iff.1 itemizes with ⟨-, rfl⟩
    exact ofYaml_eq_ok_iff.2 ⟨named, labelled, ⟨_, _, describesInputs, describesOutputs, rfl⟩,
      ofYaml_of_describesChildren nested⟩

theorem ofYaml_of_describesChildren {items : List Yaml} {children : List NodeSource} :
    DescribesChildren items children →
      List.Forall₂ (fun item child => ofYaml item = .ok child) items children
  | .nil => .nil
  | .cons _ first rest => .cons (ofYaml_of_describesNode first) (ofYaml_of_describesChildren rest)

end

mutual

/-- A node is described by every document of the right shape from which it is read. -/
theorem describesNode_of_ofYaml {yaml : Yaml} (shaped : yaml.IsShapedNode) :
    (source : NodeSource) → ofYaml yaml = .ok source → yaml.DescribesNode source
  | .node kind label ports children, read => by
    rcases shaped with ⟨tableInputs, tableOutputs, list, undeclared, deeper⟩
    rcases ofYaml_eq_ok_iff.1 read with
      ⟨named, labelled, ⟨inputs, outputs, readInputs, readOutputs, rfl⟩, nested⟩
    exact .node named labelled (lists_iff.2 ⟨tableInputs, rfl⟩) readInputs
      (lists_iff.2 ⟨tableOutputs, rfl⟩) readOutputs (itemizes_iff.2 ⟨list, rfl⟩)
      (describesChildren_of_ofYaml undeclared deeper children nested)

theorem describesChildren_of_ofYaml {items : List Yaml}
    (undeclared : ∀ item ∈ items, Lists (item.get? "parameters") [])
    (shaped : ∀ item ∈ items, item.IsShapedNode) : (children : List NodeSource) →
    List.Forall₂ (fun item child => ofYaml item = .ok child) items children →
    DescribesChildren items children
  | [], .nil => .nil
  | child :: children, .cons read nested => by
    rw [List.forall_mem_cons] at undeclared shaped
    exact .cons undeclared.1 (describesNode_of_ofYaml shaped.1 child read)
      (describesChildren_of_ofYaml undeclared.2 shaped.2 children nested)

end

mutual

theorem isShapedNode_of_describesNode {yaml : Yaml} {source : NodeSource} :
    yaml.DescribesNode source → yaml.IsShapedNode
  | .node named labelled listsInputs describesInputs listsOutputs describesOutputs itemizes
      nested => by
    have ⟨undeclared, deeper⟩ := isShapedNode_of_describesChildren nested
    have items := (itemizes_iff.1 itemizes).2
    exact .node ⟨_, listsInputs⟩ ⟨_, listsOutputs⟩ ⟨_, itemizes⟩ (items ▸ undeclared)
      (items ▸ deeper)

theorem isShapedNode_of_describesChildren {items : List Yaml} {children : List NodeSource} :
    DescribesChildren items children →
      (∀ item ∈ items, Lists (item.get? "parameters") []) ∧ ∀ item ∈ items, item.IsShapedNode
  | .nil => by simp
  | .cons undeclared first rest => by
    have ⟨undeclaredRest, shapedRest⟩ := isShapedNode_of_describesChildren rest
    rw [List.forall_mem_cons, List.forall_mem_cons]
    exact ⟨⟨undeclared, undeclaredRest⟩, isShapedNode_of_describesNode first, shapedRest⟩

end

end NodeSource

theorem TreeSource.ofYaml_eq_ok_iff {tree : TreeSource} :
    TreeSource.ofYaml entry = .ok tree ↔ entry.1 = .string tree.name ∧
      List.Forall₂ DescribesParameter (entry.2.entriesUnder "parameters") tree.parameters ∧
      NodeSource.ofYaml entry.2 = .ok tree.root := by
  rcases tree with ⟨name, parameters, root⟩
  unfold TreeSource.ofYaml
  split
  · rename_i key keyed
    simp only [bind_eq_ok, mapM_eq_ok, ParameterSource.ofYaml_eq_ok_iff, keyed, string.injEq]
    constructor
    · rintro ⟨_, declared, _, rooted, done⟩
      cases done
      exact ⟨rfl, declared, rooted⟩
    · rintro ⟨rfl, declared, rooted⟩
      exact ⟨parameters, declared, root, rooted, rfl⟩
  · rename_i unnamed
    constructor
    · rintro ⟨⟩
    · rintro ⟨named, -⟩
      exact absurd named (unnamed name)

/-- A definition is described by an entry exactly if it is read from it and the sections of the
entry have the right shape. -/
theorem describesTree_iff {tree : TreeSource} :
    DescribesTree entry tree ↔ (entry.2.IsTable "parameters" ∧ entry.2.IsShapedNode) ∧
      TreeSource.ofYaml entry = .ok tree := by
  rw [TreeSource.ofYaml_eq_ok_iff]
  constructor
  · rintro ⟨name, lists, declared, rooted⟩
    rcases lists_iff.1 lists with ⟨table, rfl⟩
    exact ⟨⟨table, NodeSource.isShapedNode_of_describesNode rooted⟩, rfl, declared,
      NodeSource.ofYaml_of_describesNode rooted⟩
  · rcases entry with ⟨key, yaml⟩
    rintro ⟨⟨table, shaped⟩, named, declared, rooted⟩
    cases named
    exact .tree tree.name (lists_iff.2 ⟨table, rfl⟩) declared
      (NodeSource.describesNode_of_ofYaml shaped tree.root rooted)

namespace MissionSource

theorem ofYaml_eq_ok_iff {mission : MissionSource} :
    ofYaml yaml = .ok mission ↔ ∃ entries, yaml.get? "behavior_tree" = some (.mapping entries) ∧
      List.Forall₂ (fun entry tree => TreeSource.ofYaml entry = .ok tree) entries
        mission.trees := by
  unfold ofYaml
  split
  · rename_i entries found
    rw [map_eq_ok]
    simp only [mapM_eq_ok, found, Option.some.injEq, mapping.injEq]
    constructor
    · rintro ⟨trees, read, rfl⟩
      exact ⟨entries, rfl, read⟩
    · rintro ⟨_, rfl, read⟩
      exact ⟨mission.trees, read, rfl⟩
  · rename_i missing
    constructor
    · rintro ⟨⟩
    · rintro ⟨entries, found, -⟩
      exact absurd found (missing entries)

/-- A mission is read from every document that describes it. -/
theorem ofYaml_of_describes {mission : MissionSource} (describes : yaml.Describes mission) :
    ofYaml yaml = .ok mission := by
  rcases describes with ⟨found, defined⟩
  exact ofYaml_eq_ok_iff.2 ⟨_, found, defined.imp fun _ _ described =>
    (describesTree_iff.1 described).2⟩

/-- All sections of a document that describes a mission have the right shape. -/
theorem isShaped_of_describes {mission : MissionSource} (describes : yaml.Describes mission) :
    yaml.IsShaped := by
  rcases describes with ⟨found, defined⟩
  have described := defined.imp fun _ _ described => describesTree_iff.1 described
  intro entry listed
  rw [entriesUnder, found] at listed
  exact (List.forall₂_and_left _ _).1 described |>.1 entry listed

/-- A document describes a mission, without any loss, exactly if the mission is read from it and all
of its sections have the right shape. -/
theorem describes_iff {mission : MissionSource} :
    yaml.Describes mission ↔ ofYaml yaml = .ok mission ∧ yaml.IsShaped := by
  constructor
  · exact fun describes => ⟨ofYaml_of_describes describes, isShaped_of_describes describes⟩
  · rintro ⟨read, shaped⟩
    rcases ofYaml_eq_ok_iff.1 read with ⟨entries, found, defined⟩
    rw [IsShaped, entriesUnder, found] at shaped
    have described := (List.forall₂_and_left _ _).2 ⟨shaped, defined⟩
    exact .mission found (described.imp fun _ _ both => describesTree_iff.2 both)

end MissionSource

/-- A document with a definition in which all sections are used. -/
def attempts : Yaml :=
  .mapping [(.string "behavior_tree", .mapping [(.string "main", .mapping [
    (.string "parameters", .mapping [(.string "limit", .mapping [(.string "type", .string "int"),
      (.string "default", .integer ⟨3, by decide⟩)])]),
    (.string "type", .string "Retry"), (.string "name", .string "attempts"),
    (.string "ports", .mapping [(.string "max_attempts", .string "$limit")]),
    (.string "outputs", .mapping [(.string "attempt", .string "tries")]),
    (.string "children", .sequence [.mapping [(.string "type", .string "Sleep"),
      (.string "ports", .mapping [(.string "seconds", .integer ⟨2, by decide⟩)])]])])])]

def readAttempts : MissionSource :=
  ⟨[⟨"main", [⟨"limit", "int", some (.int 3)⟩], .node "Retry" (some "attempts")
    [⟨.input, "max_attempts", .parameter "limit"⟩, ⟨.output, "attempt", .path "tries"⟩]
    [.node "Sleep" none [⟨.input, "seconds", .constant (.int 2)⟩] []]⟩]⟩

theorem attempts_describes_readAttempts :
    MissionSource.ofYaml attempts = .ok readAttempts ∧ attempts.Describes readAttempts := by
  have read : MissionSource.ofYaml attempts = .ok readAttempts := by cbv
  refine ⟨read, MissionSource.describes_iff.2 ⟨read, fun entry listed => ?_⟩⟩
  cases List.mem_singleton.1 listed
  have deeper : ∀ item ∈ [Yaml.mapping [(.string "type", .string "Sleep"),
      (.string "ports", .mapping [(.string "seconds", .integer ⟨2, by decide⟩)])]],
        Lists (item.get? "parameters") [] ∧ item.IsShapedNode := by
    intro item listed
    cases List.mem_singleton.1 listed
    exact ⟨.absent, ⟨_, .mapping _⟩, ⟨_, .absent⟩, ⟨_, .absent⟩, by rintro _ ⟨⟩, by rintro _ ⟨⟩⟩
  exact ⟨⟨_, .mapping _⟩, ⟨_, .mapping _⟩, ⟨_, .mapping _⟩, ⟨_, .sequence _⟩,
    fun item listed => (deeper item listed).1, fun item listed => (deeper item listed).2⟩

/-- A document with a definition that has one section. -/
def withSection (name : String) (content : Yaml) : Yaml :=
  .mapping [(.string "behavior_tree", .mapping [(.string "main", .mapping [
    (.string "type", .string "Sequence"), (.string name, content)])])]

def emptySequence : MissionSource := ⟨[⟨"main", [], .node "Sequence" none [] []⟩]⟩

/-- A sequence without anything is read from a document that says more. -/
def DropsSection (yaml : Yaml) : Prop :=
  MissionSource.ofYaml yaml = .ok emptySequence ∧ ¬ yaml.Describes emptySequence

/-- Sections of other shapes are read as if they were empty. -/
theorem misshapen_sections_are_dropped :
    DropsSection (withSection "children"
        (.mapping [(.string "first", .mapping [(.string "type", .string "Stop")])])) ∧
      DropsSection (withSection "ports" (.sequence [.string "seconds"])) ∧
      DropsSection (withSection "outputs" (.string "response")) ∧
      DropsSection (withSection "parameters" (.string "speed")) := by
  refine ⟨⟨by cbv, fun describes => ?_⟩, ⟨by cbv, fun describes => ?_⟩,
    ⟨by cbv, fun describes => ?_⟩, ⟨by cbv, fun describes => ?_⟩⟩
  all_goals
    have shaped := MissionSource.isShaped_of_describes describes _ List.mem_cons_self
    rcases shaped with ⟨⟨_, parameters⟩, ⟨⟨_, inputs⟩, ⟨_, outputs⟩, ⟨_, children⟩, -, -⟩⟩
  · cases children
  · cases inputs
  · cases outputs
  · cases parameters

end BehaviorTree
