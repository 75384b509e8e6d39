import BehaviorTree.Proofs.Source.Documents
import BehaviorTree.Proofs.Source.RoundTrip
import BehaviorTree.Tree.Layout

/-!
# Missions as documents

How a mission is rendered as a document: literals are scalars, parameters follow a dollar sign, and
variables stand under `var`. A mission that has its inputs before its outputs, and no name twice
where names are keys, is described by its document. So it is read back from the document, and is
loaded like any text from which the same mission is read.
-/

namespace BehaviorTree

open Yaml

/-- A value that is a scalar of a document. -/
def Value.IsScalar : Value → Prop
  | .bool _ | .int _ | .string _ => True
  | .float _ | .message _ => False

/-- What a port can be connected with. A text that starts like a parameter is none. -/
def Operand.IsRenderable : Operand → Prop
  | .constant (.string text) => text.toList.head? ≠ some '$'
  | .constant value => value.IsScalar
  | .parameter _ | .path _ => True

/-- A node with its inputs before its outputs, in both of which no name stands twice. All nodes in it
are like this. -/
inductive NodeSource.IsRenderable : NodeSource → Prop where
  | node {kind : String} {label : Option String} {inputs outputs : List PortSource}
      {children : List NodeSource}
      (connected : ∀ port ∈ inputs, port.direction = .input ∧ port.operand.IsRenderable)
      (leading : ∀ port ∈ outputs, port.direction = .output ∧ ∃ path, port.operand = .path path)
      (distinctInputs : (inputs.map PortSource.name).Nodup)
      (distinctOutputs : (outputs.map PortSource.name).Nodup)
      (deeper : ∀ child ∈ children, child.IsRenderable) :
      (NodeSource.node kind label (inputs ++ outputs) children).IsRenderable

structure TreeSource.IsRenderable (tree : TreeSource) : Prop where
  distinct : (tree.parameters.map ParameterSource.name).Nodup
  defaults : ∀ parameter ∈ tree.parameters, ∀ value ∈ parameter.default, value.IsScalar
  root : tree.root.IsRenderable

structure MissionSource.IsRenderable (mission : MissionSource) : Prop where
  distinct : (mission.trees.map TreeSource.name).Nodup
  trees : ∀ tree ∈ mission.trees, tree.IsRenderable

/-- What is a scalar in a message is one in a document. -/
def scalarOfJson : Json → Yaml
  | .bool value => .bool value
  | .integer number => .integer number
  | .real number => .real number.1
  | .string text => .string text
  | _ => .null

def Value.toYaml (value : Value) : Yaml := scalarOfJson value.toJson

def Operand.toYaml : Operand → Yaml
  | .constant value => value.toYaml
  | .parameter name => .string ("$" ++ name)
  | .path place => .mapping [(.string "var", .string place)]

def PortSource.inputEntry? : PortSource → Option (Yaml × Yaml)
  | ⟨.input, name, operand⟩ => some (.string name, operand.toYaml)
  | _ => none

def PortSource.outputEntry? : PortSource → Option (Yaml × Yaml)
  | ⟨.output, name, .path path⟩ => some (.string name, .string path)
  | _ => none

/-- What stands under a name, if anything does. -/
def sectionOf (name : String) : Option Yaml → List (Yaml × Yaml)
  | none => []
  | some content => [(.string name, content)]

def table? : List (Yaml × Yaml) → Option Yaml
  | [] => none
  | first :: rest => some (.ofEntries (first :: rest))

def list? : List Yaml → Option Yaml
  | [] => none
  | first :: rest => some (.sequence (first :: rest))

mutual

/-- The entries of a node in a document. -/
def NodeSource.sections : NodeSource → List (Yaml × Yaml)
  | .node kind label ports children =>
    sectionOf "type" (some (.string kind)) ++ sectionOf "name" (label.map .string) ++
      sectionOf "ports" (table? (ports.filterMap PortSource.inputEntry?)) ++
      sectionOf "outputs" (table? (ports.filterMap PortSource.outputEntry?)) ++
      sectionOf "children" (list? (renderAll children))

def renderAll : List NodeSource → List Yaml
  | [] => []
  | child :: children => .mapping child.sections :: renderAll children

end

/-- The declaration of a parameter, which is its kind if there is no default. -/
def ParameterSource.entry : ParameterSource → Yaml × Yaml
  | ⟨name, kind, none⟩ => (.string name, .string kind)
  | ⟨name, kind, some value⟩ => (.string name,
    .mapping [(.string "type", .string kind), (.string "default", value.toYaml)])

def TreeSource.entry (tree : TreeSource) : Yaml × Yaml :=
  (.string tree.name, .mapping
    (sectionOf "parameters" (table? (tree.parameters.map ParameterSource.entry)) ++
      tree.root.sections))

/-- The document that says what a mission is. -/
def MissionSource.toYaml (mission : MissionSource) : Yaml :=
  .mapping [(.string "behavior_tree", .ofEntries (mission.trees.map TreeSource.entry))]

theorem insertEntry_of_new {key value : Yaml} {entries : List (Yaml × Yaml)}
    (new : key ∉ entries.map Prod.fst) :
    insertEntry key value entries = entries ++ [(key, value)] := by
  induction entries with
  | nil => rfl
  | cons first rest ih =>
    rw [List.map_cons, List.mem_cons, not_or] at new
    unfold insertEntry
    split
    · rename_i text old keyed
      rw [if_neg fun same => new.1 (by rw [keyed, same]), ih new.2]
      rfl
    · rw [ih new.2]
      rfl

/-- Of entries with different keys none replaces another. -/
theorem ofEntries_of_nodup {entries : List (Yaml × Yaml)}
    (distinct : (entries.map Prod.fst).Nodup) : ofEntries entries = .mapping entries := by
  have inserted : ∀ before : List (Yaml × Yaml), ((before ++ entries).map Prod.fst).Nodup →
      entries.foldl (fun distinct entry => insertEntry entry.1 entry.2 distinct) before =
        before ++ entries := by
    clear distinct
    induction entries with
    | nil => simp
    | cons first rest ih =>
      intro before distinct
      have new : first.1 ∉ before.map Prod.fst := by
        rw [List.map_append, List.nodup_append] at distinct
        exact fun listed => distinct.2.2 _ listed _ (by simp) rfl
      rw [List.append_cons] at distinct ⊢
      rw [List.foldl_cons, insertEntry_of_new new]
      exact ih _ distinct
  exact congrArg Yaml.mapping (inserted [] distinct)

theorem nodup_keys {α : Type} {items : List α} {entries : List (Yaml × Yaml)} {name : α → String}
    (keys : entries.map Prod.fst = items.map fun item => .string (name item))
    (distinct : (items.map name).Nodup) : (entries.map Prod.fst).Nodup := by
  have injective : Function.Injective Yaml.string := fun _ _ same => Yaml.string.inj same
  rw [keys]
  simpa [Function.comp_def] using List.Nodup.map injective distinct

variable {name other : String}

theorem lookup?_append (first second : List (Yaml × Yaml)) :
    lookup? name (first ++ second) = (lookup? name first).or (lookup? name second) := by
  induction first with
  | nil => rfl
  | cons entry rest ih =>
    rcases entry with ⟨key, value⟩
    rw [List.cons_append, lookup?, lookup?]
    split
    · rfl
    · exact ih

theorem lookup?_sectionOf (content : Option Yaml) :
    lookup? name (sectionOf other content) = if other = name then content else none := by
  cases content <;> simp [sectionOf, lookup?, asText?]

theorem lists_table? {entries : List (Yaml × Yaml)} (distinct : (entries.map Prod.fst).Nodup) :
    Lists (table? entries) entries := by
  cases entries with
  | nil => exact .absent
  | cons first rest =>
    rw [table?, ofEntries_of_nodup distinct]
    exact .mapping _

theorem itemizes_list? (items : List Yaml) : Itemizes (list? items) items := by
  cases items with
  | nil => exact .absent
  | cons first rest => exact .sequence _

theorem Value.IsScalar.read {value : Value} (scalar : value.IsScalar) :
    value.toYaml.toJson? = some value.toJson ∧ Value.ofJson value.toJson = value := by
  cases value with
  | bool | string => exact ⟨rfl, rfl⟩
  | int number =>
    have fits : number.toInt < 0x8000000000000000 := Int64.toInt_lt number
    refine ⟨rfl, ?_⟩
    rw [toJson, Json.ofInt64, ofJson, if_pos fits, Int64.ofInt_toInt]
  | float | message => cases scalar

theorem Operand.IsRenderable.described {operand : Operand} (renderable : operand.IsRenderable) :
    operand.toYaml.DescribesOperand operand := by
  cases operand with
  | path place => exact .path rfl
  | parameter name => exact .parameter name
  | constant value =>
    have scalar : value.IsScalar := by
      cases value <;> trivial
    rcases scalar.read with ⟨read, same⟩
    have plain : value.toYaml.get? "var" = none := by
      cases value with
      | bool | int | string => rfl
      | float | message => cases scalar
    have literal : ∀ name, value.toYaml ≠ .string ("$" ++ name) := by
      intro name marked
      cases value with
      | string text =>
        have spelled : text = "$" ++ name := Yaml.string.inj marked
        subst spelled
        exact renderable (by simp)
      | bool | int => cases marked
      | float | message => cases scalar
    have described := DescribesOperand.constant plain literal read
    rwa [same] at described

theorem describes_inputs {inputs : List PortSource}
    (connected : ∀ port ∈ inputs, port.direction = .input ∧ port.operand.IsRenderable) :
    List.Forall₂ DescribesInput (inputs.filterMap PortSource.inputEntry?) inputs ∧
      (inputs.filterMap PortSource.inputEntry?).map Prod.fst =
        inputs.map (fun port => .string port.name) ∧
      inputs.filterMap PortSource.outputEntry? = [] := by
  induction inputs with
  | nil => exact ⟨.nil, rfl, rfl⟩
  | cons port rest ih =>
    rw [List.forall_mem_cons] at connected
    rcases port with ⟨direction, name, operand⟩
    rcases connected with ⟨⟨rfl, renderable⟩, others⟩
    rcases ih others with ⟨described, keys, none⟩
    exact ⟨.cons (.input name renderable.described) described,
      congrArg (Yaml.string name :: ·) keys, none⟩

theorem describes_outputs {outputs : List PortSource}
    (leading : ∀ port ∈ outputs, port.direction = .output ∧ ∃ path, port.operand = .path path) :
    List.Forall₂ DescribesOutput (outputs.filterMap PortSource.outputEntry?) outputs ∧
      (outputs.filterMap PortSource.outputEntry?).map Prod.fst =
        outputs.map (fun port => .string port.name) ∧
      outputs.filterMap PortSource.inputEntry? = [] := by
  induction outputs with
  | nil => exact ⟨.nil, rfl, rfl⟩
  | cons port rest ih =>
    rw [List.forall_mem_cons] at leading
    rcases port with ⟨direction, name, operand⟩
    rcases leading with ⟨⟨rfl, path, rfl⟩, others⟩
    rcases ih others with ⟨described, keys, none⟩
    exact ⟨.cons (.output name path) described, congrArg (Yaml.string name :: ·) keys, none⟩

theorem describesParameter_entry {parameter : ParameterSource}
    (scalar : ∀ value ∈ parameter.default, value.IsScalar) :
    DescribesParameter parameter.entry parameter := by
  rcases parameter with ⟨name, kind, _ | value⟩
  · exact .kind name kind
  · rcases (scalar value rfl).read with ⟨read, same⟩
    have described : DescribesParameter (.string name, .mapping
        [(.string "type", .string kind), (.string "default", value.toYaml)])
        ⟨name, kind, some (.ofJson value.toJson)⟩ := .optional name rfl rfl read
    rwa [same] at described

/-- The sections of a node are found under their names. -/
structure Sectioned (yaml : Yaml) (kind : String) (label : Option String)
    (ports : List PortSource) (children : List NodeSource) : Prop where
  kind : yaml.get? "type" = some (.string kind)
  label : yaml.get? "name" = label.map .string
  inputs : yaml.get? "ports" = table? (ports.filterMap PortSource.inputEntry?)
  outputs : yaml.get? "outputs" = table? (ports.filterMap PortSource.outputEntry?)
  children : yaml.get? "children" = list? (renderAll children)

theorem sectioned_sections (before : List (Yaml × Yaml))
    (apart : ∀ name, name ≠ "parameters" → lookup? name before = none) (kind : String)
    (label : Option String) (ports : List PortSource) (children : List NodeSource) :
    Sectioned (.mapping (before ++ NodeSource.sections (.node kind label ports children))) kind
      label ports children := by
  constructor <;> simp [get?, NodeSource.sections, apart, lookup?_append, lookup?_sectionOf]

/-- A node declares no parameters. -/
theorem lookup?_parameters (source : NodeSource) : lookup? "parameters" source.sections = none := by
  rcases source with ⟨kind, label, ports, children⟩
  simp [NodeSource.sections, lookup?_append, lookup?_sectionOf]

theorem describesChildren_renderAll {children : List NodeSource}
    (described : ∀ child ∈ children, (Yaml.mapping child.sections).DescribesNode child) :
    DescribesChildren (renderAll children) children := by
  induction children with
  | nil => exact .nil
  | cons child rest ih =>
    rw [List.forall_mem_cons] at described
    refine .cons ?_ described.1 (ih described.2)
    rw [get?, lookup?_parameters]
    exact .absent

/-- A node is described by its sections, also behind the parameters of a definition. -/
theorem describesNode_sections {source : NodeSource} (renderable : source.IsRenderable)
    (before : List (Yaml × Yaml))
    (apart : ∀ name, name ≠ "parameters" → lookup? name before = none) :
    (Yaml.mapping (before ++ source.sections)).DescribesNode source := by
  induction renderable generalizing before with
  | node connected leading distinctInputs distinctOutputs deeper ih =>
    rcases describes_inputs connected with ⟨describedInputs, inputKeys, noOutputs⟩
    rcases describes_outputs leading with ⟨describedOutputs, outputKeys, noInputs⟩
    have nested := describesChildren_renderAll fun child listed =>
      ih child listed [] fun _ _ => rfl
    have sectioned := sectioned_sections before apart
    refine .node (sectioned ..).kind (sectioned ..).label ?_ describedInputs ?_ describedOutputs ?_
      nested
    · rw [(sectioned ..).inputs, List.filterMap_append, noInputs, List.append_nil]
      exact lists_table? (nodup_keys inputKeys distinctInputs)
    · rw [(sectioned ..).outputs, List.filterMap_append, noOutputs, List.nil_append]
      exact lists_table? (nodup_keys outputKeys distinctOutputs)
    · rw [(sectioned ..).children]
      exact itemizes_list? _

theorem describesTree_entry {tree : TreeSource} (renderable : tree.IsRenderable) :
    DescribesTree tree.entry tree := by
  rcases tree with ⟨name, parameters, root⟩
  have keys : (parameters.map ParameterSource.entry).map Prod.fst =
      parameters.map fun parameter => .string parameter.name := by
    rw [List.map_map]
    refine List.map_congr_left fun parameter _ => ?_
    rcases parameter with ⟨name, kind, _ | value⟩ <;> rfl
  have declared : List.Forall₂ DescribesParameter (parameters.map ParameterSource.entry)
      parameters := by
    rw [List.forall₂_map_left_iff, List.forall₂_same]
    exact fun parameter listed => describesParameter_entry (renderable.defaults parameter listed)
  have lists : Lists (get? "parameters" (.mapping
      (sectionOf "parameters" (table? (parameters.map ParameterSource.entry)) ++ root.sections)))
      (parameters.map ParameterSource.entry) := by
    rw [get?, lookup?_append, lookup?_parameters, Option.or_none, lookup?_sectionOf, if_pos rfl]
    exact lists_table? (nodup_keys keys renderable.distinct)
  exact .tree name lists declared (describesNode_sections renderable.root _ fun name other => by
    rw [lookup?_sectionOf, if_neg other.symm])

/-- The tree of a mission that was read, from a text or from a document. -/
def Tree.ofRead (read : Except SourceError MissionSource) : Except (Failure LoadError) Tree :=
  match read with
  | .ok mission => Tree.ofSource mission
  | .error cause => .error (.error (.source cause))

namespace MissionSource

theorem describes_toYaml {mission : MissionSource} (renderable : mission.IsRenderable) :
    mission.toYaml.Describes mission := by
  have keys : (mission.trees.map TreeSource.entry).map Prod.fst =
      mission.trees.map fun tree => .string tree.name := by
    simp [TreeSource.entry]
  have found : mission.toYaml.get? "behavior_tree" =
      some (.mapping (mission.trees.map TreeSource.entry)) := by
    rw [toYaml, get?, ofEntries_of_nodup (nodup_keys keys renderable.distinct)]
    rfl
  have defined : List.Forall₂ DescribesTree (mission.trees.map TreeSource.entry)
      mission.trees := by
    rw [List.forall₂_map_left_iff, List.forall₂_same]
    exact fun tree listed => describesTree_entry (renderable.trees tree listed)
  exact .mission found defined

/-- A mission is read back from its document, and the document is loaded like every text from which
the mission is read. -/
theorem ofYaml_toYaml {mission : MissionSource} (renderable : mission.IsRenderable) :
    ofYaml mission.toYaml = .ok mission ∧ ∀ text, ofText text = .ok mission →
      Tree.ofRead (ofYaml mission.toYaml) = Tree.ofRead (ofText text) := by
  have read := ofYaml_of_describes (describes_toYaml renderable)
  refine ⟨read, fun text readText => ?_⟩
  rw [read, readText]

end MissionSource

/-- A mission with a parameter, an output and a literal. -/
def boundedNap : MissionSource :=
  ⟨[⟨"main", [⟨"limit", "int", some (.int 3)⟩], .node "Retry" (some "bounded")
    [⟨.input, "max_attempts", .parameter "limit"⟩, ⟨.output, "attempt", .path "tries"⟩]
    [.node "Sleep" none [⟨.input, "seconds", .constant (.int 2)⟩] []]⟩]⟩

theorem boundedNap_isRenderable : boundedNap.IsRenderable := by
  have nap : (NodeSource.node "Sleep" none ([⟨.input, "seconds", .constant (.int 2)⟩] ++ [])
      []).IsRenderable :=
    .node (by simp [Operand.IsRenderable, Value.IsScalar]) (by simp) (by simp) (by simp) (by simp)
  refine ⟨by simp [boundedNap], fun tree listed => ?_⟩
  cases List.mem_singleton.1 listed
  refine ⟨by simp, by simp [Value.IsScalar], ?_⟩
  exact @NodeSource.IsRenderable.node "Retry" (some "bounded")
    [⟨.input, "max_attempts", .parameter "limit"⟩] [⟨.output, "attempt", .path "tries"⟩] _
    (by simp [Operand.IsRenderable]) (by simp) (by simp) (by simp) (by simpa using nap)

theorem boundedNap_isWritable : boundedNap.IsWritable := by
  have tries : IsVariablePath "tries" :=
    ⟨"tries", [], by decide, by decide, by decide, by decide, rfl⟩
  have nap : (NodeSource.node "Sleep" none [⟨.input, "seconds", .constant (.int 2)⟩]
      []).IsWritable := by
    refine .node (by decide) (by simp) ?_ (by simp)
    rw [List.forall_mem_singleton]
    exact ⟨by decide, trivial, by simp⟩
  simp only [MissionSource.IsWritable, boundedNap, List.forall_mem_singleton]
  refine ⟨by decide, ?_, .node (by decide) (by rintro _ ⟨⟩; decide) ?_ ?_⟩
  · rw [List.forall_mem_singleton]
    exact ⟨by decide, by decide, by rintro _ ⟨⟩; trivial⟩
  · simp only [List.forall_mem_cons]
    exact ⟨⟨by decide, (by decide : IsIdentifier "limit"), by simp⟩,
      ⟨by decide, tries, fun _ => ⟨_, rfl⟩⟩, by simp⟩
  · rw [List.forall_mem_singleton]
    exact nap

theorem boundedNap_is_loaded_alike :
    MissionSource.ofYaml boundedNap.toYaml = .ok boundedNap ∧
      Tree.ofRead (MissionSource.ofYaml boundedNap.toYaml) =
        Tree.ofRead (MissionSource.ofText (boundedNap.write ++ "\n")) := by
  have readText := MissionSource.readText_write boundedNap_isWritable (Or.inr rfl)
  have both := MissionSource.ofYaml_toYaml boundedNap_isRenderable
  exact ⟨both.1, both.2 _ (by rw [MissionSource.ofText, readText])⟩

end BehaviorTree
