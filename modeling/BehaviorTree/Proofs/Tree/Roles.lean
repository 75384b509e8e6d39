import BehaviorTree.Proofs.Tree.Parameters
import BehaviorTree.Proofs.Tree.Rebinding

/-!
# Roles of ports

Every port of a node has one role: it is an output, an assignment, a field with a value or an
operand, or an override. A node that is laid out has the outputs, assignments, fields and overrides
that its own ports play, in their order, and nothing else. The ports of a reference are arguments in
the same way.
-/

namespace BehaviorTree

/-- What a port of a node is for. -/
inductive PortRole where
  | output (name path : String)
  | assignment (assignment : Assignment)
  | field (name : String) (operand : Operand)
  | override (change : Override)

namespace PortRole

def output? : PortRole → Option (String × String)
  | output name path => some (name, path)
  | _ => none

def assignment? : PortRole → Option Assignment
  | assignment assigned => some assigned
  | _ => none

def field? : PortRole → Option (String × Operand)
  | field name operand => some (name, operand)
  | _ => none

def override? : PortRole → Option Override
  | override change => some change
  | _ => none

end PortRole

namespace PortSource

/-- The role of a port of a node of a kind, if it may have one. A literal is kept as the value of
the kind that its field takes. -/
def role? (kind : NodeKind) (port : PortSource) : Option PortRole :=
  match port.direction, port.operand with
  | .output, .path path => some (.output port.name path)
  | .output, _ => none
  | .input, operand =>
    if kind.takesAssignments then some (.assignment ⟨port.name, operand⟩)
    else
      match kind.field? port.name, operand with
      | none, _ => none
      | some ⟨_, .operand, _⟩, operand => some (.field port.name operand)
      | some ⟨_, .value expected, _⟩, .constant literal =>
        (literal.coerce? expected).map fun value => .field port.name (.constant value)
      | some ⟨_, .value _, _⟩, operand => some (.override ⟨port.name, operand⟩)

/-- The argument that a port of a reference is, if the parameters have one of its name. A literal is
kept as a value of the kind of the parameter. -/
def argument? (parameters : List Parameter) (port : PortSource) : Option Argument :=
  match port.direction, parameters.find? (·.name = port.name), port.operand with
  | .input, some parameter, .constant literal =>
    (literal.coerce? parameter.kind).map fun value => ⟨port.name, .constant value⟩
  | .input, some _, operand => some ⟨port.name, operand⟩
  | _, _, _ => none

end PortSource

namespace NodePorts

/-- The ports with one more that has a role. -/
def play (ports : NodePorts) : PortRole → NodePorts
  | .output name path => { ports with outputs := ports.outputs.insert name path }
  | .assignment assigned => { ports with assignments := ports.assignments ++ [assigned] }
  | .field name operand => { ports with fields := ports.fields.insert name operand }
  | .override change => { ports with overrides := ports.overrides ++ [change] }

/-- What ports with some roles are together. Of outputs and of fields with the same name the last
one counts. -/
def ofRoles (roles : List PortRole) : NodePorts where
  fields := .ofList (roles.filterMap PortRole.field?)
  overrides := roles.filterMap PortRole.override?
  outputs := .ofList (roles.filterMap PortRole.output?)
  assignments := roles.filterMap PortRole.assignment?

end NodePorts

section Ports

variable {tree : TreeSource} {kind : NodeKind} {title : String} {ports after : NodePorts}
  {port : PortSource} {sources : List PortSource}

/-- To add a port that is accepted is to let it play its role. -/
theorem play_of_add (added : ports.add tree kind title port = .ok after) :
    ∃ role, port.role? kind = some role ∧ after = ports.play role := by
  unfold NodePorts.add at added
  unfold PortSource.role?
  split at added
  · rename_i output
    unfold NodePorts.addOutput at added
    split at added
    · rename_i path isPath
      split at added <;> cases added
      exact ⟨.output port.name path, by simp [output, isPath], rfl⟩
    · cases added
  · rename_i input
    rw [bind_eq_ok] at added
    rcases added with ⟨operand, checked, added⟩
    rcases TreeSource.checkOperand_eq_ok checked with ⟨rfl, -⟩
    simp only [input]
    split at added
    · rename_i assigns
      cases added
      exact ⟨.assignment ⟨port.name, port.operand⟩, if_pos assigns, rfl⟩
    · rename_i assigns
      rw [if_neg assigns]
      unfold NodePorts.addField at added
      cases found : kind.field? port.name with
      | none =>
        rw [found] at added
        cases added
      | some field =>
        rw [found] at added
        rcases field with ⟨_, expects, required⟩
        cases expects with
        | operand =>
          cases added
          exact ⟨.field port.name port.operand, rfl, rfl⟩
        | value expected =>
          cases isOperand : port.operand with
          | constant literal =>
            simp only [isOperand, bind_eq_ok] at added
            rcases added with ⟨value, fits, done⟩
            cases done
            exact ⟨.field port.name (.constant value), by simp [coerceLiteral_eq_ok.1 fits], rfl⟩
          | parameter | path =>
            simp only [isOperand] at added
            split at added
            · cases added
            · cases added
              exact ⟨.override ⟨port.name, _⟩, rfl, rfl⟩

theorem mapM_role_of_foldlM_add
    (sorted : sources.foldlM (NodePorts.add tree kind title) ports = .ok after) :
    ∃ roles, sources.mapM (PortSource.role? kind) = some roles ∧
      after = roles.foldl NodePorts.play ports := by
  induction sources generalizing ports with
  | nil =>
    cases sorted
    exact ⟨[], rfl, rfl⟩
  | cons port rest ih =>
    rw [List.foldlM_cons, bind_eq_ok] at sorted
    rcases sorted with ⟨middle, added, sorted⟩
    rcases play_of_add added with ⟨role, first, rfl⟩
    rcases ih sorted with ⟨roles, others, same⟩
    refine ⟨role :: roles, ?_, same⟩
    simp [List.mapM_cons, first, others]

theorem NodePorts.foldl_play (ports : NodePorts) (roles : List PortRole) :
    roles.foldl NodePorts.play ports =
      { fields := (roles.filterMap PortRole.field?).foldl
          (fun table entry => table.insert entry.1 entry.2) ports.fields
        overrides := ports.overrides ++ roles.filterMap PortRole.override?
        outputs := (roles.filterMap PortRole.output?).foldl
          (fun table entry => table.insert entry.1 entry.2) ports.outputs
        assignments := ports.assignments ++ roles.filterMap PortRole.assignment? } := by
  induction roles generalizing ports with
  | nil => simp
  | cons role rest ih =>
    rw [List.foldl_cons, ih]
    cases role <;>
      simp [play, List.filterMap_cons, PortRole.field?, PortRole.override?, PortRole.output?,
        PortRole.assignment?]

/-- The ports of a node are sorted by their roles. -/
theorem sorted_by_roles
    (sorted : sources.foldlM (NodePorts.add tree kind title) .empty = .ok ports) :
    ∃ roles, sources.mapM (PortSource.role? kind) = some roles ∧ ports = .ofRoles roles := by
  rcases mapM_role_of_foldlM_add sorted with ⟨roles, each, rfl⟩
  refine ⟨roles, each, ?_⟩
  rw [NodePorts.foldl_play]
  rfl

end Ports

section Arguments

variable {tree : TreeSource} {parameters : List Parameter} {title : String}

theorem argument?_of_layoutArgument {port : PortSource} {argument : Argument}
    (laid : layoutArgument tree parameters title port = .ok argument) :
    port.argument? parameters = some argument := by
  unfold layoutArgument at laid
  unfold PortSource.argument?
  split at laid
  · cases laid
  · rename_i input
    split at laid
    · rename_i parameter found
      have named : parameter.name = port.name := by simpa using List.find?_some found
      rw [bind_eq_ok] at laid
      rcases laid with ⟨operand, checked, laid⟩
      rcases TreeSource.checkOperand_eq_ok checked with ⟨rfl, -⟩
      simp only [input, found]
      split at laid
      · rename_i literal isLiteral
        rw [bind_eq_ok] at laid
        rcases laid with ⟨value, fits, done⟩
        cases done
        simp [isLiteral, coerceLiteral_eq_ok.1 fits, named]
      · rename_i dynamic
        cases laid
        cases isOperand : port.operand with
        | constant literal => exact absurd isOperand (dynamic literal)
        | parameter | path => rw [named]
    · cases laid

theorem mapM_argument_of_layout {sources : List PortSource} {arguments : List Argument}
    (laid : sources.mapM (layoutArgument tree parameters title) = .ok arguments) :
    sources.mapM (PortSource.argument? parameters) = some arguments := by
  induction sources generalizing arguments with
  | nil =>
    cases laid
    rfl
  | cons port rest ih =>
    simp only [List.mapM_cons, bind_eq_ok] at laid
    rcases laid with ⟨first, laidFirst, others, laidRest, done⟩
    cases done
    simp [List.mapM_cons, argument?_of_layoutArgument laidFirst, ih laidRest]

end Arguments

end BehaviorTree
