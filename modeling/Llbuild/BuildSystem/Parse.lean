import Llbuild.BuildSystem.BuildFileImpl
import Llbuild.BuildSystem.StringRef

/-!
# The section parsers of `BuildFile.cpp`

`parseClientMapping` (lines 253-294), `parseToolsMapping` (296-346), `parseTargetsMapping`
(348-390), `parseNodesMapping` (392-442) and `parseTasksMapping` (444-581), each on the
entries of the mapping its section holds.  A scalar's value (`stringFromScalarNode`) is read
by matching on `Yaml.Node.scalar`.

The loops that configure tools, nodes and tasks from scalar pairs are one piece of code
written three times, messages included (all three name the `'tools'` map), and are
`configureAttributePair` here; `parseToolsMapping` and `parseNodesMapping` differ only in
how they get the entity and in the messages of their entry checks, and share
`parseEntityEntry`.  A refused `configureAttribute` makes the parser return `false` without
calling `delegate.error`, as the code does.
-/

namespace Llbuild
namespace BuildSystem

open Yaml

/-- `nodeIsScalarString`: the node is a scalar whose value is `name`. -/
def nodeIsScalarString (node : Yaml.Node) (name : String) : Bool :=
  match node with
  | .scalar value => value == name
  | _ => false

theorem nodeIsScalarString_iff {node : Yaml.Node} {name : String} :
    nodeIsScalarString node name = true ↔ node = .scalar name := by
  cases node <;> simp [nodeIsScalarString]

/-- The loop of `parseClientMapping`: keys and values must be scalars; the last `name` and
the last `version` are kept and every other pair is appended to the properties, or the
message of the first failing check is returned. -/
def collectClient :
    List (Yaml.Node × Yaml.Node) → String × UInt32 × List (String × String) →
      Except String (String × UInt32 × List (String × String))
  | [], acc => .ok acc
  | (.scalar key, .scalar value) :: entries, (name, version, properties) =>
    if key = "name" then collectClient entries (value, version, properties)
    else if key = "version" then
      match StringRef.getAsInteger value 10 with
      | some version => collectClient entries (name, version, properties)
      | none => .error "invalid version number in 'client' map"
    else collectClient entries (name, version, properties ++ [(key, value)])
  | (.scalar _, _) :: _, _ => .error "invalid value type in 'client' map"
  | _ :: _, _ => .error "invalid key type in 'client' map"

section
variable (o : Oracle)

/-- `parseClientMapping`: the collected `name`, `version` (0 when absent) and properties go to
`delegate.configureClient`, whose refusal is an error. -/
def parseClientMapping (map : List (Yaml.Node × Yaml.Node)) : Parse := fun s =>
  match collectClient map ("", 0, []) with
  | .error message => (false, s.error message)
  | .ok (name, version, properties) =>
    let ok := o.configureClient s.calls name version properties
    let s := s.call (.configureClient name version properties ok)
    if ok then (true, s) else (false, s.error "unable to configure client")

/-- The attribute loops of `parseToolsMapping`, `parseNodesMapping` and `parseTasksMapping`:
a scalar pair goes to the entity's `configureAttribute`, whose answer is returned. -/
def configureAttributePair (entity : Entity) : Yaml.Node × Yaml.Node → Parse
  | (.scalar name, .scalar value), s =>
    let ok := o.configureAttribute s.calls entity name value
    (ok, s.call (.configureAttribute entity name value ok))
  | (.scalar _, _), s => (false, s.error "invalid value type in 'tools' map")
  | _, s => (false, s.error "invalid key type in 'tools' map")

/-- The loop body of `parseToolsMapping` and `parseNodesMapping`: a scalar key, a mapping
value, the entity `resolve` gives for the key, configured by each pair of the mapping. -/
def parseEntityEntry (mapName : String)
    (resolve : String → BuildFileImpl → Option Entity × BuildFileImpl) :
    Yaml.Node × Yaml.Node → Parse
  | (.scalar name, .mapping attrs) =>
    bindSome (resolve name) fun entity => forEach (configureAttributePair o entity) attrs
  | (.scalar _, _) => fun s => (false, s.error ("invalid value type in '" ++ mapName ++ "' map"))
  | _ => fun s => (false, s.error ("invalid key type in '" ++ mapName ++ "' map"))

/-- `parseToolsMapping`: each tool through `getOrCreateTool`. -/
def parseToolsMapping (map : List (Yaml.Node × Yaml.Node)) : Parse :=
  forEach (parseEntityEntry o "tools" fun name s =>
    match getOrCreateTool o name s with
    | (tool, s) => (tool.map .tool, s)) map

/-- `parseNodesMapping`: each node through `getOrCreateNode(name, /*isImplicit=*/false)`.
Its attribute loop is the one of `tools`: the source's comment on it (line 416) says it
configures "all of the tool attributes", while the loop calls `configureAttribute` on the node,
and its errors name the `'tools'` map. -/
def parseNodesMapping (map : List (Yaml.Node × Yaml.Node)) : Parse :=
  forEach (parseEntityEntry o "nodes" fun name s =>
    match getOrCreateNode name false s with
    | (node, s) => (some (.node node), s)) map

end

/-- The loop body of `parseTargetsMapping`: a scalar key and a sequence of scalars make a
`Target`, passed to `delegate.loadedTarget` and then registered under its name. -/
def parseTargetsEntry : Yaml.Node × Yaml.Node → Parse
  | (.scalar name, .sequence nodes), s =>
    match nodes.mapM Yaml.Node.scalarValue? with
    | none => (false, s.error "invalid node type in 'targets' map")
    | some nodeNames =>
      let target : Target := ⟨name, nodeNames⟩
      (true, (s.call (.loadedTarget name target)).setTarget name target)
  | (.scalar _, _), s => (false, s.error "invalid value type in 'targets' map")
  | _, s => (false, s.error "invalid key type in 'targets' map")

/-- `parseTargetsMapping`. -/
def parseTargetsMapping (map : List (Yaml.Node × Yaml.Node)) : Parse :=
  forEach parseTargetsEntry map

/-- The items of an `inputs` or `outputs` sequence, each a scalar resolved by
`getOrCreateNode(name, /*isImplicit=*/true)`. -/
def resolveNodeNames (key : String) :
    List Yaml.Node → BuildFileImpl → Option (List Handle) × BuildFileImpl
  | [], s => (some [], s)
  | .scalar name :: nodeNames, s =>
    match getOrCreateNode name true s with
    | (node, s) =>
      match resolveNodeNames key nodeNames s with
      | (nodes, s) => (nodes.map (node :: ·), s)
  | _ :: _, s => (none, s.error ("invalid node type in '" ++ key ++ "' task key"))

/-- The `inputs` and `outputs` branches of `parseTasksMapping`: a sequence of node names,
whose nodes are passed to `configureInputs` or `configureOutputs` (`configure`). -/
def parseTaskNodes (key : String) (configure : Handle → List Handle → Call) (task : Handle) :
    Yaml.Node → Parse
  | .sequence nodeNames =>
    bindSome (resolveNodeNames key nodeNames) fun nodes s => (true, s.call (configure task nodes))
  | _ => fun s => (false, s.error ("invalid value type for '" ++ key ++ "' task key"))

section
variable (o : Oracle)

/-- A pair after the first of a task's mapping: `inputs`, `outputs`, or an attribute. -/
def parseTaskAttribute (task : Handle) : Yaml.Node × Yaml.Node → Parse
  | (key, value) =>
    if nodeIsScalarString key "inputs" then parseTaskNodes "inputs" .configureInputs task value
    else if nodeIsScalarString key "outputs" then
      parseTaskNodes "outputs" .configureOutputs task value
    else configureAttributePair o (.task task) (key, value)

/-- The rest of a task once its tool is known: `tool->createTask(name)`, the remaining pairs,
`delegate.loadedTask`, and the registration under its name. -/
def createTask (name : String) (tool : Handle) (attrs : List (Yaml.Node × Yaml.Node)) :
    Parse := fun s =>
  match forEach (parseTaskAttribute o s.calls.length) attrs (s.call (.createTask tool name)) with
  | (true, s') =>
    (true, (s'.call (.loadedTask name s.calls.length)).setTask name s.calls.length)
  | (false, s') => (false, s')

/-- The loop body of `parseTasksMapping`: a scalar key and a mapping whose first pair is
`tool` with a scalar value. -/
def parseTasksEntry : Yaml.Node × Yaml.Node → Parse
  | (.scalar _, .mapping []) => fun s => (false, s.error "missing 'tool' key in 'task' map")
  | (.scalar name, .mapping ((key, value) :: attrs)) =>
    if !nodeIsScalarString key "tool" then
      fun s => (false, s.error "expected 'tool' initial key in 'tasks' map")
    else
      match value with
      | .scalar toolName => bindSome (getOrCreateTool o toolName) fun tool =>
          createTask o name tool attrs
      | _ => fun s => (false, s.error "invalid 'tool' value type in 'tasks' map")
  | (.scalar _, _) => fun s => (false, s.error "invalid value type in 'tasks' map")
  | _ => fun s => (false, s.error "invalid key type in 'tasks' map")

/-- `parseTasksMapping`. -/
def parseTasksMapping (map : List (Yaml.Node × Yaml.Node)) : Parse :=
  forEach (parseTasksEntry o) map

end

end BuildSystem
end Llbuild
