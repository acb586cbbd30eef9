import Llbuild.BuildSystem.Yaml

/-!
# The delegate, the entities, and the log of calls they receive

`BuildFileDelegate` (`error`, `lookupTool`, `lookupNode`, `configureClient`, `loadedTarget`,
`loadedTask`) and the entities it creates (`Tool::configureAttribute`, `Tool::createTask`,
`Node::configureAttribute`, `Task::configureInputs`, `Task::configureOutputs`,
`Task::configureAttribute`) are outside this file.  The parser sees them only through what
it calls and what the calls return, so they are modelled as

* a log: every call the parser makes, in order, with the answer it got (`Call`);
* an `Oracle`: the answer to each call as a function of every call made before it, which
  covers every deterministic delegate and every entity whatever state it keeps.

An entity is owned by a `std::unique_ptr` the delegate hands over, so two creations never
give the same object; a `Handle` names an entity by the position in the log of the call
that created it.
-/

namespace Llbuild
namespace BuildSystem

/-- A `Tool`, `Node` or `Task` the delegate created: the position in the log of the
`lookupTool`, `lookupNode` or `createTask` call that returned it. -/
abbrev Handle := Nat

/-- `Target`: the name of a `targets` entry and its node names (`getNodeNames`). -/
structure Target where
  name : String
  nodeNames : List String
  deriving DecidableEq, Repr

/-- The receiver of a `configureAttribute` call: a `Tool`, a `Node` or a `Task`. -/
inductive Entity
  | tool (tool : Handle)
  | node (node : Handle)
  | task (task : Handle)
  deriving DecidableEq, Repr

/-- A call the parser makes on the delegate or on an entity, with the answer it got where
the call returns one (`found` is a non-null `lookupTool`). -/
inductive Call
  | error (filename message : String)
  | lookupTool (name : String) (found : Bool)
  | lookupNode (name : String) (isImplicit : Bool)
  | configureClient (name : String) (version : UInt32) (properties : List (String × String))
      (ok : Bool)
  | configureAttribute (entity : Entity) (name value : String) (ok : Bool)
  | createTask (tool : Handle) (name : String)
  | configureInputs (task : Handle) (nodes : List Handle)
  | configureOutputs (task : Handle) (nodes : List Handle)
  | loadedTarget (name : String) (target : Target)
  | loadedTask (name : String) (task : Handle)
  deriving DecidableEq, Repr

/-- The answers of the delegate and of the entities: whether `lookupTool` returns a tool,
and whether `configureClient` and `configureAttribute` accept, each given every call made
before it.  `lookupNode` and `createTask` cannot fail (the code asserts the node and uses
the task at once), and the other calls return nothing. -/
structure Oracle where
  lookupTool : List Call → String → Bool
  configureClient : List Call → String → UInt32 → List (String × String) → Bool
  configureAttribute : List Call → Entity → String → String → Bool

/-- A delegate whose tools are all known and whose client and entities accept every
configuration. -/
def Oracle.acceptAll : Oracle := ⟨fun _ _ => true, fun _ _ _ _ => true, fun _ _ _ _ => true⟩

namespace Call

/-- `delegate.error` was called. -/
def isError : Call → Bool
  | error .. => true
  | _ => false

/-- The call did not refuse: a `lookupTool` that found its tool, a `configureClient` or a
`configureAttribute` that accepted, or a call with no answer. -/
def accepted : Call → Bool
  | lookupTool _ found => found
  | configureClient _ _ _ ok => ok
  | configureAttribute _ _ _ ok => ok
  | _ => true

end Call

end BuildSystem
end Llbuild
