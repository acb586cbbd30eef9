import Llbuild.BuildSystem.Delegate
import Mathlib.Logic.Function.Basic
import Mathlib.Tactic.Simps.Basic

/-!
# `BuildFileImpl`: the registries, and the steps the parser is made of

`BuildFileImpl` (`BuildFile.cpp`, lines 92-157) holds the main file's name, the delegate and
four registries keyed by name: `tools`, `targets`, `nodes` and `tasks`.  Here the delegate
is the log of the calls made on it and on its entities (`Llbuild.BuildSystem.Call`).

Every parse function of the file returns a `bool`, and every caller returns `false` at once
when a callee does; `Parse` is such a function on the state, `andThen` and `forEach` are the
two ways the code chains them (`if (!f()) return false;` and a `for` loop whose body may
`return false`), and `bindSome` chains a step returning a pointer that may be null.
`getOrCreateTool` and `getOrCreateNode` are the only writers of the `tools` and `nodes`
registries.
-/

namespace Llbuild
namespace BuildSystem

/-- `BuildFileImpl`: the name of the main file, the registries `tools`, `targets`, `nodes`
and `tasks` by name, and the calls made so far on the delegate and its entities. -/
structure BuildFileImpl where
  mainFilename : String
  tools : String → Option Handle
  targets : String → Option Target
  nodes : String → Option Handle
  tasks : String → Option Handle
  calls : List Call

namespace BuildFileImpl

/-- The state of a `BuildFile` just constructed: empty registries, no call made. -/
def new (mainFilename : String) : BuildFileImpl :=
  ⟨mainFilename, fun _ => none, fun _ => none, fun _ => none, fun _ => none, []⟩

/-- A call on the delegate or on an entity, appended to the log. -/
@[simps]
def call (s : BuildFileImpl) (c : Call) : BuildFileImpl := { s with calls := s.calls ++ [c] }

/-- `delegate.error(mainFilename, message)`. -/
def error (s : BuildFileImpl) (message : String) : BuildFileImpl :=
  s.call (.error s.mainFilename message)

/-- `tools[name] = std::move(tool)`. -/
@[simps]
def setTool (s : BuildFileImpl) (name : String) (tool : Handle) : BuildFileImpl :=
  { s with tools := Function.update s.tools name (some tool) }

/-- `nodes[name] = std::move(node)`. -/
@[simps]
def setNode (s : BuildFileImpl) (name : String) (node : Handle) : BuildFileImpl :=
  { s with nodes := Function.update s.nodes name (some node) }

/-- `targets[name] = std::move(target)`. -/
@[simps]
def setTarget (s : BuildFileImpl) (name : String) (target : Target) : BuildFileImpl :=
  { s with targets := Function.update s.targets name (some target) }

/-- `tasks[name] = std::move(task)`. -/
@[simps]
def setTask (s : BuildFileImpl) (name : String) (task : Handle) : BuildFileImpl :=
  { s with tasks := Function.update s.tasks name (some task) }

end BuildFileImpl

/-- A parse function of `BuildFileImpl`: its `bool` result and the state after it. -/
abbrev Parse := BuildFileImpl → Bool × BuildFileImpl

/-- `if (!f(...)) return false;` followed by `g`. -/
def andThen (f g : Parse) : Parse := fun s =>
  match f s with
  | (true, s) => g s
  | (false, s) => (false, s)

/-- `auto x = f(...); if (!x) return false;` followed by `k x`. -/
def bindSome {α : Type} (f : BuildFileImpl → Option α × BuildFileImpl) (k : α → Parse) :
    Parse := fun s =>
  match f s with
  | (some a, s) => k a s
  | (none, s) => (false, s)

/-- `for (auto& entry : entries) { body }` where `body` may `return false`. -/
def forEach {α : Type} (body : α → Parse) : List α → Parse
  | [] => fun s => (true, s)
  | a :: as => andThen (body a) (forEach body as)

@[simp] theorem forEach_nil {α : Type} (body : α → Parse) (s : BuildFileImpl) :
    forEach body [] s = (true, s) := rfl

theorem forEach_cons {α : Type} (body : α → Parse) (a : α) (as : List α) :
    forEach body (a :: as) = andThen (body a) (forEach body as) := rfl

theorem forEach_singleton {α : Type} (body : α → Parse) (a : α) : forEach body [a] = body a := by
  funext s
  simp only [forEach_cons, andThen, forEach_nil]
  rcases body a s with ⟨_ | _, _⟩ <;> rfl

section
variable (o : Oracle)

/-- `getOrCreateTool`: the registered tool of that name, or the one `delegate.lookupTool`
returns, then registered; null, after `delegate.error`, when the delegate returns none. -/
def getOrCreateTool (name : String) (s : BuildFileImpl) : Option Handle × BuildFileImpl :=
  match s.tools name with
  | some tool => (some tool, s)
  | none =>
    if o.lookupTool s.calls name then
      (some s.calls.length, (s.call (.lookupTool name true)).setTool name s.calls.length)
    else
      (none, (s.call (.lookupTool name false)).error "invalid tool type in 'tools' map")

end

/-- `getOrCreateNode`: the registered node of that name, or the one `delegate.lookupNode`
returns (asserted non-null), then registered. -/
def getOrCreateNode (name : String) (isImplicit : Bool) (s : BuildFileImpl) :
    Handle × BuildFileImpl :=
  match s.nodes name with
  | some node => (node, s)
  | none =>
    (s.calls.length, (s.call (.lookupNode name isImplicit)).setNode name s.calls.length)

end BuildSystem
end Llbuild
