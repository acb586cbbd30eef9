import Llbuild.BuildSystem.StringRef
import Llbuild.BuildSystem.Yaml

/-!
# The build files `load` accepts, as a schema

What `BuildFileImpl::load` requires of its input, stated over the YAML tree alone: one
document, whose root mapping starts with `client` and goes on with some of the sections
`tools`, `targets`, `nodes` and `tasks`, in that order and each at most once, and what each
section requires of its entries.  `Llbuild.BuildSystem.load_returns_true_iff` shows that a
load returns `true` exactly on these documents, when every call it makes is answered
affirmatively.
-/

namespace Llbuild
namespace BuildSystem

open Yaml

/-- A decimal numeral whose value fits in a `uint32_t`: a non-empty string of decimal digits
whose number is below `2^32`. -/
def isUInt32Numeral (value : String) : Bool :=
  !value.isEmpty && value.data.all Char.isDigit &&
    decide (value.data.foldl StringRef.decimalStep 0 < 2 ^ 32)

/-- A key and a value that are both scalars. -/
def isScalarPair (pair : Yaml.Node × Yaml.Node) : Bool := pair.1.isScalar && pair.2.isScalar

/-- A sequence of scalars. -/
def isScalarSequence : Yaml.Node → Bool
  | .sequence items => items.all Node.isScalar
  | _ => false

/-- The `client` mapping: scalar pairs, every `version` a `uint32` numeral. -/
def clientWellFormed (client : List (Yaml.Node × Yaml.Node)) : Bool :=
  client.all fun
    | (.scalar key, .scalar value) => key != "version" || isUInt32Numeral value
    | _ => false

/-- An entry of `tools` or `nodes`: a scalar name and a mapping of scalar pairs. -/
def entityWellFormed : Yaml.Node × Yaml.Node → Bool
  | (.scalar _, .mapping attrs) => attrs.all isScalarPair
  | _ => false

/-- An entry of `targets`: a scalar name and a sequence of scalars. -/
def targetWellFormed : Yaml.Node × Yaml.Node → Bool
  | (.scalar _, items) => isScalarSequence items
  | _ => false

/-- A pair after the first of a task: `inputs` or `outputs` with a sequence of scalars, or
any other pair of scalars. -/
def taskAttributeWellFormed : Yaml.Node × Yaml.Node → Bool
  | (key, value) =>
    if key.scalarValue? = some "inputs" ∨ key.scalarValue? = some "outputs" then
      isScalarSequence value
    else isScalarPair (key, value)

/-- An entry of `tasks`: a scalar name and a mapping whose first pair is `tool` with a scalar
value. -/
def taskWellFormed : Yaml.Node × Yaml.Node → Bool
  | (.scalar _, .mapping ((key, value) :: attrs)) =>
    key.scalarValue? == some "tool" && value.isScalar && attrs.all taskAttributeWellFormed
  | _ => false

/-- What the mapping of each section must hold. -/
def sectionWellFormed : String → List (Yaml.Node × Yaml.Node) → Bool
  | "tools", map => map.all entityWellFormed
  | "targets", map => map.all targetWellFormed
  | "nodes", map => map.all entityWellFormed
  | "tasks", map => map.all taskWellFormed
  | _, _ => false

/-- An entry of the root mapping after `client`: a scalar key and a mapping that `schema`
accepts for that key. -/
def sectionEntryWellFormed (schema : String → List (Yaml.Node × Yaml.Node) → Bool) :
    Yaml.Node × Yaml.Node → Bool
  | (.scalar name, .mapping map) => schema name map
  | _ => false

/-- The entries of the root mapping after `client`: their keys are a subsequence of `names`,
so that none is repeated, out of order or unknown, and each is well formed. -/
def sectionsWellFormed (names : List String)
    (schema : String → List (Yaml.Node × Yaml.Node) → Bool) (it : List (Yaml.Node × Yaml.Node)) :
    Bool :=
  decide ((it.map fun entry => entry.1.scalarValue?).Sublist (names.map some)) &&
    it.all (sectionEntryWellFormed schema)

@[simp] theorem sectionsWellFormed_nil (names : List String)
    (schema : String → List (Yaml.Node × Yaml.Node) → Bool) :
    sectionsWellFormed names schema [] = true := by
  simp [sectionsWellFormed]

theorem sectionsWellFormed_nil_names (schema : String → List (Yaml.Node × Yaml.Node) → Bool)
    (entry : Yaml.Node × Yaml.Node) (it : List (Yaml.Node × Yaml.Node)) :
    sectionsWellFormed [] schema (entry :: it) = false := by
  simp [sectionsWellFormed]

theorem sectionEntryWellFormed_of_not_mapping
    {schema : String → List (Yaml.Node × Yaml.Node) → Bool} {key value : Yaml.Node}
    (h : ∀ map, value ≠ .mapping map) : sectionEntryWellFormed schema (key, value) = false := by
  cases key <;> cases value <;> first | rfl | exact absurd rfl (h _)

theorem sectionsWellFormed_of_entry {names : List String}
    {schema : String → List (Yaml.Node × Yaml.Node) → Bool} {entry : Yaml.Node × Yaml.Node}
    (h : sectionEntryWellFormed schema entry = false) (it : List (Yaml.Node × Yaml.Node)) :
    sectionsWellFormed names schema (entry :: it) = false := by
  simp [sectionsWellFormed, h]

/-- An entry under the first of the names is checked by its schema, and the rest under the
other names. -/
theorem sectionsWellFormed_cons_key (name : String) (names : List String)
    (schema : String → List (Yaml.Node × Yaml.Node) → Bool) (map it : List (Yaml.Node × Yaml.Node)) :
    sectionsWellFormed (name :: names) schema ((.scalar name, .mapping map) :: it) =
      (schema name map && sectionsWellFormed names schema it) := by
  simp only [sectionsWellFormed, List.map_cons, Node.scalarValue?_scalar, List.cons_sublist_cons,
    List.all_cons, sectionEntryWellFormed]
  cases schema name map <;> simp

/-- An entry whose key is not the first of the names is checked under the other names. -/
theorem sectionsWellFormed_cons_not_key {name : String} {key : Yaml.Node}
    (h : key.scalarValue? ≠ some name) (names : List String)
    (schema : String → List (Yaml.Node × Yaml.Node) → Bool) (value : Yaml.Node)
    (it : List (Yaml.Node × Yaml.Node)) :
    sectionsWellFormed (name :: names) schema ((key, value) :: it) =
      sectionsWellFormed names schema ((key, value) :: it) := by
  simp [sectionsWellFormed, List.sublist_cons_iff, h]

/-- A root mapping: `client` first with a well-formed mapping, then the sections
`tools`, `targets`, `nodes` and `tasks`, in that order, each optional. -/
def rootWellFormed : Yaml.Node → Bool
  | .mapping ((key, .mapping client) :: it) =>
    key.scalarValue? == some "client" && clientWellFormed client &&
      sectionsWellFormed ["tools", "targets", "nodes", "tasks"] sectionWellFormed it
  | _ => false

theorem rootWellFormed_eq_true {root : Yaml.Node} (h : rootWellFormed root = true) :
    ∃ client it, root = .mapping ((.scalar "client", .mapping client) :: it) ∧
      clientWellFormed client = true ∧
      sectionsWellFormed ["tools", "targets", "nodes", "tasks"] sectionWellFormed it = true := by
  unfold rootWellFormed at h
  split at h
  · simp only [Bool.and_eq_true, beq_iff_eq, Node.scalarValue?_eq_some] at h
    obtain ⟨⟨rfl, hc⟩, hs⟩ := h
    exact ⟨_, _, rfl, hc, hs⟩
  · cases h

/-- A stream of exactly one document, whose root is well formed. -/
def streamWellFormed : Except String (List Yaml.Node) → Bool
  | .ok [root] => rootWellFormed root
  | _ => false

theorem streamWellFormed_iff {res : Except String (List Yaml.Node)} :
    streamWellFormed res = true ↔ ∃ root, res = .ok [root] ∧ rootWellFormed root = true := by
  rcases res with _ | _ | ⟨root, _ | _⟩ <;> simp [streamWellFormed]

example : rootWellFormed (.mapping [(.scalar "client", .mapping [(.scalar "version", .scalar "1")]),
    (.scalar "targets", .mapping []), (.scalar "tasks", .mapping [])]) = true := by decide

example : rootWellFormed (.mapping [(.scalar "client", .mapping []),
    (.scalar "nodes", .mapping []), (.scalar "tools", .mapping [])]) = false := by decide

end BuildSystem
end Llbuild
