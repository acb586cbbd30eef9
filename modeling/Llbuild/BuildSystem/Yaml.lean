import Mathlib.Data.List.Basic

/-!
# The YAML tree a build file is read from

`BuildFile.cpp` reads its input through `llvm::yaml::Stream`: a stream of documents, each
with a root `llvm::yaml::Node` of kind `NK_Null`, `NK_Scalar`, `NK_Mapping`, `NK_Sequence`
or `NK_Alias` (`NK_KeyValue` nodes only occur as the entries of a mapping).  The parser
only ever asks a node for its kind (`getType`), the value of a scalar
(`stringFromScalarNode`), and walks the entries of a mapping and the items of a sequence in
document order, so `Yaml.Node` keeps exactly that.  The tokenizer behind the tree is not
part of this repository and is not modelled.
-/

namespace Llbuild
namespace Yaml

/-- `llvm::yaml::Node`: its kind, the value of a scalar, and the entries of a mapping and the
items of a sequence in document order. -/
inductive Node
  | null
  | scalar (value : String)
  | mapping (entries : List (Node × Node))
  | sequence (items : List Node)
  | alias

namespace Node

/-- The value of a scalar node (`stringFromScalarNode`); `none` for the other kinds. -/
def scalarValue? : Node → Option String
  | scalar value => some value
  | _ => none

/-- `node->getType() == NK_Scalar`. -/
def isScalar (node : Node) : Bool := node.scalarValue?.isSome

/-- The entries of a mapping node; none for the other kinds. -/
def entries : Node → List (Node × Node)
  | mapping entries => entries
  | _ => []

@[simp] theorem scalarValue?_scalar (value : String) : (scalar value).scalarValue? = some value :=
  rfl

@[simp] theorem isScalar_scalar (value : String) : (scalar value).isScalar = true := rfl

theorem scalarValue?_eq_some {node : Node} {value : String} :
    node.scalarValue? = some value ↔ node = scalar value := by
  cases node <;> simp [scalarValue?]

theorem isScalar_iff {node : Node} : node.isScalar = true ↔ ∃ value, node = scalar value := by
  cases node <;> simp [isScalar, scalarValue?]

end Node

end Yaml
end Llbuild
