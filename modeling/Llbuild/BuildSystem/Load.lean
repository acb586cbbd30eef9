import Llbuild.BuildSystem.Parse

/-!
# `parseRootNode` and `load`

`parseRootNode` (`BuildFile.cpp`, lines 159-251) walks the root mapping with an iterator:
the first entry must be `client`, then four blocks each parse their section when the
iterator is not at the end and its key is the section's name, and whatever is left is an
error.  The four blocks are the same code with another name and another parser, so they are
one function, `parseSections`, run over `sections`, and the iterator is the list of entries
not yet consumed.

The first block is not guarded: `it->getKey()` is read from `mapping->begin()` with no test
against `mapping->end()`.  On an empty root mapping LLVM's iterator is the end iterator,
whose `operator->` dereferences a null pointer; `parseRootNode` then has no defined result,
which `Outcome.readsEndIterator` records.

`load` (lines 596-633) is given what reading the main file produced: the error message of
`MemoryBuffer::getFile`, or the documents of the YAML stream.
-/

namespace Llbuild
namespace BuildSystem

open Yaml

/-- How `parseRootNode` and `load` end: they return a `bool`, or they read the key of the end
iterator of an empty mapping. -/
inductive Outcome
  | returns (ok : Bool)
  | readsEndIterator
  deriving DecidableEq, Repr

section
variable (o : Oracle)

/-- The optional sections of the root mapping, in the order `parseRootNode` tries them. -/
def sections : List (String × (List (Yaml.Node × Yaml.Node) → Parse)) :=
  [("tools", parseToolsMapping o), ("targets", parseTargetsMapping),
    ("nodes", parseNodesMapping o), ("tasks", parseTasksMapping o)]

end

/-- The section blocks of `parseRootNode` and its trailing check: a block whose name is the
key at the iterator needs a mapping, parses it and advances; at the end, entries left over
are an error. -/
def parseSections :
    List (String × (List (Yaml.Node × Yaml.Node) → Parse)) → List (Yaml.Node × Yaml.Node) →
      Parse
  | [], [] => fun s => (true, s)
  | [], _ :: _ => fun s => (false, s.error "unexpected trailing top-level section")
  | _ :: secs, [] => parseSections secs []
  | (name, parse) :: secs, (key, value) :: it =>
    if nodeIsScalarString key name then
      match value with
      | .mapping map => andThen (parse map) (parseSections secs it)
      | _ => fun s => (false, s.error ("unexpected '" ++ name ++ "' value (expected map)"))
    else parseSections secs ((key, value) :: it)

/-- A block whose name is the key at the iterator parses that entry. -/
theorem parseSections_of_key {name : String} {parse : List (Yaml.Node × Yaml.Node) → Parse}
    {secs : List (String × (List (Yaml.Node × Yaml.Node) → Parse))} {key value : Yaml.Node}
    {it : List (Yaml.Node × Yaml.Node)} (h : nodeIsScalarString key name = true) :
    parseSections ((name, parse) :: secs) ((key, value) :: it) =
      match value with
      | .mapping map => andThen (parse map) (parseSections secs it)
      | _ => fun s => (false, s.error ("unexpected '" ++ name ++ "' value (expected map)")) := by
  cases value <;> simp [parseSections, h]

/-- A block whose name is not the key at the iterator does nothing. -/
theorem parseSections_of_not_key {name : String} {parse : List (Yaml.Node × Yaml.Node) → Parse}
    {secs : List (String × (List (Yaml.Node × Yaml.Node) → Parse))} {key value : Yaml.Node}
    {it : List (Yaml.Node × Yaml.Node)} (h : nodeIsScalarString key name = false) :
    parseSections ((name, parse) :: secs) ((key, value) :: it) =
      parseSections secs ((key, value) :: it) := by
  cases value <;> simp [parseSections, h]

section
variable (o : Oracle)

/-- `parseRootNode`. -/
def parseRootNode : Yaml.Node → BuildFileImpl → Outcome × BuildFileImpl
  | .mapping [], s => (.readsEndIterator, s)
  | .mapping ((key, value) :: it), s =>
    if !nodeIsScalarString key "client" then
      (.returns false, s.error "expected initial mapping key 'client'")
    else
      match value with
      | .mapping client =>
        match andThen (parseClientMapping o client) (parseSections (sections o) it) s with
        | (ok, s) => (.returns ok, s)
      | _ => (.returns false, s.error "unexpected 'client' value (expected map)")
  | _, s => (.returns false, s.error "unexpected top-level node")

/-- `BuildFileImpl::load`, given the error of opening the main file or the documents of its
YAML stream: exactly one document, whose root `parseRootNode` accepts. -/
def load (res : Except String (List Yaml.Node)) (s : BuildFileImpl) :
    Outcome × BuildFileImpl :=
  match res with
  | .error message =>
    (.returns false, s.error ("unable to open '" ++ s.mainFilename ++ "' (" ++ message ++ ")"))
  | .ok [] => (.returns false, s.error "missing document in stream")
  | .ok (root :: documents) =>
    match parseRootNode o root s with
    | (.returns true, s) =>
      match documents with
      | [] => (.returns true, s)
      | _ :: _ => (.returns false, s.error "unexpected additional document in stream")
    | r => r

/-- **An empty root mapping is not rejected**: `parseRootNode` reads the key of
`mapping->begin()`, which is the end iterator, and no error is reported. -/
theorem load_empty_root_mapping (s : BuildFileImpl) :
    load o (.ok [.mapping []]) s = (.readsEndIterator, s) := rfl

end

end BuildSystem
end Llbuild
