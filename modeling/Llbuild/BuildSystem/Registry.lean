import Llbuild.BuildSystem.Sound

/-!
# The states a `BuildFile` can reach

A `BuildFile` is constructed, then loaded any number of times (`Reachable`).
`getOrCreateTool` and `getOrCreateNode` (`BuildFile.cpp`, lines 126-157) are the only writers
of `tools` and `nodes`, and the end of `parseTasksMapping` (lines 574-577) the only writer of
`tasks`; each registers the entity the call it has just made returned.  So every reachable
state is `Consistent` (`Reachable.registries_consistent`): the constructed state is, and every
load keeps it, whether it succeeds or fails.  What one load does with the registries, and
which entity each name of its document stands for, is `Llbuild.BuildSystem.Resolution`.
-/

namespace Llbuild
namespace BuildSystem

theorem Consistent.new (mainFilename : String) : Consistent (BuildFileImpl.new mainFilename) :=
  ⟨nofun, nofun, nofun⟩

/-- A document with a client and one tool. -/
def toolFile : Except String (List Yaml.Node) :=
  .ok [.mapping [(.scalar "client", .mapping []),
    (.scalar "tools", .mapping [(.scalar "cc", .mapping [])])]]

/-- The states a `BuildFile` can be in: just constructed, or after any number of loads. -/
inductive Reachable (o : Oracle) : BuildFileImpl → Prop
  | new (mainFilename : String) : Reachable o (.new mainFilename)
  | load {s : BuildFileImpl} (res : Except String (List Yaml.Node)) :
      Reachable o s → Reachable o (load o res s).2

section
variable (o : Oracle)

/-- **Every state a `BuildFile` can reach is `Consistent`.**  Constructed, then loaded any
number of times, each load successful or not: each registered tool, node and task is the
entity the log says its creating call returned for that name. -/
theorem Reachable.registries_consistent {s : BuildFileImpl} (h : Reachable o s) :
    Consistent s := by
  induction h with
  | new mainFilename => exact .new mainFilename
  | load res _ ih => exact (load_sound o res _).consistent ih

end

/-- Two loads of a document with a tool, from a `BuildFile` just constructed. -/
theorem registries_consistent_two_loads :
    Reachable Oracle.acceptAll
        (load .acceptAll toolFile (load .acceptAll toolFile (.new "build.llbuild")).2).2 ∧
      Consistent (load .acceptAll toolFile (load .acceptAll toolFile (.new "build.llbuild")).2).2 :=
  have h : Reachable Oracle.acceptAll
      (load .acceptAll toolFile (load .acceptAll toolFile (.new "build.llbuild")).2).2 :=
    .load _ (.load _ (.new _))
  ⟨h, Reachable.registries_consistent _ h⟩

end BuildSystem
end Llbuild
