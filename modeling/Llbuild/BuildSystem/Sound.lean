import Llbuild.BuildSystem.Steps

/-!
# Every parse function is `Sound`

Each step of the parser keeps `Sound` (`Llbuild.BuildSystem.Invariant`): an error, a plain
call on registered tools and nodes, a `lookupTool` that finds nothing, and the four
registrations.  So `Sound` is `RunProp.Closed` (`sound_closed`), and the chain of
`Llbuild.BuildSystem.Steps` gives it for every run of every parse function, up to
`load_sound`.
-/

namespace Llbuild
namespace BuildSystem

/-- Registering a target changes nothing `Sound` looks at. -/
theorem Sound.setTarget {s s' : BuildFileImpl} {ok : Bool} (h : Sound s ok s') (name : String)
    (target : Target) : Sound s ok (s'.setTarget name target) :=
  ⟨⟨h.grows.calls, h.grows.mainFilename, h.grows.tools, h.grows.nodes⟩, h.errorLast,
    ⟨h.tools.le_one, h.tools.absent, h.tools.kept⟩, ⟨h.nodes.le_one, h.nodes.absent, h.nodes.kept⟩,
    h.uses, fun hc => have c := h.consistent hc; ⟨c.tools, c.nodes, c.tasks⟩⟩

/-- Registering a task under `name` keeps `Sound` when the log says `createTask` made it for
`name`. -/
theorem Sound.setTask {s s' : BuildFileImpl} {ok : Bool} (h : Sound s ok s') {name : String}
    {task : Handle} (htask : ∃ tool, s'.calls[task]? = some (.createTask tool name)) :
    Sound s ok (s'.setTask name task) :=
  ⟨⟨h.grows.calls, h.grows.mainFilename, h.grows.tools, h.grows.nodes⟩, h.errorLast,
    ⟨h.tools.le_one, h.tools.absent, h.tools.kept⟩, ⟨h.nodes.le_one, h.nodes.absent, h.nodes.kept⟩,
    h.uses, fun hc => by
      have c := h.consistent hc
      refine ⟨c.tools, c.nodes, fun {n _} hn => ?_⟩
      simp only [BuildFileImpl.setTask_tasks, BuildFileImpl.setTask_calls] at hn ⊢
      by_cases he : n = name
      · subst he
        simp only [Function.update_same, Option.some.injEq] at hn
        exact hn ▸ htask
      · rw [Function.update_noteq he] at hn
        exact c.tasks hn⟩

/-- `delegate.loadedTarget(name, target)`, then `targets[name] = target`. -/
theorem sound_loadedTarget (s : BuildFileImpl) (name : String) (target : Target) :
    Sound s true ((s.call (.loadedTarget name target)).setTarget name target) :=
  (sound_call (.loadedTarget name target) true rfl (fun _ => rfl) (fun _ => rfl)
    ⟨nofun, nofun⟩).setTarget name target

/-- A plain call is no error and no lookup. -/
theorem Call.Plain.not_error_not_lookup {c : Call} (h : c.Plain) :
    c.isError = false ∧ (∀ name, c.looksUpTool name = false) ∧
      ∀ name, c.looksUpNode name = false := by
  cases c <;> simp_all [Call.Plain, Call.isError, Call.looksUpTool, Call.looksUpNode]

theorem Call.tool_mem_entities {c : Call} {tool : Handle} (h : tool ∈ c.toolArgs) :
    .tool tool ∈ c.entities := by
  cases c with
  | configureAttribute entity => cases entity <;> simp_all [Call.toolArgs, Call.entities]
  | _ => simp_all [Call.toolArgs, Call.entities]

theorem Call.node_mem_entities {c : Call} {node : Handle} (h : node ∈ c.nodeArgs) :
    .node node ∈ c.entities := by
  cases c with
  | configureAttribute entity => cases entity <;> simp_all [Call.nodeArgs, Call.entities]
  | _ => simp_all [Call.nodeArgs, Call.entities]

/-- **Each step of the parser is `Sound`.** -/
theorem sound_closed : RunProp.Closed Sound where
  chains := sound_chains
  grows h := h.grows
  error := sound_error
  call {c _} ok hplain hlive := by
    obtain ⟨herr, htool, hnode⟩ := hplain.not_error_not_lookup
    exact sound_call c ok herr htool hnode ⟨fun _ ht => hlive _ (Call.tool_mem_entities ht),
      fun _ hn => hlive _ (Call.node_mem_entities hn)⟩
  lookupToolFails message hs := sound_lookupToolFails hs message
  registerTool hs := sound_registerTool hs
  registerNode isImplicit hs := sound_registerNode isImplicit hs
  registerTarget := sound_loadedTarget
  registerTask {s name task tool} h :=
    (sound_call (.loadedTask name task) true rfl (fun _ => rfl) (fun _ => rfl)
      ⟨nofun, nofun⟩).setTask ⟨tool, getElem?_append_of_eq_some h⟩

/-- A run that makes no call and changes nothing, whatever it returns. -/
theorem sound_refl (s : BuildFileImpl) (ok : Bool) : Sound s ok s :=
  ⟨Grows.refl s, .inl (by simp), .of_countP_eq_zero (by simp), .of_countP_eq_zero (by simp),
    by simp [UsesRegistered], id⟩

section
variable (o : Oracle)

theorem getOrCreateTool_sound (name : String) (s : BuildFileImpl) :
    Sound s (getOrCreateTool o name s).1.isSome (getOrCreateTool o name s).2 :=
  getOrCreateTool_closed sound_closed o name s

theorem getOrCreateNode_sound (name : String) (isImplicit : Bool) (s : BuildFileImpl) :
    Sound s true (getOrCreateNode name isImplicit s).2 :=
  getOrCreateNode_closed sound_closed name isImplicit s

theorem load_sound (res : Except String (List Yaml.Node)) (s : BuildFileImpl) :
    Sound s (load o res s).1.isTrue (load o res s).2 := by
  rcases load_closed sound_closed o res s with ⟨-, h⟩ | h
  · rw [h]
    exact sound_refl s _
  · exact h

end

end BuildSystem
end Llbuild
