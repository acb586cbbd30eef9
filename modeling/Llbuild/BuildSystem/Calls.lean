import Llbuild.BuildSystem.Sound

/-!
# The calls each parser can make

Whatever the delegate answers and however the run ends, each parse function of
`BuildFile.cpp` makes calls of a few kinds only (`CallsIn`): `parseToolsMapping` looks up
tools and configures them, `parseNodesMapping` looks up the names of its own keys as
explicit nodes, `parseTasksMapping` looks up nodes only as implicit ones and passes no pair
with the key `inputs` or `outputs` to a task's `configureAttribute`, and so on
(`ToolsCall`, `TargetsCall`, `NodesCall`, `TasksCall`, `ClientCall`).  `load_calls`
collects them: every call of a load is an error, a call of the client, or a call of the
section whose entry of the root mapping made it.
-/

namespace Llbuild
namespace BuildSystem

open Yaml

/-- A run that `Grows` and whose every call satisfies `Q`. -/
def CallsIn (Q : Call → Prop) : RunProp := fun s _ s' => Grows s s' ∧ ∀ c ∈ newCalls s s', Q c

namespace CallsIn

variable {Q : Call → Prop}

theorem chains (Q : Call → Prop) : (CallsIn Q).Chains where
  refl s := ⟨Grows.refl s, by simp⟩
  trans h₁ h₂ := ⟨h₁.1.trans h₂.1, by
    rw [h₁.1.newCalls_trans h₂.1]
    exact fun c hc => (List.mem_append.1 hc).elim (h₁.2 c) (h₂.2 c)⟩

theorem mono {Q' : Call → Prop} (hQ : ∀ c, Q c → Q' c) {s s' : BuildFileImpl} {ok : Bool}
    (h : CallsIn Q s ok s') : CallsIn Q' s ok s' :=
  ⟨h.1, fun c hc => hQ c (h.2 c hc)⟩

theorem call {c : Call} (hc : Q c) (s : BuildFileImpl) (ok : Bool) : CallsIn Q s ok (s.call c) :=
  ⟨Grows.call s c, by simpa using hc⟩

theorem error (hE : ∀ filename message, Q (.error filename message)) (s : BuildFileImpl)
    (message : String) (ok : Bool) : CallsIn Q s ok (s.error message) :=
  call (hE _ _) s ok

end CallsIn

/-- The calls of `parseClientMapping`. -/
def ClientCall : Call → Prop
  | .configureClient .. | .error .. => True
  | _ => False

theorem clientCall_of_isError {c : Call} (h : c.isError = true) : ClientCall c := by
  cases c <;> trivial

/-- The calls of `parseToolsMapping`: tool lookups, attributes of tools, errors. -/
def ToolsCall : Call → Prop
  | .lookupTool .. | .configureAttribute (.tool _) .. | .error .. => True
  | _ => False

/-- The calls of `parseTargetsMapping`. -/
def TargetsCall : Call → Prop
  | .loadedTarget .. | .error .. => True
  | _ => False

/-- The calls of `parseNodesMapping` on a mapping with the keys `names`: explicit lookups of
those names, attributes of nodes, errors. -/
def NodesCall (names : List String) : Call → Prop
  | .lookupNode name isImplicit => name ∈ names ∧ isImplicit = false
  | .configureAttribute (.node _) .. | .error .. => True
  | _ => False

/-- The calls of `parseTasksMapping`: tool lookups, implicit node lookups, the creation and
the configuration of tasks, `loadedTask`, errors; no task attribute is `inputs` or
`outputs`. -/
def TasksCall : Call → Prop
  | .lookupNode _ isImplicit => isImplicit = true
  | .configureAttribute (.task _) key _ _ => key ≠ "inputs" ∧ key ≠ "outputs"
  | .lookupTool .. | .createTask .. | .configureInputs .. | .configureOutputs .. | .loadedTask ..
  | .error .. => True
  | _ => False

/-- The scalar keys of a mapping, in document order. -/
def mappingKeys (map : List (Yaml.Node × Yaml.Node)) : List String :=
  map.filterMap fun entry => entry.1.scalarValue?

/-- The calls of the section parser of each name, on its mapping. -/
def SectionCall : String → List (Yaml.Node × Yaml.Node) → Call → Prop
  | "tools", _ => ToolsCall
  | "targets", _ => TargetsCall
  | "nodes", map => NodesCall (mappingKeys map)
  | "tasks", _ => TasksCall
  | _, _ => fun _ => False

/-- The calls of `parseRootNode` on `root`: those of the client, and those of the section
parser of each entry of the root mapping. -/
def RootCall (root : Yaml.Node) (c : Call) : Prop :=
  ClientCall c ∨ ∃ name map, (.scalar name, .mapping map) ∈ root.entries ∧ SectionCall name map c

namespace CallsIn

theorem setTarget {Q : Call → Prop} {s s' : BuildFileImpl} {ok : Bool} (h : CallsIn Q s ok s')
    (name : String) (target : Target) : CallsIn Q s ok (s'.setTarget name target) :=
  ⟨h.1.setTarget name target, by simpa using h.2⟩

theorem setTask {Q : Call → Prop} {s s' : BuildFileImpl} {ok : Bool} (h : CallsIn Q s ok s')
    (name : String) (task : Handle) : CallsIn Q s ok (s'.setTask name task) :=
  ⟨h.1.setTask name task, by simpa using h.2⟩

end CallsIn

section
variable (o : Oracle)

theorem getOrCreateTool_calls (Q : Call → Prop) (name : String) (hQ : ∀ found, Q (.lookupTool name found))
    (hE : ∀ filename message, Q (.error filename message)) (s : BuildFileImpl) :
    CallsIn Q s (getOrCreateTool o name s).1.isSome (getOrCreateTool o name s).2 := by
  refine ⟨(getOrCreateTool_sound o name s).grows, ?_⟩
  unfold getOrCreateTool
  split
  · simp
  · split <;> simp [BuildFileImpl.error, hQ, hE]

theorem getOrCreateNode_calls (Q : Call → Prop) {name : String} {isImplicit : Bool}
    (hQ : Q (.lookupNode name isImplicit)) (s : BuildFileImpl) :
    CallsIn Q s true (getOrCreateNode name isImplicit s).2 := by
  refine ⟨(getOrCreateNode_sound name isImplicit s).grows, ?_⟩
  unfold getOrCreateNode
  split <;> simp [hQ]

theorem configureAttributePair_calls (Q : Call → Prop) {entity : Entity}
    {pair : Yaml.Node × Yaml.Node}
    (hQ : ∀ key value ok, pair = (.scalar key, .scalar value) →
      Q (.configureAttribute entity key value ok))
    (hE : ∀ filename message, Q (.error filename message)) (s : BuildFileImpl) :
    CallsIn Q s (configureAttributePair o entity pair s).1 (configureAttributePair o entity pair s).2 := by
  unfold configureAttributePair
  split
  · exact CallsIn.call (hQ _ _ _ rfl) s _
  · exact CallsIn.error hE _ _ _
  · exact CallsIn.error hE _ _ _

theorem parseEntityEntry_calls (Q : Call → Prop) {mapName : String}
    {resolve : String → BuildFileImpl → Option Entity × BuildFileImpl} {entry : Yaml.Node × Yaml.Node}
    (hres : ∀ name, entry.1 = .scalar name → ∀ s,
      CallsIn Q s (resolve name s).1.isSome (resolve name s).2 ∧
        ∀ e, (resolve name s).1 = some e → ∀ key value ok, Q (.configureAttribute e key value ok))
    (hE : ∀ filename message, Q (.error filename message)) (s : BuildFileImpl) :
    CallsIn Q s (parseEntityEntry o mapName resolve entry s).1
      (parseEntityEntry o mapName resolve entry s).2 := by
  obtain ⟨key, value⟩ := entry
  cases key with
  | scalar name =>
    cases value with
    | mapping attrs =>
      obtain ⟨hcalls, hent⟩ := hres name rfl s
      exact bindSome_runs (CallsIn.chains Q) hcalls fun e he =>
        forEach_runs (CallsIn.chains Q) (fun _ => True) (fun _ _ => trivial)
          (fun pair _ s _ => configureAttributePair_calls o Q (fun k v ok _ => hent e he k v ok) hE s)
          _ trivial
    | _ => exact CallsIn.error hE _ _ _
  | _ => exact CallsIn.error hE _ _ _

theorem parseToolsMapping_calls (map : List (Yaml.Node × Yaml.Node)) (s : BuildFileImpl) :
    CallsIn ToolsCall s (parseToolsMapping o map s).1 (parseToolsMapping o map s).2 := by
  refine forEach_runs (CallsIn.chains _) (fun _ => True) (fun _ _ => trivial)
    (fun entry _ s _ => parseEntityEntry_calls o _ (fun name _ s => ?_) (fun _ _ => trivial) s)
    s trivial
  have h := getOrCreateTool_calls o ToolsCall name (fun _ => trivial) (fun _ _ => trivial) s
  rcases hr : getOrCreateTool o name s with ⟨_ | tool, s'⟩ <;> rw [hr] at h
  · exact ⟨h, nofun⟩
  · exact ⟨h, fun e he => by cases he; exact fun _ _ _ => trivial⟩

theorem parseNodesMapping_calls (map : List (Yaml.Node × Yaml.Node)) (s : BuildFileImpl) :
    CallsIn (NodesCall (mappingKeys map)) s (parseNodesMapping o map s).1
      (parseNodesMapping o map s).2 := by
  refine forEach_runs (CallsIn.chains _) (fun _ => True) (fun _ _ => trivial)
    (fun entry hmem s _ => parseEntityEntry_calls o _ (fun name hname s => ?_) (fun _ _ => trivial) s)
    s trivial
  have hkey : name ∈ mappingKeys map := List.mem_filterMap.2 ⟨entry, hmem, by rw [hname]; rfl⟩
  have h := getOrCreateNode_calls (NodesCall (mappingKeys map)) (show NodesCall _ (.lookupNode name false) from ⟨hkey, rfl⟩) s
  rcases hr : getOrCreateNode name false s with ⟨node, s'⟩
  rw [hr] at h
  exact ⟨h, fun e he => by cases he; exact fun _ _ _ => trivial⟩

theorem parseClientMapping_calls (map : List (Yaml.Node × Yaml.Node)) (s : BuildFileImpl) :
    CallsIn ClientCall s (parseClientMapping o map s).1 (parseClientMapping o map s).2 := by
  refine ⟨(parseClientMapping_closed sound_closed o map s).grows, ?_⟩
  unfold parseClientMapping
  split
  · simp [BuildFileImpl.error, ClientCall]
  · dsimp only
    split <;> simp [BuildFileImpl.error, ClientCall]

end

theorem parseTargetsEntry_calls (entry : Yaml.Node × Yaml.Node) (s : BuildFileImpl) :
    CallsIn TargetsCall s (parseTargetsEntry entry s).1 (parseTargetsEntry entry s).2 := by
  refine ⟨(parseTargetsEntry_closed sound_closed entry s).grows, ?_⟩
  unfold parseTargetsEntry
  split
  · split <;> simp [BuildFileImpl.error, TargetsCall]
  all_goals simp [BuildFileImpl.error, TargetsCall]

theorem parseTargetsMapping_calls (map : List (Yaml.Node × Yaml.Node)) (s : BuildFileImpl) :
    CallsIn TargetsCall s (parseTargetsMapping map s).1 (parseTargetsMapping map s).2 :=
  forEach_runs (CallsIn.chains _) (fun _ => True) (fun _ _ => trivial)
    (fun entry _ s _ => parseTargetsEntry_calls entry s) s trivial

section
variable (Q : Call → Prop) (hQ : ∀ name, Q (.lookupNode name true))
  (hE : ∀ filename message, Q (.error filename message))
include hQ hE

theorem resolveNodeNames_calls (key : String) (items : List Yaml.Node) (s : BuildFileImpl) :
    CallsIn Q s true (resolveNodeNames key items s).2 := by
  induction items, s using resolveNodeNames.induct key with
  | case1 s => exact (CallsIn.chains _).refl s
  | case2 name items s node s₁ h₁ nodes s₂ h₂ ih =>
    have hnode := getOrCreateNode_calls Q (hQ name) s
    rw [h₁] at hnode
    rw [h₂] at ih
    simp only [resolveNodeNames, h₁, h₂]
    exact (CallsIn.chains _).trans hnode ih
  | case3 head tail s hne =>
    rw [resolveNodeNames.eq_3 _ _ _ _ hne]
    exact CallsIn.error hE _ _ _

theorem parseTaskNodes_calls {key : String} {configure : Handle → List Handle → Call}
    {task : Handle} (hcfg : ∀ nodes, Q (configure task nodes)) (value : Yaml.Node)
    (s : BuildFileImpl) :
    CallsIn Q s (parseTaskNodes key configure task value s).1
      (parseTaskNodes key configure task value s).2 := by
  unfold parseTaskNodes
  split
  · exact bindSome_runs (CallsIn.chains _) (resolveNodeNames_calls Q hQ hE key _ s)
      fun nodes _ => CallsIn.call (hcfg nodes) _ _
  · exact CallsIn.error hE _ _ _

/-- The calls of a task's pair: lookups of implicit nodes, errors, and the calls on the task
its key selects, an attribute only under a key other than `inputs` and `outputs`. -/
theorem parseTaskAttribute_calls (o : Oracle) (task : Handle)
    (hin : ∀ nodes, Q (.configureInputs task nodes))
    (hout : ∀ nodes, Q (.configureOutputs task nodes))
    (hattr : ∀ key value ok, key ≠ "inputs" → key ≠ "outputs" →
      Q (.configureAttribute (.task task) key value ok))
    (pair : Yaml.Node × Yaml.Node) (s : BuildFileImpl) :
    CallsIn Q s (parseTaskAttribute o task pair s).1 (parseTaskAttribute o task pair s).2 := by
  obtain ⟨key, value⟩ := pair
  simp only [parseTaskAttribute]
  split_ifs with hi ho
  · exact parseTaskNodes_calls Q hQ hE hin value s
  · exact parseTaskNodes_calls Q hQ hE hout value s
  · refine configureAttributePair_calls o Q (fun k v ok h => ?_) hE s
    obtain ⟨rfl, rfl⟩ := Prod.mk.inj h
    exact hattr k v ok (fun e => hi (by simp [nodeIsScalarString, e]))
      fun e => ho (by simp [nodeIsScalarString, e])

end

section
variable (o : Oracle)

theorem createTask_calls (name : String) (tool : Handle) (attrs : List (Yaml.Node × Yaml.Node))
    (s : BuildFileImpl) :
    CallsIn TasksCall s (createTask o name tool attrs s).1 (createTask o name tool attrs s).2 := by
  have h₁ : CallsIn TasksCall s true (s.call (.createTask tool name)) := CallsIn.call trivial s true
  have h₂ := forEach_runs (CallsIn.chains TasksCall) (fun _ => True) (fun _ _ => trivial)
    (fun pair (_ : pair ∈ attrs) s' _ => parseTaskAttribute_calls TasksCall (fun _ => rfl)
      (fun _ _ => trivial) o s.calls.length (fun _ => trivial) (fun _ => trivial)
      (fun _ _ _ => And.intro) pair s')
    (s.call (.createTask tool name)) trivial
  unfold createTask
  rcases h : forEach (parseTaskAttribute o s.calls.length) attrs (s.call (.createTask tool name))
    with ⟨_ | _, s₂⟩ <;> rw [h] at h₂
  · exact (CallsIn.chains _).trans h₁ h₂
  · exact (CallsIn.chains _).trans h₁ ((CallsIn.chains _).trans h₂
      ((CallsIn.call trivial _ true).setTask _ _))

theorem parseTasksEntry_calls (entry : Yaml.Node × Yaml.Node) (s : BuildFileImpl) :
    CallsIn TasksCall s (parseTasksEntry o entry s).1 (parseTasksEntry o entry s).2 := by
  unfold parseTasksEntry
  split
  · exact CallsIn.error (fun _ _ => trivial) _ _ _
  · split
    · exact CallsIn.error (fun _ _ => trivial) _ _ _
    · split
      · exact bindSome_runs (CallsIn.chains _)
          (getOrCreateTool_calls o TasksCall _ (fun _ => trivial) (fun _ _ => trivial) s)
          fun tool _ => createTask_calls o _ _ _ _
      · exact CallsIn.error (fun _ _ => trivial) _ _ _
  · exact CallsIn.error (fun _ _ => trivial) _ _ _
  · exact CallsIn.error (fun _ _ => trivial) _ _ _

theorem parseTasksMapping_calls (map : List (Yaml.Node × Yaml.Node)) (s : BuildFileImpl) :
    CallsIn TasksCall s (parseTasksMapping o map s).1 (parseTasksMapping o map s).2 :=
  forEach_runs (CallsIn.chains _) (fun _ => True) (fun _ _ => trivial)
    (fun entry _ s _ => parseTasksEntry_calls o entry s) s trivial

end

/-- The section blocks of `parseRootNode` make the calls of the section parser of the entry
each one parses, and errors. -/
theorem parseSections_calls (alphabet : String → List (Yaml.Node × Yaml.Node) → Call → Prop)
    {secs : List (String × (List (Yaml.Node × Yaml.Node) → Parse))}
    (hsecs : ∀ sec ∈ secs, ∀ map s, CallsIn (alphabet sec.1 map) s (sec.2 map s).1 (sec.2 map s).2)
    (it : List (Yaml.Node × Yaml.Node)) (s : BuildFileImpl) :
    CallsIn (fun c => c.isError = true ∨
        ∃ name map, (.scalar name, .mapping map) ∈ it ∧ alphabet name map c) s
      (parseSections secs it s).1 (parseSections secs it s).2 := by
  induction secs, it using parseSections.induct generalizing s with
  | case1 => exact (CallsIn.chains _).refl s
  | case2 => exact CallsIn.error (fun _ _ => .inl rfl) _ _ _
  | case3 sec secs ih =>
    rw [parseSections]
    exact ih (fun sec' h => hsecs sec' (.tail _ h)) s
  | case4 name parse secs key it hkey map ih =>
    rw [parseSections_of_key hkey]
    rw [nodeIsScalarString_iff] at hkey
    subst hkey
    refine andThen_runs (CallsIn.chains _)
      ((hsecs _ (.head _) map s).mono fun c hc => .inr ⟨name, map, .head _, hc⟩) fun _ => ?_
    exact (ih (fun sec' h => hsecs sec' (.tail _ h)) _).mono fun c hc =>
      hc.imp_right fun ⟨n, m, hm, hc⟩ => ⟨n, m, .tail _ hm, hc⟩
  | case5 name parse secs key value it hkey hval =>
    rw [parseSections_of_key hkey]
    split
    · exact absurd rfl (hval _)
    · exact CallsIn.error (fun _ _ => .inl rfl) _ _ _
  | case6 name parse secs key value it hkey ih =>
    rw [parseSections_of_not_key (by simpa using hkey)]
    exact ih (fun sec' h => hsecs sec' (.tail _ h)) s

section
variable (o : Oracle)

theorem sections_calls :
    ∀ sec ∈ sections o, ∀ map s, CallsIn (SectionCall sec.1 map) s (sec.2 map s).1 (sec.2 map s).2 := by
  simp only [sections, List.mem_cons, List.mem_singleton, List.not_mem_nil, or_false]
  rintro _ (rfl | rfl | rfl | rfl)
  · exact parseToolsMapping_calls o
  · exact parseTargetsMapping_calls
  · exact parseNodesMapping_calls o
  · exact parseTasksMapping_calls o

theorem parseRootNode_calls (root : Yaml.Node) (s : BuildFileImpl) :
    CallsIn (RootCall root) s (parseRootNode o root s).1.isTrue (parseRootNode o root s).2 := by
  have hE : ∀ filename message, RootCall root (.error filename message) := fun _ _ => .inl trivial
  unfold parseRootNode
  split
  · exact (CallsIn.chains _).refl s
  · split
    · exact CallsIn.error hE _ _ _
    · split
      · refine andThen_runs (CallsIn.chains _) ((parseClientMapping_calls o _ s).mono
          fun c hc => .inl hc) fun _ => (parseSections_calls SectionCall (sections_calls o) _ _).mono ?_
        rintro c (hc | ⟨name, map, hm, hc⟩)
        · exact .inl (clientCall_of_isError hc)
        · exact .inr ⟨name, map, .tail _ hm, hc⟩
      · exact CallsIn.error hE _ _ _
  · exact CallsIn.error hE _ _ _

/-- **Every call of a load comes from the client or from the parser of its section.**  On a
stream whose first document has the root `root`, every call is an error, a
`configureClient`, or a call of the section parser of an entry of the root mapping, on the
mapping of that entry. -/
theorem load_calls (root : Yaml.Node) (documents : List Yaml.Node) (s : BuildFileImpl) :
    ∀ c ∈ newCalls s (load o (.ok (root :: documents)) s).2, RootCall root c := by
  have h := parseRootNode_calls o root s
  rcases hr : parseRootNode o root s with ⟨⟨_ | _⟩ | ⟨⟩, s'⟩ <;> rw [hr] at h <;>
    simp only [load, hr]
  · exact h.2
  · cases documents
    · exact h.2
    · exact ((CallsIn.chains _).trans h (CallsIn.error (fun _ _ => .inl trivial) _ _ false)).2
  · exact h.2

/-- **No task attribute is named `inputs` or `outputs`.**  For every stream and every answer
of the delegate and the entities, `Task::configureAttribute` is never called with the key
`inputs` or `outputs`. -/
theorem load_task_attribute_keys (res : Except String (List Yaml.Node)) (s : BuildFileImpl) :
    ∀ c ∈ newCalls s (load o res s).2, ∀ task key value ok,
      c = .configureAttribute (.task task) key value ok → key ≠ "inputs" ∧ key ≠ "outputs" := by
  rintro c hc task key value ok rfl
  rcases res with _ | _ | ⟨root, documents⟩
  · simp [load, BuildFileImpl.error] at hc
  · simp [load, BuildFileImpl.error] at hc
  · rcases load_calls o root documents s _ hc with hc | ⟨name, map, -, hc⟩
    · exact hc.elim
    · unfold SectionCall at hc
      split at hc <;> first | exact hc | exact hc.elim

end

/-- A build file whose task repeats the key `tool`: `{client: {}, tasks: {t: {tool: cc, tool: ld}}}`. -/
def repeatedToolFile : Except String (List Yaml.Node) :=
  .ok [.mapping [(.scalar "client", .mapping []), (.scalar "tasks", .mapping
    [(.scalar "t", .mapping [(.scalar "tool", .scalar "cc"), (.scalar "tool", .scalar "ld")])])]]

/-- `load_task_attribute_keys` at the attribute call of a task that repeats `tool`. -/
theorem load_task_attribute_keys_repeated_tool :
    Call.configureAttribute (.task 2) "tool" "ld" true ∈
        newCalls (.new "build.llbuild") (load .acceptAll repeatedToolFile (.new "build.llbuild")).2 ∧
      ("tool" ≠ "inputs" ∧ "tool" ≠ "outputs") :=
  ⟨by decide, load_task_attribute_keys .acceptAll repeatedToolFile (.new "build.llbuild") _
    (by decide) 2 "tool" "ld" true rfl⟩

/-- **A later `tool` pair of a task reaches `configureAttribute`.**  Only the first pair of a
task's mapping is read as its tool: in a task `{tool: cc, tool: ld}` the second pair is passed
to the task as the attribute `tool`. -/
theorem load_task_attribute_tool :
    (load .acceptAll repeatedToolFile (.new "build.llbuild")).2.calls =
      [.configureClient "" 0 [] true, .lookupTool "cc" true, .createTask 1 "t",
        .configureAttribute (.task 2) "tool" "ld" true, .loadedTask "t" 2] := by
  decide

end BuildSystem
end Llbuild
