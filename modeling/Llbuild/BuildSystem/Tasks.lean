import Llbuild.BuildSystem.Calls

/-!
# What a task receives

`parseTasksMapping` (`BuildFile.cpp`, lines 444-581) reads each entry of `tasks` as a name and
a mapping whose first pair names the task's tool.  When it parses an entry to its end, the
entry's calls are these (`parseTasksEntry_configures_task`): the lookup of the tool if it is
not registered yet, `createTask(name)` on the tool registered under that name, then the
calls of the remaining pairs, and last `delegate.loadedTask`.  Apart from the lookups of
nodes not registered yet, the remaining pairs make one call each on the new task, in
document order, the one `taskCall` says: `configureInputs` or `configureOutputs` with the
registry's node for each name of an `inputs` or `outputs` sequence, duplicates kept, and
`configureAttribute` for any other pair of scalars.

Each function of the task parser has one lemma saying what it did when it returned `true`
(`resolveNodeNames_eq_some`, `parseTaskAttribute_eq_true`, `createTask_eq_true`,
`parseTasksEntry_eq_true`), and the lemma of its caller cites it.
-/

namespace Llbuild
namespace BuildSystem

open Yaml

namespace Call

/-- A call on the task `task`: `configureInputs`, `configureOutputs` or `configureAttribute`. -/
def onTask (task : Handle) : Call → Bool
  | configureInputs t _ | configureOutputs t _ | configureAttribute (.task t) _ _ _ => t == task
  | _ => false

end Call

/-- A lookup of an implicit node. -/
def ImplicitLookup (c : Call) : Prop := ∃ name, c = .lookupNode name true

/-- The calls the pairs of the task `task` make: calls on the task, and lookups of implicit
nodes. -/
def TaskAttributeCall (task : Handle) (c : Call) : Prop := c.onTask task = true ∨ ImplicitLookup c

/-- The registry's node for each item of a sequence of names, when each is a registered
scalar. -/
def registryNodes (nodes : String → Option Handle) (names : List Yaml.Node) :
    Option (List Handle) :=
  names.mapM fun name => name.scalarValue?.bind nodes

/-- The call the task `task` receives for a pair after its `tool` pair, given the registry
of nodes: `configureInputs` or `configureOutputs` with the registry's node for each name of
an `inputs` or `outputs` sequence, and an accepted `configureAttribute` for any other pair
of scalars. -/
def taskCall (nodes : String → Option Handle) (task : Handle) :
    Yaml.Node × Yaml.Node → Option Call
  | (.scalar "inputs", .sequence names) => (registryNodes nodes names).map (.configureInputs task)
  | (.scalar "outputs", .sequence names) => (registryNodes nodes names).map (.configureOutputs task)
  | (.scalar "inputs", _) | (.scalar "outputs", _) => none
  | (.scalar key, .scalar value) => some (.configureAttribute (.task task) key value true)
  | _ => none

section
variable {nodes nodes' : String → Option Handle}
  (hnodes : ∀ {name node}, nodes name = some node → nodes' name = some node)
include hnodes

/-- A name's node stays the registry's once registered, so the nodes of a sequence do. -/
theorem registryNodes_mono :
    ∀ {names : List Yaml.Node} {hs : List Handle}, registryNodes nodes names = some hs →
      registryNodes nodes' names = some hs
  | [], _, hr => hr
  | name :: names, _, hr => by
    simp only [registryNodes, List.mapM_cons, Option.pure_def, Option.bind_eq_bind,
      Option.bind_eq_some, Option.some.injEq] at hr ⊢
    obtain ⟨node, ⟨value, hv, hn⟩, rest, hrest, rfl⟩ := hr
    exact ⟨node, ⟨value, hv, hnodes hn⟩, rest, registryNodes_mono hrest, rfl⟩

theorem taskCall_mono {task : Handle} {pair : Yaml.Node × Yaml.Node} {c : Call}
    (hc : taskCall nodes task pair = some c) : taskCall nodes' task pair = some c := by
  unfold taskCall at hc ⊢
  split at hc
  · obtain ⟨_, hr, rfl⟩ := Option.map_eq_some'.1 hc
    rw [registryNodes_mono hnodes hr]
    rfl
  · obtain ⟨_, hr, rfl⟩ := Option.map_eq_some'.1 hc
    rw [registryNodes_mono hnodes hr]
    rfl
  · cases hc
  · cases hc
  · exact hc
  · cases hc

end

/-- **`resolveNodeNames` on success.**  Its only calls are lookups of implicit nodes, and the
nodes it returns are the registry's for the names of the sequence. -/
theorem resolveNodeNames_eq_some (key : String) (items : List Yaml.Node) (s : BuildFileImpl) :
    ∀ nodes, (resolveNodeNames key items s).1 = some nodes →
      CallsIn ImplicitLookup s true (resolveNodeNames key items s).2 ∧
        registryNodes (resolveNodeNames key items s).2.nodes items = some nodes := by
  induction items, s using resolveNodeNames.induct key with
  | case1 s =>
    rintro _ ⟨⟩
    exact ⟨(CallsIn.chains _).refl s, rfl⟩
  | case2 name items s node s₁ h₁ nodes s₂ h₂ ih =>
    have hcalls := getOrCreateNode_calls ImplicitLookup ⟨name, rfl⟩ s
    have hnode := getOrCreateNode_registered name true s
    rw [h₁] at hcalls hnode
    rw [h₂] at ih
    simp only [resolveNodeNames, h₁, h₂]
    intro hs hhs
    cases nodes with
    | none => cases hhs
    | some rest =>
      cases hhs
      obtain ⟨hcalls₂, hrest⟩ := ih rest rfl
      refine ⟨(CallsIn.chains _).trans hcalls hcalls₂, ?_⟩
      simp only [registryNodes, List.mapM_cons, Option.pure_def, Option.bind_eq_bind,
        Node.scalarValue?_scalar, Option.some_bind]
      rw [show List.mapM _ items = some rest from hrest, hcalls₂.1.nodes hnode]
      rfl
  | case3 head tail s hne =>
    rw [resolveNodeNames.eq_3 _ _ _ _ hne]
    nofun

section
variable {task : Handle}

/-- The `inputs` and `outputs` branches on success: a sequence whose names are registered,
looked up if they were not, then passed to the task. -/
theorem parseTaskNodes_eq_true {key : String} {configure : Handle → List Handle → Call}
    {value : Yaml.Node} {s s' : BuildFileImpl}
    (h : parseTaskNodes key configure task value s = (true, s')) :
    ∃ names nodes lookups, value = .sequence names ∧ registryNodes s'.nodes names = some nodes ∧
      Grows s s' ∧ newCalls s s' = lookups ++ [configure task nodes] ∧
      ∀ l ∈ lookups, ImplicitLookup l := by
  unfold parseTaskNodes at h
  split at h
  · obtain ⟨nodes, s₁, hr, hk⟩ := bindSome_eq_true h
    cases hk
    obtain ⟨⟨hg, hl⟩, hreg⟩ := resolveNodeNames_eq_some key _ s nodes (by rw [hr])
    rw [hr] at hg hl hreg
    exact ⟨_, nodes, newCalls s s₁, rfl, hreg, hg.trans (.call _ _),
      by rw [hg.newCalls_trans (.call _ _), newCalls_call], hl⟩
  · cases h

variable (o : Oracle)

/-- **A task's pair on success.**  Lookups of implicit nodes, then the one call on the task
that `taskCall` gives for the pair with the nodes registered at the end. -/
theorem parseTaskAttribute_eq_true {pair : Yaml.Node × Yaml.Node} {s s' : BuildFileImpl}
    (h : parseTaskAttribute o task pair s = (true, s')) :
    Grows s s' ∧ ∃ lookups c, newCalls s s' = lookups ++ [c] ∧ (∀ l ∈ lookups, ImplicitLookup l) ∧
      c.onTask task = true ∧ taskCall s'.nodes task pair = some c := by
  obtain ⟨key, value⟩ := pair
  simp only [parseTaskAttribute] at h
  split_ifs at h with hi ho
  · obtain ⟨names, nodes, lookups, rfl, hreg, hg, hnew, hl⟩ := parseTaskNodes_eq_true h
    rw [nodeIsScalarString_iff.1 hi]
    exact ⟨hg, lookups, _, hnew, hl, by simp [Call.onTask], by simp [taskCall, hreg]⟩
  · obtain ⟨names, nodes, lookups, rfl, hreg, hg, hnew, hl⟩ := parseTaskNodes_eq_true h
    rw [nodeIsScalarString_iff.1 ho]
    exact ⟨hg, lookups, _, hnew, hl, by simp [Call.onTask], by simp [taskCall, hreg]⟩
  · cases key with
    | scalar k =>
      cases value with
      | scalar v =>
        obtain ⟨hok, rfl⟩ := Prod.mk.inj h
        simp only [nodeIsScalarString, beq_iff_eq] at hi ho
        refine ⟨.call _ _, [], .configureAttribute (.task task) k v true, by simp [hok], nofun,
          by simp [Call.onTask], by simp [taskCall, hi, ho]⟩
      | _ => cases h
    | _ => cases h

/-- **The pairs of a task on success.**  Lookups of implicit nodes and calls on the task:
one per pair, in document order, each the one `taskCall` gives for the pair with the nodes
registered at the end. -/
theorem forEach_parseTaskAttribute_eq_true {attrs : List (Yaml.Node × Yaml.Node)}
    {s s' : BuildFileImpl} (h : forEach (parseTaskAttribute o task) attrs s = (true, s')) :
    CallsIn (TaskAttributeCall task) s true s' ∧
      attrs.mapM (taskCall s'.nodes task) = some ((newCalls s s').filter (Call.onTask task)) := by
  refine forEach_eq_true (fun attrs s s' => CallsIn (TaskAttributeCall task) s true s' ∧
      attrs.mapM (taskCall s'.nodes task) = some ((newCalls s s').filter (Call.onTask task)))
    (fun s => ⟨(CallsIn.chains _).refl s, by rw [newCalls_self]; rfl⟩) (fun h₁ ih => ?_) h
  obtain ⟨hg, lookups, c, hnew, hl, hc, hcall⟩ := parseTaskAttribute_eq_true o h₁
  obtain ⟨⟨hg₂, hcalls⟩, hrest⟩ := ih
  have hlookups : lookups.filter (Call.onTask task) = [] := List.filter_eq_nil_iff.2 fun l hl' => by
    obtain ⟨_, rfl⟩ := hl l hl'
    simp [Call.onTask]
  refine ⟨⟨hg.trans hg₂, fun c' hc' => ?_⟩, ?_⟩
  · rw [hg.newCalls_trans hg₂, hnew, List.mem_append, List.mem_append, List.mem_singleton] at hc'
    rcases hc' with (hc' | rfl) | hc'
    · exact .inr (hl c' hc')
    · exact .inl hc
    · exact hcalls c' hc'
  · rw [hg.newCalls_trans hg₂, hnew, List.filter_append, List.filter_append, hlookups,
      List.filter_cons_of_pos hc, List.filter_nil, List.mapM_cons, taskCall_mono hg₂.nodes hcall,
      hrest]
    rfl

/-- `getOrCreateTool` on success: the tool registered under the name, or the one whose
lookup it made, then registered. -/
theorem getOrCreateTool_eq_some {name : String} {s s₁ : BuildFileImpl} {tool : Handle}
    (h : getOrCreateTool o name s = (some tool, s₁)) :
    s.tools name = some tool ∧ s₁ = s ∨ s.tools name = none ∧ tool = s.calls.length ∧
      s₁ = (s.call (.lookupTool name true)).setTool name tool := by
  unfold getOrCreateTool at h
  rcases hs : s.tools name with _ | t <;> simp only [hs] at h
  · split at h
    · cases h
      exact .inr ⟨rfl, rfl, rfl⟩
    · cases h
  · cases h
    exact .inl ⟨rfl, rfl⟩

theorem createTask_eq_true {name : String} {tool : Handle} {attrs : List (Yaml.Node × Yaml.Node)}
    {s s' : BuildFileImpl} (h : createTask o name tool attrs s = (true, s')) :
    ∃ s₁, forEach (parseTaskAttribute o s.calls.length) attrs (s.call (.createTask tool name)) =
        (true, s₁) ∧
      s' = (s₁.call (.loadedTask name s.calls.length)).setTask name s.calls.length := by
  unfold createTask at h
  rcases hf : forEach (parseTaskAttribute o s.calls.length) attrs (s.call (.createTask tool name))
    with ⟨_ | _, s₁⟩ <;> rw [hf] at h
  · cases h
  · cases h
    exact ⟨s₁, rfl, rfl⟩

/-- An entry of `tasks` parsed to its end: a name, a mapping whose first pair is `tool` with a
scalar value, the tool found, and the task created and configured. -/
theorem parseTasksEntry_eq_true {entry : Yaml.Node × Yaml.Node} {s s' : BuildFileImpl}
    (h : parseTasksEntry o entry s = (true, s')) :
    ∃ name toolName attrs tool s₁,
      entry = (.scalar name, .mapping ((.scalar "tool", .scalar toolName) :: attrs)) ∧
      getOrCreateTool o toolName s = (some tool, s₁) ∧
      createTask o name tool attrs s₁ = (true, s') := by
  unfold parseTasksEntry at h
  split at h
  · cases h
  · split at h
    · cases h
    · split at h
      · obtain ⟨tool, s₁, hg, hc⟩ := bindSome_eq_true h
        have hkey := ‹¬(!nodeIsScalarString _ "tool") = true›
        rw [Bool.not_eq_true', Bool.not_eq_false, nodeIsScalarString_iff] at hkey
        rw [hkey]
        exact ⟨_, _, _, tool, s₁, rfl, hg, hc⟩
      · cases h
  · cases h
  · cases h

end

section
variable (o : Oracle)

/-- **A task parsed to its end receives one call per pair, in document order.**  When
`parseTasksMapping` parses an entry `name` to its end, the entry's mapping starts with the
pair `tool: toolName`, and the entry's calls are: the lookup of `toolName` if it was not
registered, `createTask(name)` on the tool registered under `toolName` (the only
`createTask` of the entry), the calls of the remaining pairs, and last
`loadedTask(name, task)` for the task that call created.  The calls of the remaining pairs
are lookups of implicit nodes and calls on the task, one per pair and in document order:
the one `taskCall` gives with the nodes registered at the end of the entry. -/
theorem parseTasksEntry_configures_task {name : String} {attrs : List (Yaml.Node × Yaml.Node)}
    {s s' : BuildFileImpl} (h : parseTasksEntry o (.scalar name, .mapping attrs) s = (true, s')) :
    ∃ toolName rest tool lookups task body,
      attrs = (.scalar "tool", .scalar toolName) :: rest ∧ s'.tools toolName = some tool ∧
      (lookups = [] ∧ s.tools toolName = some tool ∨
        lookups = [.lookupTool toolName true] ∧ tool = s.calls.length) ∧
      task = s.calls.length + lookups.length ∧
      newCalls s s' = lookups ++ .createTask tool name :: body ++ [.loadedTask name task] ∧
      (∀ c ∈ body, c.onTask task = true ∨ ∃ node, c = .lookupNode node true) ∧
      rest.mapM (taskCall s'.nodes task) = some (body.filter (Call.onTask task)) := by
  obtain ⟨_, toolName, rest, tool, s₁, hentry, htool, htask⟩ := parseTasksEntry_eq_true o h
  cases hentry
  obtain ⟨s₂, hloop, rfl⟩ := createTask_eq_true o htask
  obtain ⟨⟨hg₂, hcalls⟩, hmapM⟩ := forEach_parseTaskAttribute_eq_true o hloop
  have hg₁ : Grows s s₁ := by simpa [htool] using (getOrCreateTool_sound o toolName s).grows
  have hreg : s₁.tools toolName = some tool := by
    simpa [htool] using getOrCreateTool_registered o
      (show (getOrCreateTool o toolName s).1 = some tool by rw [htool])
  have hlookups : newCalls s s₁ = [] ∧ s.tools toolName = some tool ∨
      newCalls s s₁ = [.lookupTool toolName true] ∧ tool = s.calls.length := by
    rcases getOrCreateTool_eq_some o htool with ⟨hs, hs₁⟩ | ⟨-, rfl, rfl⟩
    · exact .inl ⟨hs₁ ▸ newCalls_self s, hs⟩
    · exact .inr ⟨by simp, rfl⟩
  refine ⟨toolName, rest, tool, newCalls s s₁, s₁.calls.length,
    newCalls (s₁.call (.createTask tool name)) s₂, rfl, hg₂.tools hreg, hlookups,
    by rw [hg₁.calls, List.length_append], ?_, hcalls, hmapM⟩
  have hg : Grows s₁ s₂ := (Grows.call _ _).trans hg₂
  rw [newCalls_setTask, (hg₁.trans hg).newCalls_trans (.call _ _), hg₁.newCalls_trans hg,
    (Grows.call _ _).newCalls_trans hg₂, newCalls_call, newCalls_call]
  simp

/-- The pairs of a task that compiles `a.c`, listed twice, with the flag `-O2`. -/
def compileTaskAttrs : List (Yaml.Node × Yaml.Node) :=
  [(.scalar "tool", .scalar "cc"), (.scalar "inputs", .sequence [.scalar "a.c", .scalar "a.c"]),
    (.scalar "flags", .scalar "-O2")]

theorem parseTasksEntry_configures_task_compile :
    ∃ s', parseTasksEntry .acceptAll (.scalar "compile", .mapping compileTaskAttrs)
        (.new "build.llbuild") = (true, s') ∧
      ∃ toolName rest tool lookups task body,
        compileTaskAttrs = (.scalar "tool", .scalar toolName) :: rest ∧
        s'.tools toolName = some tool ∧
        (lookups = [] ∧ (BuildFileImpl.new "build.llbuild").tools toolName = some tool ∨
          lookups = [.lookupTool toolName true] ∧
            tool = (BuildFileImpl.new "build.llbuild").calls.length) ∧
        task = (BuildFileImpl.new "build.llbuild").calls.length + lookups.length ∧
        newCalls (.new "build.llbuild") s' =
          lookups ++ .createTask tool "compile" :: body ++ [.loadedTask "compile" task] ∧
        (∀ c ∈ body, c.onTask task = true ∨ ∃ node, c = .lookupNode node true) ∧
        rest.mapM (taskCall s'.nodes task) = some (body.filter (Call.onTask task)) :=
  ⟨_, rfl, parseTasksEntry_configures_task .acceptAll rfl⟩

end

end BuildSystem
end Llbuild
