import Llbuild.BuildSystem.Tasks
import Llbuild.BuildSystem.Phases

/-!
# What a load registers

The four registries of `BuildFileImpl` (`BuildFile.cpp`, lines 92-157) are written in four
places: `getOrCreateTool` and `getOrCreateNode` (lines 126-157) add a name they lack, and the
loops of `parseTargetsMapping` and `parseTasksMapping` (lines 383-386 and 574-577) store each
target and each task under its name after `delegate.loadedTarget` or `delegate.loadedTask`,
replacing what an earlier entry of the same name stored.

`Effect c s s'` says that a run from `s` to `s'` added exactly `c` (`Contents`): the names it
registered as tools and as nodes, the targets it loaded and stored, and the tasks it loaded,
each the one its `createTask` call returned, stored last one first.  Each parse function
that returns `true` has the `Effect` of what its part of the document lists, and effects
compose (`Effect.trans`), so a load that returns `true` has the effect of the whole
document, section by section (`load_effect`).  From a `BuildFile` just constructed this
gives the registries in full (`load_registers_contents`); after it, a second load of the same
document looks nothing up (`load_again_looks_up_nothing`).  The same phases, read off the
log instead of the registries, put the calls of a load in the order of its sections
(`load_calls_section_by_section`).
-/

namespace Llbuild
namespace BuildSystem

open Yaml

namespace Call

/-- The name and target of a `loadedTarget` call. -/
def loadedTarget? : Call → Option (String × Target)
  | loadedTarget name target => some (name, target)
  | _ => none

/-- The name and task of a `loadedTask` call. -/
def loadedTask? : Call → Option (String × Handle)
  | loadedTask name task => some (name, task)
  | _ => none

/-- The name given to a `createTask` call. -/
def createdTask? : Call → Option String
  | createTask _ name => some name
  | _ => none

/-- A call that neither loads a target or a task nor creates a task. -/
def Quiet (c : Call) : Prop :=
  c.loadedTarget? = none ∧ c.loadedTask? = none ∧ c.createdTask? = none

end Call

/-- The tasks the calls from position `i` of the log on create: the name given to each
`createTask` call, and the task it returned, which is its position. -/
def createdTasks : Nat → List Call → List (String × Handle)
  | _, [] => []
  | i, c :: calls => (c.createdTask?.map (·, i)).toList ++ createdTasks (i + 1) calls

theorem createdTasks_append (l₁ l₂ : List Call) :
    ∀ i, createdTasks i (l₁ ++ l₂) = createdTasks i l₁ ++ createdTasks (i + l₁.length) l₂ := by
  induction l₁ with
  | nil => simp [createdTasks]
  | cons c l₁ ih =>
    intro i
    rw [List.cons_append, createdTasks, createdTasks, ih, List.append_assoc, List.length_cons,
      show i + 1 + l₁.length = i + (l₁.length + 1) by omega]

theorem createdTasks_of_quiet {calls : List Call} (h : ∀ c ∈ calls, c.Quiet) (i : Nat) :
    createdTasks i calls = [] := by
  induction calls generalizing i with
  | nil => rfl
  | cons c calls ih =>
    simp only [createdTasks, (h c (.head _)).2.2, Option.map_none', Option.toList_none,
      List.nil_append, ih (fun c hc => h c (.tail _ hc))]

/-- The registry `reg` after storing each pair, in order: a name is bound to the value of the
last pair of that name, if there is one. -/
def storeAll {α : Type} (pairs : List (String × α)) (reg : String → Option α) (name : String) :
    Option α :=
  (pairs.reverse.lookup name).or (reg name)

@[simp] theorem storeAll_nil {α : Type} (reg : String → Option α) : storeAll [] reg = reg := rfl

theorem storeAll_append {α : Type} (l₁ l₂ : List (String × α)) (reg : String → Option α) :
    storeAll (l₁ ++ l₂) reg = storeAll l₂ (storeAll l₁ reg) := by
  funext name
  simp [storeAll, List.lookup_append, Option.or_assoc]

/-- `registry[name] = value`. -/
theorem storeAll_singleton {α : Type} (name : String) (a : α) (reg : String → Option α) :
    storeAll [(name, a)] reg = Function.update reg name (some a) := by
  funext n
  by_cases h : n = name
  · subst h
    simp [storeAll]
  · have hne : (n == name) = false := by simpa using h
    simp [storeAll, List.lookup_cons, hne, Function.update_noteq h]

/-- What a part of a document adds to a `BuildFile`, in document order: the names it
registers as tools and as nodes, the targets it loads, and the names of the tasks it loads. -/
structure Contents where
  tools : List String
  nodes : List String
  targets : List (String × Target)
  tasks : List String
  deriving DecidableEq, Repr

namespace Contents

/-- Nothing. -/
@[simps]
def empty : Contents := ⟨[], [], [], []⟩

/-- What one part of a document adds, then what the next one adds. -/
@[simps]
def append (c c' : Contents) : Contents :=
  ⟨c.tools ++ c'.tools, c.nodes ++ c'.nodes, c.targets ++ c'.targets, c.tasks ++ c'.tasks⟩

end Contents

/-- **What a run that returned `true` added.**  The run from `s` to `s'` registered exactly
the names `c.tools` and `c.nodes` that were not registered yet, loaded the targets
`c.targets` in order and stored each under its name, and loaded tasks under the names
`c.tasks` in order, each the task the matching `createTask` call returned, and stored each
under its name. -/
structure Effect (c : Contents) (s s' : BuildFileImpl) : Prop where
  grows : Grows s s'
  tools : ∀ name, (s'.tools name).isSome ↔ (s.tools name).isSome ∨ name ∈ c.tools
  nodes : ∀ name, (s'.nodes name).isSome ↔ (s.nodes name).isSome ∨ name ∈ c.nodes
  loadedTargets : (newCalls s s').filterMap Call.loadedTarget? = c.targets
  targets : s'.targets = storeAll c.targets s.targets
  loadedTasks : ((newCalls s s').filterMap Call.loadedTask?).map Prod.fst = c.tasks
  created : createdTasks s.calls.length (newCalls s s') = (newCalls s s').filterMap Call.loadedTask?
  tasks : s'.tasks = storeAll ((newCalls s s').filterMap Call.loadedTask?) s.tasks

namespace Effect

variable {c c₁ c₂ : Contents} {s s' s₁ s₂ s₃ : BuildFileImpl}

theorem refl (s : BuildFileImpl) : Effect .empty s s where
  grows := .refl s
  tools := by simp
  nodes := by simp
  loadedTargets := by simp
  targets := by simp
  loadedTasks := by simp
  created := by simp [createdTasks]
  tasks := by simp

theorem trans (h₁ : Effect c₁ s₁ s₂) (h₂ : Effect c₂ s₂ s₃) : Effect (c₁.append c₂) s₁ s₃ where
  grows := h₁.grows.trans h₂.grows
  tools name := by rw [h₂.tools, h₁.tools, Contents.append_tools, List.mem_append, or_assoc]
  nodes name := by rw [h₂.nodes, h₁.nodes, Contents.append_nodes, List.mem_append, or_assoc]
  loadedTargets := by
    rw [h₁.grows.newCalls_trans h₂.grows, List.filterMap_append, h₁.loadedTargets,
      h₂.loadedTargets, Contents.append_targets]
  targets := by rw [h₂.targets, h₁.targets, Contents.append_targets, storeAll_append]
  loadedTasks := by
    rw [h₁.grows.newCalls_trans h₂.grows, List.filterMap_append, List.map_append, h₁.loadedTasks,
      h₂.loadedTasks, Contents.append_tasks]
  created := by
    have hlen : s₁.calls.length + (newCalls s₁ s₂).length = s₂.calls.length := by
      rw [h₁.grows.calls, List.length_append]
    rw [h₁.grows.newCalls_trans h₂.grows, createdTasks_append, hlen, h₁.created, h₂.created,
      List.filterMap_append]
  tasks := by
    rw [h₂.tasks, h₁.tasks, h₁.grows.newCalls_trans h₂.grows, List.filterMap_append,
      storeAll_append]

/-- A run whose calls are quiet and which writes no registry but `tools` and `nodes`. -/
theorem of_quiet {tools nodes : List String} (h : CallsIn Call.Quiet s true s')
    (htools : ∀ name, (s'.tools name).isSome ↔ (s.tools name).isSome ∨ name ∈ tools)
    (hnodes : ∀ name, (s'.nodes name).isSome ↔ (s.nodes name).isSome ∨ name ∈ nodes)
    (htargets : s'.targets = s.targets) (htasks : s'.tasks = s.tasks) :
    Effect ⟨tools, nodes, [], []⟩ s s' := by
  have htarget : (newCalls s s').filterMap Call.loadedTarget? = [] :=
    List.filterMap_eq_nil_iff.2 fun c hc => (h.2 c hc).1
  have htask : (newCalls s s').filterMap Call.loadedTask? = [] :=
    List.filterMap_eq_nil_iff.2 fun c hc => (h.2 c hc).2.1
  exact ⟨h.1, htools, hnodes, htarget, by simp [htargets], by simp [htask],
    by rw [htask, createdTasks_of_quiet fun c hc => h.2 c hc], by simp [htask, htasks]⟩

/-- A quiet call. -/
theorem call {c : Call} (hc : c.Quiet) (s : BuildFileImpl) : Effect .empty s (s.call c) :=
  of_quiet (CallsIn.call hc s true) (by simp) (by simp) rfl rfl

theorem append_empty (c : Contents) : c.append .empty = c := by
  cases c
  simp [Contents.append]

/-- A run that added `c`, then a quiet call. -/
theorem then_call (h : Effect c s s') {c' : Call} (hc : c'.Quiet) : Effect c s (s'.call c') := by
  rw [← append_empty c]
  exact h.trans (call hc s')


/-- **A loop that ran to its end added what its entries list.**  `contents` gives what a list
of entries adds; when each step that returns `true` adds what its entry adds in front of
the rest, the loop adds what the whole list does. -/
theorem forEach {α : Type} {body : α → Parse} (contents : List α → Contents)
    (hnil : contents [] = .empty)
    (hcons : ∀ {a as s s'}, body a s = (true, s') →
      ∃ c, Effect c s s' ∧ contents (a :: as) = c.append (contents as))
    {as : List α} {s s' : BuildFileImpl} (h : forEach body as s = (true, s')) :
    Effect (contents as) s s' :=
  forEach_eq_true (fun as s s' => Effect (contents as) s s') (fun s => by
      show Effect (contents []) s s
      exact hnil ▸ refl s)
    (fun h₁ h₂ => by
      obtain ⟨c, hc, heq⟩ := hcons h₁
      exact heq ▸ hc.trans h₂) h

end Effect

/-- A name that a registry holds after a step that registered it and changed no other. -/
theorem isSome_iff_of_register {reg reg' : String → Option Handle} {name : String}
    (hname : (reg' name).isSome) (hframe : ∀ n, n ≠ name → reg' n = reg n) (n : String) :
    (reg' n).isSome ↔ (reg n).isSome ∨ n ∈ [name] := by
  by_cases h : n = name
  · subst h
    simp [hname]
  · simp [hframe n h, h]

theorem filterMap_scalarValue?_of_mapM :
    ∀ {items : List Yaml.Node} {names : List String}, items.mapM Node.scalarValue? = some names →
      items.filterMap Node.scalarValue? = names
  | [], _, h => by cases h; rfl
  | item :: items, names, h => by
    simp only [List.mapM_cons, Option.pure_def, Option.bind_eq_bind, Option.bind_eq_some,
      Option.some.injEq] at h
    obtain ⟨name, hname, rest, hrest, rfl⟩ := h
    rw [List.filterMap_cons_some hname, filterMap_scalarValue?_of_mapM hrest]

/-- The target a `targets` entry defines: its name, and the names its sequence lists, in
order. -/
def entryTarget? : Yaml.Node × Yaml.Node → Option (String × Target)
  | (.scalar name, .sequence items) => some (name, ⟨name, items.filterMap Node.scalarValue?⟩)
  | _ => none

/-- The tool a `tasks` entry names: the value of its first pair. -/
def entryTool? : Yaml.Node × Yaml.Node → Option String
  | (_, .mapping ((_, .scalar tool) :: _)) => some tool
  | _ => none

/-- The node names an `inputs` or `outputs` pair of a task lists. -/
def pairNodeNames : Yaml.Node × Yaml.Node → List String
  | (.scalar "inputs", .sequence items) | (.scalar "outputs", .sequence items) =>
    items.filterMap Node.scalarValue?
  | _ => []

/-- The node names the `inputs` and `outputs` of a `tasks` entry list. -/
def entryNodeNames : Yaml.Node × Yaml.Node → List String
  | (_, .mapping (_ :: attrs)) => attrs.flatMap pairNodeNames
  | _ => []

section
variable (o : Oracle)

theorem getOrCreateTool_effect {name : String} {s s₁ : BuildFileImpl} {tool : Handle}
    (h : getOrCreateTool o name s = (some tool, s₁)) : Effect ⟨[name], [], [], []⟩ s s₁ := by
  have hcalls := getOrCreateTool_calls o Call.Quiet name (fun _ => ⟨rfl, rfl, rfl⟩)
    (fun _ _ => ⟨rfl, rfl, rfl⟩) s
  rw [h] at hcalls
  rcases getOrCreateTool_eq_some o h with ⟨hs, rfl⟩ | ⟨-, -, rfl⟩
  · exact Effect.of_quiet hcalls (isSome_iff_of_register (by simp [hs]) fun _ _ => rfl)
      (by simp) rfl rfl
  · exact Effect.of_quiet hcalls (isSome_iff_of_register (by simp)
      fun _ hn => Function.update_noteq hn _ _) (by simp) rfl rfl

theorem getOrCreateNode_effect (name : String) (isImplicit : Bool) (s : BuildFileImpl) :
    Effect ⟨[], [name], [], []⟩ s (getOrCreateNode name isImplicit s).2 := by
  have hcalls := getOrCreateNode_calls Call.Quiet
    (show Call.Quiet (.lookupNode name isImplicit) from ⟨rfl, rfl, rfl⟩) s
  rcases hs : s.nodes name with _ | node <;> simp only [getOrCreateNode, hs] at hcalls ⊢
  · exact Effect.of_quiet hcalls (by simp) (isSome_iff_of_register (by simp)
      fun _ hn => Function.update_noteq hn _ _) rfl rfl
  · exact Effect.of_quiet hcalls (by simp) (isSome_iff_of_register (by simp [hs])
      fun _ _ => rfl) rfl rfl

/-- A pair of an attribute loop on success: two scalars, and the accepted call. -/
theorem configureAttributePair_eq_true {entity : Entity} {pair : Yaml.Node × Yaml.Node}
    {s s' : BuildFileImpl} (h : configureAttributePair o entity pair s = (true, s')) :
    ∃ key value, pair = (.scalar key, .scalar value) ∧
      s' = s.call (.configureAttribute entity key value true) := by
  unfold configureAttributePair at h
  split at h
  · obtain ⟨hok, rfl⟩ := Prod.mk.inj h
    exact ⟨_, _, rfl, by rw [hok]⟩
  · cases h
  · cases h

theorem configureAttributePair_effect {entity : Entity} {pair : Yaml.Node × Yaml.Node}
    {s s' : BuildFileImpl} (h : configureAttributePair o entity pair s = (true, s')) :
    Effect .empty s s' := by
  obtain ⟨_, _, -, rfl⟩ := configureAttributePair_eq_true o h
  refine Effect.call ?_ s
  exact ⟨rfl, rfl, rfl⟩

/-- An entry of `tools` or `nodes` on success: a scalar key and a mapping, the entity
`resolve` gave for the key, and the attribute loop on it. -/
theorem parseEntityEntry_eq_true {mapName : String}
    {resolve : String → BuildFileImpl → Option Entity × BuildFileImpl}
    {entry : Yaml.Node × Yaml.Node} {s s' : BuildFileImpl}
    (h : parseEntityEntry o mapName resolve entry s = (true, s')) :
    ∃ name attrs e s₁, entry = (.scalar name, .mapping attrs) ∧ resolve name s = (some e, s₁) ∧
      forEach (configureAttributePair o e) attrs s₁ = (true, s') := by
  unfold parseEntityEntry at h
  split at h
  · obtain ⟨e, s₁, hr, hloop⟩ := bindSome_eq_true h
    exact ⟨_, _, e, s₁, rfl, hr, hloop⟩
  · cases h
  · cases h

/-- An entry of `tools` or `nodes` on success adds what resolving its key adds. -/
theorem parseEntityEntry_effect {mapName : String}
    {resolve : String → BuildFileImpl → Option Entity × BuildFileImpl} (added : String → Contents)
    (hres : ∀ {name s e s₁}, resolve name s = (some e, s₁) → Effect (added name) s s₁)
    {entry : Yaml.Node × Yaml.Node} {s s' : BuildFileImpl}
    (h : parseEntityEntry o mapName resolve entry s = (true, s')) :
    ∃ name attrs, entry = (.scalar name, .mapping attrs) ∧ Effect (added name) s s' := by
  obtain ⟨name, attrs, e, s₁, rfl, hr, hloop⟩ := parseEntityEntry_eq_true o h
  refine ⟨name, attrs, rfl, ?_⟩
  rw [← Effect.append_empty (added name)]
  exact (hres hr).trans (Effect.forEach (fun _ => .empty) rfl
    (fun h => ⟨_, configureAttributePair_effect o h, rfl⟩) hloop)

theorem parseToolsMapping_effect {map : List (Yaml.Node × Yaml.Node)} {s s' : BuildFileImpl}
    (h : parseToolsMapping o map s = (true, s')) : Effect ⟨mappingKeys map, [], [], []⟩ s s' := by
  refine Effect.forEach (fun map => ⟨mappingKeys map, [], [], []⟩) rfl (fun h₁ => ?_) h
  obtain ⟨name, attrs, rfl, he⟩ := parseEntityEntry_effect o (fun name => ⟨[name], [], [], []⟩)
    (fun {name s _ _} hr => by
      rcases hg : getOrCreateTool o name s with ⟨_ | tool, s₂⟩ <;> rw [hg] at hr <;> cases hr
      exact getOrCreateTool_effect o hg) h₁
  exact ⟨_, he, rfl⟩

theorem parseNodesMapping_effect {map : List (Yaml.Node × Yaml.Node)} {s s' : BuildFileImpl}
    (h : parseNodesMapping o map s = (true, s')) : Effect ⟨[], mappingKeys map, [], []⟩ s s' := by
  refine Effect.forEach (fun map => ⟨[], mappingKeys map, [], []⟩) rfl (fun h₁ => ?_) h
  obtain ⟨name, attrs, rfl, he⟩ := parseEntityEntry_effect o (fun name => ⟨[], [name], [], []⟩)
    (fun {name s _ _} hr => by
      cases hr
      exact getOrCreateNode_effect name false s) h₁
  exact ⟨_, he, rfl⟩

end

theorem parseTargetsEntry_effect {entry : Yaml.Node × Yaml.Node} {s s' : BuildFileImpl}
    (h : parseTargetsEntry entry s = (true, s')) :
    ∃ target, entryTarget? entry = some target ∧ Effect ⟨[], [], [target], []⟩ s s' := by
  unfold parseTargetsEntry at h
  split at h
  · next name items =>
    rcases hm : items.mapM Node.scalarValue? with _ | names <;> rw [hm] at h
    · cases h
    · cases h
      refine ⟨_, by rw [entryTarget?, filterMap_scalarValue?_of_mapM hm], ?_⟩
      exact ⟨((Grows.call _ _).setTarget _ _), by simp, by simp, by simp [Call.loadedTarget?],
        by rw [storeAll_singleton]; rfl, by simp [Call.loadedTask?],
        by simp [createdTasks, Call.createdTask?, Call.loadedTask?],
        by simp [Call.loadedTask?]; rfl⟩
  · cases h
  · cases h

theorem parseTargetsMapping_effect {map : List (Yaml.Node × Yaml.Node)} {s s' : BuildFileImpl}
    (h : parseTargetsMapping map s = (true, s')) :
    Effect ⟨[], [], map.filterMap entryTarget?, []⟩ s s' := by
  refine Effect.forEach (fun map => ⟨[], [], map.filterMap entryTarget?, []⟩) rfl (fun h₁ => ?_) h
  obtain ⟨target, ht, he⟩ := parseTargetsEntry_effect h₁
  exact ⟨_, he, by simp only [List.filterMap_cons_some ht]; rfl⟩

theorem resolveNodeNames_effect (key : String) (items : List Yaml.Node) (s : BuildFileImpl) :
    ∀ nodes, (resolveNodeNames key items s).1 = some nodes →
      Effect ⟨[], items.filterMap Node.scalarValue?, [], []⟩ s
        (resolveNodeNames key items s).2 := by
  induction items, s using resolveNodeNames.induct key with
  | case1 s =>
    rintro _ ⟨⟩
    exact Effect.refl s
  | case2 name items s node s₁ h₁ nodes s₂ h₂ ih =>
    have he := getOrCreateNode_effect name true s
    rw [h₁] at he
    rw [h₂] at ih
    simp only [resolveNodeNames, h₁, h₂]
    intro hs hhs
    cases nodes with
    | none => cases hhs
    | some rest => exact he.trans (ih rest rfl)
  | case3 head tail s hne =>
    rw [resolveNodeNames.eq_3 _ _ _ _ hne]
    nofun

theorem parseTaskNodes_effect {key : String} {configure : Handle → List Handle → Call}
    (hq : ∀ task nodes, (configure task nodes).Quiet) {task : Handle} {value : Yaml.Node}
    {s s' : BuildFileImpl} (h : parseTaskNodes key configure task value s = (true, s')) :
    ∃ items, value = .sequence items ∧
      Effect ⟨[], items.filterMap Node.scalarValue?, [], []⟩ s s' := by
  unfold parseTaskNodes at h
  split at h
  · obtain ⟨nodes, s₁, hr, hk⟩ := bindSome_eq_true h
    cases hk
    have he := resolveNodeNames_effect key _ s nodes (by rw [hr])
    rw [hr] at he
    exact ⟨_, rfl, he.then_call (hq _ _)⟩
  · cases h

theorem pairNodeNames_of_ne {key : Yaml.Node} (hi : key.scalarValue? ≠ some "inputs")
    (ho : key.scalarValue? ≠ some "outputs") (value : Yaml.Node) :
    pairNodeNames (key, value) = [] := by
  unfold pairNodeNames
  split <;> simp_all

section
variable (o : Oracle)

theorem parseTaskAttribute_effect {task : Handle} {pair : Yaml.Node × Yaml.Node}
    {s s' : BuildFileImpl} (h : parseTaskAttribute o task pair s = (true, s')) :
    Effect ⟨[], pairNodeNames pair, [], []⟩ s s' := by
  obtain ⟨key, value⟩ := pair
  simp only [parseTaskAttribute] at h
  split_ifs at h with hi ho
  · obtain ⟨items, rfl, he⟩ := parseTaskNodes_effect
      (show ∀ task nodes, (Call.configureInputs task nodes).Quiet from
        fun _ _ => ⟨rfl, rfl, rfl⟩) h
    rwa [nodeIsScalarString_iff.1 hi]
  · obtain ⟨items, rfl, he⟩ := parseTaskNodes_effect
      (show ∀ task nodes, (Call.configureOutputs task nodes).Quiet from
        fun _ _ => ⟨rfl, rfl, rfl⟩) h
    rwa [nodeIsScalarString_iff.1 ho]
  · rw [nodeIsScalarString_eq, beq_iff_eq] at hi ho
    rw [pairNodeNames_of_ne hi ho]
    exact configureAttributePair_effect o h

/-- The rest of a task on success: the nodes its `inputs` and `outputs` list, and the task
`createTask` returned, loaded and stored under its name. -/
theorem createTask_effect {name : String} {tool : Handle} {attrs : List (Yaml.Node × Yaml.Node)}
    {s s' : BuildFileImpl} (h : createTask o name tool attrs s = (true, s')) :
    Effect ⟨[], attrs.flatMap pairNodeNames, [], [name]⟩ s s' := by
  obtain ⟨s₂, hloop, rfl⟩ := createTask_eq_true o h
  have he : Effect ⟨[], attrs.flatMap pairNodeNames, [], []⟩ (s.call (.createTask tool name)) s₂ :=
    Effect.forEach (fun attrs => ⟨[], attrs.flatMap pairNodeNames, [], []⟩) rfl
      (fun h₁ => ⟨_, parseTaskAttribute_effect o h₁, rfl⟩) hloop
  have hnone : (newCalls (s.call (.createTask tool name)) s₂).filterMap Call.loadedTask? = [] :=
    List.map_eq_nil_iff.1 he.loadedTasks
  have hg : Grows s s₂ := (Grows.call _ _).trans he.grows
  have hnew : newCalls s ((s₂.call (.loadedTask name s.calls.length)).setTask name s.calls.length) =
      .createTask tool name :: newCalls (s.call (.createTask tool name)) s₂ ++
        [.loadedTask name s.calls.length] := by
    rw [newCalls_setTask, hg.newCalls_trans (.call _ _), (Grows.call _ _).newCalls_trans he.grows,
      newCalls_call, newCalls_call]
    rfl
  have hloaded : (newCalls s ((s₂.call (.loadedTask name s.calls.length)).setTask name
      s.calls.length)).filterMap Call.loadedTask? = [(name, s.calls.length)] := by
    simp [hnew, hnone, Call.loadedTask?]
  refine ⟨(hg.trans (.call _ _)).setTask _ _, fun n => by simpa using he.tools n,
    fun n => by simpa using he.nodes n, ?_, he.targets, by rw [hloaded]; rfl, ?_, ?_⟩
  · simp [hnew, he.loadedTargets, Call.loadedTarget?]
  · rw [hloaded, hnew, List.cons_append, createdTasks, createdTasks_append,
      show s.calls.length + 1 = (s.call (.createTask tool name)).calls.length by simp, he.created,
      hnone]
    simp [createdTasks, Call.createdTask?]
  · rw [hloaded, storeAll_singleton]
    show Function.update s₂.tasks _ _ = _
    rw [he.tasks, hnone]
    rfl

/-- An entry of `tasks` on success: its tool registered, the nodes of its `inputs` and
`outputs`, and its task loaded and stored under its name. -/
theorem parseTasksEntry_effect {entry : Yaml.Node × Yaml.Node} {s s' : BuildFileImpl}
    (h : parseTasksEntry o entry s = (true, s')) :
    ∃ name toolName attrs,
      entry = (.scalar name, .mapping ((.scalar "tool", .scalar toolName) :: attrs)) ∧
      Effect ⟨[toolName], attrs.flatMap pairNodeNames, [], [name]⟩ s s' := by
  obtain ⟨name, toolName, attrs, tool, s₁, rfl, htool, htask⟩ := parseTasksEntry_eq_true o h
  exact ⟨name, toolName, attrs, rfl,
    (getOrCreateTool_effect o htool).trans (createTask_effect o htask)⟩

theorem parseTasksMapping_effect {map : List (Yaml.Node × Yaml.Node)} {s s' : BuildFileImpl}
    (h : parseTasksMapping o map s = (true, s')) :
    Effect ⟨map.filterMap entryTool?, map.flatMap entryNodeNames, [], mappingKeys map⟩ s s' := by
  refine Effect.forEach
    (fun map => ⟨map.filterMap entryTool?, map.flatMap entryNodeNames, [], mappingKeys map⟩) rfl
    (fun h₁ => ?_) h
  obtain ⟨name, toolName, attrs, rfl, he⟩ := parseTasksEntry_effect o h₁
  exact ⟨_, he, rfl⟩

theorem parseClientMapping_effect {client : List (Yaml.Node × Yaml.Node)} {s s' : BuildFileImpl}
    (h : parseClientMapping o client s = (true, s')) : Effect .empty s s' := by
  unfold parseClientMapping at h
  split at h
  · cases h
  · dsimp only at h
    split at h
    · cases h
      refine Effect.call ?_ s
      exact ⟨rfl, rfl, rfl⟩
    · cases h

end

/-- The block of `parseRootNode` for the section `name` on success: what its parser adds for
the entries of the section, if there is one. -/
theorem sectionStep_effect {name : String} {parse : List (Yaml.Node × Yaml.Node) → Parse}
    (contents : List (Yaml.Node × Yaml.Node) → Contents) (hnil : contents [] = .empty)
    (hparse : ∀ {map s s'}, parse map s = (true, s') → Effect (contents map) s s')
    {it : List (Yaml.Node × Yaml.Node)} {s s' : BuildFileImpl}
    (h : sectionStep name parse it s = (true, s')) :
    Effect (contents (((sectionValue? name it).map Node.entries).getD [])) s s' := by
  unfold sectionStep at h
  rcases hv : sectionValue? name it with _ | value <;> rw [hv] at h
  · cases h
    rw [Option.map_none', Option.getD_none, hnil]
    exact Effect.refl s
  · cases value with
    | mapping map => exact hparse h
    | _ => cases h

/-- The block of `parseRootNode` for the section `name` on success makes only the calls its
parser makes on the entries of the section. -/
theorem sectionStep_calls {name : String} {parse : List (Yaml.Node × Yaml.Node) → Parse}
    (Q : List (Yaml.Node × Yaml.Node) → Call → Prop)
    (hparse : ∀ map s, CallsIn (Q map) s (parse map s).1 (parse map s).2)
    {it : List (Yaml.Node × Yaml.Node)} {s s' : BuildFileImpl}
    (h : sectionStep name parse it s = (true, s')) :
    CallsIn (Q (((sectionValue? name it).map Node.entries).getD [])) s true s' := by
  unfold sectionStep at h
  rcases hv : sectionValue? name it with _ | value <;> rw [hv] at h
  · cases h
    exact (CallsIn.chains _).refl s
  · cases value with
    | mapping map =>
      have hrun := hparse map s
      rw [show parse map s = (true, s') from h] at hrun
      exact hrun
    | _ => cases h

/-- The entries of the section `name` of a stream's first document: those of the mapping its
root mapping holds under the key `name`, the first if there are several. -/
def sectionEntries (name : String) : Except String (List Yaml.Node) → List (Yaml.Node × Yaml.Node)
  | .ok (root :: _) => ((sectionValue? name root.entries).map Node.entries).getD []
  | _ => []

/-- **What a document registers**, in document order: the tools its `tools` section names
and those its tasks name, the nodes its `nodes` section names and those its tasks list as
`inputs` and `outputs`, the targets of its `targets` section, and the names of its tasks. -/
def documentContents (res : Except String (List Yaml.Node)) : Contents where
  tools := mappingKeys (sectionEntries "tools" res) ++
    (sectionEntries "tasks" res).filterMap entryTool?
  nodes := mappingKeys (sectionEntries "nodes" res) ++
    (sectionEntries "tasks" res).flatMap entryNodeNames
  targets := (sectionEntries "targets" res).filterMap entryTarget?
  tasks := mappingKeys (sectionEntries "tasks" res)

section
variable (o : Oracle)

/-- **A load that returns `true` adds what its document lists.** -/
theorem load_effect {res : Except String (List Yaml.Node)} {s s' : BuildFileImpl}
    (h : load o res s = (.returns true, s')) : Effect (documentContents res) s s' := by
  obtain ⟨client, it, s₁, s₂, s₃, s₄, rfl, -, hclient, htools, htargets, hnodes, htasks⟩ :=
    load_eq_true o h
  have he := (parseClientMapping_effect o hclient).trans
    ((sectionStep_effect (fun map => ⟨mappingKeys map, [], [], []⟩) rfl
      (parseToolsMapping_effect o) htools).trans
    ((sectionStep_effect (fun map => ⟨[], [], map.filterMap entryTarget?, []⟩) rfl
      parseTargetsMapping_effect htargets).trans
    ((sectionStep_effect (fun map => ⟨[], mappingKeys map, [], []⟩) rfl
      (parseNodesMapping_effect o) hnodes).trans
    (sectionStep_effect
      (fun map => ⟨map.filterMap entryTool?, map.flatMap entryNodeNames, [], mappingKeys map⟩) rfl
      (parseTasksMapping_effect o) htasks))))
  convert he using 1
  simp [documentContents, sectionEntries, Contents.append, Node.entries, sectionValue?_cons_of_ne]

end

/-- The registries and the log of a `BuildFile` that was constructed and then loaded `res`. -/
structure LoadedRegistries (res : Except String (List Yaml.Node)) (s : BuildFileImpl) : Prop where
  /-- `tools` holds the keys of `tools` and the tools the tasks name, and no other name. -/
  tools : ∀ name, (s.tools name).isSome ↔ name ∈ mappingKeys (sectionEntries "tools" res) ∨
    name ∈ (sectionEntries "tasks" res).filterMap entryTool?
  /-- `nodes` holds the keys of `nodes` and the names the tasks list as `inputs` or `outputs`,
  and no other name: the names a target lists create no node. -/
  nodes : ∀ name, (s.nodes name).isSome ↔ name ∈ mappingKeys (sectionEntries "nodes" res) ∨
    name ∈ (sectionEntries "tasks" res).flatMap entryNodeNames
  /-- One `loadedTarget` per `targets` entry, in document order, with its name and target. -/
  loadedTargets : s.calls.filterMap Call.loadedTarget? =
    (sectionEntries "targets" res).filterMap entryTarget?
  /-- Each name holds the target of its last `targets` entry. -/
  targets : ∀ name,
    s.targets name = ((sectionEntries "targets" res).filterMap entryTarget?).reverse.lookup name
  /-- One `loadedTask` per `tasks` entry, in document order, with its name. -/
  loadedTasks :
    (s.calls.filterMap Call.loadedTask?).map Prod.fst = mappingKeys (sectionEntries "tasks" res)
  /-- The `createTask` calls and the `loadedTask` calls pair off in order: each `loadedTask`
  passes the task the matching `createTask` returned. -/
  created : createdTasks 0 s.calls = s.calls.filterMap Call.loadedTask?
  /-- `tasks` holds the names of the `tasks` entries, and no other name. -/
  taskNames : ∀ name, (s.tasks name).isSome ↔ name ∈ mappingKeys (sectionEntries "tasks" res)
  /-- Each name holds the task of its last `tasks` entry. -/
  tasks : ∀ name, s.tasks name = (s.calls.filterMap Call.loadedTask?).reverse.lookup name

section
variable (o : Oracle)

/-- **The registries after a load, in full.**  On a `BuildFile` just constructed, a load that
returns `true` leaves in `tools` exactly the keys of the `tools` section and the tools the
tasks name, and in `nodes` exactly the keys of the `nodes` section and the names the tasks
list as `inputs` or `outputs`.  It called `loadedTarget` once per `targets` entry, in
document order, with the entry's name and target, and `targets` binds each name to the
target of its last entry.  It called `loadedTask` once per `tasks` entry, in document order,
with the entry's name and the task the entry's `createTask` returned, and `tasks` binds
each name to the task of its last entry. -/
theorem load_registers_contents (res : Except String (List Yaml.Node)) (mainFilename : String)
    {s' : BuildFileImpl} (h : load o res (.new mainFilename) = (.returns true, s')) :
    LoadedRegistries res s' := by
  have he := load_effect o h
  have hcalls : newCalls (.new mainFilename) s' = s'.calls := by simp [newCalls, BuildFileImpl.new]
  have htasks : ∀ name, s'.tasks name = (s'.calls.filterMap Call.loadedTask?).reverse.lookup name :=
    fun name => by rw [he.tasks, hcalls]; simp [storeAll, BuildFileImpl.new]
  refine ⟨fun name => ?_, fun name => ?_, hcalls ▸ he.loadedTargets, fun name => ?_,
    hcalls ▸ he.loadedTasks, hcalls ▸ he.created, fun name => ?_, htasks⟩
  · rw [he.tools]
    simp [BuildFileImpl.new, documentContents]
  · rw [he.nodes]
    simp [BuildFileImpl.new, documentContents]
  · rw [he.targets]
    simp [storeAll, BuildFileImpl.new, documentContents]
  · rw [htasks, ← hcalls, show mappingKeys (sectionEntries "tasks" res) =
      (documentContents res).tasks from rfl, ← he.loadedTasks]
    simp [List.lookup_isSome_iff, @eq_comm _ name]

end

/-- A build file with one tool, a target that lists a node twice, one node, and two tasks of
one name, the first reading the node. -/
def twoTasksFile : Except String (List Yaml.Node) :=
  .ok [.mapping [(.scalar "client", .mapping []),
    (.scalar "tools", .mapping [(.scalar "cc", .mapping [])]),
    (.scalar "targets", .mapping [(.scalar "all", .sequence [.scalar "a.o", .scalar "a.o"])]),
    (.scalar "nodes", .mapping [(.scalar "a.c", .mapping [])]),
    (.scalar "tasks", .mapping [
      (.scalar "compile", .mapping [(.scalar "tool", .scalar "cc"),
        (.scalar "inputs", .sequence [.scalar "a.c"]),
        (.scalar "outputs", .sequence [.scalar "a.o"])]),
      (.scalar "compile", .mapping [(.scalar "tool", .scalar "ld")])])]]

theorem load_registers_contents_two_tasks :
    ∃ s', load .acceptAll twoTasksFile (.new "build.llbuild") = (.returns true, s') ∧
      LoadedRegistries twoTasksFile s' :=
  ⟨_, rfl, load_registers_contents .acceptAll twoTasksFile "build.llbuild" rfl⟩

/-- A registry that a run only extends, and in which it registers no new name, is left as it
was. -/
theorem registry_eq_of_isSome {reg reg' : String → Option Handle}
    (hkept : ∀ {name h}, reg name = some h → reg' name = some h)
    (hnames : ∀ name, (reg' name).isSome → (reg name).isSome) : reg' = reg := by
  funext name
  cases hr : reg name with
  | some h => exact hkept hr
  | none =>
    cases hr' : reg' name with
    | none => rfl
    | some _ => simpa [hr, hr'] using hnames name

/-- A run that returned `true` and left a registry as it was made no lookup in it. -/
theorem LookupOnce.countP_eq_zero {reg : BuildFileImpl → String → Option Handle}
    {looksUp : String → Call → Bool} {s s' : BuildFileImpl} (h : LookupOnce reg looksUp s true s')
    (heq : reg s' = reg s) (name : String) : (newCalls s s').countP (looksUp name) = 0 := by
  refine Nat.eq_zero_of_not_pos fun hpos => ?_
  have hk := h.kept name hpos
  rw [heq, h.absent name hpos] at hk
  simp at hk

section
variable (o o' : Oracle)

/-- **Loading a document again looks nothing up.**  After a load of `res` that returned
`true`, a load of the same `res` that returns `true`, whatever the delegate answers this
time, calls neither `lookupTool` nor `lookupNode` and leaves `tools` and `nodes` as they
were: the first load registered every tool and node the document names, and a name is
looked up only while it is not registered. -/
theorem load_again_looks_up_nothing (res : Except String (List Yaml.Node))
    {s s' s'' : BuildFileImpl} (h : load o res s = (.returns true, s'))
    (h' : load o' res s' = (.returns true, s'')) :
    s''.tools = s'.tools ∧ s''.nodes = s'.nodes ∧
      ∀ c ∈ newCalls s' s'', ∀ name found isImplicit,
        c ≠ .lookupTool name found ∧ c ≠ .lookupNode name isImplicit := by
  have he := load_effect o h
  have he' := load_effect o' h'
  have hsound := load_sound o' res s'
  rw [h'] at hsound
  have htools : s''.tools = s'.tools := registry_eq_of_isSome he'.grows.tools fun name hn =>
    ((he'.tools name).1 hn).elim id fun hmem => (he.tools name).2 (.inr hmem)
  have hnodes : s''.nodes = s'.nodes := registry_eq_of_isSome he'.grows.nodes fun name hn =>
    ((he'.nodes name).1 hn).elim id fun hmem => (he.nodes name).2 (.inr hmem)
  refine ⟨htools, hnodes, fun c hc name found isImplicit => ⟨?_, ?_⟩⟩
  · rintro rfl
    exact List.countP_eq_zero.1 (hsound.tools.countP_eq_zero htools name) _ hc
      (by simp [Call.looksUpTool])
  · rintro rfl
    exact List.countP_eq_zero.1 (hsound.nodes.countP_eq_zero hnodes name) _ hc
      (by simp [Call.looksUpNode])

end

theorem load_again_looks_up_nothing_two_tasks :
    ∃ s' s'', load .acceptAll twoTasksFile (.new "build.llbuild") = (.returns true, s') ∧
      load .acceptAll twoTasksFile s' = (.returns true, s'') ∧
      s''.tools = s'.tools ∧ s''.nodes = s'.nodes ∧
      ∀ c ∈ newCalls s' s'', ∀ name found isImplicit,
        c ≠ .lookupTool name found ∧ c ≠ .lookupNode name isImplicit :=
  ⟨_, _, rfl, rfl,
    @load_again_looks_up_nothing .acceptAll .acceptAll twoTasksFile (.new "build.llbuild") _ _ rfl rfl⟩

section
variable (o : Oracle)

/-- **A load that returns `true` reports the sections one after another.**  The calls it
makes are those of the client, then those of the `tools` section, of `targets`, of `nodes`
(whose lookups are explicit lookups of its own keys) and of `tasks`, in this order. -/
theorem load_calls_section_by_section {res : Except String (List Yaml.Node)}
    {s s' : BuildFileImpl} (h : load o res s = (.returns true, s')) :
    ∃ client tools targets nodes tasks : List Call,
      newCalls s s' = client ++ tools ++ targets ++ nodes ++ tasks ∧
      (∀ c ∈ client, ClientCall c) ∧ (∀ c ∈ tools, ToolsCall c) ∧
      (∀ c ∈ targets, TargetsCall c) ∧
      (∀ c ∈ nodes, NodesCall (mappingKeys (sectionEntries "nodes" res)) c) ∧
      ∀ c ∈ tasks, TasksCall c := by
  obtain ⟨client, it, s₁, s₂, s₃, s₄, rfl, -, h₁, h₂, h₃, h₄, h₅⟩ := load_eq_true o h
  have c₁ : CallsIn ClientCall s true s₁ := by
    simpa only [h₁] using parseClientMapping_calls o client s
  have c₂ := sectionStep_calls (fun _ => ToolsCall) (parseToolsMapping_calls o) h₂
  have c₃ := sectionStep_calls (fun _ => TargetsCall) parseTargetsMapping_calls h₃
  have c₄ := sectionStep_calls (fun map => NodesCall (mappingKeys map)) (parseNodesMapping_calls o) h₄
  have c₅ := sectionStep_calls (fun _ => TasksCall) (parseTasksMapping_calls o) h₅
  refine ⟨_, _, _, newCalls s₃ s₄, _, ?_, c₁.2, c₂.2, c₃.2, ?_, c₅.2⟩
  · rw [c₁.1.newCalls_trans (c₂.1.trans (c₃.1.trans (c₄.1.trans c₅.1))),
      c₂.1.newCalls_trans (c₃.1.trans (c₄.1.trans c₅.1)), c₃.1.newCalls_trans (c₄.1.trans c₅.1),
      c₄.1.newCalls_trans c₅.1]
    simp only [List.append_assoc]
  · simpa [sectionEntries, Node.entries, sectionValue?_cons_of_ne] using c₄.2

end

theorem load_calls_section_by_section_two_tasks :
    ∃ s', load .acceptAll twoTasksFile (.new "build.llbuild") = (.returns true, s') ∧
      ∃ client tools targets nodes tasks : List Call,
        newCalls (.new "build.llbuild") s' = client ++ tools ++ targets ++ nodes ++ tasks ∧
        (∀ c ∈ client, ClientCall c) ∧ (∀ c ∈ tools, ToolsCall c) ∧
        (∀ c ∈ targets, TargetsCall c) ∧
        (∀ c ∈ nodes, NodesCall (mappingKeys (sectionEntries "nodes" twoTasksFile)) c) ∧
        ∀ c ∈ tasks, TasksCall c :=
  ⟨_, rfl, load_calls_section_by_section .acceptAll rfl⟩

end BuildSystem
end Llbuild
