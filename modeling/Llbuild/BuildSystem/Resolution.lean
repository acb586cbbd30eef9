import Llbuild.BuildSystem.Replay

/-!
# Names resolve to the registries' entities

A build file refers to tools and nodes by name: the keys of `tools` and `nodes`, the `tool`
key of a task, and the items of its `inputs` and `outputs`.  `getOrCreateTool` and
`getOrCreateNode` (`BuildFile.cpp`, lines 126-157) resolve every such name: to the entity
registered under it, or to the one the delegate's lookup returns, registered at once.  So
within a load a name stands for one entity.

`load_registries` states it over every run of `load`, successful or not: a registered name
keeps its entity, each name is looked up at most once and only while it is absent, and each
call that uses an entity for a name of the document (`Resolved`) uses the one the registry
holds for that name at the end of the run.  The last part is the run property `ResolvesIn`,
with one lemma per parse function, lifted to the load by `load_runs`.

Conversely, a load that returns `true` made the calls its document asks for
(`load_true_makes_document_calls`): the lookup of each tool and node name that was not
registered, and, for each entry of `tools` and `nodes`, the accepted `configureAttribute` of
each of its pairs on the entity registered for the entry's name.
-/

namespace Llbuild
namespace BuildSystem

open Yaml

/-- `entry` is an entry of a mapping that the root mapping of `res` holds under the key
`name`. -/
def SectionEntry (res : Except String (List Yaml.Node)) (name : String)
    (entry : Yaml.Node × Yaml.Node) : Prop :=
  ∃ map, SectionIn (rootEntries res) name map ∧ entry ∈ map

/-- `(key, value)` is a pair of an entry of the section `sectionName` whose name `reg` maps
to `h`. -/
def AttributeOf (res : Except String (List Yaml.Node)) (sectionName : String)
    (reg : String → Option Handle) (h : Handle) (key value : String) : Prop :=
  ∃ name attrs, SectionEntry res sectionName (.scalar name, .mapping attrs) ∧
    (.scalar key, .scalar value) ∈ attrs ∧ reg name = some h

/-- `nodes` are the nodes `reg` holds for the names of the sequence under `key` in a task. -/
def TaskNodesOf (res : Except String (List Yaml.Node)) (key : String)
    (reg : String → Option Handle) (nodes : List Handle) : Prop :=
  ∃ name attrs names, SectionEntry res "tasks" (.scalar name, .mapping attrs) ∧
    (.scalar key, .sequence names) ∈ attrs ∧ registryNodes reg names = some nodes

/-- **The entity a call uses for a name of the document `res` is the one `s` registers under
that name**: the tool an attribute of a `tools` entry is set on, the node an attribute of a
`nodes` entry is set on, the tool a task's `tool` key names, and the nodes of a task's
`inputs` and `outputs`.  The other calls use no entity by name. -/
def Resolved (res : Except String (List Yaml.Node)) (s : BuildFileImpl) : Call → Prop
  | .configureAttribute (.tool tool) key value _ => AttributeOf res "tools" s.tools tool key value
  | .configureAttribute (.node node) key value _ => AttributeOf res "nodes" s.nodes node key value
  | .createTask tool name => ∃ toolName attrs,
      SectionEntry res "tasks"
        (.scalar name, .mapping ((.scalar "tool", .scalar toolName) :: attrs)) ∧
      s.tools toolName = some tool
  | .configureInputs _ nodes => TaskNodesOf res "inputs" s.nodes nodes
  | .configureOutputs _ nodes => TaskNodesOf res "outputs" s.nodes nodes
  | _ => True

section
variable {res : Except String (List Yaml.Node)} {reg reg' : String → Option Handle}
  (hreg : ∀ {name h}, reg name = some h → reg' name = some h)
include hreg

theorem AttributeOf.mono {sectionName : String} {h : Handle} {key value : String}
    (ha : AttributeOf res sectionName reg h key value) :
    AttributeOf res sectionName reg' h key value :=
  let ⟨name, attrs, he, hp, hr⟩ := ha
  ⟨name, attrs, he, hp, hreg hr⟩

theorem TaskNodesOf.mono {key : String} {nodes : List Handle}
    (ht : TaskNodesOf res key reg nodes) : TaskNodesOf res key reg' nodes :=
  let ⟨name, attrs, names, he, hp, hr⟩ := ht
  ⟨name, attrs, names, he, hp, registryNodes_mono hreg hr⟩

end

/-- A call resolved in a state stays resolved as the registries grow. -/
theorem Resolved.grows {res : Except String (List Yaml.Node)} {s s' : BuildFileImpl}
    (h : Grows s s') {c : Call} (hc : Resolved res s c) : Resolved res s' c := by
  match c, hc with
  | .configureAttribute (.tool _) .., hc => exact hc.mono h.tools
  | .configureAttribute (.node _) .., hc => exact hc.mono h.nodes
  | .configureAttribute (.task _) .., _ => trivial
  | .createTask .., ⟨toolName, attrs, he, ht⟩ => exact ⟨toolName, attrs, he, h.tools ht⟩
  | .configureInputs .., hc | .configureOutputs .., hc => exact hc.mono h.nodes
  | .error .., _ | .lookupTool .., _ | .lookupNode .., _ | .configureClient .., _
  | .loadedTarget .., _ | .loadedTask .., _ => trivial

/-- A run that `Grows` and each of whose calls is `Resolved` in the state it ends in. -/
def ResolvesIn (res : Except String (List Yaml.Node)) : RunProp := fun s _ s' =>
  Grows s s' ∧ ∀ c ∈ newCalls s s', Resolved res s' c

namespace ResolvesIn

variable {res : Except String (List Yaml.Node)} {s s' : BuildFileImpl} {ok : Bool}

theorem chains (res : Except String (List Yaml.Node)) : (ResolvesIn res).Chains where
  refl s := ⟨Grows.refl s, by simp⟩
  trans h₁ h₂ := ⟨h₁.1.trans h₂.1, by
    rw [h₁.1.newCalls_trans h₂.1]
    exact fun c hc => (List.mem_append.1 hc).elim (fun hc => (h₁.2 c hc).grows h₂.1) (h₂.2 c)⟩

/-- A run whose calls use no entity by name. -/
theorem of_calls {Q : Call → Prop} (hQ : ∀ c, Q c → ∀ s, Resolved res s c) {ok' : Bool}
    (h : CallsIn Q s ok s') : ResolvesIn res s ok' s' :=
  ⟨h.1, fun c hc => hQ c (h.2 c hc) s'⟩

theorem call {c : Call} (hc : Resolved res s c) (ok : Bool) : ResolvesIn res s ok (s.call c) :=
  ⟨Grows.call s c, by simpa using hc.grows (Grows.call s c)⟩

theorem error (s : BuildFileImpl) (message : String) (ok : Bool) :
    ResolvesIn res s ok (s.error message) :=
  call (show Resolved res s (.error s.mainFilename message) from trivial) ok

theorem setTask (h : ResolvesIn res s ok s') (name : String) (task : Handle) :
    ResolvesIn res s ok (s'.setTask name task) :=
  ⟨h.1.setTask name task, fun c hc => (h.2 c hc).grows ((Grows.refl s').setTask name task)⟩

end ResolvesIn

section
variable (o : Oracle) {res : Except String (List Yaml.Node)}

theorem configureAttributePair_resolves {entity : Entity} {pair : Yaml.Node × Yaml.Node}
    {s : BuildFileImpl} (hpair : ∀ key value ok, pair = (.scalar key, .scalar value) →
      Resolved res s (.configureAttribute entity key value ok)) :
    ResolvesIn res s (configureAttributePair o entity pair s).1
      (configureAttributePair o entity pair s).2 := by
  unfold configureAttributePair
  split
  · exact ResolvesIn.call (hpair _ _ _ rfl) _
  · exact ResolvesIn.error _ _ _
  · exact ResolvesIn.error _ _ _

/-- An entry of `tools` or `nodes` resolves when `resolve` does and the entity it gives for
the entry's name is, in every later state, the registered one for the pairs of the entry. -/
theorem parseEntityEntry_resolves {mapName : String}
    {resolve : String → BuildFileImpl → Option Entity × BuildFileImpl}
    {entry : Yaml.Node × Yaml.Node}
    (hres : ∀ name attrs, entry = (.scalar name, .mapping attrs) → ∀ s,
      ResolvesIn res s (resolve name s).1.isSome (resolve name s).2 ∧
        ∀ e, (resolve name s).1 = some e → ∀ key value ok, (.scalar key, .scalar value) ∈ attrs →
          ∀ s', Grows (resolve name s).2 s' → Resolved res s' (.configureAttribute e key value ok))
    (s : BuildFileImpl) :
    ResolvesIn res s (parseEntityEntry o mapName resolve entry s).1
      (parseEntityEntry o mapName resolve entry s).2 := by
  obtain ⟨key, value⟩ := entry
  cases key with
  | scalar name =>
    cases value with
    | mapping attrs =>
      obtain ⟨hcalls, hent⟩ := hres name attrs rfl s
      exact bindSome_runs (ResolvesIn.chains res) hcalls fun e he =>
        forEach_runs (ResolvesIn.chains res) (Grows (resolve name s).2) (fun h hs => hs.trans h.1)
          (fun pair hpair s' hs' => configureAttributePair_resolves o fun k v ok hkv =>
            hent e he k v ok (hkv ▸ hpair) s' hs') _ (Grows.refl _)
    | _ => exact ResolvesIn.error _ _ _
  | _ => exact ResolvesIn.error _ _ _

/-- Each attribute of a `tools` entry is set on the tool registered for the entry's name. -/
theorem parseToolsMapping_resolves {map : List (Yaml.Node × Yaml.Node)}
    (hmap : SectionIn (rootEntries res) "tools" map) (s : BuildFileImpl) :
    ResolvesIn res s (parseToolsMapping o map s).1 (parseToolsMapping o map s).2 := by
  refine forEach_runs (ResolvesIn.chains res) (fun _ => True) (fun _ _ => trivial)
    (fun entry hentry s _ => parseEntityEntry_resolves o (fun name attrs he s => ?_) s) s trivial
  have hcalls := getOrCreateTool_calls o (fun c => ∀ s, Resolved res s c) name
    (fun _ _ => trivial) (fun _ _ _ => trivial) s
  have hreg := @getOrCreateTool_registered o name s
  rcases hr : getOrCreateTool o name s with ⟨_ | tool, s₁⟩ <;> rw [hr] at hcalls hreg
  · exact ⟨.of_calls (fun _ h => h) hcalls, nofun⟩
  · refine ⟨.of_calls (fun _ h => h) hcalls, ?_⟩
    rintro _ ⟨⟩ key value ok hpair s' hg
    exact ⟨name, attrs, ⟨map, hmap, he ▸ hentry⟩, hpair, hg.tools (hreg rfl)⟩

/-- Each attribute of a `nodes` entry is set on the node registered for the entry's name. -/
theorem parseNodesMapping_resolves {map : List (Yaml.Node × Yaml.Node)}
    (hmap : SectionIn (rootEntries res) "nodes" map) (s : BuildFileImpl) :
    ResolvesIn res s (parseNodesMapping o map s).1 (parseNodesMapping o map s).2 := by
  refine forEach_runs (ResolvesIn.chains res) (fun _ => True) (fun _ _ => trivial)
    (fun entry hentry s _ => parseEntityEntry_resolves o (fun name attrs he s => ?_) s) s trivial
  have hcalls := @getOrCreateNode_calls (fun c => ∀ s, Resolved res s c) name false
    (fun _ => trivial) s
  have hreg := getOrCreateNode_registered name false s
  rcases hr : getOrCreateNode name false s with ⟨node, s₁⟩
  rw [hr] at hcalls hreg
  refine ⟨.of_calls (fun _ h => h) hcalls, ?_⟩
  rintro _ ⟨⟩ key value ok hpair s' hg
  exact ⟨name, attrs, ⟨map, hmap, he ▸ hentry⟩, hpair, hg.nodes hreg⟩

/-- The nodes passed to the task for a sequence are those registered for its names. -/
theorem parseTaskNodes_resolves {key : String} {configure : Handle → List Handle → Call}
    {task : Handle} {value : Yaml.Node}
    (hcfg : ∀ names nodes s, value = .sequence names → registryNodes s.nodes names = some nodes →
      Resolved res s (configure task nodes)) (s : BuildFileImpl) :
    ResolvesIn res s (parseTaskNodes key configure task value s).1
      (parseTaskNodes key configure task value s).2 := by
  cases value with
  | sequence names =>
    exact bindSome_runs (ResolvesIn.chains res)
      (.of_calls (fun _ h => h)
        (resolveNodeNames_calls _ (fun _ _ => trivial) (fun _ _ _ => trivial) key names s))
      fun nodes hnodes => .call (hcfg _ nodes _ rfl (resolveNodeNames_eq_some key _ s nodes hnodes).2) _
  | _ => exact ResolvesIn.error _ _ _

theorem parseTaskAttribute_resolves {name : String} {attrs : List (Yaml.Node × Yaml.Node)}
    (hentry : SectionEntry res "tasks" (.scalar name, .mapping attrs)) (task : Handle)
    {pair : Yaml.Node × Yaml.Node} (hpair : pair ∈ attrs) (s : BuildFileImpl) :
    ResolvesIn res s (parseTaskAttribute o task pair s).1 (parseTaskAttribute o task pair s).2 := by
  obtain ⟨key, value⟩ := pair
  simp only [parseTaskAttribute]
  split_ifs with hi ho
  · rw [nodeIsScalarString_iff.1 hi] at hpair
    refine parseTaskNodes_resolves (fun names nodes _ hv hr => ?_) s
    exact ⟨name, attrs, names, hentry, hv ▸ hpair, hr⟩
  · rw [nodeIsScalarString_iff.1 ho] at hpair
    refine parseTaskNodes_resolves (fun names nodes _ hv hr => ?_) s
    exact ⟨name, attrs, names, hentry, hv ▸ hpair, hr⟩
  · exact configureAttributePair_resolves o fun _ _ _ _ => trivial

/-- A task is created on the tool registered for the name of its `tool` key. -/
theorem createTask_resolves {name toolName : String} {tool : Handle}
    {attrs : List (Yaml.Node × Yaml.Node)}
    (hentry : SectionEntry res "tasks"
      (.scalar name, .mapping ((.scalar "tool", .scalar toolName) :: attrs)))
    {s : BuildFileImpl} (htool : s.tools toolName = some tool) :
    ResolvesIn res s (createTask o name tool attrs s).1 (createTask o name tool attrs s).2 := by
  have h₁ : ResolvesIn res s true (s.call (.createTask tool name)) :=
    .call (show Resolved res s (.createTask tool name) from ⟨toolName, attrs, hentry, htool⟩) _
  have h₂ := forEach_runs (ResolvesIn.chains res) (fun _ => True) (fun _ _ => trivial)
    (fun pair hpair s' _ => parseTaskAttribute_resolves o hentry s.calls.length (.tail _ hpair) s')
    (s.call (.createTask tool name)) trivial
  unfold createTask
  rcases h : forEach (parseTaskAttribute o s.calls.length) attrs (s.call (.createTask tool name))
    with ⟨_ | _, s₂⟩ <;> rw [h] at h₂
  · exact (ResolvesIn.chains res).trans h₁ h₂
  · exact (ResolvesIn.chains res).trans h₁ ((ResolvesIn.chains res).trans h₂
      ((ResolvesIn.call (show Resolved res s₂ (.loadedTask name s.calls.length) from trivial)
        true).setTask _ _))

theorem parseTasksEntry_resolves {entry : Yaml.Node × Yaml.Node}
    (hentry : SectionEntry res "tasks" entry) (s : BuildFileImpl) :
    ResolvesIn res s (parseTasksEntry o entry s).1 (parseTasksEntry o entry s).2 := by
  unfold parseTasksEntry
  split
  · exact ResolvesIn.error _ _ _
  · split
    · exact ResolvesIn.error _ _ _
    · rename_i hkey
      rw [Bool.not_eq_true', Bool.not_eq_false, nodeIsScalarString_iff] at hkey
      subst hkey
      split
      · exact bindSome_runs (ResolvesIn.chains res)
          (.of_calls (fun _ h => h) (getOrCreateTool_calls o (fun c => ∀ s, Resolved res s c) _
            (fun _ _ => trivial) (fun _ _ _ => trivial) s))
          fun _ htool => createTask_resolves o hentry (getOrCreateTool_registered o htool)
      · exact ResolvesIn.error _ _ _
  · exact ResolvesIn.error _ _ _
  · exact ResolvesIn.error _ _ _

theorem parseTasksMapping_resolves {map : List (Yaml.Node × Yaml.Node)}
    (hmap : SectionIn (rootEntries res) "tasks" map) (s : BuildFileImpl) :
    ResolvesIn res s (parseTasksMapping o map s).1 (parseTasksMapping o map s).2 :=
  forEach_runs (ResolvesIn.chains res) (fun _ => True) (fun _ _ => trivial)
    (fun _ hentry s _ => parseTasksEntry_resolves o ⟨map, hmap, hentry⟩ s) s trivial

/-- The calls of the client and of `targets` use no entity by name. -/
theorem resolved_of_clientCall_or_targetsCall {c : Call} (hc : ClientCall c ∨ TargetsCall c)
    (s : BuildFileImpl) : Resolved res s c := by
  cases c <;> first | trivial | (rcases hc with h | h <;> cases h)

theorem sections_resolves : ∀ sec ∈ sections o, ∀ map, SectionIn (rootEntries res) sec.1 map →
    ∀ s, ResolvesIn res s (sec.2 map s).1 (sec.2 map s).2 := by
  simp only [sections, List.mem_cons, List.mem_singleton, List.not_mem_nil, or_false]
  rintro _ (rfl | rfl | rfl | rfl) map hmap s
  · exact parseToolsMapping_resolves o hmap s
  · exact .of_calls (fun _ hc => resolved_of_clientCall_or_targetsCall (.inr hc))
      (parseTargetsMapping_calls map s)
  · exact parseNodesMapping_resolves o hmap s
  · exact parseTasksMapping_resolves o hmap s

/-- Every load, whatever it returns, uses for each name of its document the entity the
registries hold for it at the end. -/
theorem load_resolves (res : Except String (List Yaml.Node)) (s : BuildFileImpl) :
    ResolvesIn res s (load o res s).1.isTrue (load o res s).2 := by
  rcases load_runs (ResolvesIn.chains res) (fun s message => ResolvesIn.error s message false) o
      (fun map s => .of_calls (fun _ hc => resolved_of_clientCall_or_targetsCall (.inl hc))
        (parseClientMapping_calls o map s))
      res (sections_resolves o) s with ⟨-, h⟩ | h
  · rw [h]
    exact (ResolvesIn.chains res).refl s
  · exact h

/-- What a load of `res` from `s` to `s'` does with the `tools` and `nodes` registries. -/
structure RegistriesExtended (res : Except String (List Yaml.Node)) (s s' : BuildFileImpl) :
    Prop where
  tools_kept : ∀ {name tool}, s.tools name = some tool → s'.tools name = some tool
  nodes_kept : ∀ {name node}, s.nodes name = some node → s'.nodes name = some node
  lookupTool_once : ∀ name, (newCalls s s').countP (Call.looksUpTool name) ≤ 1
  lookupTool_absent : ∀ name, 0 < (newCalls s s').countP (Call.looksUpTool name) →
    s.tools name = none
  lookupNode_once : ∀ name, (newCalls s s').countP (Call.looksUpNode name) ≤ 1
  lookupNode_absent : ∀ name, 0 < (newCalls s s').countP (Call.looksUpNode name) →
    s.nodes name = none
  resolved : ∀ c ∈ newCalls s s', Resolved res s' c

/-- **A load only extends the registries, and resolves each name to the entity they hold.**
On every run of `load`, successful or not: a name registered in `tools` or `nodes` keeps its
entity; `lookupTool(name)` and `lookupNode(name, _)` are called at most once per name, and
only for a name absent from the registry; and the tool each attribute of a `tools` entry is
set on, the node each attribute of a `nodes` entry is set on, the tool each task is created
on, and each node passed to `configureInputs` or `configureOutputs` is the entity the
registry holds at the end of the run for its name in the document. -/
theorem load_registries (res : Except String (List Yaml.Node)) (s : BuildFileImpl) :
    RegistriesExtended res s (load o res s).2 := by
  have h := load_sound o res s
  exact ⟨h.grows.tools, h.grows.nodes, h.tools.le_one, h.tools.absent, h.nodes.le_one,
    h.nodes.absent, (load_resolves o res s).2⟩

end

/-- A build file whose tasks share a tool and nodes with the `tools` and `nodes` sections and
with each other: `a` is configured and read by both tasks, `c` is written by `t1` and read by
`t2`. -/
def sharedNamesFile : Except String (List Yaml.Node) :=
  .ok [.mapping [(.scalar "client", .mapping []),
    (.scalar "tools", .mapping [(.scalar "cc", .mapping [(.scalar "flags", .scalar "-O2")])]),
    (.scalar "nodes", .mapping [(.scalar "a", .mapping [(.scalar "kind", .scalar "file")])]),
    (.scalar "tasks", .mapping [
      (.scalar "t1", .mapping [(.scalar "tool", .scalar "cc"),
        (.scalar "inputs", .sequence [.scalar "a", .scalar "b"]),
        (.scalar "outputs", .sequence [.scalar "c"])]),
      (.scalar "t2", .mapping [(.scalar "tool", .scalar "cc"),
        (.scalar "inputs", .sequence [.scalar "c", .scalar "a"])])])]]

theorem load_registries_shared_names :
    (load .acceptAll sharedNamesFile (.new "build.llbuild")).2.calls =
        [.configureClient "" 0 [] true, .lookupTool "cc" true,
          .configureAttribute (.tool 1) "flags" "-O2" true, .lookupNode "a" false,
          .configureAttribute (.node 3) "kind" "file" true, .createTask 1 "t1",
          .lookupNode "b" true, .configureInputs 5 [3, 6], .lookupNode "c" true,
          .configureOutputs 5 [8], .loadedTask "t1" 5, .createTask 1 "t2",
          .configureInputs 11 [8, 3], .loadedTask "t2" 11] ∧
      RegistriesExtended sharedNamesFile (.new "build.llbuild")
        (load .acceptAll sharedNamesFile (.new "build.llbuild")).2 :=
  ⟨rfl, load_registries _ _ _⟩

/-- The entry of `tools` or `nodes` named `name`, with the pairs `attrs`, was configured:
`reg` holds an entity for `name`, and `calls` hold, for each pair, a pair of scalars, the
accepted `configureAttribute` on that entity. -/
def EntryConfigured (entity : Handle → Entity) (reg : String → Option Handle) (name : String)
    (attrs : List (Yaml.Node × Yaml.Node)) (calls : List Call) : Prop :=
  ∃ h, reg name = some h ∧ ∀ pair ∈ attrs, ∃ key value,
    pair = (.scalar key, .scalar value) ∧ .configureAttribute (entity h) key value true ∈ calls

theorem EntryConfigured.mono {entity : Handle → Entity} {reg reg' : String → Option Handle}
    {name : String} {attrs : List (Yaml.Node × Yaml.Node)} {calls calls' : List Call}
    (hreg : ∀ {name h}, reg name = some h → reg' name = some h) (hcalls : calls ⊆ calls')
    (he : EntryConfigured entity reg name attrs calls) :
    EntryConfigured entity reg' name attrs calls' :=
  let ⟨h, hr, hp⟩ := he
  ⟨h, hreg hr, fun pair hpair =>
    (hp pair hpair).imp fun _ => Exists.imp fun _ hkv => ⟨hkv.1, hcalls hkv.2⟩⟩

/-- The calls of a run in the middle of another are calls of the other. -/
theorem Grows.newCalls_subset {s₀ s₁ s₂ s₃ : BuildFileImpl} (h₁ : Grows s₀ s₁)
    (h₂ : Grows s₁ s₂) (h₃ : Grows s₂ s₃) : newCalls s₁ s₂ ⊆ newCalls s₀ s₃ := by
  rw [h₁.newCalls_trans (h₂.trans h₃), h₂.newCalls_trans h₃]
  exact fun c hc => List.mem_append_right _ (List.mem_append_left _ hc)

/-- The block of `parseRootNode` for a section that has an entry ran its parser to its end on
the section's entries. -/
theorem sectionStep_entries_eq_true {name : String}
    {parse : List (Yaml.Node × Yaml.Node) → Parse} {it : List (Yaml.Node × Yaml.Node)}
    {s s' : BuildFileImpl} (h : sectionStep name parse it s = (true, s'))
    {entry : Yaml.Node × Yaml.Node} (he : entry ∈ ((sectionValue? name it).map Node.entries).getD []) :
    parse (((sectionValue? name it).map Node.entries).getD []) s = (true, s') := by
  unfold sectionStep at h
  rcases hv : sectionValue? name it with _ | value <;> rw [hv] at h he
  · simp at he
  · cases value with
    | mapping map => exact h
    | _ => cases h

theorem sectionStep_grows {name : String} {parse : List (Yaml.Node × Yaml.Node) → Parse}
    (hparse : ∀ map s, Sound s (parse map s).1 (parse map s).2)
    {it : List (Yaml.Node × Yaml.Node)} {s s' : BuildFileImpl}
    (h : sectionStep name parse it s = (true, s')) : Grows s s' := by
  have hs := sectionStep_runs sound_chains name hparse sound_error it s
  rw [h] at hs
  exact hs.grows

section
variable (o : Oracle)

/-- **An attribute loop on success.**  Its pairs are pairs of scalars, and its calls are their
accepted `configureAttribute` calls, in order. -/
theorem forEach_configureAttributePair_eq_true {entity : Entity}
    {attrs : List (Yaml.Node × Yaml.Node)} {s s' : BuildFileImpl}
    (h : forEach (configureAttributePair o entity) attrs s = (true, s')) :
    Grows s s' ∧ ∃ pairs : List (String × String),
      attrs = pairs.map (fun p => (.scalar p.1, .scalar p.2)) ∧
      newCalls s s' = pairs.map fun p => .configureAttribute entity p.1 p.2 true := by
  refine forEach_eq_true (fun attrs s s' => Grows s s' ∧ ∃ pairs : List (String × String),
      attrs = pairs.map (fun p => (.scalar p.1, .scalar p.2)) ∧
      newCalls s s' = pairs.map fun p => .configureAttribute entity p.1 p.2 true)
    (fun s => ⟨.refl s, [], rfl, newCalls_self s⟩) (fun h₁ ih => ?_) h
  obtain ⟨key, value, rfl, rfl⟩ := configureAttributePair_eq_true o h₁
  obtain ⟨g, pairs, rfl, hcalls⟩ := ih
  refine ⟨(Grows.call _ _).trans g, (key, value) :: pairs, rfl, ?_⟩
  rw [(Grows.call _ _).newCalls_trans g, newCalls_call, hcalls]
  rfl

/-- **The entries of `tools` or `nodes` on success.**  When `resolve` registers the entity it
gives for a name under that name, every entry of the mapping was configured. -/
theorem forEach_parseEntityEntry_configured {mapName : String}
    {resolve : String → BuildFileImpl → Option Entity × BuildFileImpl}
    (entity : Handle → Entity) (reg : BuildFileImpl → String → Option Handle)
    (hkept : ∀ {s s'}, Grows s s' → ∀ {name h}, reg s name = some h → reg s' name = some h)
    (hres : ∀ {name s e s₁}, resolve name s = (some e, s₁) →
      Grows s s₁ ∧ ∃ h, e = entity h ∧ reg s₁ name = some h)
    {map : List (Yaml.Node × Yaml.Node)} {s s' : BuildFileImpl}
    (h : forEach (parseEntityEntry o mapName resolve) map s = (true, s')) :
    Grows s s' ∧ ∀ name attrs, (.scalar name, .mapping attrs) ∈ map →
      EntryConfigured entity (reg s') name attrs (newCalls s s') := by
  refine forEach_eq_true (fun map s s' => Grows s s' ∧ ∀ name attrs,
      (.scalar name, .mapping attrs) ∈ map → EntryConfigured entity (reg s') name attrs (newCalls s s'))
    (fun s => ⟨.refl s, fun _ _ h => absurd h (List.not_mem_nil _)⟩) (fun h₁ ih => ?_) h
  obtain ⟨name, attrs, e, s₁, rfl, hr, hloop⟩ := parseEntityEntry_eq_true o h₁
  obtain ⟨g₁, x, rfl, hx⟩ := hres hr
  obtain ⟨g₂, pairs, rfl, hcalls⟩ := forEach_configureAttributePair_eq_true o hloop
  obtain ⟨g₃, hrest⟩ := ih
  refine ⟨g₁.trans (g₂.trans g₃), fun n a hmem => ?_⟩
  rcases List.mem_cons.1 hmem with heq | hmem
  · obtain ⟨rfl, rfl⟩ : n = name ∧ a = pairs.map fun p => (.scalar p.1, .scalar p.2) := by
      simpa using heq
    refine ⟨x, hkept g₃ (hkept g₂ hx), fun pair hpair => ?_⟩
    obtain ⟨⟨k, v⟩, hkv, rfl⟩ := List.mem_map.1 hpair
    exact ⟨k, v, rfl, g₁.newCalls_subset g₂ g₃ (hcalls ▸ List.mem_map_of_mem
      (fun p : String × String => Call.configureAttribute (entity x) p.1 p.2 true) hkv)⟩
  · exact (hrest n a hmem).mono (fun hr => hr) ((g₁.trans g₂).newCalls_subset g₃ (.refl _))

theorem parseToolsMapping_configured {map : List (Yaml.Node × Yaml.Node)} {s s' : BuildFileImpl}
    (h : parseToolsMapping o map s = (true, s')) :
    Grows s s' ∧ ∀ name attrs, (.scalar name, .mapping attrs) ∈ map →
      EntryConfigured .tool s'.tools name attrs (newCalls s s') :=
  forEach_parseEntityEntry_configured o .tool (fun s => s.tools) (fun g => g.tools)
    (fun {name s _ _} hr => by
      rcases hg : getOrCreateTool o name s with ⟨_ | tool, s₂⟩ <;> rw [hg] at hr <;> cases hr
      have hreg := @getOrCreateTool_registered o name s tool (by rw [hg])
      rw [hg] at hreg
      exact ⟨(getOrCreateTool_effect o hg).grows, tool, rfl, hreg⟩) h

theorem parseNodesMapping_configured {map : List (Yaml.Node × Yaml.Node)} {s s' : BuildFileImpl}
    (h : parseNodesMapping o map s = (true, s')) :
    Grows s s' ∧ ∀ name attrs, (.scalar name, .mapping attrs) ∈ map →
      EntryConfigured .node s'.nodes name attrs (newCalls s s') :=
  forEach_parseEntityEntry_configured o .node (fun s => s.nodes) (fun g => g.nodes)
    (fun {name s _ _} hr => by
      cases hr
      exact ⟨(getOrCreateNode_effect name false s).grows, _, rfl,
        getOrCreateNode_registered name false s⟩) h

end

/-- What a load of `res` from `s` to `s'` that returned `true` did for the names and the pairs
of its document. -/
structure DocumentCallsMade (res : Except String (List Yaml.Node)) (s s' : BuildFileImpl) :
    Prop where
  /-- `lookupTool(name)` found each tool the document names that was not registered. -/
  lookupTool : ∀ name ∈ (documentContents res).tools, s.tools name = none →
    .lookupTool name true ∈ newCalls s s'
  /-- `lookupNode` was called for each node the document names that was not registered. -/
  lookupNode : ∀ name ∈ (documentContents res).nodes, s.nodes name = none →
    ∃ isImplicit, .lookupNode name isImplicit ∈ newCalls s s'
  /-- Each pair of each `tools` entry was set on the tool registered for its name. -/
  toolAttributes : ∀ name attrs, (.scalar name, .mapping attrs) ∈ sectionEntries "tools" res →
    EntryConfigured .tool s'.tools name attrs (newCalls s s')
  /-- Each pair of each `nodes` entry was set on the node registered for its name. -/
  nodeAttributes : ∀ name attrs, (.scalar name, .mapping attrs) ∈ sectionEntries "nodes" res →
    EntryConfigured .node s'.nodes name attrs (newCalls s s')

section
variable (o : Oracle)

/-- **A load that returns `true` made the calls of its document.**  It found with
`lookupTool` every tool its document names that was not registered, called `lookupNode` for
every such node, and set every pair of every entry of `tools` and `nodes` on the entity
registered for the entry's name, each call accepted. -/
theorem load_true_makes_document_calls {res : Except String (List Yaml.Node)}
    {s s' : BuildFileImpl} (h : load o res s = (.returns true, s')) : DocumentCallsMade res s s' := by
  have he := load_effect o h
  have hlog := load_logRegistries o res s
  rw [h] at hlog
  obtain ⟨client, it, s₁, s₂, s₃, s₄, rfl, -, hclient, htools, htargets, hnodes, htasks⟩ :=
    load_eq_true o h
  have g₀ := (parseClientMapping_effect o hclient).grows
  have g₁ := sectionStep_grows (parseToolsMapping_closed sound_closed o) htools
  have g₂ := sectionStep_grows (parseTargetsMapping_closed sound_closed) htargets
  have g₃ := sectionStep_grows (parseNodesMapping_closed sound_closed o) hnodes
  have g₄ := sectionStep_grows (parseTasksMapping_closed sound_closed o) htasks
  have hentries : ∀ name, name ≠ "client" →
      sectionEntries name (.ok [.mapping ((.scalar "client", .mapping client) :: it)]) =
        ((sectionValue? name it).map Node.entries).getD [] := fun name hname => by
    simp [sectionEntries, Node.entries, sectionValue?_cons_of_ne, Ne.symm hname]
  refine ⟨fun name hname hnone => ?_, fun name hname hnone => ?_, fun name attrs hmem => ?_,
    fun name attrs hmem => ?_⟩
  · obtain ⟨tool, htool⟩ := Option.isSome_iff_exists.1 ((he.tools name).2 (.inr hname))
    rw [hlog.tools] at htool
    obtain ⟨j, c, -, hj, hc⟩ := mem_positions.1 (mem_of_storeAll_eq_some htool hnone)
    rw [Call.createdTool?_eq_some.1 hc] at hj
    exact List.getElem?_mem hj
  · obtain ⟨node, hnode⟩ := Option.isSome_iff_exists.1 ((he.nodes name).2 (.inr hname))
    rw [hlog.nodes] at hnode
    obtain ⟨j, c, -, hj, hc⟩ := mem_positions.1 (mem_of_storeAll_eq_some hnode hnone)
    obtain ⟨isImplicit, rfl⟩ := Call.createdNode?_eq_some.1 hc
    exact ⟨isImplicit, List.getElem?_mem hj⟩
  · rw [hentries _ (by decide)] at hmem
    obtain ⟨g, hcfg⟩ := parseToolsMapping_configured o (sectionStep_entries_eq_true htools hmem)
    exact (hcfg name attrs hmem).mono (g₂.trans (g₃.trans g₄)).tools
      (g₀.newCalls_subset g (g₂.trans (g₃.trans g₄)))
  · rw [hentries _ (by decide)] at hmem
    obtain ⟨g, hcfg⟩ := parseNodesMapping_configured o (sectionStep_entries_eq_true hnodes hmem)
    exact (hcfg name attrs hmem).mono g₄.nodes ((g₀.trans (g₁.trans g₂)).newCalls_subset g g₄)

end

theorem load_true_makes_document_calls_shared_names :
    ∃ s', load .acceptAll sharedNamesFile (.new "build.llbuild") = (.returns true, s') ∧
      DocumentCallsMade sharedNamesFile (.new "build.llbuild") s' :=
  ⟨_, rfl, load_true_makes_document_calls .acceptAll rfl⟩

end BuildSystem
end Llbuild
