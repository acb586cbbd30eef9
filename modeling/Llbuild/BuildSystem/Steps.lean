import Llbuild.BuildSystem.Invariant
import Llbuild.BuildSystem.Load

/-!
# Every load is made of a few kinds of step

Apart from the `bool` they return, the parse functions of `BuildFile.cpp` change a
`BuildFileImpl` in a few ways only: `delegate.error`; a call the parser registers nothing
for (`configureClient`, `configureAttribute`, `createTask`, `configureInputs`,
`configureOutputs`), always on tools and nodes it has registered and on a task it has
created (`Call.Live`); a `lookupTool` that finds nothing, followed by its error; and the four
registrations, each right after the call that produced what it stores: `tools[name]` after
`lookupTool(name)` and `nodes[name]` after `lookupNode(name, isImplicit)`, both for a name the
registry lacks (lines 126-157), `targets[name]` after `loadedTarget` (lines 383-386), and
`tasks[name]` after `loadedTask`, for the task `createTask` returned (lines 574-577).

A property of runs that implies `Grows`, chains, and holds of each of these steps
(`RunProp.Closed`) holds of every run of every parse function, whatever the document and
whatever the delegate answers: one lemma per parse function, up to `load_closed`.  The last
links of that chain only ask a property to chain, to hold of errors, and to hold of the
client's block and of each section parser (`load_runs`).
-/

namespace Llbuild
namespace BuildSystem

open Yaml

namespace Call

/-- The calls the parser registers nothing for, `delegate.error` and a failed `lookupTool`
apart. -/
def Plain : Call → Prop
  | configureClient .. | configureAttribute .. | createTask .. | configureInputs ..
  | configureOutputs .. => True
  | _ => False

/-- The tools, nodes and tasks a call is made on or passes. -/
def entities : Call → List Entity
  | configureAttribute entity .. => [entity]
  | createTask tool _ => [.tool tool]
  | configureInputs task nodes | configureOutputs task nodes => .task task :: nodes.map .node
  | _ => []

end Call

/-- The entity is there: a tool or a node registered under some name, or a task an earlier
`createTask` returned. -/
def Entity.Live : Entity → BuildFileImpl → Prop
  | .tool t, s => ∃ name, s.tools name = some t
  | .node n, s => ∃ name, s.nodes name = some n
  | .task t, s => ∃ tool name, s.calls[t]? = some (.createTask tool name)

theorem Entity.Live.grows {s s' : BuildFileImpl} (h : Grows s s') {entity : Entity}
    (he : entity.Live s) : entity.Live s' := by
  cases entity with
  | tool _ => exact Exists.imp (fun _ => h.tools) he
  | node _ => exact Exists.imp (fun _ => h.nodes) he
  | task _ =>
    obtain ⟨tool, name, ht⟩ := he
    exact ⟨tool, name, by rw [h.calls]; exact getElem?_append_of_eq_some ht⟩

/-- Every entity the call is made on or passes is there. -/
def Call.Live (s : BuildFileImpl) (c : Call) : Prop := ∀ entity ∈ c.entities, entity.Live s

section
variable (o : Oracle)

/-- The tool `getOrCreateTool(name)` returns is the one registered under `name`. -/
theorem getOrCreateTool_registered {name : String} {s : BuildFileImpl} {tool : Handle}
    (h : (getOrCreateTool o name s).1 = some tool) :
    (getOrCreateTool o name s).2.tools name = some tool := by
  unfold getOrCreateTool at h ⊢
  cases hs : s.tools name with
  | some _ => simp_all
  | none =>
    simp only [hs] at h ⊢
    split at h <;> simp_all

end

/-- The node `getOrCreateNode(name, _)` returns is the one registered under `name`. -/
theorem getOrCreateNode_registered (name : String) (isImplicit : Bool) (s : BuildFileImpl) :
    (getOrCreateNode name isImplicit s).2.nodes name = some (getOrCreateNode name isImplicit s).1 := by
  unfold getOrCreateNode
  split <;> simp_all

/-- **A property of runs that each step of the parser has.** -/
structure RunProp.Closed (P : RunProp) : Prop where
  chains : P.Chains
  grows : ∀ {s ok s'}, P s ok s' → Grows s s'
  error : ∀ s message, P s false (s.error message)
  call : ∀ {c s} ok, c.Plain → c.Live s → P s ok (s.call c)
  lookupToolFails : ∀ {s name} message, s.tools name = none →
    P s false ((s.call (.lookupTool name false)).error message)
  registerTool : ∀ {s name}, s.tools name = none →
    P s true ((s.call (.lookupTool name true)).setTool name s.calls.length)
  registerNode : ∀ {s name} isImplicit, s.nodes name = none →
    P s true ((s.call (.lookupNode name isImplicit)).setNode name s.calls.length)
  registerTarget : ∀ s name target,
    P s true ((s.call (.loadedTarget name target)).setTarget name target)
  registerTask : ∀ {s name task tool}, s.calls[task]? = some (.createTask tool name) →
    P s true ((s.call (.loadedTask name task)).setTask name task)

section
variable {P : RunProp} (hP : P.Closed)
include hP

/-- A loop whose steps keep an entity there, and each have `P` while it is. -/
theorem forEach_closed {α : Type} {body : α → Parse} {entity : Entity} {as : List α}
    (hb : ∀ a ∈ as, ∀ s, entity.Live s → P s (body a s).1 (body a s).2) (s : BuildFileImpl)
    (he : entity.Live s) : P s (forEach body as s).1 (forEach body as s).2 :=
  forEach_runs hP.chains entity.Live (fun h he => he.grows (hP.grows h)) hb s he

variable (o : Oracle)

theorem getOrCreateTool_closed (name : String) (s : BuildFileImpl) :
    P s (getOrCreateTool o name s).1.isSome (getOrCreateTool o name s).2 := by
  unfold getOrCreateTool
  split
  · exact hP.chains.refl s
  · split
    · exact hP.registerTool ‹_›
    · exact hP.lookupToolFails _ ‹_›

theorem getOrCreateNode_closed (name : String) (isImplicit : Bool) (s : BuildFileImpl) :
    P s true (getOrCreateNode name isImplicit s).2 := by
  unfold getOrCreateNode
  split
  · exact hP.chains.refl s
  · exact hP.registerNode isImplicit ‹_›

theorem configureAttributePair_closed {entity : Entity} {s : BuildFileImpl} (he : entity.Live s)
    (pair : Yaml.Node × Yaml.Node) :
    P s (configureAttributePair o entity pair s).1 (configureAttributePair o entity pair s).2 := by
  unfold configureAttributePair
  split
  · exact hP.call _ trivial fun e he' => by
      rw [Call.entities, List.mem_singleton] at he'
      exact he' ▸ he
  · exact hP.error _ _
  · exact hP.error _ _

/-- `parseEntityEntry` has `P` when each run of `resolve` has it and leaves the entity it
returns there. -/
theorem parseEntityEntry_closed {mapName : String}
    {resolve : String → BuildFileImpl → Option Entity × BuildFileImpl}
    (hres : ∀ name s, P s (resolve name s).1.isSome (resolve name s).2 ∧
      ∀ e, (resolve name s).1 = some e → e.Live (resolve name s).2)
    (entry : Yaml.Node × Yaml.Node) (s : BuildFileImpl) :
    P s (parseEntityEntry o mapName resolve entry s).1
      (parseEntityEntry o mapName resolve entry s).2 := by
  unfold parseEntityEntry
  split
  · exact bindSome_runs hP.chains (hres _ s).1 fun e he =>
      forEach_closed hP (fun pair _ s he => configureAttributePair_closed hP o he pair) _
        ((hres _ s).2 e he)
  · exact hP.error _ _
  · exact hP.error _ _

theorem parseToolsMapping_closed (map : List (Yaml.Node × Yaml.Node)) (s : BuildFileImpl) :
    P s (parseToolsMapping o map s).1 (parseToolsMapping o map s).2 := by
  refine forEach_runs hP.chains (fun _ => True) (fun _ _ => trivial)
    (fun entry _ s _ => parseEntityEntry_closed hP o (fun name s => ?_) entry s) s trivial
  have hrun := getOrCreateTool_closed hP o name s
  have hreg := @getOrCreateTool_registered o name s
  rcases h : getOrCreateTool o name s with ⟨_ | tool, s'⟩ <;> simp only [h] at hrun hreg ⊢
  · exact ⟨hrun, nofun⟩
  · exact ⟨hrun, fun e he => by cases he; exact ⟨name, hreg rfl⟩⟩

theorem parseNodesMapping_closed (map : List (Yaml.Node × Yaml.Node)) (s : BuildFileImpl) :
    P s (parseNodesMapping o map s).1 (parseNodesMapping o map s).2 := by
  refine forEach_runs hP.chains (fun _ => True) (fun _ _ => trivial)
    (fun entry _ s _ => parseEntityEntry_closed hP o (fun name s => ?_) entry s) s trivial
  have hrun := getOrCreateNode_closed hP name false s
  have hreg := getOrCreateNode_registered name false s
  rcases h : getOrCreateNode name false s with ⟨node, s'⟩
  simp only [h] at hrun hreg ⊢
  exact ⟨hrun, fun e he => by cases he; exact ⟨name, hreg⟩⟩

theorem parseTargetsEntry_closed (entry : Yaml.Node × Yaml.Node) (s : BuildFileImpl) :
    P s (parseTargetsEntry entry s).1 (parseTargetsEntry entry s).2 := by
  unfold parseTargetsEntry
  split
  · split
    · exact hP.error _ _
    · exact hP.registerTarget _ _ _
  · exact hP.error _ _
  · exact hP.error _ _

theorem parseTargetsMapping_closed (map : List (Yaml.Node × Yaml.Node)) (s : BuildFileImpl) :
    P s (parseTargetsMapping map s).1 (parseTargetsMapping map s).2 :=
  forEach_runs hP.chains (fun _ => True) (fun _ _ => trivial)
    (fun entry _ s _ => parseTargetsEntry_closed hP entry s) s trivial

/-- The nodes `resolveNodeNames` returns are there. -/
theorem resolveNodeNames_closed (key : String) (items : List Yaml.Node) (s : BuildFileImpl) :
    P s (resolveNodeNames key items s).1.isSome (resolveNodeNames key items s).2 ∧
      ∀ nodes, (resolveNodeNames key items s).1 = some nodes →
        ∀ node ∈ nodes, (Entity.node node).Live (resolveNodeNames key items s).2 := by
  induction items, s using resolveNodeNames.induct key with
  | case1 s => exact ⟨hP.chains.refl s, by simp [resolveNodeNames]⟩
  | case2 name items s node s₁ h₁ nodes s₂ h₂ ih =>
    have hnode := getOrCreateNode_registered name true s
    have hrun := getOrCreateNode_closed hP name true s
    rw [h₁] at hnode hrun
    rw [h₂] at ih
    simp only [resolveNodeNames, h₁, h₂]
    refine ⟨by simpa using hP.chains.trans hrun ih.1, fun hs hhs h hh => ?_⟩
    cases nodes with
    | none => cases hhs
    | some rest =>
      simp only [Option.map_some', Option.some.injEq] at hhs
      subst hhs
      rcases List.mem_cons.1 hh with rfl | hh
      · exact ⟨name, (hP.grows ih.1).nodes hnode⟩
      · exact ih.2 rest rfl h hh
  | case3 head tail s hne =>
    rw [resolveNodeNames.eq_3 _ _ _ _ hne]
    exact ⟨hP.error _ _, nofun⟩

/-- The `inputs` and `outputs` branches, for a task that is there. -/
theorem parseTaskNodes_closed {key : String} {configure : Handle → List Handle → Call}
    (hcfg : configure = .configureInputs ∨ configure = .configureOutputs) {task : Handle}
    (value : Yaml.Node) {s : BuildFileImpl} (ht : (Entity.task task).Live s) :
    P s (parseTaskNodes key configure task value s).1
      (parseTaskNodes key configure task value s).2 := by
  unfold parseTaskNodes
  split
  · obtain ⟨hrun, hnodes⟩ := resolveNodeNames_closed hP key ‹_› s
    refine bindSome_runs hP.chains hrun fun nodes hn => ?_
    have hlive : ∀ e ∈ Entity.task task :: nodes.map .node,
        e.Live (resolveNodeNames key ‹_› s).2 := by
      rintro e (_ | ⟨_, he⟩)
      · exact ht.grows (hP.grows hrun)
      · obtain ⟨node, hnode, rfl⟩ := List.mem_map.1 he
        exact hnodes nodes hn node hnode
    rcases hcfg with rfl | rfl <;> exact hP.call true trivial hlive
  · exact hP.error _ _

theorem parseTaskAttribute_closed {task : Handle} (pair : Yaml.Node × Yaml.Node) {s : BuildFileImpl}
    (ht : (Entity.task task).Live s) :
    P s (parseTaskAttribute o task pair s).1 (parseTaskAttribute o task pair s).2 := by
  obtain ⟨key, value⟩ := pair
  simp only [parseTaskAttribute]
  split_ifs
  · exact parseTaskNodes_closed hP (.inl rfl) value ht
  · exact parseTaskNodes_closed hP (.inr rfl) value ht
  · exact configureAttributePair_closed hP o ht _

theorem createTask_closed (name : String) {tool : Handle} (attrs : List (Yaml.Node × Yaml.Node))
    {s : BuildFileImpl} (htool : (Entity.tool tool).Live s) :
    P s (createTask o name tool attrs s).1 (createTask o name tool attrs s).2 := by
  have hcall : (s.call (.createTask tool name)).calls[s.calls.length]? =
      some (.createTask tool name) := by simp
  have hcreated : P s true (s.call (.createTask tool name)) :=
    hP.call true trivial fun e he => by
      rw [Call.entities, List.mem_singleton] at he
      exact he ▸ htool
  have hattrs := forEach_closed hP
    (fun pair (_ : pair ∈ attrs) s' (ht : (Entity.task s.calls.length).Live s') =>
      parseTaskAttribute_closed hP o pair ht) _
    ⟨tool, name, hcall⟩
  unfold createTask
  rcases h : forEach (parseTaskAttribute o s.calls.length) attrs (s.call (.createTask tool name))
    with ⟨_ | _, s₂⟩ <;> rw [h] at hattrs
  · exact hP.chains.trans hcreated hattrs
  · have htask : s₂.calls[s.calls.length]? = some (.createTask tool name) := by
      rw [(hP.grows hattrs).calls]
      exact getElem?_append_of_eq_some hcall
    exact hP.chains.trans hcreated (hP.chains.trans hattrs (hP.registerTask htask))

theorem parseTasksEntry_closed (entry : Yaml.Node × Yaml.Node) (s : BuildFileImpl) :
    P s (parseTasksEntry o entry s).1 (parseTasksEntry o entry s).2 := by
  unfold parseTasksEntry
  split
  · exact hP.error _ _
  · split
    · exact hP.error _ _
    · split
      · exact bindSome_runs hP.chains (getOrCreateTool_closed hP o _ s) fun tool htool =>
          createTask_closed hP o _ _ ⟨_, getOrCreateTool_registered o htool⟩
      · exact hP.error _ _
  · exact hP.error _ _
  · exact hP.error _ _

theorem parseTasksMapping_closed (map : List (Yaml.Node × Yaml.Node)) (s : BuildFileImpl) :
    P s (parseTasksMapping o map s).1 (parseTasksMapping o map s).2 :=
  forEach_runs hP.chains (fun _ => True) (fun _ _ => trivial)
    (fun entry _ s _ => parseTasksEntry_closed hP o entry s) s trivial

theorem parseClientMapping_closed (map : List (Yaml.Node × Yaml.Node)) (s : BuildFileImpl) :
    P s (parseClientMapping o map s).1 (parseClientMapping o map s).2 := by
  unfold parseClientMapping
  split
  · exact hP.error _ _
  · next name version properties _ =>
    have hcall : P s true (s.call (.configureClient name version properties
        (o.configureClient s.calls name version properties))) := hP.call true trivial nofun
    dsimp only
    split
    · exact hcall
    · exact hP.chains.trans hcall (hP.error _ _)

end

/-- `parseRootNode` and `load` succeed: they return `true`. -/
def Outcome.isTrue : Outcome → Bool
  | .returns ok => ok
  | .readsEndIterator => false

section
variable (o : Oracle)

/-- `parseRootNode` reads the end iterator exactly on an empty root mapping. -/
theorem parseRootNode_readsEndIterator (root : Yaml.Node) (s : BuildFileImpl) :
    (parseRootNode o root s).1 = .readsEndIterator ↔ root = .mapping [] := by
  unfold parseRootNode
  split
  · simp
  · split
    · simp
    · split <;> simp
  · simp_all

/-- `load` reads the end iterator only when `parseRootNode` does, on an empty root mapping,
and has then made no call. -/
theorem load_readsEndIterator (res : Except String (List Yaml.Node)) (s : BuildFileImpl)
    (h : (load o res s).1 = .readsEndIterator) : (load o res s).2 = s := by
  unfold load at h ⊢
  split
  · simp at h
  · simp at h
  · next root documents =>
    rcases hr : parseRootNode o root s with ⟨⟨_ | _⟩ | ⟨⟩, s'⟩ <;> simp only [hr] at h ⊢
    · cases h
    · split at h <;> cases h
    · have := (parseRootNode_readsEndIterator o root s).1 (by rw [hr])
      subst this
      simpa [parseRootNode] using hr.symm

end

/-- The entries of the root mapping of a stream's first document. -/
def rootEntries : Except String (List Yaml.Node) → List (Yaml.Node × Yaml.Node)
  | .ok (root :: _) => root.entries
  | _ => []

/-- `map` is the mapping an entry of `it` holds under the scalar key `name`. -/
def SectionIn (it : List (Yaml.Node × Yaml.Node)) (name : String)
    (map : List (Yaml.Node × Yaml.Node)) : Prop :=
  ∃ key, nodeIsScalarString key name = true ∧ (key, .mapping map) ∈ it

theorem SectionIn.cons {it : List (Yaml.Node × Yaml.Node)} {name : String}
    {map : List (Yaml.Node × Yaml.Node)} (h : SectionIn it name map) (entry : Yaml.Node × Yaml.Node) :
    SectionIn (entry :: it) name map :=
  h.imp fun _ hk => ⟨hk.1, .tail _ hk.2⟩

section
variable {P : RunProp} (hchains : P.Chains) (herror : ∀ s message, P s false (s.error message))
include hchains herror

/-- The section blocks of `parseRootNode` have `P` when each section parser has it on the
mapping of its entry. -/
theorem parseSections_runs {secs : List (String × (List (Yaml.Node × Yaml.Node) → Parse))}
    {it : List (Yaml.Node × Yaml.Node)}
    (hsecs : ∀ sec ∈ secs, ∀ map, SectionIn it sec.1 map → ∀ s, P s (sec.2 map s).1 (sec.2 map s).2)
    (s : BuildFileImpl) : P s (parseSections secs it s).1 (parseSections secs it s).2 := by
  induction secs, it using parseSections.induct generalizing s with
  | case1 => exact hchains.refl s
  | case2 => exact herror _ _
  | case3 sec secs ih =>
    rw [parseSections]
    exact ih (fun sec' h => hsecs sec' (.tail _ h)) s
  | case4 name parse secs key it hkey map ih =>
    rw [parseSections_of_key hkey]
    exact andThen_runs hchains (hsecs _ (.head _) map ⟨key, hkey, .head _⟩ s)
      fun _ => ih (fun sec' h map' hmap => hsecs sec' (.tail _ h) map' (hmap.cons _)) _
  | case5 name parse secs key value it hkey hval =>
    rw [parseSections_of_key hkey]
    split
    · exact absurd rfl (hval _)
    · exact herror _ _
  | case6 name parse secs key value it hkey ih =>
    rw [parseSections_of_not_key (by simpa using hkey)]
    exact ih (fun sec' h => hsecs sec' (.tail _ h)) s

variable (o : Oracle)
  (hclient : ∀ map s, P s (parseClientMapping o map s).1 (parseClientMapping o map s).2)
include hclient

theorem parseRootNode_runs {root : Yaml.Node} (hroot : root ≠ .mapping [])
    (hsecs : ∀ sec ∈ sections o, ∀ map, SectionIn root.entries sec.1 map →
      ∀ s, P s (sec.2 map s).1 (sec.2 map s).2) (s : BuildFileImpl) :
    P s (parseRootNode o root s).1.isTrue (parseRootNode o root s).2 := by
  unfold parseRootNode
  split
  · exact absurd rfl hroot
  · split
    · exact herror _ _
    · split
      · exact andThen_runs hchains (hclient _ s) fun _ => parseSections_runs hchains herror
          (fun sec h map hmap => hsecs sec h map (hmap.cons _)) _
      · exact herror _ _
  · exact herror _ _

/-- **A load has every property of runs its parsers have.**  For a property of runs that
chains and holds of every error, of the client's block, and of each section parser on the
mapping the root holds under its name: a load reads the end iterator of an empty root
mapping and changes nothing, or its run, from the state it starts in to the one it leaves,
has it. -/
theorem load_runs (res : Except String (List Yaml.Node))
    (hsecs : ∀ sec ∈ sections o, ∀ map, SectionIn (rootEntries res) sec.1 map →
      ∀ s, P s (sec.2 map s).1 (sec.2 map s).2) (s : BuildFileImpl) :
    (load o res s).1 = .readsEndIterator ∧ (load o res s).2 = s ∨
      P s (load o res s).1.isTrue (load o res s).2 := by
  unfold load
  split
  · exact .inr (herror _ _)
  · exact .inr (herror _ _)
  · next root documents =>
    by_cases hroot : root = .mapping []
    · subst hroot
      exact .inl ⟨rfl, rfl⟩
    · have h := parseRootNode_runs hchains herror o hclient hroot hsecs s
      have hend := (parseRootNode_readsEndIterator o root s).not.2 hroot
      rcases hr : parseRootNode o root s with ⟨⟨_ | _⟩ | ⟨⟩, s'⟩ <;> rw [hr] at h hend
      · exact .inr h
      · cases documents
        · exact .inr h
        · exact .inr (hchains.trans h (herror _ _))
      · exact absurd rfl hend

end

section
variable {P : RunProp} (hP : P.Closed) (o : Oracle)
include hP

theorem sections_closed : ∀ sec ∈ sections o, ∀ map s, P s (sec.2 map s).1 (sec.2 map s).2 := by
  simp only [sections, List.mem_cons, List.mem_singleton, List.not_mem_nil, or_false]
  rintro _ (rfl | rfl | rfl | rfl)
  · exact parseToolsMapping_closed hP o
  · exact parseTargetsMapping_closed hP
  · exact parseNodesMapping_closed hP o
  · exact parseTasksMapping_closed hP o

/-- **Every load has every property its steps have.** -/
theorem load_closed (res : Except String (List Yaml.Node)) (s : BuildFileImpl) :
    (load o res s).1 = .readsEndIterator ∧ (load o res s).2 = s ∨
      P s (load o res s).1.isTrue (load o res s).2 :=
  load_runs hP.chains hP.error o (parseClientMapping_closed hP o) res
    (fun sec hsec map _ => sections_closed hP o sec hsec map) s

end

end BuildSystem
end Llbuild
