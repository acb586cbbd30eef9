import Llbuild.BuildSystem.Contents
import Llbuild.BuildSystem.Registry

/-!
# Explicit and implicit nodes

`parseNodesMapping` asks for its keys with `getOrCreateNode(name, /*isImplicit=*/false)` and
the task parser for the names of `inputs` and `outputs` with `isImplicit=true`
(`BuildFile.cpp`, lines 392-442 and 497-540).  A lookup happens only for a name the registry
lacks, so which flag a node is created with depends on which section names it first.  The
explicit lookups are always of keys of the `nodes` section (`load_calls`).  The implicit
ones are of names absent when the `tasks` section starts; in a load that succeeds the
`nodes` section has run to its end by then (`load_eq_true`), so they never name one of its
keys.  A load that fails may have run a `tasks` section placed before `nodes` (the order is
only checked once the sections are parsed), and there a key of `nodes` can be looked up as
an implicit node first: `load_tasks_before_nodes` runs one.
-/

namespace Llbuild
namespace BuildSystem

open Yaml

/-- The keys of the `nodes` sections of the root mapping of a stream's first document. -/
def nodesKeys : Except String (List Yaml.Node) → List String
  | .ok (root :: _) => root.entries.flatMap fun entry =>
      if entry.1.scalarValue? = some "nodes" then mappingKeys entry.2.entries else []
  | _ => []

section
variable (o : Oracle)

/-- Explicit lookups are of keys of `nodes`, whatever the load does. -/
theorem lookupNode_false_mem_nodesKeys (res : Except String (List Yaml.Node)) (s : BuildFileImpl) :
    ∀ name, .lookupNode name false ∈ newCalls s (load o res s).2 → name ∈ nodesKeys res := by
  intro name hn
  rcases res with _ | _ | ⟨root, documents⟩
  · simp [load, BuildFileImpl.error] at hn
  · simp [load, BuildFileImpl.error] at hn
  · rcases load_calls o root documents s _ hn with hc | ⟨sec, map, hmem, hc⟩
    · exact hc.elim
    · simp only [nodesKeys, List.mem_flatMap]
      refine ⟨_, hmem, ?_⟩
      unfold SectionCall at hc
      split at hc <;> simp_all [ToolsCall, TargetsCall, NodesCall, TasksCall, Node.entries]

/-- A section block whose parser makes no implicit lookup makes none. -/
theorem sectionStep_no_implicit (Q : List (Yaml.Node × Yaml.Node) → Call → Prop)
    (hQ : ∀ map name, ¬Q map (.lookupNode name true)) {name : String}
    {parse : List (Yaml.Node × Yaml.Node) → Parse}
    (hparse : ∀ map s, CallsIn (Q map) s (parse map s).1 (parse map s).2)
    {it : List (Yaml.Node × Yaml.Node)} {s s' : BuildFileImpl}
    (h : sectionStep name parse it s = (true, s')) :
    CallsIn (fun c => ∀ name, c ≠ .lookupNode name true) s true s' :=
  (sectionStep_calls Q hparse h).mono fun c hc name hn => hQ _ name (by subst hn; exact hc)

/-- **A load that succeeds never looks up a key of `nodes` as an implicit node.** -/
theorem lookupNode_true_not_mem_nodesKeys {res : Except String (List Yaml.Node)}
    {s s' : BuildFileImpl} (h : load o res s = (.returns true, s')) :
    ∀ name, .lookupNode name true ∈ newCalls s s' → name ∉ nodesKeys res := by
  obtain ⟨client, it, s₁, s₂, s₃, s₄, rfl, hsub, h₁, h₂, h₃, h₄, h₅⟩ := load_eq_true o h
  have hclient := parseClientMapping_calls o client s
  rw [h₁] at hclient
  have htools := sectionStep_no_implicit (fun _ => ToolsCall) (fun _ _ h => h)
    (parseToolsMapping_calls o) h₂
  have htargets := sectionStep_no_implicit (fun _ => TargetsCall) (fun _ _ h => h)
    parseTargetsMapping_calls h₃
  have hnodes := sectionStep_no_implicit (fun map => NodesCall (mappingKeys map))
    (fun _ _ h => Bool.noConfusion h.2) (parseNodesMapping_calls o) h₄
  have hpre : CallsIn (fun c => ∀ name, c ≠ .lookupNode name true) s true s₄ :=
    (CallsIn.chains _).trans (hclient.mono fun c hc name hn => by subst hn; exact hc)
      ((CallsIn.chains _).trans htools ((CallsIn.chains _).trans htargets hnodes))
  have htasks := sectionStep_runs sound_chains "tasks" (parseTasksMapping_closed sound_closed o) sound_error it s₄
  rw [h₅] at htasks
  intro name hn hkey
  rw [hpre.1.newCalls_trans htasks.grows, List.mem_append] at hn
  rcases hn with hn | hn
  · exact hpre.2 _ hn name rfl
  have habsent : s₄.nodes name = none :=
    htasks.nodes.absent name (List.countP_pos_iff.2 ⟨_, hn, by simp [Call.looksUpNode]⟩)
  simp only [nodesKeys, Node.entries, List.flatMap_cons, List.mem_append, List.mem_flatMap] at hkey
  rcases hkey with hkey | ⟨entry, hmem, hkey⟩
  · simp at hkey
  split at hkey
  · next hk =>
    have hsec := sectionValue?_of_mem (hsub.nodup (by decide)) hmem hk
    have hnode := sectionStep_effect (fun map => ⟨[], mappingKeys map, [], []⟩) rfl
      (parseNodesMapping_effect o) h₄
    have hreg := (hnode.nodes name).2 (.inr (by simpa [hsec] using hkey))
    rw [habsent] at hreg
    cases hreg
  · cases hkey

/-- **Which nodes are explicit.**  For every stream and every state: `lookupNode(name, false)`
is called only for a key of the `nodes` section; a load that returns `true` never calls
`lookupNode(name, true)` for such a key; and after a load that returns `true` on a
`BuildFile` just constructed, each node of the registry was created by one
`lookupNode(name, isImplicit)` whose flag is set exactly when its name is not a key of the
`nodes` section. -/
theorem load_nodes_explicit (res : Except String (List Yaml.Node)) (s : BuildFileImpl)
    (mainFilename : String) :
    (∀ name, .lookupNode name false ∈ newCalls s (load o res s).2 → name ∈ nodesKeys res) ∧
    ((load o res s).1 = .returns true →
      ∀ name, .lookupNode name true ∈ newCalls s (load o res s).2 → name ∉ nodesKeys res) ∧
    ((load o res (.new mainFilename)).1 = .returns true →
      ∀ name node, (load o res (.new mainFilename)).2.nodes name = some node →
        ∃ isImplicit, (load o res (.new mainFilename)).2.calls[node]? =
            some (.lookupNode name isImplicit) ∧ (isImplicit = true ↔ name ∉ nodesKeys res)) := by
  refine ⟨lookupNode_false_mem_nodesKeys o res s,
    fun h => lookupNode_true_not_mem_nodesKeys o (Prod.ext h rfl), fun h name node hnode => ?_⟩
  obtain ⟨isImplicit, hlog⟩ := ((load_sound o res _).consistent (.new mainFilename)).nodes hnode
  have hmem : .lookupNode name isImplicit ∈ newCalls (.new mainFilename)
      (load o res (.new mainFilename)).2 := by
    simpa [newCalls, BuildFileImpl.new] using List.getElem?_mem hlog
  refine ⟨isImplicit, hlog, ?_⟩
  cases isImplicit
  · simpa using lookupNode_false_mem_nodesKeys o res _ name hmem
  · simpa using lookupNode_true_not_mem_nodesKeys o (Prod.ext h rfl) name hmem

end

/-- **A `tasks` section before `nodes` looks up a key of `nodes` as an implicit node.**  The
`tasks` section runs, creating the node `a` as implicit, before the `nodes` section that
declares `a` is found to be out of order. -/
theorem load_tasks_before_nodes :
    let o : Oracle := ⟨fun _ _ => true, fun _ _ _ _ => true, fun _ _ _ _ => true⟩
    let res : Except String (List Yaml.Node) := .ok [.mapping [(.scalar "client", .mapping []),
      (.scalar "tasks", .mapping [(.scalar "t", .mapping [(.scalar "tool", .scalar "cc"),
        (.scalar "inputs", .sequence [.scalar "a"])])]),
      (.scalar "nodes", .mapping [(.scalar "a", .mapping [])])]]
    "a" ∈ nodesKeys res ∧ (load o res (.new "build.llbuild")).2.calls =
      [.configureClient "" 0 [] true, .lookupTool "cc" true, .createTask 1 "t",
        .lookupNode "a" true, .configureInputs 2 [3], .loadedTask "t" 2,
        .error "build.llbuild" "unexpected trailing top-level section"] := by
  decide

end BuildSystem
end Llbuild
