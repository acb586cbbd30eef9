import Mathlib.Data.List.Nodup
import Llbuild.BuildSystem.Steps
import Llbuild.BuildSystem.Contents
import Llbuild.BuildSystem.Registry

/-!
# The registries are the delegate's log, replayed

`BuildFile::getTools`, `getNodes`, `getTargets` and `getTasks` (`BuildFile.cpp`, lines 636-645
and 667-681) return the four registries of `BuildFileImpl`.  Each registry is written only
right after the call on the delegate that produced what it stores
(`Llbuild.BuildSystem.Steps`), so the calls the delegate has seen determine them: `tools`
maps a name to the tool of the one `lookupTool(name)` that found it, `nodes` a name to the
node of the one `lookupNode(name, _)`, and `targets` and `tasks` a name to the last target
or task passed to `loadedTarget` or `loadedTask` under it (`Reachable.registries_of_log`).  This holds in every state a `BuildFile` can reach, after
loads that failed too: a failed load keeps what it registered before its error, and the log
says what that was.

`LogRegistries s s'` says it of one run, with the registrations read off the run's calls
(`positions`) and stored in order (`storeAll`), and with `Fresh`: the run created each tool
and each node under a name that was absent.  It is `RunProp.Closed`, so every load has it
(`load_logRegistries`), and runs compose (`LogRegistries.trans`).
-/

namespace Llbuild
namespace BuildSystem

namespace Call

/-- The name of the tool a `lookupTool` call found. -/
def createdTool? : Call → Option String
  | lookupTool name true => some name
  | _ => none

/-- The name of the node a `lookupNode` call created. -/
def createdNode? : Call → Option String
  | lookupNode name _ => some name
  | _ => none

theorem createdTool?_eq_some {c : Call} {name : String} :
    c.createdTool? = some name ↔ c = .lookupTool name true := by
  cases c with
  | lookupTool n found => cases found <;> simp [createdTool?, eq_comm]
  | _ => simp [createdTool?]

theorem createdNode?_eq_some {c : Call} {name : String} :
    c.createdNode? = some name ↔ ∃ isImplicit, c = .lookupNode name isImplicit := by
  cases c <;> simp [createdNode?, eq_comm]

theorem Plain.quiet {c : Call} (h : c.Plain) : c.createdTool? = none ∧ c.createdNode? = none ∧
    c.loadedTarget? = none ∧ c.loadedTask? = none := by
  cases c <;> simp_all [Plain, createdTool?, createdNode?, loadedTarget?, loadedTask?]

end Call

/-- The names `f` reads off the calls of a log from position `i` on, each with its
position. -/
def positions (f : Call → Option String) : Nat → List Call → List (String × Handle)
  | _, [] => []
  | i, c :: calls => ((f c).map (·, i)).toList ++ positions f (i + 1) calls

@[simp] theorem positions_singleton (f : Call → Option String) (i : Nat) (c : Call) :
    positions f i [c] = ((f c).map (·, i)).toList := by
  simp [positions]

theorem positions_append (f : Call → Option String) (l₁ l₂ : List Call) :
    ∀ i, positions f i (l₁ ++ l₂) = positions f i l₁ ++ positions f (i + l₁.length) l₂ := by
  induction l₁ with
  | nil => simp [positions]
  | cons c l₁ ih =>
    intro i
    rw [List.cons_append, positions, positions, ih, List.append_assoc, List.length_cons,
      show i + 1 + l₁.length = i + (l₁.length + 1) by omega]

theorem mem_positions {f : Call → Option String} {name : String} {p : Nat} :
    ∀ {i : Nat} {calls : List Call}, (name, p) ∈ positions f i calls ↔
      ∃ j c, p = i + j ∧ calls[j]? = some c ∧ f c = some name
  | _, [] => by simp [positions]
  | i, c :: calls => by
    rw [positions, List.mem_append, mem_positions]
    constructor
    · rintro (h | ⟨j, c', rfl, hj, hc⟩)
      · obtain ⟨hc, rfl⟩ : f c = some name ∧ p = i := by
          cases hf : f c <;> simp_all [eq_comm]
        exact ⟨0, c, rfl, by simp, hc⟩
      · exact ⟨j + 1, c', by omega, by simpa using hj, hc⟩
    · rintro ⟨_ | j, c', rfl, hj, hc⟩
      · obtain rfl : c = c' := by simpa using hj
        exact .inl (by simp [hc])
      · exact .inr ⟨j, c', by omega, by simpa using hj, hc⟩

/-- Registrations `pairs` into `reg` of names that are distinct and absent from `reg`. -/
def Fresh (reg : String → Option Handle) (pairs : List (String × Handle)) : Prop :=
  (pairs.map Prod.fst).Nodup ∧ ∀ pair ∈ pairs, reg pair.1 = none

theorem Fresh.nil (reg : String → Option Handle) : Fresh reg [] := ⟨.nil, nofun⟩

theorem Fresh.singleton {reg : String → Option Handle} {name : String} (h : reg name = none)
    (a : Handle) : Fresh reg [(name, a)] := by
  simpa [Fresh] using h

theorem storeAll_eq_none {α : Type} {pairs : List (String × α)} {reg : String → Option α}
    {name : String} :
    storeAll pairs reg name = none ↔ (∀ pair ∈ pairs, ¬name = pair.1) ∧ reg name = none := by
  simp [storeAll]

/-- A name that `storeAll` binds in a registry that lacks it is the name of one of its
pairs. -/
theorem mem_of_storeAll_eq_some {α : Type} {pairs : List (String × α)} {reg : String → Option α}
    {name : String} {a : α} (h : storeAll pairs reg name = some a) (hreg : reg name = none) :
    (name, a) ∈ pairs := by
  obtain ⟨l₁, l₂, hl, -⟩ := List.lookup_eq_some_iff.1
    (show pairs.reverse.lookup name = some a by simpa [storeAll, hreg] using h)
  rw [← List.mem_reverse, hl]
  simp

/-- Registrations that are fresh, then registrations fresh after them, are fresh. -/
theorem Fresh.append {reg : String → Option Handle} {l₁ l₂ : List (String × Handle)}
    (h₁ : Fresh reg l₁) (h₂ : Fresh (storeAll l₁ reg) l₂) : Fresh reg (l₁ ++ l₂) := by
  have habsent : ∀ pair ∈ l₂, (∀ pair' ∈ l₁, ¬pair.1 = pair'.1) ∧ reg pair.1 = none :=
    fun pair hp => storeAll_eq_none.1 (h₂.2 pair hp)
  refine ⟨?_, fun pair hp => (List.mem_append.1 hp).elim (h₁.2 pair) fun hp => (habsent pair hp).2⟩
  rw [List.map_append, List.nodup_append]
  refine ⟨h₁.1, h₂.1, ?_⟩
  intro name hname₁ hname₂
  obtain ⟨pair', hp', rfl⟩ := List.mem_map.1 hname₁
  obtain ⟨pair, hp, heq⟩ := List.mem_map.1 hname₂
  exact (habsent pair hp).1 pair' hp' heq

theorem lookup_eq_some_iff_of_nodup {α : Type} :
    ∀ {l : List (String × α)}, (l.map Prod.fst).Nodup →
      ∀ {name : String} {a : α}, l.lookup name = some a ↔ (name, a) ∈ l
  | [], _, _, _ => by simp
  | (k, v) :: l, h, name, a => by
    rw [List.map_cons, List.nodup_cons] at h
    by_cases hk : name = k
    · subst hk
      have hnot : (name, a) ∉ l := fun hm => h.1 (List.mem_map.2 ⟨_, hm, rfl⟩)
      simp [List.lookup_cons, hnot, eq_comm]
    · have hne : (name == k) = false := by simpa using hk
      simp [List.lookup_cons, hne, hk, lookup_eq_some_iff_of_nodup h.2]

/-- Fresh registrations into an empty registry: a name is bound to `a` exactly when it was
registered with `a`. -/
theorem storeAll_eq_some_of_fresh {pairs : List (String × Handle)} (h : Fresh (fun _ => none) pairs)
    (name : String) (a : Handle) :
    storeAll pairs (fun _ => none) name = some a ↔ (name, a) ∈ pairs := by
  have hnd : (pairs.reverse.map Prod.fst).Nodup := by
    simpa [List.map_reverse] using h.1
  simp [storeAll, lookup_eq_some_iff_of_nodup hnd]

/-- The run from a `BuildFile` just constructed made every call of the log. -/
@[simp] theorem newCalls_new (mainFilename : String) (s : BuildFileImpl) :
    newCalls (.new mainFilename) s = s.calls := by
  simp [newCalls, BuildFileImpl.new]

/-- **What a run does to the registries, read off its calls.**  From `s` to `s'`: the names
the run found a tool for and created a node for, each with the position of that call, are
fresh, and are stored into `tools` and `nodes`; the targets and tasks passed to
`loadedTarget` and `loadedTask` are stored into `targets` and `tasks`, the last of a name
winning. -/
structure LogRegistries (s s' : BuildFileImpl) : Prop where
  grows : Grows s s'
  freshTools : Fresh s.tools (positions Call.createdTool? s.calls.length (newCalls s s'))
  freshNodes : Fresh s.nodes (positions Call.createdNode? s.calls.length (newCalls s s'))
  tools : s'.tools = storeAll (positions Call.createdTool? s.calls.length (newCalls s s')) s.tools
  nodes : s'.nodes = storeAll (positions Call.createdNode? s.calls.length (newCalls s s')) s.nodes
  targets : s'.targets = storeAll ((newCalls s s').filterMap Call.loadedTarget?) s.targets
  tasks : s'.tasks = storeAll ((newCalls s s').filterMap Call.loadedTask?) s.tasks

namespace LogRegistries

variable {s s₁ s₂ s₃ : BuildFileImpl}

theorem refl (s : BuildFileImpl) : LogRegistries s s where
  grows := .refl s
  freshTools := by simpa [positions] using Fresh.nil _
  freshNodes := by simpa [positions] using Fresh.nil _
  tools := by simp [positions]
  nodes := by simp [positions]
  targets := by simp
  tasks := by simp

theorem trans (h₁ : LogRegistries s₁ s₂) (h₂ : LogRegistries s₂ s₃) : LogRegistries s₁ s₃ := by
  have hlen : s₁.calls.length + (newCalls s₁ s₂).length = s₂.calls.length := by
    rw [h₁.grows.calls, List.length_append]
  have hnew := h₁.grows.newCalls_trans h₂.grows
  refine ⟨h₁.grows.trans h₂.grows, ?_, ?_, ?_, ?_, ?_, ?_⟩
  · rw [hnew, positions_append, hlen]
    exact h₁.freshTools.append (h₁.tools ▸ h₂.freshTools)
  · rw [hnew, positions_append, hlen]
    exact h₁.freshNodes.append (h₁.nodes ▸ h₂.freshNodes)
  · rw [h₂.tools, h₁.tools, hnew, positions_append, storeAll_append, hlen]
  · rw [h₂.nodes, h₁.nodes, hnew, positions_append, storeAll_append, hlen]
  · rw [h₂.targets, h₁.targets, hnew, List.filterMap_append, storeAll_append]
  · rw [h₂.tasks, h₁.tasks, hnew, List.filterMap_append, storeAll_append]

/-- A call that registers nothing. -/
theorem call {c : Call} (hc : c.createdTool? = none ∧ c.createdNode? = none ∧
    c.loadedTarget? = none ∧ c.loadedTask? = none) (s : BuildFileImpl) :
    LogRegistries s (s.call c) where
  grows := .call s c
  freshTools := by simpa [hc.1] using Fresh.nil _
  freshNodes := by simpa [hc.2.1] using Fresh.nil _
  tools := by funext name; simp [hc.1]
  nodes := by funext name; simp [hc.2.1]
  targets := by funext name; simp [hc.2.2.1]
  tasks := by funext name; simp [hc.2.2.2]

end LogRegistries

/-- **The registries follow the log on every step of the parser.** -/
theorem logRegistries_closed : RunProp.Closed fun s _ s' => LogRegistries s s' where
  chains := ⟨LogRegistries.refl, fun h₁ h₂ => h₁.trans h₂⟩
  grows h := h.grows
  error s message := LogRegistries.call (c := .error s.mainFilename message) ⟨rfl, rfl, rfl, rfl⟩ s
  call _ hc _ := .call hc.quiet _
  lookupToolFails {s name} message _ :=
    (LogRegistries.call (c := .lookupTool name false) ⟨rfl, rfl, rfl, rfl⟩ s).trans
      (.call (c := .error s.mainFilename message) ⟨rfl, rfl, rfl, rfl⟩ _)
  registerTool {s name} hs := {
    grows := (sound_registerTool hs).grows
    freshTools := by simpa [Call.createdTool?] using Fresh.singleton hs s.calls.length
    freshNodes := by simpa [Call.createdNode?] using Fresh.nil _
    tools := by funext n; simp [Call.createdTool?, storeAll_singleton, Function.update_apply]
    nodes := by funext n; simp [Call.createdNode?]
    targets := by funext n; simp [Call.loadedTarget?]
    tasks := by funext n; simp [Call.loadedTask?] }
  registerNode {s name} isImplicit hs := {
    grows := (sound_registerNode isImplicit hs).grows
    freshTools := by simpa [Call.createdTool?] using Fresh.nil _
    freshNodes := by simpa [Call.createdNode?] using Fresh.singleton hs s.calls.length
    tools := by funext n; simp [Call.createdTool?]
    nodes := by funext n; simp [Call.createdNode?, storeAll_singleton, Function.update_apply]
    targets := by funext n; simp [Call.loadedTarget?]
    tasks := by funext n; simp [Call.loadedTask?] }
  registerTarget s name target := {
    grows := (Grows.call s _).setTarget name target
    freshTools := by simpa [Call.createdTool?] using Fresh.nil _
    freshNodes := by simpa [Call.createdNode?] using Fresh.nil _
    tools := by funext n; simp [Call.createdTool?]
    nodes := by funext n; simp [Call.createdNode?]
    targets := by funext n; simp [Call.loadedTarget?, storeAll_singleton, Function.update_apply]
    tasks := by funext n; simp [Call.loadedTask?] }
  registerTask {s name task _} _ := {
    grows := (Grows.call s _).setTask name task
    freshTools := by simpa [Call.createdTool?] using Fresh.nil _
    freshNodes := by simpa [Call.createdNode?] using Fresh.nil _
    tools := by funext n; simp [Call.createdTool?]
    nodes := by funext n; simp [Call.createdNode?]
    targets := by funext n; simp [Call.loadedTarget?]
    tasks := by funext n; simp [Call.loadedTask?, storeAll_singleton, Function.update_apply] }

section
variable (o : Oracle)

/-- Every load, whatever it returns, changes the registries as its calls say. -/
theorem load_logRegistries (res : Except String (List Yaml.Node)) (s : BuildFileImpl) :
    LogRegistries s (load o res s).2 := by
  rcases load_closed logRegistries_closed o res s with ⟨-, h⟩ | h
  · rw [h]
    exact .refl s
  · exact h

theorem Reachable.logRegistries {s : BuildFileImpl} (h : Reachable o s) :
    ∃ mainFilename, LogRegistries (.new mainFilename) s := by
  induction h with
  | new mainFilename => exact ⟨mainFilename, .refl _⟩
  | load res _ ih =>
    obtain ⟨mainFilename, ih⟩ := ih
    exact ⟨mainFilename, ih.trans (load_logRegistries o res _)⟩

/-- **The registries are the delegate's log, replayed.**  In every state a `BuildFile` can
reach, constructed and then loaded any number of times, each load successful or not and
whatever the delegate answered: `tools` binds a name to `tool` exactly when the call at
position `tool` of the log is a `lookupTool(name)` that found it, and `nodes` binds it to
`node` exactly when the call at `node` is a `lookupNode(name, _)`, so over all the loads
each name is created at most once; `targets` and `tasks` bind a name to the last target and
the last task passed under it to `loadedTarget` and `loadedTask`. -/
theorem Reachable.registries_of_log {s : BuildFileImpl} (h : Reachable o s) :
    (∀ name tool, s.tools name = some tool ↔ s.calls[tool]? = some (.lookupTool name true)) ∧
    (∀ name node, s.nodes name = some node ↔
      ∃ isImplicit, s.calls[node]? = some (.lookupNode name isImplicit)) ∧
    (∀ name, s.targets name = (s.calls.filterMap Call.loadedTarget?).reverse.lookup name) ∧
    (∀ name, s.tasks name = (s.calls.filterMap Call.loadedTask?).reverse.lookup name) := by
  obtain ⟨mainFilename, hlog⟩ := Reachable.logRegistries o h
  have htools := hlog.tools
  have hnodes := hlog.nodes
  have hfreshTools := hlog.freshTools
  have hfreshNodes := hlog.freshNodes
  simp only [newCalls_new] at htools hnodes hfreshTools hfreshNodes
  simp only [BuildFileImpl.new, List.length_nil] at htools hnodes hfreshTools hfreshNodes
  refine ⟨fun name tool => ?_, fun name node => ?_, fun name => ?_, fun name => ?_⟩
  · rw [htools, storeAll_eq_some_of_fresh hfreshTools, mem_positions]
    simp [Call.createdTool?_eq_some]
  · rw [hnodes, storeAll_eq_some_of_fresh hfreshNodes, mem_positions]
    simp only [Call.createdNode?_eq_some, Nat.zero_add]
    constructor
    · rintro ⟨_, _, rfl, hc, isImplicit, rfl⟩
      exact ⟨isImplicit, hc⟩
    · rintro ⟨isImplicit, hc⟩
      exact ⟨node, _, rfl, hc, isImplicit, rfl⟩
  · rw [hlog.targets, newCalls_new]
    simp [storeAll, BuildFileImpl.new]
  · rw [hlog.tasks, newCalls_new]
    simp [storeAll, BuildFileImpl.new]

end

theorem registries_of_log_tool_then_tasks :
    Reachable Oracle.acceptAll
        (load .acceptAll twoTasksFile (load .acceptAll toolFile (.new "build.llbuild")).2).2 ∧
      let s := (load .acceptAll twoTasksFile (load .acceptAll toolFile (.new "build.llbuild")).2).2
      (∀ name tool, s.tools name = some tool ↔ s.calls[tool]? = some (.lookupTool name true)) ∧
      (∀ name node, s.nodes name = some node ↔
        ∃ isImplicit, s.calls[node]? = some (.lookupNode name isImplicit)) ∧
      (∀ name, s.targets name = (s.calls.filterMap Call.loadedTarget?).reverse.lookup name) ∧
      (∀ name, s.tasks name = (s.calls.filterMap Call.loadedTask?).reverse.lookup name) :=
  have h : Reachable Oracle.acceptAll
      (load .acceptAll twoTasksFile (load .acceptAll toolFile (.new "build.llbuild")).2).2 :=
    .load _ (.load _ (.new _))
  ⟨h, Reachable.registries_of_log _ h⟩

end BuildSystem
end Llbuild
