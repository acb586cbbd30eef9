import Llbuild.BuildSystem.Steps
import Llbuild.BuildSystem.Contents
import Llbuild.BuildSystem.Registry

/-!
# No entity is used before the call that made it

The parser gets a tool, a node or a task only from the call that returned it:
`delegate.lookupTool`, `delegate.lookupNode` (`BuildFile.cpp`, lines 126-157) and
`tool->createTask` (line 489).  So every call on one (`configureAttribute` on a tool, a node
or a task, `createTask` on a tool, `configureInputs` and `configureOutputs` on a task with
its nodes) and every `delegate.loadedTask(name, task)` comes after that call in the log,
also when the entity was made by an earlier load.

`Causal` says this of the calls of a run from a `Consistent` state, where a registered name
leads to the call that created its entity.  It is `RunProp.Closed`, so every load has it, and
every state a `BuildFile` can reach has it for its whole log
(`Reachable.calls_after_creation`).
-/

namespace Llbuild
namespace BuildSystem

/-- The call that made the entity is at a position of `calls` before `q`. -/
def Entity.CreatedBefore (calls : List Call) (q : Nat) : Entity → Prop
  | .tool t => t < q ∧ ∃ name, calls[t]? = some (.lookupTool name true)
  | .node n => n < q ∧ ∃ name isImplicit, calls[n]? = some (.lookupNode name isImplicit)
  | .task t => t < q ∧ ∃ tool name, calls[t]? = some (.createTask tool name)

/-- The call `c`, at position `q` of `calls`, comes after the calls that made the entities it
is made on or passes, and a `loadedTask(name, task)` after the `createTask` of `task` for
`name`. -/
def Call.AfterCreation (calls : List Call) (q : Nat) (c : Call) : Prop :=
  (∀ entity ∈ c.entities, entity.CreatedBefore calls q) ∧
    ∀ name task, c = .loadedTask name task →
      task < q ∧ ∃ tool, calls[task]? = some (.createTask tool name)

theorem Entity.CreatedBefore.append {calls : List Call} {q : Nat} {entity : Entity}
    (h : entity.CreatedBefore calls q) (more : List Call) :
    entity.CreatedBefore (calls ++ more) q := by
  cases entity with
  | tool _ => exact ⟨h.1, h.2.imp fun _ => getElem?_append_of_eq_some⟩
  | node _ => exact ⟨h.1, h.2.imp fun _ => Exists.imp fun _ => getElem?_append_of_eq_some⟩
  | task _ => exact ⟨h.1, h.2.imp fun _ => Exists.imp fun _ => getElem?_append_of_eq_some⟩

theorem Call.AfterCreation.append {calls : List Call} {q : Nat} {c : Call}
    (h : c.AfterCreation calls q) (more : List Call) : c.AfterCreation (calls ++ more) q :=
  ⟨fun e he => (h.1 e he).append more, fun name task hc =>
    (h.2 name task hc).imp_right (Exists.imp fun _ => getElem?_append_of_eq_some)⟩

/-- In a `Consistent` state, an entity that is there was made by a call of the log. -/
theorem Entity.Live.createdBefore {s : BuildFileImpl} (hs : Consistent s) {entity : Entity}
    (he : entity.Live s) : entity.CreatedBefore s.calls s.calls.length := by
  cases entity with
  | tool _ =>
    obtain ⟨name, hname⟩ := he
    have hlog := hs.tools hname
    exact ⟨(List.getElem?_eq_some_iff.1 hlog).1, name, hlog⟩
  | node _ =>
    obtain ⟨name, hname⟩ := he
    obtain ⟨isImplicit, hlog⟩ := hs.nodes hname
    exact ⟨(List.getElem?_eq_some_iff.1 hlog).1, name, isImplicit, hlog⟩
  | task _ =>
    obtain ⟨tool, name, hlog⟩ := he
    exact ⟨(List.getElem?_eq_some_iff.1 hlog).1, tool, name, hlog⟩

/-- A run is `Sound`, and from a `Consistent` state its calls come after what they use. -/
def Causal : RunProp := fun s ok s' =>
  Sound s ok s' ∧ (Consistent s → ∀ q c, s.calls.length ≤ q → s'.calls[q]? = some c →
    c.AfterCreation s'.calls q)

/-- A call at or after the start of a run is one of its calls. -/
theorem mem_newCalls {s s' : BuildFileImpl} (h : Grows s s') {q : Nat} {c : Call}
    (hq : s.calls.length ≤ q) (hc : s'.calls[q]? = some c) : c ∈ newCalls s s' := by
  rw [h.calls, List.getElem?_append_right hq] at hc
  exact List.getElem?_mem hc

/-- A sound run whose calls use no entity and load no task. -/
theorem causal_of_inert {s s' : BuildFileImpl} {ok : Bool} (hs : Sound s ok s')
    (hinert : ∀ c ∈ newCalls s s', c.entities = [] ∧ ∀ name task, c ≠ .loadedTask name task) :
    Causal s ok s' := by
  refine ⟨hs, fun _ q c hq hc => ?_⟩
  obtain ⟨hent, hload⟩ := hinert c (mem_newCalls hs.grows hq hc)
  exact ⟨by simp [hent], fun name task h => absurd h (hload name task)⟩

/-- A sound run of one call that comes after what it uses. -/
theorem causal_of_call {s s' : BuildFileImpl} {ok : Bool} {c : Call} (hs : Sound s ok s')
    (hcalls : s'.calls = s.calls ++ [c])
    (hc : Consistent s → c.AfterCreation (s.calls ++ [c]) s.calls.length) : Causal s ok s' := by
  refine ⟨hs, fun hcons q c' hq hget => ?_⟩
  have hnew : c' ∈ newCalls s s' := mem_newCalls hs.grows hq hget
  rw [newCalls_of_calls hcalls, List.mem_singleton] at hnew
  subst hnew
  have hq' : q = s.calls.length := by
    have := (List.getElem?_eq_some_iff.1 hget).1
    rw [hcalls, List.length_append, List.length_singleton] at this
    omega
  rw [hq', hcalls]
  exact hc hcons

theorem Causal.trans {s₁ s₂ s₃ : BuildFileImpl} {ok : Bool} (h₁ : Causal s₁ true s₂)
    (h₂ : Causal s₂ ok s₃) : Causal s₁ ok s₃ := by
  refine ⟨sound_chains.trans h₁.1 h₂.1, fun hcons q c hq hget => ?_⟩
  by_cases hq₂ : q < s₂.calls.length
  · have hget₂ : s₂.calls[q]? = some c := by
      rwa [h₂.1.grows.calls, List.getElem?_append_left hq₂] at hget
    rw [h₂.1.grows.calls]
    exact (h₁.2 hcons q c hq hget₂).append _
  · exact h₂.2 (h₁.1.consistent hcons) q c (by omega) hget

/-- **Every step of the parser comes after what it uses.** -/
theorem causal_closed : RunProp.Closed Causal where
  chains := ⟨fun s => causal_of_inert (sound_chains.refl s) (by simp), Causal.trans⟩
  grows h := h.1.grows
  error s message :=
    causal_of_inert (sound_error s message) (by simp [BuildFileImpl.error, Call.entities])
  call ok hplain hlive := by
    refine causal_of_call (sound_closed.call ok hplain hlive) rfl fun hcons => ?_
    refine ⟨fun e he => (Entity.Live.createdBefore hcons (hlive e he)).append _, ?_⟩
    rintro name task rfl
    exact hplain.elim
  lookupToolFails {s name} message hs :=
    causal_of_inert (sound_lookupToolFails hs message) (by
      simp [newCalls, BuildFileImpl.error, Call.entities])
  registerTool hs := causal_of_inert (sound_registerTool hs) (by simp [newCalls, Call.entities])
  registerNode isImplicit hs :=
    causal_of_inert (sound_registerNode isImplicit hs) (by simp [newCalls, Call.entities])
  registerTarget s name target :=
    causal_of_inert (sound_loadedTarget s name target) (by simp [newCalls, Call.entities])
  registerTask {s name task tool} h := by
    refine causal_of_call (sound_closed.registerTask h) rfl fun _ => ⟨nofun, ?_⟩
    rintro _ _ ⟨⟩
    exact ⟨(List.getElem?_eq_some_iff.1 h).1, tool, getElem?_append_of_eq_some h⟩

section
variable (o : Oracle)

/-- One load, from a `Consistent` state whose every call comes after what it uses, leads to
such a state again. -/
theorem load_after_creation (res : Except String (List Yaml.Node)) {s : BuildFileImpl}
    (hs : Consistent s)
    (hlog : ∀ (q : Nat) (c : Call), s.calls[q]? = some c → c.AfterCreation s.calls q) :
    Consistent (load o res s).2 ∧ ∀ (q : Nat) (c : Call),
      (load o res s).2.calls[q]? = some c → c.AfterCreation (load o res s).2.calls q := by
  rcases load_closed causal_closed o res s with ⟨-, hsame⟩ | hrun
  · rw [hsame]
    exact ⟨hs, hlog⟩
  · refine ⟨hrun.1.consistent hs, fun q c hget => ?_⟩
    by_cases hq : q < s.calls.length
    · have hold : s.calls[q]? = some c := by
        rwa [hrun.1.grows.calls, List.getElem?_append_left hq] at hget
      rw [hrun.1.grows.calls]
      exact (hlog q c hold).append _
    · exact hrun.2 hs q c (by omega) hget

/-- **No call uses an entity before the call that made it.**  In every state a `BuildFile`
can reach, constructed and then loaded any number of times, each load successful or not and
whatever the delegate answered, each call of the log is made on tools, nodes and tasks that
earlier calls of the log made: each tool by a `lookupTool` that found it, each node by a
`lookupNode`, each task by a `createTask`; and `loadedTask(name, task)` comes after the
`createTask` that made `task` for `name`. -/
theorem Reachable.calls_after_creation {s : BuildFileImpl} (h : Reachable o s) :
    ∀ (q : Nat) (c : Call), s.calls[q]? = some c →
      (∀ entity ∈ c.entities, entity.CreatedBefore s.calls q) ∧
      ∀ name task, c = .loadedTask name task →
        task < q ∧ ∃ tool, s.calls[task]? = some (.createTask tool name) := by
  suffices Consistent s ∧ ∀ (q : Nat) (c : Call), s.calls[q]? = some c →
      c.AfterCreation s.calls q from this.2
  induction h with
  | new mainFilename => exact ⟨.new mainFilename, by simp [BuildFileImpl.new]⟩
  | load res _ ih => exact load_after_creation o res ih.1 ih.2

end

theorem calls_after_creation_tool_then_tasks :
    Reachable Oracle.acceptAll
        (load .acceptAll twoTasksFile (load .acceptAll toolFile (.new "build.llbuild")).2).2 ∧
      let s := (load .acceptAll twoTasksFile (load .acceptAll toolFile (.new "build.llbuild")).2).2
      ∀ (q : Nat) (c : Call), s.calls[q]? = some c →
        (∀ entity ∈ c.entities, entity.CreatedBefore s.calls q) ∧
        ∀ name task, c = .loadedTask name task →
          task < q ∧ ∃ tool, s.calls[task]? = some (.createTask tool name) :=
  have h : Reachable Oracle.acceptAll
      (load .acceptAll twoTasksFile (load .acceptAll toolFile (.new "build.llbuild")).2).2 :=
    .load _ (.load _ (.new _))
  ⟨h, Reachable.calls_after_creation _ h⟩

end BuildSystem
end Llbuild
