import Llbuild.BuildSystem.Accept
import Llbuild.BuildSystem.Tasks
import Llbuild.BuildSystem.Replay

/-!
# A task is registered only once it is fully configured

`parseTasksMapping` creates a task with `tool->createTask(name)` (`BuildFile.cpp`, line 489),
passes it its remaining pairs, and returns `false` at the first `configureAttribute` the task
refuses (lines 563-569).  Only past the last pair does it call `delegate.loadedTask` and
store the task in `tasks` (lines 573-577).  The task itself is never handed out anywhere
else, so no later entry and no later load makes a call on it.  Hence
`Reachable.registered_tasks_accepted`: in every state a `BuildFile` can reach, every call
the log holds on a task of `getTasks` was accepted.

Tools and nodes are registered by their lookup, before their attributes are parsed
(lines 126-157), and a tool whose attribute is refused (lines 335-340) stays in `tools`: the
example after the theorem runs one.

The run property `TasksConfigured` says what a run does to tasks.  Apart from the task
parser it holds because the other parsers make no call on a task (`Call.untasked`); for one
task it follows from the calls its pairs can make (`parseTaskAttribute_calls`) and from
`Decides`, which says the pairs' loop returned `true` only if each of its calls was
accepted.  `load_runs` lifts it to every load.
-/

namespace Llbuild
namespace BuildSystem

open Yaml

namespace Call

/-- A call on no task: neither a call on a task nor `delegate.loadedTask`. -/
def untasked : Call → Bool
  | configureInputs .. | configureOutputs .. | configureAttribute (.task _) .. | loadedTask .. =>
    false
  | _ => true

theorem onTask_eq_false_of_untasked {c : Call} (hc : c.untasked = true) (task : Handle) :
    c.onTask task = false := by
  cases c <;> try cases ‹Entity›
  all_goals first | rfl | cases hc

theorem ne_loadedTask_of_untasked {c : Call} (hc : c.untasked = true) (name : String)
    (task : Handle) : c ≠ .loadedTask name task := by
  rintro rfl
  cases hc

theorem loadedTask?_eq_some {c : Call} {name : String} {task : Handle} :
    c.loadedTask? = some (name, task) ↔ c = .loadedTask name task := by
  cases c <;> simp [loadedTask?]

/-- The client's block and the `tools`, `targets` and `nodes` sections make no call on a
task. -/
theorem untasked_of_not_tasks {c : Call}
    (h : ClientCall c ∨ ToolsCall c ∨ TargetsCall c ∨ ∃ names, NodesCall names c) :
    c.untasked = true := by
  cases c <;> try cases ‹Entity›
  all_goals first | rfl | (rcases h with h | h | h | ⟨_, h⟩ <;> cases h)

/-- The calls the pairs of the task `task` make, or an error. -/
def PairCall (task : Handle) (c : Call) : Prop := TaskAttributeCall task c ∨ c.isError = true

theorem PairCall.onTask {task t : Handle} {c : Call} (hc : PairCall task c)
    (ht : c.onTask t = true) : t = task := by
  rcases hc with (hc | ⟨name, rfl⟩) | hc
  · cases c <;> try cases ‹Entity›
    all_goals simp_all [Call.onTask]
  · cases ht
  · cases c <;> cases hc
    all_goals cases ht

theorem PairCall.ne_loadedTask {task : Handle} {c : Call} (hc : PairCall task c) (name : String)
    (t : Handle) : c ≠ .loadedTask name t := by
  rintro rfl
  rcases hc with (hc | ⟨_, hc⟩) | hc <;> cases hc

end Call

/-- **What a run does to tasks.**  Each call it makes on a task is on one whose handle, its
position in the log, is a position of the run: a task the run created.  Each task it loads
is one it created, and every call of the run on that task was accepted. -/
structure TasksConfigured (s s' : BuildFileImpl) : Prop where
  grows : Grows s s'
  onTask : ∀ c ∈ newCalls s s', ∀ task : Nat, c.onTask task = true →
    s.calls.length ≤ task ∧ task < s'.calls.length
  loaded : ∀ name (task : Nat), .loadedTask name task ∈ newCalls s s' →
    (s.calls.length ≤ task ∧ task < s'.calls.length) ∧
      ∀ c ∈ newCalls s s', c.onTask task = true → c.accepted = true

namespace TasksConfigured

variable {s s' s₁ s₂ s₃ : BuildFileImpl}

theorem refl (s : BuildFileImpl) : TasksConfigured s s :=
  ⟨.refl s, by simp, by simp⟩

/-- The tasks of the second run were created after the first ended, so neither run makes a
call on a task the other loads. -/
theorem trans (h₁ : TasksConfigured s₁ s₂) (h₂ : TasksConfigured s₂ s₃) :
    TasksConfigured s₁ s₃ := by
  have hlen₁ : s₁.calls.length ≤ s₂.calls.length := by simp [h₁.grows.calls]
  have hlen₂ : s₂.calls.length ≤ s₃.calls.length := by simp [h₂.grows.calls]
  have hnew := h₁.grows.newCalls_trans h₂.grows
  refine ⟨h₁.grows.trans h₂.grows, fun c hc task ht => ?_, fun name task hl => ?_⟩
  · rw [hnew, List.mem_append] at hc
    rcases hc with hc | hc
    · obtain ⟨hlo, hhi⟩ := h₁.onTask c hc task ht
      exact ⟨hlo, by omega⟩
    · obtain ⟨hlo, hhi⟩ := h₂.onTask c hc task ht
      exact ⟨by omega, hhi⟩
  rw [hnew, List.mem_append] at hl
  simp only [hnew, List.mem_append]
  rcases hl with hl | hl
  · obtain ⟨⟨hlo, hhi⟩, hacc⟩ := h₁.loaded name task hl
    refine ⟨⟨hlo, by omega⟩, fun c hc ht => hc.elim (hacc c · ht) fun hc => ?_⟩
    have := (h₂.onTask c hc task ht).1
    omega
  · obtain ⟨⟨hlo, hhi⟩, hacc⟩ := h₂.loaded name task hl
    refine ⟨⟨by omega, hhi⟩, fun c hc ht => hc.elim (fun hc => ?_) (hacc c · ht)⟩
    have := (h₁.onTask c hc task ht).2
    omega

theorem chains : RunProp.Chains fun s _ s' => TasksConfigured s s' :=
  ⟨refl, fun h₁ h₂ => h₁.trans h₂⟩

/-- A run that makes no call on a task. -/
theorem of_untasked {ok : Bool} (h : CallsIn (fun c => c.untasked = true) s ok s') :
    TasksConfigured s s' :=
  ⟨h.1, fun c hc task ht => by simp [Call.onTask_eq_false_of_untasked (h.2 c hc)] at ht,
    fun name task hl => absurd rfl (Call.ne_loadedTask_of_untasked (h.2 _ hl) name task)⟩

theorem error (s : BuildFileImpl) (message : String) : TasksConfigured s (s.error message) :=
  of_untasked (CallsIn.error (Q := fun c => c.untasked = true) (fun _ _ => rfl) s message false)

/-- `delegate.loadedTask(name, task)` and `tasks[name] = task`, for a task the run created and
whose every call in the run was accepted. -/
theorem setTask_loaded (h : TasksConfigured s s') {name : String} {task : Nat}
    (hrange : s.calls.length ≤ task ∧ task < s'.calls.length)
    (hacc : ∀ c ∈ newCalls s s', c.onTask task = true → c.accepted = true) :
    TasksConfigured s ((s'.call (.loadedTask name task)).setTask name task) := by
  have hnew : newCalls s ((s'.call (.loadedTask name task)).setTask name task) =
      newCalls s s' ++ [.loadedTask name task] := by
    rw [newCalls_setTask, h.grows.newCalls_trans (Grows.call _ _), newCalls_call]
  have hlen : ((s'.call (.loadedTask name task)).setTask name task).calls.length =
      s'.calls.length + 1 := by simp
  refine ⟨(h.grows.trans (Grows.call _ _)).setTask _ _, ?_, fun name' t hl => ?_⟩ <;>
    simp only [hnew, hlen, List.mem_append, List.mem_singleton] at *
  · rintro c (hc | rfl) t ht
    · have := h.onTask c hc t ht
      omega
    · cases ht
  obtain ⟨hrange', hacc'⟩ : (s.calls.length ≤ t ∧ t < s'.calls.length) ∧
      ∀ c ∈ newCalls s s', c.onTask t = true → c.accepted = true := by
    rcases hl with hl | hl
    · exact h.loaded name' t hl
    · obtain ⟨-, rfl⟩ := Call.loadedTask.inj hl
      exact ⟨hrange, hacc⟩
  refine ⟨by omega, ?_⟩
  rintro c (hc | rfl) ht
  · exact hacc' c hc ht
  · cases ht

end TasksConfigured

section
variable (o : Oracle)

/-- **One task.**  Its calls are `createTask`, the calls of its pairs, all on the task
`createTask` returned, and `loadedTask` for that task only when the pairs' loop returned
`true`, that is when each of their calls was accepted. -/
theorem createTask_tasksConfigured (name : String) (tool : Handle)
    (attrs : List (Yaml.Node × Yaml.Node)) (s : BuildFileImpl) :
    TasksConfigured s (createTask o name tool attrs s).2 := by
  have hloop := forEach_runs (CallsIn.chains (Call.PairCall s.calls.length)) (fun _ => True)
    (fun _ _ => trivial) (fun pair (_ : pair ∈ attrs) s' _ =>
      parseTaskAttribute_calls _ (fun name => .inl (.inr ⟨name, rfl⟩)) (fun _ _ => .inr rfl) o
        s.calls.length (fun _ => .inl (.inl (by simp [Call.onTask])))
        (fun _ => .inl (.inl (by simp [Call.onTask])))
        (fun _ _ _ _ _ => .inl (.inl (by simp [Call.onTask]))) pair s')
    (s.call (.createTask tool name)) trivial
  have hdec := (Decides.forEach fun pair (_ : pair ∈ attrs) =>
    parseTaskAttribute_decides o s.calls.length pair).result (s.call (.createTask tool name))
  unfold createTask
  rcases hr : forEach (parseTaskAttribute o s.calls.length) attrs (s.call (.createTask tool name))
    with ⟨ok, s₂⟩
  rw [hr] at hloop hdec
  obtain ⟨hg, hpair⟩ := hloop
  have hgrows : Grows s s₂ := (Grows.call s _).trans hg
  have hnew : newCalls s s₂ =
      .createTask tool name :: newCalls (s.call (.createTask tool name)) s₂ := by
    rw [(Grows.call s _).newCalls_trans hg, newCalls_call]
    rfl
  have hlt : s.calls.length < s₂.calls.length := by
    have := congrArg List.length hgrows.calls
    simp only [hnew, List.length_append, List.length_cons] at this
    omega
  have hcreated : TasksConfigured s s₂ := by
    refine ⟨hgrows, fun c hc task ht => ?_, fun name' task hl => ?_⟩
    · rw [hnew] at hc
      rcases hc with _ | ⟨_, hc⟩
      · cases ht
      · have : task = s.calls.length := (hpair c hc).onTask ht
        omega
    · rw [hnew] at hl
      rcases hl with _ | ⟨_, hl⟩
      exact absurd rfl ((hpair _ hl).ne_loadedTask name' task)
  cases ok with
  | false => exact hcreated
  | true =>
    refine hcreated.setTask_loaded ⟨le_refl _, hlt⟩ fun c hc ht => ?_
    rw [hnew] at hc
    rcases hc with _ | ⟨_, hc⟩
    · cases ht
    · exact List.all_eq_true.1 (Bool.and_eq_true_iff.1 hdec.symm).2 c hc

theorem parseTasksEntry_tasksConfigured (entry : Yaml.Node × Yaml.Node) (s : BuildFileImpl) :
    TasksConfigured s (parseTasksEntry o entry s).2 := by
  unfold parseTasksEntry
  split
  · exact .error _ _
  · split
    · exact .error _ _
    · split
      · exact bindSome_runs (P := fun s _ s' => TasksConfigured s s') TasksConfigured.chains
          (.of_untasked (getOrCreateTool_calls o (fun c => c.untasked = true) _ (fun _ => rfl)
            (fun _ _ => rfl) s))
          fun tool _ => createTask_tasksConfigured o _ tool _ _
      · exact .error _ _
  · exact .error _ _
  · exact .error _ _

theorem parseTasksMapping_tasksConfigured (map : List (Yaml.Node × Yaml.Node))
    (s : BuildFileImpl) : TasksConfigured s (parseTasksMapping o map s).2 :=
  forEach_runs (P := fun s _ s' => TasksConfigured s s') TasksConfigured.chains (fun _ => True)
    (fun _ _ => trivial) (fun entry _ s _ => parseTasksEntry_tasksConfigured o entry s) s trivial

theorem sections_tasksConfigured :
    ∀ sec ∈ sections o, ∀ map s, TasksConfigured s (sec.2 map s).2 := by
  simp only [sections, List.mem_cons, List.mem_singleton, List.not_mem_nil, or_false]
  rintro _ (rfl | rfl | rfl | rfl) map s
  · exact .of_untasked ((parseToolsMapping_calls o map s).mono fun _ hc =>
      Call.untasked_of_not_tasks (.inr (.inl hc)))
  · exact .of_untasked ((parseTargetsMapping_calls map s).mono fun _ hc =>
      Call.untasked_of_not_tasks (.inr (.inr (.inl hc))))
  · exact .of_untasked ((parseNodesMapping_calls o map s).mono fun _ hc =>
      Call.untasked_of_not_tasks (.inr (.inr (.inr ⟨_, hc⟩))))
  · exact parseTasksMapping_tasksConfigured o map s

theorem load_tasksConfigured (res : Except String (List Yaml.Node)) (s : BuildFileImpl) :
    TasksConfigured s (load o res s).2 := by
  rcases load_runs TasksConfigured.chains TasksConfigured.error o
    (fun map s => .of_untasked ((parseClientMapping_calls o map s).mono fun _ hc =>
      Call.untasked_of_not_tasks (.inl hc))) res
    (fun sec hsec map _ => sections_tasksConfigured o sec hsec map) s with ⟨-, hsame⟩ | h
  · rw [hsame]
    exact .refl s
  · exact h

theorem Reachable.tasksConfigured {s : BuildFileImpl} (h : Reachable o s) :
    ∃ mainFilename, TasksConfigured (.new mainFilename) s := by
  induction h with
  | new mainFilename => exact ⟨mainFilename, .refl _⟩
  | load res _ ih =>
    obtain ⟨mainFilename, ih⟩ := ih
    exact ⟨mainFilename, ih.trans (load_tasksConfigured o res _)⟩

/-- **A task of `getTasks` was configured by calls that were all accepted.**  In every state
a `BuildFile` can reach from its construction by loads, whatever the documents and whatever
the delegate answered, every call the log holds on a task stored in `tasks`
(`configureInputs`, `configureOutputs`, `configureAttribute`) was accepted. -/
theorem Reachable.registered_tasks_accepted {s : BuildFileImpl} (h : Reachable o s) :
    ∀ name task, s.tasks name = some task →
      ∀ c ∈ s.calls, c.onTask task = true → c.accepted = true := by
  obtain ⟨_, hrun⟩ := Reachable.tasksConfigured o h
  obtain ⟨_, hlog⟩ := Reachable.logRegistries o h
  intro name task htask
  rw [hlog.tasks] at htask
  obtain ⟨c, hc, hloaded⟩ := List.mem_filterMap.1 (mem_of_storeAll_eq_some htask rfl)
  rw [Call.loadedTask?_eq_some] at hloaded
  subst hloaded
  simpa using (hrun.loaded name task (by simpa using hc)).2

/-- A tool, in contrast, is registered by its lookup: when the delegate refuses its
attribute, the load fails and the tool stays in `tools`. -/
example :
    let o : Oracle := ⟨fun _ _ => true, fun _ _ _ _ => true, fun _ _ _ _ => false⟩
    let s := (load o (.ok [.mapping [(.scalar "client", .mapping []),
      (.scalar "tools", .mapping [(.scalar "cc", .mapping [(.scalar "a", .scalar "b")])])]])
      (.new "build.llbuild")).2
    s.tools "cc" = some 1 ∧ Call.configureAttribute (.tool 1) "a" "b" false ∈ s.calls := by
  decide

theorem registered_tasks_accepted_tool_then_tasks :
    Reachable Oracle.acceptAll
        (load .acceptAll twoTasksFile (load .acceptAll toolFile (.new "build.llbuild")).2).2 ∧
      let s := (load .acceptAll twoTasksFile (load .acceptAll toolFile (.new "build.llbuild")).2).2
      ∀ name task, s.tasks name = some task →
        ∀ c ∈ s.calls, c.onTask task = true → c.accepted = true :=
  have h : Reachable Oracle.acceptAll
      (load .acceptAll twoTasksFile (load .acceptAll toolFile (.new "build.llbuild")).2).2 :=
    .load _ (.load _ (.new _))
  ⟨h, Reachable.registered_tasks_accepted _ h⟩

end

end BuildSystem
end Llbuild
