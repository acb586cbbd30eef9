import Llbuild.BuildSystem.Run

/-!
# What every run of the parser keeps

`Sound s ok s'` collects the facts every run of every parse function has, whatever the
document and whatever the delegate answers:

* `ErrorLast`: `delegate.error` is called at most once, as the last call of the run, and the
  run then returns `false` (the parser stops at its first error);
* `LookupOnce`: `lookupTool` and `lookupNode` are called at most once per name, only for a
  name absent from the registry when the run began, and the name is registered by the end
  unless the run failed;
* `UsesRegistered`: every tool and node a call is made on, or passes, is registered;
* `Consistent` is kept: each registered entity is the one the log says its creating call
  returned for that name.

`Sound` `Chains` (`sound_chains`), and each step that changes the state has it
(`sound_error`, `sound_call`, `sound_registerTool`, `sound_registerNode`,
`sound_lookupToolFails`); `Llbuild.BuildSystem.Sound` collects them into `sound_closed`, from
which every parse function gets it.
-/

namespace Llbuild
namespace BuildSystem

namespace Call

/-- A `lookupTool` call for `name`. -/
def looksUpTool (name : String) : Call → Bool
  | lookupTool n _ => n == name
  | _ => false

/-- A `lookupNode` call for `name`. -/
def looksUpNode (name : String) : Call → Bool
  | lookupNode n _ => n == name
  | _ => false

/-- The tools a call is made on. -/
def toolArgs : Call → List Handle
  | configureAttribute (.tool tool) _ _ _ => [tool]
  | createTask tool _ => [tool]
  | _ => []

/-- The nodes a call is made on or passes to a task. -/
def nodeArgs : Call → List Handle
  | configureAttribute (.node node) _ _ _ => [node]
  | configureInputs _ nodes => nodes
  | configureOutputs _ nodes => nodes
  | _ => []

end Call

/-- At most one `delegate.error`, as the last call of the run, which then returned `false`. -/
def ErrorLast (s : BuildFileImpl) (ok : Bool) (s' : BuildFileImpl) : Prop :=
  (∀ c ∈ newCalls s s', c.isError = false) ∨
    ∃ pre message, newCalls s s' = pre ++ [.error s.mainFilename message] ∧
      (∀ c ∈ pre, c.isError = false) ∧ ok = false

/-- The lookups `looksUp` of the registry `reg` in a run: at most one per name, only for a
name absent at the start, and registered at the end unless the run failed. -/
structure LookupOnce (reg : BuildFileImpl → String → Option Handle)
    (looksUp : String → Call → Bool) (s : BuildFileImpl) (ok : Bool) (s' : BuildFileImpl) :
    Prop where
  le_one : ∀ name, (newCalls s s').countP (looksUp name) ≤ 1
  absent : ∀ name, 0 < (newCalls s s').countP (looksUp name) → reg s name = none
  kept : ∀ name, 0 < (newCalls s s').countP (looksUp name) → (reg s' name).isSome ∨ ok = false

/-- Every tool and node the calls of the run use is registered at its end. -/
def UsesRegistered (s s' : BuildFileImpl) : Prop :=
  ∀ c ∈ newCalls s s', (∀ t ∈ c.toolArgs, ∃ name, s'.tools name = some t) ∧
    (∀ h ∈ c.nodeArgs, ∃ name, s'.nodes name = some h)

/-- Each registered entity is the one its creating call returned for that name:
`lookupTool(name)`, `lookupNode(name, _)` or `createTask` for a task `name`. -/
structure Consistent (s : BuildFileImpl) : Prop where
  tools : ∀ {name tool}, s.tools name = some tool → s.calls[tool]? = some (.lookupTool name true)
  nodes : ∀ {name node}, s.nodes name = some node →
    ∃ isImplicit, s.calls[node]? = some (.lookupNode name isImplicit)
  tasks : ∀ {name task}, s.tasks name = some task →
    ∃ tool, s.calls[task]? = some (.createTask tool name)

/-- What every run of a parse function keeps. -/
structure Sound (s : BuildFileImpl) (ok : Bool) (s' : BuildFileImpl) : Prop where
  grows : Grows s s'
  errorLast : ErrorLast s ok s'
  tools : LookupOnce BuildFileImpl.tools Call.looksUpTool s ok s'
  nodes : LookupOnce BuildFileImpl.nodes Call.looksUpNode s ok s'
  uses : UsesRegistered s s'
  consistent : Consistent s → Consistent s'

theorem ErrorLast.trans {s₁ s₂ s₃ : BuildFileImpl} {ok : Bool} (g₁ : Grows s₁ s₂)
    (g₂ : Grows s₂ s₃) (h₁ : ErrorLast s₁ true s₂) (h₂ : ErrorLast s₂ ok s₃) :
    ErrorLast s₁ ok s₃ := by
  have hno : ∀ c ∈ newCalls s₁ s₂, c.isError = false := by
    rcases h₁ with h | ⟨_, _, _, _, h⟩
    · exact h
    · cases h
  rw [ErrorLast, g₁.newCalls_trans g₂]
  rcases h₂ with h | ⟨pre, message, hpre, hnone, hok⟩
  · exact .inl fun c hc => (List.mem_append.1 hc).elim (hno c) (h c)
  · refine .inr ⟨newCalls s₁ s₂ ++ pre, message, ?_, ?_, hok⟩
    · rw [hpre, g₁.mainFilename, List.append_assoc]
    · exact fun c hc => (List.mem_append.1 hc).elim (hno c) (hnone c)

theorem LookupOnce.trans {reg : BuildFileImpl → String → Option Handle}
    {looksUp : String → Call → Bool}
    (hreg : ∀ {s s'}, Grows s s' → ∀ name, (reg s name).isSome → (reg s' name).isSome)
    {s₁ s₂ s₃ : BuildFileImpl} {ok : Bool} (g₁ : Grows s₁ s₂) (g₂ : Grows s₂ s₃)
    (h₁ : LookupOnce reg looksUp s₁ true s₂) (h₂ : LookupOnce reg looksUp s₂ ok s₃) :
    LookupOnce reg looksUp s₁ ok s₃ := by
  have hsplit : ∀ name, (newCalls s₁ s₃).countP (looksUp name) =
      (newCalls s₁ s₂).countP (looksUp name) + (newCalls s₂ s₃).countP (looksUp name) := by
    intro name; rw [g₁.newCalls_trans g₂, List.countP_append]
  -- a name looked up in the first run is registered, so the second run does not look it up
  have hfirst : ∀ {name}, 0 < (newCalls s₁ s₂).countP (looksUp name) →
      (newCalls s₂ s₃).countP (looksUp name) = 0 := by
    intro name h
    have hs := (h₁.kept name h).resolve_right (by simp)
    by_contra hne
    simp [h₂.absent name (Nat.pos_of_ne_zero hne)] at hs
  refine ⟨fun name => ?_, fun name h => ?_, fun name h => ?_⟩
  · rw [hsplit]
    rcases Nat.eq_zero_or_pos ((newCalls s₁ s₂).countP (looksUp name)) with h0 | hpos
    · rw [h0, Nat.zero_add]; exact h₂.le_one name
    · rw [hfirst hpos, Nat.add_zero]; exact h₁.le_one name
  · rw [hsplit] at h
    rcases Nat.eq_zero_or_pos ((newCalls s₁ s₂).countP (looksUp name)) with h0 | hpos
    · have h2 := h₂.absent name (by omega)
      cases hs : reg s₁ name
      · rfl
      · simpa [h2] using hreg g₁ name (by simp [hs])
    · exact h₁.absent name hpos
  · rw [hsplit] at h
    rcases Nat.eq_zero_or_pos ((newCalls s₁ s₂).countP (looksUp name)) with h0 | hpos
    · exact h₂.kept name (by omega)
    · exact .inl (hreg g₂ name ((h₁.kept name hpos).resolve_right (by simp)))

theorem UsesRegistered.trans {s₁ s₂ s₃ : BuildFileImpl} (g₁ : Grows s₁ s₂) (g₂ : Grows s₂ s₃)
    (h₁ : UsesRegistered s₁ s₂) (h₂ : UsesRegistered s₂ s₃) : UsesRegistered s₁ s₃ := by
  intro c hc
  rw [g₁.newCalls_trans g₂] at hc
  rcases List.mem_append.1 hc with hc | hc
  · obtain ⟨ht, hn⟩ := h₁ c hc
    exact ⟨fun t htc => (ht t htc).imp fun _ => g₂.tools,
      fun h hhc => (hn h hhc).imp fun _ => g₂.nodes⟩
  · exact h₂ c hc

/-- **`Sound` chains**, so it holds of every parse function built from steps that have it. -/
theorem sound_chains : RunProp.Chains Sound where
  refl s := ⟨Grows.refl s, .inl (by simp), ⟨by simp, by simp, by simp⟩, ⟨by simp, by simp, by simp⟩,
    by simp [UsesRegistered], id⟩
  trans h₁ h₂ :=
    ⟨h₁.grows.trans h₂.grows, h₁.errorLast.trans h₁.grows h₂.grows h₂.errorLast,
      h₁.tools.trans Grows.tool_isSome h₁.grows h₂.grows h₂.tools,
      h₁.nodes.trans Grows.node_isSome h₁.grows h₂.grows h₂.nodes,
      h₁.uses.trans h₁.grows h₂.grows h₂.uses, h₂.consistent ∘ h₁.consistent⟩

theorem getElem?_append_of_eq_some {l l' : List Call} {i : Nat} {c : Call} (h : l[i]? = some c) :
    (l ++ l')[i]? = some c := by
  rw [List.getElem?_append_left (List.getElem?_eq_some_iff.1 h).1, h]

theorem Consistent.call {s : BuildFileImpl} (h : Consistent s) (c : Call) :
    Consistent (s.call c) :=
  ⟨fun ht => getElem?_append_of_eq_some (h.tools ht),
    fun hn => (h.nodes hn).imp fun _ => getElem?_append_of_eq_some,
    fun hk => (h.tasks hk).imp fun _ => getElem?_append_of_eq_some⟩

theorem LookupOnce.of_countP_eq_zero {reg : BuildFileImpl → String → Option Handle}
    {looksUp : String → Call → Bool} {s s' : BuildFileImpl} {ok : Bool}
    (h : ∀ name, (newCalls s s').countP (looksUp name) = 0) : LookupOnce reg looksUp s ok s' := by
  refine ⟨fun name => ?_, fun name hp => ?_, fun name hp => ?_⟩ <;> simp only [h] at * <;> omega

/-- `delegate.error`, after which the parser returns `false`. -/
theorem sound_error (s : BuildFileImpl) (message : String) : Sound s false (s.error message) where
  grows := Grows.error s message
  errorLast := .inr ⟨[], message, by simp [BuildFileImpl.error], by simp, rfl⟩
  tools := .of_countP_eq_zero fun _ => by simp [BuildFileImpl.error, Call.looksUpTool]
  nodes := .of_countP_eq_zero fun _ => by simp [BuildFileImpl.error, Call.looksUpNode]
  uses := by simp [UsesRegistered, BuildFileImpl.error, Call.toolArgs, Call.nodeArgs]
  consistent h := h.call _

/-- A call that is neither an error nor a lookup, on registered entities. -/
theorem sound_call {s : BuildFileImpl} (c : Call) (ok : Bool) (herr : c.isError = false)
    (htool : ∀ name, c.looksUpTool name = false) (hnode : ∀ name, c.looksUpNode name = false)
    (hargs : (∀ t ∈ c.toolArgs, ∃ name, s.tools name = some t) ∧
      (∀ h ∈ c.nodeArgs, ∃ name, s.nodes name = some h)) :
    Sound s ok (s.call c) where
  grows := Grows.call s c
  errorLast := .inl (by simpa using herr)
  tools := .of_countP_eq_zero fun name => by simp [htool name]
  nodes := .of_countP_eq_zero fun name => by simp [hnode name]
  uses := by simpa [UsesRegistered] using hargs
  consistent h := h.call c

/-- A run that looks up `name` once, absent at the start, and registers it or fails. -/
theorem LookupOnce.of_lookup {reg : BuildFileImpl → String → Option Handle}
    {looksUp : String → Call → Bool} {s s' : BuildFileImpl} {ok : Bool} (name : String)
    (hcount : ∀ n, (newCalls s s').countP (looksUp n) = if name = n then 1 else 0)
    (hs : reg s name = none) (hkept : (reg s' name).isSome ∨ ok = false) :
    LookupOnce reg looksUp s ok s' := by
  refine ⟨fun n => ?_, fun n hp => ?_, fun n hp => ?_⟩ <;> rw [hcount] at * <;>
    split at * <;> first | omega | (subst name; assumption)

/-- The tool `lookupTool(name)` returned, registered under a name that had none. -/
theorem sound_registerTool {s : BuildFileImpl} {name : String} (hs : s.tools name = none) :
    Sound s true ((s.call (.lookupTool name true)).setTool name s.calls.length) where
  grows := ⟨by simp [newCalls], rfl, fun {n _} h => by
      rw [BuildFileImpl.setTool_tools, Function.update_noteq (by rintro rfl; simp [hs] at h)]
      exact h, id⟩
  errorLast := .inl (by simp [newCalls, Call.isError])
  tools := .of_lookup name (fun _ => by simp [newCalls, Call.looksUpTool, List.countP_singleton])
    hs (.inl (by simp))
  nodes := .of_countP_eq_zero fun _ => by simp [newCalls, Call.looksUpNode]
  uses := by simp [UsesRegistered, newCalls, Call.toolArgs, Call.nodeArgs]
  consistent h := by
    refine ⟨fun {n t} ht => ?_, fun hn => (h.nodes hn).imp fun _ => getElem?_append_of_eq_some,
      fun hk => (h.tasks hk).imp fun _ => getElem?_append_of_eq_some⟩
    simp only [BuildFileImpl.setTool_tools, BuildFileImpl.setTool_calls,
      BuildFileImpl.call_calls] at ht ⊢
    by_cases hn : n = name
    · subst hn
      simp only [Function.update_same, Option.some.injEq] at ht
      subst ht
      exact List.getElem?_concat_length _ _
    · rw [Function.update_noteq hn] at ht
      exact getElem?_append_of_eq_some (h.tools ht)

/-- The node `lookupNode(name, isImplicit)` returned, registered under a name that had
none. -/
theorem sound_registerNode {s : BuildFileImpl} {name : String} (isImplicit : Bool)
    (hs : s.nodes name = none) :
    Sound s true ((s.call (.lookupNode name isImplicit)).setNode name s.calls.length) where
  grows := ⟨by simp [newCalls], rfl, id, fun {n _} h => by
      rw [BuildFileImpl.setNode_nodes, Function.update_noteq (by rintro rfl; simp [hs] at h)]
      exact h⟩
  errorLast := .inl (by simp [newCalls, Call.isError])
  tools := .of_countP_eq_zero fun _ => by simp [newCalls, Call.looksUpTool]
  nodes := .of_lookup name (fun _ => by simp [newCalls, Call.looksUpNode, List.countP_singleton])
    hs (.inl (by simp))
  uses := by simp [UsesRegistered, newCalls, Call.toolArgs, Call.nodeArgs]
  consistent h := by
    refine ⟨fun ht => getElem?_append_of_eq_some (h.tools ht), fun {n _} hn => ?_,
      fun hk => (h.tasks hk).imp fun _ => getElem?_append_of_eq_some⟩
    simp only [BuildFileImpl.setNode_nodes, BuildFileImpl.setNode_calls,
      BuildFileImpl.call_calls] at hn ⊢
    by_cases he : n = name
    · subst he
      simp only [Function.update_same, Option.some.injEq] at hn
      subst hn
      exact ⟨isImplicit, List.getElem?_concat_length _ _⟩
    · rw [Function.update_noteq he] at hn
      exact (h.nodes hn).imp fun _ => getElem?_append_of_eq_some

/-- `lookupTool(name)` returned null, then `delegate.error`: the run fails. -/
theorem sound_lookupToolFails {s : BuildFileImpl} {name : String} (hs : s.tools name = none)
    (message : String) : Sound s false ((s.call (.lookupTool name false)).error message) where
  grows := (Grows.call s _).trans (Grows.error _ _)
  errorLast := .inr ⟨[.lookupTool name false], message,
    by simp [newCalls, BuildFileImpl.error], by simp [Call.isError], rfl⟩
  tools := .of_lookup name (fun _ => by
      simp [newCalls, BuildFileImpl.error, Call.looksUpTool, List.countP_cons])
    hs (.inr rfl)
  nodes := .of_countP_eq_zero fun _ => by simp [newCalls, BuildFileImpl.error, Call.looksUpNode]
  uses := by simp [UsesRegistered, newCalls, BuildFileImpl.error, Call.toolArgs, Call.nodeArgs]
  consistent h := (h.call _).call _

end BuildSystem
end Llbuild
