import Llbuild.BuildSystem.BuildFileImpl

/-!
# Runs of the parse functions

A run of a parse function goes from a state `s` to a state `s'` and returns a `bool`.  The
calls it made are `newCalls s s'`, the log of `s'` past that of `s`.  `Grows` is what every
run keeps: the log is only appended to, and the `tools` and `nodes` registries are only
added to.

A `RunProp` that `Chains` holds of the empty run and of a run that returned `true` followed
by any run that has it.  The code composes its parse functions in exactly those two ways
(`andThen`, `forEach`, `bindSome`), so a `RunProp` that `Chains` and holds of each step holds
of every parse function built from them (`andThen_runs`, `forEach_runs`, `bindSome_runs`).
-/

namespace Llbuild
namespace BuildSystem

/-- The calls a run from `s` to `s'` made. -/
def newCalls (s s' : BuildFileImpl) : List Call := s'.calls.drop s.calls.length

/-- What every run keeps: the log is appended to, the main file is the same, and a name
registered in `tools` or `nodes` keeps its entity. -/
structure Grows (s s' : BuildFileImpl) : Prop where
  calls : s'.calls = s.calls ++ newCalls s s'
  mainFilename : s'.mainFilename = s.mainFilename
  tools : ∀ {name tool}, s.tools name = some tool → s'.tools name = some tool
  nodes : ∀ {name node}, s.nodes name = some node → s'.nodes name = some node

@[simp] theorem newCalls_self (s : BuildFileImpl) : newCalls s s = [] := by
  simp [newCalls]

@[simp] theorem newCalls_call (s : BuildFileImpl) (c : Call) : newCalls s (s.call c) = [c] := by
  simp [newCalls]

@[simp] theorem newCalls_call_call (s : BuildFileImpl) (c c' : Call) :
    newCalls s ((s.call c).call c') = [c, c'] := by
  simp [newCalls]

@[simp] theorem newCalls_setTool (s s' : BuildFileImpl) (name : String) (tool : Handle) :
    newCalls s (s'.setTool name tool) = newCalls s s' := rfl

@[simp] theorem newCalls_setNode (s s' : BuildFileImpl) (name : String) (node : Handle) :
    newCalls s (s'.setNode name node) = newCalls s s' := rfl

@[simp] theorem newCalls_setTarget (s s' : BuildFileImpl) (name : String) (target : Target) :
    newCalls s (s'.setTarget name target) = newCalls s s' := rfl

@[simp] theorem newCalls_setTask (s s' : BuildFileImpl) (name : String) (task : Handle) :
    newCalls s (s'.setTask name task) = newCalls s s' := rfl

theorem newCalls_of_calls {s s' : BuildFileImpl} {cs : List Call} (h : s'.calls = s.calls ++ cs) :
    newCalls s s' = cs := by
  simp [newCalls, h]

namespace Grows

theorem refl (s : BuildFileImpl) : Grows s s := ⟨by simp, rfl, id, id⟩

theorem newCalls_trans {s₁ s₂ s₃ : BuildFileImpl} (h₁ : Grows s₁ s₂) (h₂ : Grows s₂ s₃) :
    newCalls s₁ s₃ = newCalls s₁ s₂ ++ newCalls s₂ s₃ :=
  newCalls_of_calls (by rw [h₂.calls, h₁.calls, List.append_assoc])

theorem trans {s₁ s₂ s₃ : BuildFileImpl} (h₁ : Grows s₁ s₂) (h₂ : Grows s₂ s₃) :
    Grows s₁ s₃ :=
  ⟨by rw [h₁.newCalls_trans h₂, h₂.calls, h₁.calls, List.append_assoc],
    h₂.mainFilename.trans h₁.mainFilename, h₂.tools ∘ h₁.tools, h₂.nodes ∘ h₁.nodes⟩

theorem call (s : BuildFileImpl) (c : Call) : Grows s (s.call c) := ⟨by simp, rfl, id, id⟩

theorem error (s : BuildFileImpl) (message : String) : Grows s (s.error message) :=
  call s _

theorem setTarget {s s' : BuildFileImpl} (h : Grows s s') (name : String) (target : Target) :
    Grows s (s'.setTarget name target) :=
  ⟨h.calls, h.mainFilename, h.tools, h.nodes⟩

theorem setTask {s s' : BuildFileImpl} (h : Grows s s') (name : String) (task : Handle) :
    Grows s (s'.setTask name task) :=
  ⟨h.calls, h.mainFilename, h.tools, h.nodes⟩

theorem tool_isSome {s s' : BuildFileImpl} (h : Grows s s') (name : String)
    (hs : (s.tools name).isSome) : (s'.tools name).isSome := by
  obtain ⟨t, ht⟩ := Option.isSome_iff_exists.1 hs
  simp [h.tools ht]

theorem node_isSome {s s' : BuildFileImpl} (h : Grows s s') (name : String)
    (hs : (s.nodes name).isSome) : (s'.nodes name).isSome := by
  obtain ⟨t, ht⟩ := Option.isSome_iff_exists.1 hs
  simp [h.nodes ht]

end Grows

/-- A property of a run: the state it starts from, what it returns, the state it ends in. -/
abbrev RunProp := BuildFileImpl → Bool → BuildFileImpl → Prop

/-- The empty run has `P`, and a run that returned `true` followed by a run with `P` has
`P`. -/
structure RunProp.Chains (P : RunProp) : Prop where
  refl : ∀ s, P s true s
  trans : ∀ {s₁ s₂ s₃ ok}, P s₁ true s₂ → P s₂ ok s₃ → P s₁ ok s₃

section
variable {P : RunProp}

theorem andThen_runs (hP : P.Chains) {f g : Parse} {s : BuildFileImpl}
    (hf : P s (f s).1 (f s).2) (hg : (f s).1 = true → P (f s).2 (g (f s).2).1 (g (f s).2).2) :
    P s (andThen f g s).1 (andThen f g s).2 := by
  unfold andThen
  rcases h : f s with ⟨_ | _, s'⟩ <;> rw [h] at hf hg
  · exact hf
  · exact hP.trans hf (hg rfl)

theorem bindSome_runs {α : Type} (hP : P.Chains) {f : BuildFileImpl → Option α × BuildFileImpl}
    {k : α → Parse} {s : BuildFileImpl} (hf : P s (f s).1.isSome (f s).2)
    (hk : ∀ a, (f s).1 = some a → P (f s).2 (k a (f s).2).1 (k a (f s).2).2) :
    P s (bindSome f k s).1 (bindSome f k s).2 := by
  unfold bindSome
  rcases h : f s with ⟨_ | a, s'⟩ <;> rw [h] at hf hk
  · exact hf
  · exact hP.trans hf (hk a rfl)

/-- **A loop keeps what each of its steps keeps.**  `Pre` is a precondition of the steps
that runs returning `true` preserve. -/
theorem forEach_runs {α : Type} (hP : P.Chains) (Pre : BuildFileImpl → Prop)
    (hPre : ∀ {s s'}, P s true s' → Pre s → Pre s') {body : α → Parse} :
    ∀ {as : List α}, (∀ a ∈ as, ∀ s, Pre s → P s (body a s).1 (body a s).2) →
      ∀ s, Pre s → P s (forEach body as s).1 (forEach body as s).2
  | [], _, s, _ => hP.refl s
  | a :: as, hb, s, hs => by
    rw [forEach_cons]
    refine andThen_runs hP (hb a (.head _) s hs) fun htrue => ?_
    exact forEach_runs hP Pre hPre (fun b hb' => hb b (.tail _ hb')) _
      (hPre (htrue ▸ hb a (.head _) s hs) hs)

end

/-! A run that returned `true` ran each of its parts to its end. -/

theorem andThen_eq_true {f g : Parse} {s s' : BuildFileImpl} (h : andThen f g s = (true, s')) :
    ∃ s₁, f s = (true, s₁) ∧ g s₁ = (true, s') := by
  unfold andThen at h
  rcases hf : f s with ⟨_ | _, s₁⟩ <;> rw [hf] at h
  · cases h
  · exact ⟨s₁, rfl, h⟩

theorem bindSome_eq_true {α : Type} {f : BuildFileImpl → Option α × BuildFileImpl} {k : α → Parse}
    {s s' : BuildFileImpl} (h : bindSome f k s = (true, s')) :
    ∃ a s₁, f s = (some a, s₁) ∧ k a s₁ = (true, s') := by
  unfold bindSome at h
  rcases hf : f s with ⟨_ | a, s₁⟩ <;> rw [hf] at h
  · cases h
  · exact ⟨a, s₁, rfl, h⟩

/-- **A loop that ran to its end, step by step.**  A relation between the elements of the
loop and its start and end states, which the empty loop has and which one more step that
returned `true` in front keeps, holds of every loop that returned `true`. -/
theorem forEach_eq_true {α : Type} {body : α → Parse}
    (Q : List α → BuildFileImpl → BuildFileImpl → Prop) (nil : ∀ s, Q [] s s)
    (cons : ∀ {a as s₁ s₂ s₃}, body a s₁ = (true, s₂) → Q as s₂ s₃ → Q (a :: as) s₁ s₃) :
    ∀ {as : List α} {s s' : BuildFileImpl}, forEach body as s = (true, s') → Q as s s'
  | [], s, _, h => by cases h; exact nil s
  | _ :: _, _, _, h => by
    obtain ⟨_, h₁, h₂⟩ := andThen_eq_true h
    exact cons h₁ (forEach_eq_true Q nil cons h₂)

end BuildSystem
end Llbuild
