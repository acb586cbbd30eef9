import Llbuild.BuildSystem.Sound

/-!
# How `load` reports its failures

The parser stops at its first error: `delegate.error` is called at most once per load, as
its last call, and the load then returns `false` (`load_error_last`).

The converse does not hold.  Three loops return `false` when an entity's
`configureAttribute` refuses a pair, with no `delegate.error` beside the `return`
(`BuildFile.cpp`, lines 335-341 for tools, 431-437 for nodes, 563-569 for tasks), while the
sibling path for `configureClient` (lines 288-291) and the one for `lookupTool`
(lines 133-137) both report.  `load_attribute_refused_silently` runs such a load.
-/

namespace Llbuild
namespace BuildSystem

section
variable (o : Oracle)

/-- **`delegate.error` is called at most once, last, and only by a failing load.**  Whatever
the stream, the delegate's answers and the state of the `BuildFile`, either a load makes no
`error` call, or its calls end with the one `error` call, after which nothing is called,
and it returns `false`.  In particular a load that returns `true` never called
`delegate.error`. -/
theorem load_error_last (res : Except String (List Yaml.Node)) (s : BuildFileImpl) :
    (∀ c ∈ newCalls s (load o res s).2, c.isError = false) ∨
      ∃ pre message, newCalls s (load o res s).2 = pre ++ [.error s.mainFilename message] ∧
        (∀ c ∈ pre, c.isError = false) ∧ (load o res s).1 = .returns false := by
  rcases (load_sound o res s).errorLast with h | ⟨pre, message, hnew, hpre, hok⟩
  · exact .inl h
  · refine .inr ⟨pre, message, hnew, hpre, ?_⟩
    rcases hr : (load o res s).1 with ⟨_ | _⟩ | ⟨⟩
    · rfl
    · simp [hr, Outcome.isTrue] at hok
    · have := load_readsEndIterator o res s hr
      rw [this, newCalls_self] at hnew
      simp at hnew

end

/-- **A refused tool attribute fails the load with no error reported.**  With a delegate
that accepts the client and knows the tool `cc`, and a tool that refuses the attribute
`flags`, the load returns `false` and its calls hold no `delegate.error`. -/
theorem load_attribute_refused_silently :
    let o : Oracle := ⟨fun _ _ => true, fun _ _ _ _ => true, fun _ _ _ _ => false⟩
    let r := load o (.ok [.mapping [(.scalar "client", .mapping []),
      (.scalar "tools", .mapping [(.scalar "cc", .mapping [(.scalar "flags", .scalar "-O2")])])]])
      (.new "build.llbuild")
    r.1 = .returns false ∧ r.2.calls = [.configureClient "" 0 [] true, .lookupTool "cc" true,
      .configureAttribute (.tool 1) "flags" "-O2" false] := by
  decide

end BuildSystem
end Llbuild
