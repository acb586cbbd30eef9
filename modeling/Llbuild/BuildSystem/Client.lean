import Llbuild.BuildSystem.Accept

/-!
# `parseClientMapping`

`parseClientMapping` (`BuildFile.cpp`, lines 253-294) collects the `client` mapping into a
name, a version and a property list, and passes them to `delegate.configureClient`.  On a
well-formed mapping the three are the value of the last `name` pair, the number of the last
`version` pair and every other pair in document order (`collectClient_ok`); otherwise the
loop stops at the first bad pair with its error, and `configureClient` is not called.
`parseClientMapping_configures` puts the two together.
-/

namespace Llbuild
namespace BuildSystem

open Yaml

/-- The values of the pairs of `client` whose key is the scalar `key`, in document order. -/
def clientValues (key : String) (client : List (Yaml.Node × Yaml.Node)) : List String :=
  client.filterMap fun entry => if entry.1.scalarValue? = some key then entry.2.scalarValue? else none

/-- The scalar pairs of `client` other than `name` and `version`, in document order. -/
def clientProperties (client : List (Yaml.Node × Yaml.Node)) : List (String × String) :=
  client.filterMap fun
    | (.scalar key, .scalar value) => if key = "name" ∨ key = "version" then none else some (key, value)
    | _ => none

/-- The number `getAsInteger(10, version)` stores, `0` when it fails. -/
def versionNumber (value : String) : UInt32 := (StringRef.getAsInteger value 10).getD 0

@[simp] theorem clientValues_cons_scalar (key k v : String) (client : List (Yaml.Node × Yaml.Node)) :
    clientValues key ((.scalar k, .scalar v) :: client) =
      if k = key then v :: clientValues key client else clientValues key client := by
  by_cases h : k = key <;> simp [clientValues, h]

@[simp] theorem clientProperties_cons_scalar (k v : String) (client : List (Yaml.Node × Yaml.Node)) :
    clientProperties ((.scalar k, .scalar v) :: client) =
      if k = "name" ∨ k = "version" then clientProperties client
      else (k, v) :: clientProperties client := by
  by_cases h : k = "name" ∨ k = "version" <;> simp only [clientProperties, List.filterMap_cons, h] <;> rfl

/-- A successful `getAsInteger(10, version)` stores the number of the numeral, untruncated. -/
theorem toNat?_of_getAsInteger {value : String} {version : UInt32}
    (h : StringRef.getAsInteger value 10 = some version) : value.toNat? = some version.toNat := by
  rw [StringRef.getAsInteger_ten] at h
  rcases hn : value.toNat? with _ | n <;> rw [hn] at h
  · cases h
  · simp only [Option.some_bind] at h
    split at h
    · cases h
      rw [StringRef.toNat_ofNat_uint32, Nat.mod_eq_of_lt ‹_›]
    · cases h

/-- Every `version` of a well-formed `client` mapping is read. -/
theorem getAsInteger_isSome_of_mem {client : List (Yaml.Node × Yaml.Node)}
    (h : clientWellFormed client = true) {value : String}
    (hv : value ∈ clientValues "version" client) : (StringRef.getAsInteger value 10).isSome := by
  obtain ⟨⟨key, node⟩, hmem, hsome⟩ := List.mem_filterMap.1 hv
  split at hsome
  · next hkey =>
    rw [Node.scalarValue?_eq_some] at hkey hsome
    subst hkey hsome
    have := List.all_eq_true.1 h _ hmem
    simpa [getAsInteger_ten_isSome] using this
  · cases hsome

/-- **The loop of `parseClientMapping` on a well-formed mapping.**  From the accumulated
`(name, version, properties)` it ends with the value of the last `name` pair, the number of
the last `version` pair (or the ones it started with) and the other pairs appended. -/
theorem collectClient_ok {client : List (Yaml.Node × Yaml.Node)} (h : clientWellFormed client = true)
    (name : String) (version : UInt32) (properties : List (String × String)) :
    collectClient client (name, version, properties) =
      .ok ((clientValues "name" client).getLast?.getD name,
        ((clientValues "version" client).getLast?.map versionNumber).getD version,
        properties ++ clientProperties client) := by
  induction client generalizing name version properties with
  | nil => simp [collectClient, clientValues, clientProperties]
  | cons entry client ih =>
    rw [clientWellFormed, List.all_cons, Bool.and_eq_true] at h
    obtain ⟨hentry, hrest⟩ := h
    obtain ⟨_ | key | _ | _ | _, _ | value | _ | _ | _⟩ := entry <;> try cases hentry
    by_cases hn : key = "name"
    · subst hn
      simp [collectClient, ih hrest, List.getLast?_cons]
    by_cases hv : key = "version"
    · subst hv
      obtain ⟨v, hv⟩ : ∃ v, StringRef.getAsInteger value 10 = some v :=
        Option.isSome_iff_exists.1 (by simpa [getAsInteger_ten_isSome] using hentry)
      simp [collectClient, hv, ih hrest, List.getLast?_cons]
      cases (clientValues "version" client).getLast? <;> simp [versionNumber, hv]
    · simp [collectClient, hn, hv, ih hrest]

section
variable (o : Oracle)

/-- **`parseClientMapping` configures the client once, or reports one error.**  On a mapping
of scalar pairs whose every `version` is a decimal numeral below `2^32`, it calls
`configureClient` once, with the value of the last `name` pair (`""` if none), the number of
the last `version` pair (`0` if none), read without truncation, and the other pairs in
document order; it returns the answer and reports an error when it is `false`.  On any other
mapping it calls `delegate.error` once, does not call `configureClient`, and returns
`false`. -/
theorem parseClientMapping_configures (client : List (Yaml.Node × Yaml.Node)) (s : BuildFileImpl) :
    if clientWellFormed client then
      ∃ version : UInt32,
        version.toNat = ((clientValues "version" client).getLast?.bind String.toNat?).getD 0 ∧
        let name := (clientValues "name" client).getLast?.getD ""
        let ok := o.configureClient s.calls name version (clientProperties client)
        (parseClientMapping o client s).1 = ok ∧
          newCalls s (parseClientMapping o client s).2 =
            .configureClient name version (clientProperties client) ok ::
              if ok then [] else [.error s.mainFilename "unable to configure client"]
    else
      (parseClientMapping o client s).1 = false ∧
        ∃ message, newCalls s (parseClientMapping o client s).2 = [.error s.mainFilename message] := by
  split
  · next h =>
    refine ⟨((clientValues "version" client).getLast?.map versionNumber).getD 0, ?_, ?_⟩
    · rcases hl : (clientValues "version" client).getLast? with _ | value
      · rfl
      · obtain ⟨v, hv⟩ := Option.isSome_iff_exists.1
          (getAsInteger_isSome_of_mem h (List.mem_of_getLast?_eq_some hl))
        simp [versionNumber, hv, toNat?_of_getAsInteger hv]
    · simp only [parseClientMapping, collectClient_ok h, List.nil_append]
      split <;> simp [*, BuildFileImpl.error]
  · next h =>
    have hc := collectClient_toBool client ("", 0, [])
    unfold parseClientMapping
    rcases hr : collectClient client ("", 0, []) with message | _
    · exact ⟨rfl, message, by simp [BuildFileImpl.error]⟩
    · rw [hr] at hc
      exact absurd hc.symm h

end

end BuildSystem
end Llbuild
