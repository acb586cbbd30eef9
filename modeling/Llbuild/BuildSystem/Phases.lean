import Llbuild.BuildSystem.Accept

/-!
# The sections of the root mapping, one after another

`parseRootNode` tries its four blocks in order on one iterator.  When the keys after `client`
are a subsequence of the block names, as they are in every document a load accepts
(`rootWellFormed`), this is the same as running each block on the entry of its own name, if
there is one (`parseSections_eq_sectionsRun`): the run of a load is the run of the client,
then of `tools`, `targets`, `nodes` and `tasks`, each from the state the one before it left.
-/

namespace Llbuild
namespace BuildSystem

open Yaml

/-- The value of the first entry of `it` whose key is the scalar `name`. -/
def sectionValue? (name : String) (it : List (Yaml.Node × Yaml.Node)) : Option Yaml.Node :=
  (it.find? fun entry => entry.1.scalarValue? == some name).map Prod.snd

/-- The block of `parseRootNode` for the section `name`, run on the entry of that name. -/
def sectionStep (name : String) (parse : List (Yaml.Node × Yaml.Node) → Parse)
    (it : List (Yaml.Node × Yaml.Node)) : Parse :=
  match sectionValue? name it with
  | none => fun s => (true, s)
  | some (.mapping map) => parse map
  | some _ => fun s => (false, s.error ("unexpected '" ++ name ++ "' value (expected map)"))

/-- The blocks of `parseRootNode` one after another, each on the entry of its name. -/
def sectionsRun (it : List (Yaml.Node × Yaml.Node)) :
    List (String × (List (Yaml.Node × Yaml.Node) → Parse)) → Parse
  | [] => fun s => (true, s)
  | (name, parse) :: secs => andThen (sectionStep name parse it) (sectionsRun it secs)

theorem sectionValue?_cons_of_eq {name : String} {key : Yaml.Node} (h : key.scalarValue? = some name)
    (value : Yaml.Node) (it : List (Yaml.Node × Yaml.Node)) :
    sectionValue? name ((key, value) :: it) = some value := by
  simp [sectionValue?, h]

theorem sectionValue?_cons_of_ne {name : String} {key : Yaml.Node} (h : key.scalarValue? ≠ some name)
    (value : Yaml.Node) (it : List (Yaml.Node × Yaml.Node)) :
    sectionValue? name ((key, value) :: it) = sectionValue? name it := by
  simp [sectionValue?, List.find?_cons, h]

theorem sectionValue?_eq_none {name : String} {it : List (Yaml.Node × Yaml.Node)}
    (h : some name ∉ it.map fun entry => entry.1.scalarValue?) : sectionValue? name it = none := by
  simp only [sectionValue?, Option.map_eq_none', List.find?_eq_none]
  intro entry hmem heq
  exact h (List.mem_map.2 ⟨entry, hmem, by simpa using heq⟩)

/-- Blocks whose names have the same entries in two lists run the same way on both. -/
theorem sectionsRun_congr {it it' : List (Yaml.Node × Yaml.Node)} :
    ∀ {secs : List (String × (List (Yaml.Node × Yaml.Node) → Parse))},
      (∀ sec ∈ secs, sectionValue? sec.1 it = sectionValue? sec.1 it') →
        sectionsRun it secs = sectionsRun it' secs
  | [], _ => rfl
  | (name, parse) :: secs, h => by
    simp only [sectionsRun, sectionStep, h _ (.head _),
      sectionsRun_congr fun sec hsec => h sec (.tail _ hsec)]

/-- **The blocks of `parseRootNode` on an ordered root mapping.**  When the block names are
distinct and the keys left after `client` are a subsequence of them, the blocks and the
trailing check run each block on the entry of its name. -/
theorem parseSections_eq_sectionsRun :
    ∀ {secs : List (String × (List (Yaml.Node × Yaml.Node) → Parse))}
      {it : List (Yaml.Node × Yaml.Node)}, (secs.map Prod.fst).Nodup →
      (it.map fun entry => entry.1.scalarValue?).Sublist (secs.map fun sec => some sec.1) →
        parseSections secs it = sectionsRun it secs
  | [], it, _, hsub => by
    rw [List.map_nil, List.sublist_nil, List.map_eq_nil_iff] at hsub
    subst hsub
    rfl
  | (name, parse) :: secs, [], hnd, _ => by
    rw [parseSections, parseSections_eq_sectionsRun (List.nodup_cons.1 hnd).2 (by simp)]
    rfl
  | (name, parse) :: secs, (key, value) :: it, hnd, hsub => by
    obtain ⟨hname, hnd⟩ := List.nodup_cons.1 hnd
    have hfresh : ∀ sec ∈ secs, sec.1 ≠ name := fun sec hsec h =>
      hname (List.mem_map.2 ⟨sec, hsec, h⟩)
    by_cases hk : key.scalarValue? = some name
    · have hkey : nodeIsScalarString key name = true := by
        rw [nodeIsScalarString_iff, ← Node.scalarValue?_eq_some, hk]
      rw [List.map_cons, List.map_cons, hk, List.cons_sublist_cons] at hsub
      have hrest : sectionsRun ((key, value) :: it) secs = sectionsRun it secs :=
        sectionsRun_congr fun sec hsec =>
          sectionValue?_cons_of_ne (by rw [hk]; simpa using (hfresh sec hsec).symm) _ _
      rw [parseSections_of_key hkey, sectionsRun, sectionStep, sectionValue?_cons_of_eq hk, hrest,
        ← parseSections_eq_sectionsRun hnd hsub]
      cases value <;> rfl
    · have hkey : nodeIsScalarString key name = false := by
        simpa [nodeIsScalarString_eq] using hk
      rw [List.map_cons, List.map_cons, List.sublist_cons_iff] at hsub
      replace hsub : (((key, value) :: it).map fun entry => entry.1.scalarValue?).Sublist
          (secs.map fun sec => some sec.1) := by
        rcases hsub with hsub | ⟨r, hr, _⟩
        · simpa using hsub
        · exact absurd (List.cons.inj hr).1 hk
      have hnone : sectionValue? name ((key, value) :: it) = none := sectionValue?_eq_none fun h => by
        obtain ⟨sec, hsec, hsec'⟩ := List.mem_map.1 (hsub.subset h)
        exact hfresh sec hsec (Option.some.inj hsec')
      rw [parseSections_of_not_key hkey, sectionsRun, sectionStep, hnone,
        parseSections_eq_sectionsRun hnd hsub]
      rfl

/-- The only entry of its key, in a mapping whose keys are distinct, is the first one. -/
theorem sectionValue?_of_mem {name : String} :
    ∀ {it : List (Yaml.Node × Yaml.Node)}, (it.map fun entry => entry.1.scalarValue?).Nodup →
      ∀ {entry}, entry ∈ it → entry.1.scalarValue? = some name → sectionValue? name it = some entry.2
  | [], _, _, hmem, _ => absurd hmem (List.not_mem_nil _)
  | (key, value) :: it, hnd, entry, hmem, hk => by
    rw [List.map_cons, List.nodup_cons] at hnd
    rcases List.mem_cons.1 hmem with rfl | hmem
    · exact sectionValue?_cons_of_eq hk _ _
    · rw [sectionValue?_cons_of_ne (fun h => hnd.1 (h ▸ hk ▸ List.mem_map_of_mem _ hmem)),
        sectionValue?_of_mem hnd.2 hmem hk]

theorem sectionStep_runs {P : RunProp} (hP : P.Chains) (name : String)
    {parse : List (Yaml.Node × Yaml.Node) → Parse}
    (hparse : ∀ map s, P s (parse map s).1 (parse map s).2)
    (herror : ∀ s message, P s false (s.error message)) (it : List (Yaml.Node × Yaml.Node))
    (s : BuildFileImpl) :
    P s (sectionStep name parse it s).1 (sectionStep name parse it s).2 := by
  unfold sectionStep
  cases sectionValue? name it with
  | none => exact hP.refl s
  | some value => cases value <;> first | exact hparse _ s | exact herror s _

section
variable (o : Oracle)

/-- A load that returns `true` read one document, a root mapping with `client` first and the
other sections in order, and ran the client and then the blocks of the sections. -/
theorem load_eq_true_run {res : Except String (List Yaml.Node)} {s s' : BuildFileImpl}
    (h : load o res s = (.returns true, s')) :
    ∃ client it, res = .ok [.mapping ((.scalar "client", .mapping client) :: it)] ∧
      (it.map fun entry => entry.1.scalarValue?).Sublist
        (["tools", "targets", "nodes", "tasks"].map some) ∧
      andThen (parseClientMapping o client) (sectionsRun it (sections o)) s = (true, s') := by
  have hd := load_decides o res s
  rw [h] at hd
  obtain ⟨root, rfl, hroot⟩ := streamWellFormed_iff.1 (Bool.and_eq_true_iff.1 hd.symm).1
  obtain ⟨client, it, rfl, -, hsecs⟩ := rootWellFormed_eq_true hroot
  have hsub := of_decide_eq_true (Bool.and_eq_true_iff.1 hsecs).1
  refine ⟨client, it, rfl, hsub, ?_⟩
  have hrun : parseSections (sections o) it = sectionsRun it (sections o) :=
    parseSections_eq_sectionsRun (show ["tools", "targets", "nodes", "tasks"].Nodup by decide) hsub
  rw [← hrun]
  simp only [load, parseRootNode, nodeIsScalarString, beq_self_eq_true, Bool.not_true] at h
  revert h
  rcases andThen (parseClientMapping o client) (parseSections (sections o) it) s with ⟨_ | _, s₁⟩ <;>
    simp

/-- **A load that returns `true`, phase by phase.**  It read one document, a root mapping
with `client` first and the other sections in order, and ran the client and then the block
of each section on the entry of its name, each returning `true`. -/
theorem load_eq_true {res : Except String (List Yaml.Node)} {s s' : BuildFileImpl}
    (h : load o res s = (.returns true, s')) :
    ∃ client it s₁ s₂ s₃ s₄, res = .ok [.mapping ((.scalar "client", .mapping client) :: it)] ∧
      (it.map fun entry => entry.1.scalarValue?).Sublist
        (["tools", "targets", "nodes", "tasks"].map some) ∧
      parseClientMapping o client s = (true, s₁) ∧
      sectionStep "tools" (parseToolsMapping o) it s₁ = (true, s₂) ∧
      sectionStep "targets" parseTargetsMapping it s₂ = (true, s₃) ∧
      sectionStep "nodes" (parseNodesMapping o) it s₃ = (true, s₄) ∧
      sectionStep "tasks" (parseTasksMapping o) it s₄ = (true, s') := by
  obtain ⟨client, it, rfl, hsub, hrun⟩ := load_eq_true_run o h
  obtain ⟨s₁, h₁, hrun⟩ := andThen_eq_true hrun
  simp only [sections, sectionsRun] at hrun
  obtain ⟨s₂, h₂, hrun⟩ := andThen_eq_true hrun
  obtain ⟨s₃, h₃, hrun⟩ := andThen_eq_true hrun
  obtain ⟨s₄, h₄, hrun⟩ := andThen_eq_true hrun
  obtain ⟨s₅, h₅, hrun⟩ := andThen_eq_true hrun
  cases hrun
  exact ⟨client, it, s₁, s₂, s₃, s₄, rfl, hsub, h₁, h₂, h₃, h₄, h₅⟩

end

end BuildSystem
end Llbuild
