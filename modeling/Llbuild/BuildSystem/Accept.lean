import Llbuild.BuildSystem.Schema
import Llbuild.BuildSystem.Sound

/-!
# When `load` returns `true`

Every parse function of `BuildFile.cpp` returns `true` exactly when its piece of the document
has the shape `Llbuild.BuildSystem.Schema` gives it and every call it makes on the delegate
and the entities is answered affirmatively (`Decides`).  The leaves are the checks that call
`delegate.error` and the calls whose answer is returned; `andThen`, `bindSome` and `forEach`
keep `Decides`, so each parser has it for its schema, up to `load_returns_true_iff`.
-/

namespace Llbuild
namespace BuildSystem

open Yaml

/-- A parse function that returns `true` exactly when its input has the shape `b` and every
call it makes is accepted. -/
structure Decides (b : Bool) (f : Parse) : Prop where
  grows : ∀ s, Grows s (f s).2
  result : ∀ s, (f s).1 = (b && (newCalls s (f s).2).all Call.accepted)

namespace Decides

theorem error (message : String) : Decides false fun s => (false, s.error message) :=
  ⟨fun s => Grows.error s message, fun _ => rfl⟩

theorem call (c : BuildFileImpl → Call) : Decides true fun s => ((c s).accepted, s.call (c s)) :=
  ⟨fun s => Grows.call s _, fun s => by simp⟩

theorem call_accepted (c : BuildFileImpl → Call) (hc : ∀ s, (c s).accepted = true) :
    Decides true fun s => (true, s.call (c s)) :=
  ⟨fun s => Grows.call s _, fun s => by simp [hc]⟩

/-- A run that returned `true`, followed by a run of a parse function that `Decides`. -/
theorem then_true {b c : Bool} {g : Parse} (hg : Decides c g) {s s' : BuildFileImpl}
    (gf : Grows s s') (rf : true = (b && (newCalls s s').all Call.accepted)) :
    Grows s (g s').2 ∧ (g s').1 = (b && c && (newCalls s (g s').2).all Call.accepted) := by
  obtain ⟨rfl, hall⟩ := Bool.and_eq_true_iff.1 rf.symm
  refine ⟨gf.trans (hg.grows s'), ?_⟩
  rw [gf.newCalls_trans (hg.grows s'), List.all_append, hall, hg.result s']
  simp

/-- A run that returned `false` stops the sequence. -/
theorem then_false {b c : Bool} {s s' : BuildFileImpl}
    (rf : false = (b && (newCalls s s').all Call.accepted)) :
    false = (b && c && (newCalls s s').all Call.accepted) := by
  rw [Bool.and_right_comm, ← rf, Bool.false_and]

theorem andThen {b c : Bool} {f g : Parse} (hf : Decides b f) (hg : Decides c g) :
    Decides (b && c) (BuildSystem.andThen f g) := by
  refine ⟨fun s => ?_, fun s => ?_⟩ <;> have gf := hf.grows s <;> have rf := hf.result s <;>
    simp only [BuildSystem.andThen] <;> rcases h : f s with ⟨_ | _, s'⟩ <;> rw [h] at gf rf
  exacts [gf, (then_true hg gf rf).1, then_false rf, (then_true hg gf rf).2]

theorem bindSome {α : Type} {b c : Bool} {f : BuildFileImpl → Option α × BuildFileImpl}
    {k : α → Parse} (hf : Decides b fun s => ((f s).1.isSome, (f s).2))
    (hk : ∀ a, Decides c (k a)) : Decides (b && c) (BuildSystem.bindSome f k) := by
  refine ⟨fun s => ?_, fun s => ?_⟩ <;> have gf := hf.grows s <;> have rf := hf.result s <;>
    simp only [BuildSystem.bindSome] <;> rcases h : f s with ⟨_ | a, s'⟩ <;>
    simp only [h, Option.isSome_none, Option.isSome_some] at gf rf
  exacts [gf, (then_true (hk a) gf rf).1, then_false rf, (then_true (hk a) gf rf).2]

theorem forEach {α : Type} {b : α → Bool} {body : α → Parse} :
    ∀ {as : List α}, (∀ a ∈ as, Decides (b a) (body a)) →
      Decides (as.all b) (BuildSystem.forEach body as)
  | [], _ => ⟨Grows.refl, fun s => by simp⟩
  | a :: _, h => (h a (.head _)).andThen (forEach fun a' ha' => h a' (.tail _ ha'))

end Decides

theorem nodeIsScalarString_eq (node : Yaml.Node) (name : String) :
    nodeIsScalarString node name = (node.scalarValue? == some name) := by
  cases node <;> rfl

theorem mapM_scalarValue?_isSome (items : List Yaml.Node) :
    (items.mapM Node.scalarValue?).isSome = items.all Node.isScalar := by
  induction items with
  | nil => rfl
  | cons item items ih =>
    rw [List.mapM_cons, List.all_cons, ← ih]
    cases item <;> cases items.mapM Node.scalarValue? <;> rfl

section
variable (o : Oracle)

theorem configureAttributePair_decides (entity : Entity) (pair : Yaml.Node × Yaml.Node) :
    Decides (isScalarPair pair) (configureAttributePair o entity pair) := by
  obtain ⟨key, value⟩ := pair
  cases key with
  | scalar key =>
    cases value with
    | scalar value => exact .call fun s =>
        .configureAttribute entity key value (o.configureAttribute s.calls entity key value)
    | _ => exact .error _
  | _ => exact .error _

theorem getOrCreateTool_decides (name : String) :
    Decides true fun s => ((getOrCreateTool o name s).1.isSome, (getOrCreateTool o name s).2) := by
  refine ⟨fun s => (getOrCreateTool_sound o name s).grows, fun s => ?_⟩
  unfold getOrCreateTool
  split
  · simp
  · split <;> simp [*, BuildFileImpl.error, Call.accepted]

theorem getOrCreateNode_accepted (name : String) (isImplicit : Bool) (s : BuildFileImpl) :
    (newCalls s (getOrCreateNode name isImplicit s).2).all Call.accepted = true := by
  unfold getOrCreateNode
  split <;> simp [newCalls, Call.accepted]


theorem parseEntityEntry_decides {mapName : String}
    {resolve : String → BuildFileImpl → Option Entity × BuildFileImpl}
    (hres : ∀ name, Decides true fun s => ((resolve name s).1.isSome, (resolve name s).2))
    (entry : Yaml.Node × Yaml.Node) :
    Decides (entityWellFormed entry) (parseEntityEntry o mapName resolve entry) := by
  obtain ⟨key, value⟩ := entry
  cases key with
  | scalar name =>
    cases value with
    | mapping attrs =>
      exact (hres name).bindSome fun entity =>
        .forEach fun pair _ => configureAttributePair_decides o entity pair
    | _ => exact .error _
  | _ => exact .error _

theorem parseToolsMapping_decides (map : List (Yaml.Node × Yaml.Node)) :
    Decides (map.all entityWellFormed) (parseToolsMapping o map) := by
  refine .forEach fun entry _ => parseEntityEntry_decides o (fun name => ⟨fun s => ?_, fun s => ?_⟩) entry
  · exact (getOrCreateTool_decides o name).grows s
  · simpa using (getOrCreateTool_decides o name).result s

theorem parseNodesMapping_decides (map : List (Yaml.Node × Yaml.Node)) :
    Decides (map.all entityWellFormed) (parseNodesMapping o map) := by
  refine .forEach fun entry _ => parseEntityEntry_decides o (fun name => ⟨fun s => ?_, fun s => ?_⟩) entry
  · exact (getOrCreateNode_sound name false s).grows
  · exact (getOrCreateNode_accepted name false s).symm

end

theorem parseTargetsEntry_decides (entry : Yaml.Node × Yaml.Node) :
    Decides (targetWellFormed entry) (parseTargetsEntry entry) := by
  refine ⟨fun s => (parseTargetsEntry_closed sound_closed entry s).grows, fun s => ?_⟩
  obtain ⟨key, value⟩ := entry
  cases key with
  | scalar name =>
    cases value with
    | sequence items =>
      simp only [parseTargetsEntry, targetWellFormed, isScalarSequence, ← mapM_scalarValue?_isSome]
      cases items.mapM Node.scalarValue? <;> simp [Call.accepted]
    | _ => rfl
  | _ => rfl

theorem parseTargetsMapping_decides (map : List (Yaml.Node × Yaml.Node)) :
    Decides (map.all targetWellFormed) (parseTargetsMapping map) :=
  .forEach fun entry _ => parseTargetsEntry_decides entry

theorem resolveNodeNames_decides (key : String) (items : List Yaml.Node) :
    Decides (items.all Node.isScalar) fun s =>
      ((resolveNodeNames key items s).1.isSome, (resolveNodeNames key items s).2) := by
  refine ⟨fun s => (resolveNodeNames_closed sound_closed key items s).1.grows, ?_⟩
  induction items with
  | nil => intro s; simp [resolveNodeNames]
  | cons item items ih =>
    intro s
    cases item with
    | scalar name =>
      have hnode : true = (true && (newCalls s (getOrCreateNode name true s).2).all Call.accepted) :=
        (getOrCreateNode_accepted name true s).symm
      have := Decides.then_true ⟨fun s => (resolveNodeNames_closed sound_closed key items s).1.grows, ih⟩
        (getOrCreateNode_sound name true s).grows hnode
      simpa [resolveNodeNames] using this.2
    | _ => rfl

theorem parseTaskNodes_decides {key : String} {configure : Handle → List Handle → Call}
    (hcfg : ∀ task nodes, (configure task nodes).accepted = true) (task : Handle)
    (value : Yaml.Node) :
    Decides (isScalarSequence value) (parseTaskNodes key configure task value) := by
  cases value with
  | sequence items =>
    simpa using (resolveNodeNames_decides key items).bindSome fun nodes =>
      Decides.call_accepted (fun _ => configure task nodes) fun _ => hcfg task nodes
  | _ => exact .error _

section
variable (o : Oracle)

theorem parseTaskAttribute_decides (task : Handle) (pair : Yaml.Node × Yaml.Node) :
    Decides (taskAttributeWellFormed pair) (parseTaskAttribute o task pair) := by
  obtain ⟨key, value⟩ := pair
  simp only [parseTaskAttribute, taskAttributeWellFormed, nodeIsScalarString_eq, beq_iff_eq]
  by_cases hi : key.scalarValue? = some "inputs"
  · rw [if_pos hi, if_pos (.inl hi)]
    exact parseTaskNodes_decides (fun _ _ => by rfl) task value
  by_cases ho : key.scalarValue? = some "outputs"
  · rw [if_neg hi, if_pos ho, if_pos (.inr ho)]
    exact parseTaskNodes_decides (fun _ _ => by rfl) task value
  · rw [if_neg hi, if_neg ho, if_neg (by simp [hi, ho])]
    exact configureAttributePair_decides o (.task task) (key, value)

theorem createTask_decides (name : String) (tool : Handle) (attrs : List (Yaml.Node × Yaml.Node)) :
    Decides (attrs.all taskAttributeWellFormed) (createTask o name tool attrs) := by
  have hfirst (s : BuildFileImpl) :
      true = (true && (newCalls s (s.call (.createTask tool name))).all Call.accepted) := by
    simp [Call.accepted]
  have hlast (task : Handle) :
      Decides true fun s => (true, (s.call (.loadedTask name task)).setTask name task) :=
    ⟨fun s => (Grows.call s _).setTask name task, fun s => by simp [Call.accepted]⟩
  refine ⟨fun s => ?_, fun s => ?_⟩ <;>
    obtain ⟨gf, rf⟩ := Decides.then_true (Decides.forEach fun pair (_ : pair ∈ attrs) =>
      parseTaskAttribute_decides o s.calls.length pair) (Grows.call s _) (hfirst s) <;>
    simp only [createTask] <;>
    rcases hr : forEach (parseTaskAttribute o s.calls.length) attrs (s.call (.createTask tool name))
      with ⟨_ | _, s'⟩ <;> rw [hr] at gf rf <;> dsimp only at gf rf ⊢
  · exact gf
  · exact (Decides.then_true (hlast _) gf rf).1
  · simpa using rf
  · simpa using (Decides.then_true (hlast _) gf rf).2

theorem parseTasksEntry_decides (entry : Yaml.Node × Yaml.Node) :
    Decides (taskWellFormed entry) (parseTasksEntry o entry) := by
  obtain ⟨key, value⟩ := entry
  cases key with
  | scalar name =>
    cases value with
    | mapping attrs =>
      cases attrs with
      | nil => exact .error _
      | cons first attrs =>
        obtain ⟨key, value⟩ := first
        simp only [parseTasksEntry, taskWellFormed, ← nodeIsScalarString_eq]
        cases nodeIsScalarString key "tool"
        · exact .error _
        · cases value with
          | scalar toolName => exact (getOrCreateTool_decides o toolName).bindSome fun tool =>
              createTask_decides o name tool attrs
          | _ => exact .error _
    | _ => exact .error _
  | _ => exact .error _

theorem parseTasksMapping_decides (map : List (Yaml.Node × Yaml.Node)) :
    Decides (map.all taskWellFormed) (parseTasksMapping o map) :=
  .forEach fun entry _ => parseTasksEntry_decides o entry

end

/-- `getAsInteger(10, version)` succeeds exactly on a `uint32` numeral. -/
theorem getAsInteger_ten_isSome (value : String) :
    (StringRef.getAsInteger value 10).isSome = isUInt32Numeral value := by
  have hfold : value.foldl (fun n c => n * 10 + (c.toNat - '0'.toNat)) 0 =
      value.data.foldl StringRef.decimalStep 0 := String.foldl_eq ..
  rw [StringRef.getAsInteger_ten]
  unfold String.toNat? String.isNat isUInt32Numeral
  rw [String.all_eq, hfold]
  by_cases h : (!value.isEmpty && value.data.all Char.isDigit) = true
  · rw [if_pos h, Option.some_bind, h, Bool.true_and]
    split <;> simp_all
  · rw [if_neg h, Bool.eq_false_iff.2 h]
    rfl

/-- The loop of `parseClientMapping` gets through the mapping exactly when it is well
formed. -/
theorem collectClient_toBool (map : List (Yaml.Node × Yaml.Node))
    (acc : String × UInt32 × List (String × String)) :
    (collectClient map acc).toBool = clientWellFormed map := by
  induction map generalizing acc with
  | nil => rfl
  | cons entry map ih =>
    obtain ⟨key, value⟩ := entry
    obtain ⟨name, version, properties⟩ := acc
    cases key with
    | scalar key =>
      cases value with
      | scalar value =>
        show _ = ((key != "version" || isUInt32Numeral value) && clientWellFormed map)
        simp only [collectClient]
        split_ifs with hn hv
        · simp [hn, ih]
        · rw [hv, ← getAsInteger_ten_isSome]
          cases StringRef.getAsInteger value 10
          · rfl
          · simp [ih]
        · simp [hv, ih]
      | _ => rfl
    | _ => rfl

section
variable (o : Oracle)

theorem parseClientMapping_decides (client : List (Yaml.Node × Yaml.Node)) :
    Decides (clientWellFormed client) (parseClientMapping o client) := by
  refine ⟨fun s => (parseClientMapping_closed sound_closed o client s).grows, fun s => ?_⟩
  rw [← collectClient_toBool client ("", 0, [])]
  unfold parseClientMapping
  split
  · next heq => rw [heq]; rfl
  · next heq =>
    rw [heq]
    dsimp only
    split <;> simp [BuildFileImpl.error, Call.accepted, Except.toBool, *]

end

/-- **The section blocks of `parseRootNode` accept exactly the well-formed sections.**  When
each section parser `Decides` the schema of its name, the blocks and the trailing check
return `true` exactly when the keys left after `client` are a subsequence of the section
names, each entry is well formed, and every call is accepted. -/
theorem parseSections_decides (schema : String → List (Yaml.Node × Yaml.Node) → Bool)
    {secs : List (String × (List (Yaml.Node × Yaml.Node) → Parse))}
    (hsecs : ∀ sec ∈ secs, ∀ map, Decides (schema sec.1 map) (sec.2 map))
    (it : List (Yaml.Node × Yaml.Node)) :
    Decides (sectionsWellFormed (secs.map Prod.fst) schema it) (parseSections secs it) := by
  induction secs, it using parseSections.induct with
  | case1 => exact ⟨Grows.refl, fun s => by simp [parseSections]⟩
  | case2 entry it =>
    rw [List.map_nil, sectionsWellFormed_nil_names]
    exact .error _
  | case3 sec secs ih =>
    rw [parseSections, List.map_cons, sectionsWellFormed_nil]
    simpa using ih fun sec' h => hsecs sec' (.tail _ h)
  | case4 name parse secs key it hkey map ih =>
    rw [parseSections_of_key hkey]
    rw [nodeIsScalarString_iff] at hkey
    subst hkey
    rw [List.map_cons, sectionsWellFormed_cons_key]
    exact (hsecs _ (.head _) map).andThen (ih fun sec' h => hsecs sec' (.tail _ h))
  | case5 name parse secs key value it hkey hval =>
    rw [parseSections_of_key hkey, List.map_cons,
      sectionsWellFormed_of_entry (sectionEntryWellFormed_of_not_mapping hval) it]
    split
    · exact absurd rfl (hval _)
    · exact .error _
  | case6 name parse secs key value it hkey ih =>
    rw [parseSections_of_not_key (by simpa using hkey), List.map_cons,
      sectionsWellFormed_cons_not_key (by simpa [nodeIsScalarString_eq] using hkey)]
    exact ih fun sec' h => hsecs sec' (.tail _ h)

section
variable (o : Oracle)

theorem sections_decides :
    ∀ sec ∈ sections o, ∀ map, Decides (sectionWellFormed sec.1 map) (sec.2 map) := by
  simp only [sections, List.mem_cons, List.mem_singleton, List.not_mem_nil, or_false]
  rintro _ (rfl | rfl | rfl | rfl)
  · exact parseToolsMapping_decides o
  · exact parseTargetsMapping_decides
  · exact parseNodesMapping_decides o
  · exact parseTasksMapping_decides o

theorem parseRootNode_decides (root : Yaml.Node) (s : BuildFileImpl) :
    (parseRootNode o root s).1.isTrue =
      (rootWellFormed root && (newCalls s (parseRootNode o root s).2).all Call.accepted) := by
  match root with
  | .mapping [] => rfl
  | .mapping ((key, value) :: it) =>
    simp only [parseRootNode]
    cases hk : nodeIsScalarString key "client"
    · cases value <;> simp [rootWellFormed, ← nodeIsScalarString_eq, hk, Outcome.isTrue]
    · cases value with
      | mapping client =>
        have h := ((parseClientMapping_decides o client).andThen
          (parseSections_decides sectionWellFormed (sections_decides o) it)).result s
        simpa [rootWellFormed, ← nodeIsScalarString_eq, hk, Outcome.isTrue] using h
      | _ => rfl
  | .null | .scalar _ | .sequence _ | .alias => rfl

theorem load_decides (res : Except String (List Yaml.Node)) (s : BuildFileImpl) :
    (load o res s).1.isTrue =
      (streamWellFormed res && (newCalls s (load o res s).2).all Call.accepted) := by
  unfold load
  split
  · rfl
  · rfl
  · next root documents =>
    have h := parseRootNode_decides o root s
    rcases hr : parseRootNode o root s with ⟨⟨_ | _⟩ | ⟨⟩, s'⟩ <;> rw [hr] at h <;>
      cases documents <;> first | exact h | rfl

/-- **`load` returns `true` exactly on a well-formed build file.**  For every stream and
every answer of the delegate and the entities: the load returns `true` if and only if the
stream has exactly one document, whose root is a mapping with `client` first, mapped to
scalar pairs with a `uint32` numeral for every `version`, followed by some of `tools`,
`targets`, `nodes` and `tasks` in that order, each with the entries its parser requires
(`rootWellFormed`), and every lookup, `configureClient` and `configureAttribute` call the
load made was answered affirmatively. -/
theorem load_returns_true_iff (res : Except String (List Yaml.Node)) (s : BuildFileImpl) :
    (load o res s).1 = .returns true ↔
      (∃ root, res = .ok [root] ∧ rootWellFormed root = true) ∧
        ∀ c ∈ newCalls s (load o res s).2, c.accepted = true := by
  rw [← streamWellFormed_iff, ← List.all_eq_true, ← Bool.and_eq_true, ← load_decides]
  rcases (load o res s).1 with ⟨_ | _⟩ | ⟨⟩ <;> simp [Outcome.isTrue]

end

end BuildSystem
end Llbuild
