import LuaGlue.Proofs.Emission.Growth
import LuaGlue.Proofs.Isolation.Widened

/-!
What one state sees of a function that is bound in another one.

Classes, functions and enums stand in the header of their state. Function types and the headers of classes
inside arrays are kept for the whole run, and every header has all of them. So a function that is bound in one
state changes the header of another one where it brings a function type, or an include, that was not there
(`other_states_kept_iff`).

    Show(Panel*)               in Editor     the header of Main is kept
    OnClose(void(*)(Panel*))   in Editor     the header of Main gets a wrapper, and does not include Panel
-/

namespace LuaGlue

open Selection

/-! ### Headers of a widened registry -/

namespace StateFile

theorem contains_headersOf (r : Registry) (classes : List BoundClass) (functions : List BoundFunction) (header : String) :
    (headersOf r classes functions).contains header = true
      ↔ header ≠ "" ∧ (header ∈ classes.flatMap headersOfClass ++ functions.map (·.source)
        ∨ r.headers.contains header = true) := by
  rw [← NameSet.mem_toList, headersOf, NameSet.mem_toList_ofNames, List.mem_filter, List.mem_append, NameSet.mem_toList]
  simp [and_comm]

end StateFile

namespace Registry.Widens

variable {state cxxNamespace : String} {r r' : Registry} {file : StateFile}

theorem alike (h : Widens state r r') : r'.Alike r :=
  ⟨@congrArg _ _ r'.core r.core Registry.classes h.core, @congrArg _ _ r'.core r.core Registry.patches h.core⟩

/-- The header of the state has other includes and other wrappers for function types. -/
theorem of_eq (h : Widens state r r') (hfile : StateFile.of r cxxNamespace state = .ok file) :
    r.signatures.values.mapM (fun s => ProtoWrapper.of s r) = .ok file.protos
      ∧ file.headers = StateFile.headersOf r (r.classesForState state) file.functions
      ∧ StateFile.of r' cxxNamespace state = (r'.signatures.values.mapM fun s => ProtoWrapper.of s r).map fun protos =>
        { file with protos, headers := StateFile.headersOf r' (r.classesForState state) file.functions } := by
  have henums : r'.enums = r.enums := @congrArg _ _ r'.core r.core Registry.enums h.core
  have hproto : (fun s => ProtoWrapper.of s r') = fun s => ProtoWrapper.of s r :=
    funext fun s => ProtoWrapper.of_congr h.alike s
  have hwrapper : ∀ name f, WrapperFunction.of name f r' = WrapperFunction.of name f r :=
    WrapperFunction.of_congr h.alike
  unfold StateFile.of at hfile ⊢
  obtain ⟨protos, hprotos, hrest⟩ := bind_eq_ok.1 hfile
  obtain ⟨glue, hglue, hrest⟩ := bind_eq_ok.1 hrest
  obtain ⟨wrappers, hwrappers, hrest⟩ := bind_eq_ok.1 hrest
  cases hrest
  refine ⟨hprotos, rfl, ?_⟩
  simp only [h.alike.classesForState_eq, h.functions, ClassGlue.of_congr h.alike, hwrapper, henums, hproto, hglue,
    hwrappers]
  cases r'.signatures.values.mapM fun s => ProtoWrapper.of s r <;> rfl

/-- The header of the state has the includes it had, and those of the wider registry. -/
theorem contains_headersOf (h : Widens state r r') (hfile : StateFile.of r cxxNamespace state = .ok file)
    (header : String) : (StateFile.headersOf r' (r.classesForState state) file.functions).contains header = true
      ↔ file.headers.contains header = true ∨ header ≠ "" ∧ r'.headers.contains header = true := by
  have hmore := h.headers header
  rw [(h.of_eq hfile).2.1, StateFile.contains_headersOf, StateFile.contains_headersOf]
  tauto

theorem headersOf_eq_iff (h : Widens state r r') (hfile : StateFile.of r cxxNamespace state = .ok file) :
    StateFile.headersOf r' (r.classesForState state) file.functions = file.headers
      ↔ ∀ header, r'.headers.contains header = true → header = "" ∨ file.headers.contains header = true := by
  constructor
  · intro hsame header hheader
    by_cases hempty : header = ""
    · exact .inl hempty
    · exact .inr (hsame ▸ (h.contains_headersOf hfile header).2 (.inr ⟨hempty, hheader⟩))
  · intro hmore
    refine NameSet.ext_contains fun header => (h.contains_headersOf hfile header).trans (or_iff_left_of_imp ?_)
    rintro ⟨hempty, hheader⟩
    exact (hmore header hheader).resolve_left hempty

/-- The text of the header is kept exactly when there is no other function type, and every header that is
included in addition is included by the state anyway. -/
theorem render_kept_iff (h : Widens state r r') (hfile : StateFile.of r cxxNamespace state = .ok file) :
    (StateFile.of r' cxxNamespace state).map (·.render r') = .ok (file.render r)
      ↔ (∀ key, r'.signatures.contains key = true → r.signatures.contains key = true)
        ∧ ∀ header, r'.headers.contains header = true → header = "" ∨ file.headers.contains header = true := by
  obtain ⟨hprotos, -, hof⟩ := h.of_eq hfile
  rw [← NameMap.eq_iff_of_get? h.signatures, ← h.headersOf_eq_iff hfile, hof]
  constructor
  · intro htext
    cases hmapped : r'.signatures.values.mapM fun s => ProtoWrapper.of s r with
    | error e =>
      rw [hmapped] at htext
      cases htext
    | ok protos =>
      rw [hmapped] at htext
      have hrender : ({ file with protos, headers := StateFile.headersOf r' (r.classesForState state) file.functions }
          : StateFile).render r = file.render r := by
        rw [← StateFile.render_congr h.alike]
        exact Except.ok.inj htext
      have hentries := NameMap.sublist_of_get? h.signatures
      obtain ⟨hsame, hequal⟩ := StateFile.eq_of_render_eq r file
        (fun header hheader => (h.contains_headersOf hfile header).2 (.inl hheader))
        (sublist_of_mapM_ok (hentries.map Prod.snd) hprotos hmapped) hrender
      refine ⟨NameMap.eq_of_length_values h.signatures ?_, hsame⟩
      rw [← length_of_mapM_ok hmapped, ← length_of_mapM_ok hprotos, hequal]
  · rintro ⟨hsignatures, hsame⟩
    rw [hsignatures, hprotos, hsame]
    exact congrArg Except.ok (StateFile.render_congr h.alike file)

end Registry.Widens

/-! ### One more free function -/

/-- One more free function is declared, after the other functions of a run that succeeds. It is bound in the state of
its request, and its types name classes that are registered without it. -/
structure Addition (patches : Patches) (headers : NameSet) (pre post : List (Except DeclarationError Declaration))
    (f : DeclaredFunction) (request : FunctionRequest) (s : Selection) : Prop where
  run : (start { patches, headers }).runAll (pre ++ post) = (s, none)
  last : ∀ item ∈ post, ∃ e, item = .ok (.enum e)
  free : f.owner = none
  unasked : (Annotations.parse f.comment).get? "LuaStateTypes" = none
  requested : ((start { patches, headers }).meeting pre post f).grant? f = some request
  registered : ∀ t ∈ ((start { patches, headers }).meeting pre post f).typesOf f, ∀ ref ∈ t.refs,
    ∃ c ∈ s.registry.classes, c.scope = ref.scope ∧ c.name = ref.name
  bound : ∀ luaName ∈ request.names, ∃ g,
    ((start { patches, headers }).runAll (pre ++ .ok (.function f) :: post)).1.registry.functions.get?
      (Scope.qualify request.scope luaName) = some g ∧ g.state = some request.state

namespace Addition

variable {patches : Patches} {headers : NameSet} {pre post : List (Except DeclarationError Declaration)}
variable {f : DeclaredFunction} {request : FunctionRequest} {s : Selection}
variable (h : Addition patches headers pre post f request s)

include h

theorem register_eq (t : Selection) : t.register (.function f) = (t.registerFunction f, none) := by
  rw [Selection.register, h.free]
  rfl

/-- What the run with the function has assembled, and what the run without it has. -/
theorem widened : Widened request (((start { patches, headers }).meeting pre post f).typesOf f)
    ((start { patches, headers }).complete (pre ++ post))
    ((start { patches, headers }).complete (pre ++ .ok (.function f) :: post)) := by
  obtain ⟨-, hregisters, -⟩ := passes_of_run h.run
  have hrequest := h.requested
  rw [meeting, learnAll_without _ h.unasked] at hrequest ⊢
  rw [complete, complete, learnAll_without _ h.unasked]
  generalize ((start { patches, headers }).learnAll (pre ++ post)).1 = learned at hregisters hrequest ⊢
  rw [registerAll_append] at hregisters
  rw [registerAll_append, registerAll_append]
  cases hpre : learned.registerAll pre with
  | mk t stop =>
    rw [hpre] at hregisters hrequest
    cases stop with
    | some e => cases hregisters
    | none =>
      simp only
      rw [Selection.registerAll, h.register_eq]
      exact (plants_registerFunction hrequest).widened h.last

/-- The run with the function succeeds too. -/
theorem ends : ((start { patches, headers }).runAll (pre ++ .ok (.function f) :: post)).2 = none := by
  have hregister := h.register_eq ((start { patches, headers }).meeting pre post f)
  have hbeside : Beside (placesOf request) none False
      (((start { patches, headers }).meeting pre post f).register (.function f)).1
      ((start { patches, headers }).meeting pre post f) := by
    rw [hregister]
    exact (plants_registerFunction h.requested).beside
  have hends := (runAll_agree h.unasked (placed_complete patches headers) hbeside (by rw [hregister])).1
  rwa [h.run] at hends

theorem settled : s.registry = ((start { patches, headers }).complete (pre ++ post)).settled :=
  (passes_of_run h.run).2.2

theorem settled_whole : ((start { patches, headers }).runAll (pre ++ .ok (.function f) :: post)).1.registry
    = ((start { patches, headers }).complete (pre ++ .ok (.function f) :: post)).settled :=
  (passes_of_run (eq_of_ends h.ends)).2.2

/-- What is bound at the places of the function in the end. -/
theorem bound_settled : ∀ p ∈ placesOf request, ∃ g, ((start { patches, headers }).complete
    (pre ++ .ok (.function f) :: post)).settled.bound? p = some g ∧ g.state = some request.state := by
  intro p hp
  obtain ⟨luaName, hname, rfl⟩ := List.mem_map.1 hp
  rw [← h.settled_whole]
  exact h.bound luaName hname

/-- For another state the run with the function only widens the registry. -/
theorem widens {state : String} (hstate : state ≠ request.state) : Registry.Widens state s.registry
    ((start { patches, headers }).runAll (pre ++ .ok (.function f) :: post)).1.registry := by
  rw [h.settled, h.settled_whole]
  exact h.widened.widens (placed_complete patches headers _) (placed_complete patches headers _)
    (h.settled ▸ h.registered) h.bound_settled hstate

end Addition

/-- CORRECT: a run with one more free function, which is bound in one state, succeeds too. The header of another state
keeps its text exactly when no other function type is recorded, and every header that is included in addition is
included there anyway. What is recorded in addition are function types of the function, and what is included in
addition are headers of classes inside arrays in its types. -/
theorem other_states_kept_iff (patches : Patches) (headers : NameSet)
    (pre post : List (Except DeclarationError Declaration)) (f : DeclaredFunction) (request : FunctionRequest)
    (s : Selection) (h : Addition patches headers pre post f request s) :
    let types := ((start { patches, headers }).meeting pre post f).typesOf f
    let whole := (start { patches, headers }).runAll (pre ++ .ok (.function f) :: post)
    whole.2 = none
      ∧ (∀ state, state ≠ request.state → ∀ cxxNamespace file, StateFile.of s.registry cxxNamespace state = .ok file →
        ((StateFile.of whole.1.registry cxxNamespace state).map (·.render whole.1.registry)
            = .ok (file.render s.registry)
          ↔ (∀ key, whole.1.registry.signatures.contains key = true → s.registry.signatures.contains key = true)
            ∧ ∀ header, whole.1.registry.headers.contains header = true →
              header = "" ∨ file.headers.contains header = true))
      ∧ (∀ key, whole.1.registry.signatures.contains key = true → s.registry.signatures.contains key = true
        ∨ ∃ t ∈ types, ∃ sig ∈ t.signatures, sig.wrapperName = .ok key)
      ∧ ∀ header, whole.1.registry.headers.contains header = true → s.registry.headers.contains header = true
        ∨ ∃ t ∈ types, ∃ ref ∈ t.held false, ∃ c ∈ s.registry.classes,
          c.qualified = ref.qualified ∧ c.source = header := by
  intro types whole
  have hplaced := placed_complete patches headers (pre ++ post)
  have hplaced' := placed_complete patches headers (pre ++ .ok (.function f) :: post)
  have hclasses := h.registered
  rw [h.settled] at hclasses
  refine ⟨h.ends, fun state hstate cxxNamespace file hfile => (h.widens hstate).render_kept_iff hfile,
    fun key hkey => ?_, fun header hheader => ?_⟩
  · rw [h.settled]
    exact h.widened.signatures_settled_or hplaced hplaced' (h.settled_whole ▸ hkey)
  · rw [h.settled]
    exact h.widened.headers_settled_or hplaced hplaced' (Registry.kept_of_bound h.bound_settled) hclasses
      (h.settled_whole ▸ hheader)

/-- A class and a function: `Panel` is bound in the state `Editor`, and `Load` in `Main`. -/
def panelAndLoad : List (Except DeclarationError Declaration) :=
  [.ok (.record { name := "Panel", scope := "", source := "panel.hpp", line := none,
                  comment := "CUSTOM_ATTRIBUTE[Lua(Editor)]", bases := [], hasDefaultConstructor := false }),
   .ok (.function loadSlot)]

/-- A free function of the header `panel.hpp` that asks to be bound in the state `Editor`. -/
def editing (name : String) (params : List DeclaredParam) : DeclaredFunction :=
  { spawning name params with comment := "CUSTOM_ATTRIBUTE[Lua(Editor)]", source := "panel.hpp" }

/-- `Show` takes a `Panel`. -/
def showPanel : DeclaredFunction := editing "Show" [⟨"panel", "Panel*"⟩]

/-- `OnClose` takes a function that takes a `Panel`. -/
def onClose : DeclaredFunction := editing "OnClose" [⟨"callback", "void(*)(Panel*)"⟩]

/-- One more function at the end of a stream, from what can be computed of it. -/
theorem Addition.of_computed {stream : List (Except DeclarationError Declaration)} {f : DeclaredFunction}
    {request : FunctionRequest} (hends : ((start {}).runAll stream).2 = none) (hfree : f.owner = none)
    (hunasked : (Annotations.parse f.comment).get? "LuaStateTypes" = none)
    (hrequested : ((start {}).meeting stream [] f).grant? f = some request)
    (hregistered : ∀ t ∈ ((start {}).meeting stream [] f).typesOf f, ∀ ref ∈ t.refs,
      ∃ c ∈ ((start {}).runAll stream).1.registry.classes, c.scope = ref.scope ∧ c.name = ref.name)
    (hbound : ∀ luaName ∈ request.names, (((start {}).runAll (stream ++ [.ok (.function f)])).1.registry.functions.get?
      (Scope.qualify request.scope luaName)).any (fun g => g.state == some request.state) = true) :
    Addition {} ∅ stream [] f request ((start {}).runAll stream).1 where
  run := by
    rw [List.append_nil]
    exact eq_of_ends hends
  last := nofun
  free := hfree
  unasked := hunasked
  requested := hrequested
  registered := hregistered
  bound := fun luaName hname => by
    obtain ⟨g, hg, hstate⟩ := (Option.any_eq_true ..).1 (hbound luaName hname)
    exact ⟨g, hg, beq_iff_eq.1 hstate⟩

/-- `Show` in `Editor` leaves the header of `Main` alone: its types hold no function type and no array. -/
theorem main_kept_beside_show : ∃ request file,
    Addition {} ∅ panelAndLoad [] showPanel request ((start {}).runAll panelAndLoad).1 ∧ request.state = "Editor"
    ∧ StateFile.of ((start {}).runAll panelAndLoad).1.registry "Glue" "Main" = .ok file
    ∧ (StateFile.of ((start {}).runAll (panelAndLoad ++ [.ok (.function showPanel)])).1.registry "Glue" "Main").map
        (·.render ((start {}).runAll (panelAndLoad ++ [.ok (.function showPanel)])).1.registry)
      = .ok (file.render ((start {}).runAll panelAndLoad).1.registry) := by
  have hadds : Addition {} ∅ panelAndLoad [] showPanel ⟨"Editor", "", ["Show"]⟩ ((start {}).runAll panelAndLoad).1 :=
    .of_computed (by decide +kernel) rfl (by decide +kernel) (by decide +kernel) (by decide +kernel) (by decide +kernel)
  have hsome : (StateFile.of ((start {}).runAll panelAndLoad).1.registry "Glue" "Main").toOption.any (fun _ => true)
      = true := by
    decide +kernel
  obtain ⟨file, hfile, -⟩ := exists_ok_of_any hsome
  obtain ⟨-, hkept, hsignatures, hheaders⟩ := other_states_kept_iff {} ∅ panelAndLoad [] showPanel _ _ hadds
  have hplain : ∀ t ∈ ((start {}).meeting panelAndLoad [] showPanel).typesOf showPanel,
      t.signatures = [] ∧ t.held false = [] := by
    decide +kernel
  have hnone : ((start {}).runAll panelAndLoad).1.registry.headers.toList = [] := by decide +kernel
  refine ⟨_, file, hadds, rfl, hfile, (hkept "Main" (by decide) "Glue" file hfile).2
    ⟨fun key hkey => (hsignatures key hkey).resolve_right ?_, fun header hheader => ?_⟩⟩
  · rintro ⟨t, ht, sig, hsig, -⟩
    rw [(hplain t ht).1] at hsig
    cases hsig
  · rcases hheaders header hheader with hold | ⟨t, ht, ref, href, -⟩
    · rw [← NameSet.mem_toList, hnone] at hold
      cases hold
    · rw [(hplain t ht).2] at href
      cases href

/-- `OnClose` in `Editor` leaks into the header of `Main`: it gets a wrapper for functions of a `Panel`, and does not
include the header of that class. -/
theorem close_leaks_to_main : ∃ request file file',
    Addition {} ∅ panelAndLoad [] onClose request ((start {}).runAll panelAndLoad).1 ∧ request.state = "Editor"
    ∧ StateFile.of ((start {}).runAll panelAndLoad).1.registry "Glue" "Main" = .ok file
    ∧ StateFile.of ((start {}).runAll (panelAndLoad ++ [.ok (.function onClose)])).1.registry "Glue" "Main" = .ok file'
    ∧ file'.render ((start {}).runAll (panelAndLoad ++ [.ok (.function onClose)])).1.registry
      ≠ file.render ((start {}).runAll panelAndLoad).1.registry
    ∧ file.protos = [] ∧ file'.protos.map ProtoWrapper.name = ["Ret_void_Params_PanelPtr"]
    ∧ file'.headers.contains "panel.hpp" = false := by
  have hadds : Addition {} ∅ panelAndLoad [] onClose ⟨"Editor", "", ["OnClose"]⟩ ((start {}).runAll panelAndLoad).1 :=
    .of_computed (by decide +kernel) rfl (by decide +kernel) (by decide +kernel) (by decide +kernel) (by decide +kernel)
  have hbefore : (StateFile.of ((start {}).runAll panelAndLoad).1.registry "Glue" "Main").toOption.any
      (fun file => decide (file.protos = [])) = true := by
    decide +kernel
  have hafter : (StateFile.of ((start {}).runAll (panelAndLoad ++ [.ok (.function onClose)])).1.registry "Glue"
      "Main").toOption.any (fun file => decide (file.protos.map ProtoWrapper.name = ["Ret_void_Params_PanelPtr"])
        && !file.headers.contains "panel.hpp") = true := by
    decide +kernel
  obtain ⟨file, hfile, hprotos⟩ := exists_ok_of_any hbefore
  obtain ⟨file', hfile', htest⟩ := exists_ok_of_any hafter
  simp only [Bool.and_eq_true, Bool.not_eq_true', decide_eq_true_eq] at hprotos htest
  refine ⟨_, file, file', hadds, rfl, hfile, hfile', fun hsame => ?_, hprotos, htest⟩
  -- The wrapper is recorded with the function and not without it.
  have hrecorded := ((hadds.widens (show "Main" ≠ "Editor" by decide)).render_kept_iff hfile).1
    (by rw [hfile']; exact congrArg Except.ok hsame)
  exact absurd (hrecorded.1 "Ret_void_Params_PanelPtr" (by decide +kernel)) (by decide +kernel)

end LuaGlue
