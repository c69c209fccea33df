import LuaGlue.Proofs.Emission.Wrappers
import LuaGlue.Proofs.Selection.Pruned
import LuaGlue.Proofs.Selection.Stock

/-!
When a run that has registered everything is also rendered.

A function that is left after a run resolves, so the classes in it never stop a wrapper: only the shape of
its types can. A recorded function type is kept even when the function it came from is dropped, so for
the result of one the class still matters.

    generated function      shape of parameters and result
    recorded function type  shape of parameters, shape and class of the result
-/

namespace LuaGlue

/-- Every class counts as held, so only the shape of a type is asked for. -/
def anyClass : ClassRef → Bool := fun _ => true

theorem all_congr_of_mem {α : Type} {l : List α} {p q : α → Bool} (h : ∀ a ∈ l, p a = q a) :
    l.all p = l.all q := by
  induction l with
  | nil => rfl
  | cons a l ih =>
    rw [List.all_cons, List.all_cons, h a List.mem_cons_self, ih fun b hb => h b (List.mem_cons_of_mem _ hb)]

/-! ### Types that resolve -/

section Resolved

variable {registry : Registry} {held : ClassRef → Bool}

theorem holds_of_reach {ref : ClassRef} {inArray : Bool} {met : Reached}
    (h : (ref.reach registry ⟨false, inArray⟩ met).2 = none) : registry.holds ref = true := by
  unfold ClassRef.reach at h
  unfold Registry.holds
  cases hfind : registry.find? ref.scope ref.name with
  | some c => rfl
  | none =>
    rw [hfind] at h
    cases h

theorem reach_of_mem_reachAll {standing : Standing} {ts : List CxxType} {met : Reached}
    (h : (reachAll registry standing ts met).2 = none) {t : CxxType} (ht : t ∈ ts) :
    ∃ met, (t.reach registry standing met).2 = none := by
  induction ts generalizing met with
  | nil => cases ht
  | cons first rest ih =>
    rw [reachAll] at h
    split at h
    · next next hfirst =>
      rcases List.mem_cons.1 ht with rfl | hrest
      · exact ⟨met, by rw [hfirst]⟩
      · exact ih h hrest
    · next hfirst => exact (hfirst _ (Prod.ext rfl h)).elim

/-- Where a value is not only read, the class of the type is held. -/
theorem pushable_of_reach (hheld : ∀ ref, registry.holds ref = true → held ref = true) {t : CxxType}
    {inArray : Bool} {met : Reached} (h : (t.reach registry ⟨false, inArray⟩ met).2 = none) :
    t.pushable held = t.pushable anyClass := by
  cases t with
  | record ref m =>
    rw [CxxType.reach] at h
    exact hheld ref (holds_of_reach h)
  | _ => rfl

theorem retrievable_of_reach (hheld : ∀ ref, registry.holds ref = true → held ref = true) {t : CxxType}
    {inArray : Bool} {met : Reached} (h : (t.reach registry ⟨false, inArray⟩ met).2 = none) :
    t.retrievable held = t.retrievable anyClass := by
  cases t with
  | record ref m =>
    rw [CxxType.reach] at h
    rw [CxxType.retrievable, CxxType.retrievable, hheld ref (holds_of_reach h)]
    rfl
  | _ => rfl

theorem returnable_of_reach (hheld : ∀ ref, registry.holds ref = true → held ref = true) {t : CxxType}
    {inArray : Bool} {met : Reached} (h : (t.reach registry ⟨false, inArray⟩ met).2 = none) :
    t.returnable held = t.returnable anyClass := by
  rw [CxxType.returnable, CxxType.returnable, pushable_of_reach hheld h]

/-- For a parameter that resolves only the shape decides: the classes inside a function type are held. -/
theorem extractable_of_reach (hheld : ∀ ref, registry.holds ref = true → held ref = true) {t : CxxType}
    {standing : Standing} {met : Reached} (h : (t.reach registry standing met).2 = none) :
    t.extractable held = t.extractable anyClass := by
  cases t with
  | function params result hasStorage m =>
    rw [CxxType.reach] at h
    split at h
    · next met' hparams =>
      have hpush : ∀ t ∈ params, t.pushable held = t.pushable anyClass := by
        intro t ht
        obtain ⟨met, hmet⟩ := reach_of_mem_reachAll (by rw [hparams]) ht
        exact pushable_of_reach hheld hmet
      rw [CxxType.extractable, CxxType.extractable, Signature.closable, Signature.closable,
        all_congr_of_mem hpush, retrievable_of_reach hheld h]
    · next hparams => exact (hparams _ (Prod.ext rfl h)).elim
  | _ => rfl

/-- A function type with a name has no function types for parameters, so their classes do not matter. -/
theorem extractable_of_isNamed {t : CxxType} (h : t.isNamed = true) :
    t.extractable held = t.extractable anyClass := by
  cases t with
  | function _ _ _ _ => cases h
  | _ => rfl

end Resolved

/-! ### Functions that resolve -/

/-- Are the types of a function of shapes that have code, whatever classes there are? -/
def BoundFunction.hasShape (f : BoundFunction) : Bool :=
  f.paramTypes.all (·.extractable anyClass) && f.result.returnable anyClass

/-- Does a function type have a wrapper, once it has a name? -/
def Signature.isServed (held : ClassRef → Bool) (s : Signature) : Bool :=
  s.params.all (·.extractable anyClass) && s.result.returnable held

theorem all_paramTypes (f : BoundFunction) (test : CxxType → Bool) :
    f.paramTypes.all test = f.overloads.all fun o => o.all fun param => test param.type := by
  unfold BoundFunction.paramTypes
  rw [List.all_flatMap]
  simp only [List.all_map, Function.comp_def]

theorem wrappable_of_resolves {registry : Registry} {held : ClassRef → Bool}
    (hheld : ∀ ref, registry.holds ref = true → held ref = true) {f : BoundFunction}
    (hresolves : registry.Resolves f) (hoverloads : f.overloads ≠ []) : f.wrappable held = f.hasShape := by
  obtain ⟨met, h⟩ := hresolves
  unfold BoundFunction.reach at h
  split at h
  · next met' hparams =>
    have hextract : ∀ t ∈ f.paramTypes, t.extractable held = t.extractable anyClass := by
      intro t ht
      obtain ⟨met, hmet⟩ := reach_of_mem_reachAll (by rw [hparams]) ht
      exact extractable_of_reach hheld hmet
    have hsome : f.overloads.isEmpty = false := by simpa using hoverloads
    rw [BoundFunction.wrappable, BoundFunction.callable, BoundFunction.hasShape, ← all_paramTypes,
      all_congr_of_mem hextract, returnable_of_reach hheld h, hsome]
    rfl
  · next hparams => exact (hparams _ (Prod.ext rfl h)).elim

theorem wrappable_of_named {s : Signature} {key : String} (hname : s.wrapperName = .ok key)
    (held : ClassRef → Bool) : s.wrappable held = s.isServed held := by
  have hflat : s.isFlat = true := by
    rw [← Signature.isOk_wrapperName, hname]
    rfl
  have hnamed : ∀ t ∈ s.params, t.isNamed = true := List.all_eq_true.1 (Bool.and_eq_true_iff.1 hflat).1
  have hextract : ∀ t ∈ s.params, t.extractable held = t.extractable anyClass :=
    fun t ht => extractable_of_isNamed (hnamed t ht)
  rw [Signature.wrappable, Signature.isServed, hflat, all_congr_of_mem hextract, Bool.true_and]

/-! ### State files of a run -/

/-- A member that is left and not redirected resolves, and it has overloads. -/
theorem resolves_of_mem_kind {s : Selection} (hstocked : s.registry.Stocked) {c : BoundClass}
    (hc : c ∈ s.settled.classes) (hexposed : c.isExposed = true) {kind : MemberKind}
    (hkind : kind ∈ Selection.generatedKinds) {f : BoundFunction} (hf : f ∈ (c.members kind).values)
    (hdirected : kind = .constructor ∨ f.isRedirector = false) :
    s.registry.Resolves f ∧ f.overloads ≠ [] := by
  obtain ⟨whole, hwhole, hin, hresolves⟩ :=
    (s.survivors hstocked.placed).members c hc hexposed kind hkind f hf
  have hstock := hstocked.classes whole hwhole
  have hdirect : f.isRedirector = false := by
    rcases hdirected with rfl | h
    · exact hstock.constructed f hin
    · exact h
  have hgenerated : kind ≠ .metamethod := by
    rintro rfl
    simp [Selection.generatedKinds] at hkind
  obtain ⟨hwrapper, hoverloads⟩ := hstock.direct kind hgenerated f hin hdirect
  exact ⟨hresolves hwrapper, hoverloads⟩

theorem resolves_of_mem_class {s : Selection} (hstocked : s.registry.Stocked) {c : BoundClass}
    (hc : c ∈ s.settled.classes) (hexposed : c.isExposed = true) {f : BoundFunction}
    (hf : f ∈ c.generated) : s.registry.Resolves f ∧ f.overloads ≠ [] := by
  rcases List.mem_append.1 hf with hconstructor | hwrapped
  · have hmem : f ∈ c.constructors.values := NameMap.mem_values_of_get? (Option.mem_toList.1 hconstructor)
    exact resolves_of_mem_kind hstocked hc hexposed (by decide : MemberKind.constructor ∈ Selection.generatedKinds)
      hmem (.inl rfl)
  · rcases List.mem_append.1 hwrapped with hfunction | hstatic
    · obtain ⟨hmem, htest⟩ := List.mem_filter.1 hfunction
      have hdirect : f.isRedirector = false := by simpa using (Bool.and_eq_true_iff.1 htest).1
      exact resolves_of_mem_kind hstocked hc hexposed (by decide : MemberKind.function ∈ Selection.generatedKinds)
        hmem (.inr hdirect)
    · obtain ⟨hmem, htest⟩ := List.mem_filter.1 hstatic
      have hdirect : f.isRedirector = false := by simpa using htest
      exact resolves_of_mem_kind hstocked hc hexposed (by decide : MemberKind.static ∈ Selection.generatedKinds)
        hmem (.inr hdirect)

/-- A function that a state file has code for resolves, and it has overloads. -/
theorem resolves_of_mem_generated {s : Selection} (hstocked : s.registry.Stocked) {state : String}
    {f : BoundFunction} (hf : f ∈ s.settled.generated state) : s.registry.Resolves f ∧ f.overloads ≠ [] := by
  rcases List.mem_append.1 hf with hmember | hfree
  · obtain ⟨c, hc, hf⟩ := List.mem_flatMap.1 hmember
    obtain ⟨hclass, hreaches⟩ := List.mem_filter.1 hc
    exact resolves_of_mem_class hstocked hclass (Bool.and_eq_true_iff.1 hreaches).1 hf
  · obtain ⟨hmem, hown⟩ := List.mem_filter.1 hfree
    have hwrapper : f.wrapperName = none := by simpa using (Bool.and_eq_true_iff.1 hown).2
    obtain ⟨hin, hresolves⟩ :=
      (s.survivors hstocked.placed).functions f (List.mem_filter.1 hmem).1 hwrapper
    exact ⟨hresolves, hstocked.functions f hin hwrapper⟩

/-- The registry of a run that succeeds is a complete one, settled. -/
theorem exists_settled {registry : Registry} {sources : List DeclarationSource} {summary : Summary}
    (h : (registry.select sources).outcome = .ok summary) :
    ∃ complete : Selection, Registry.Changes registry complete.registry
      ∧ (registry.select sources).registry = complete.settled := by
  obtain ⟨s, hrun, hregistry⟩ := Selection.exists_run_of_select h
  rw [hregistry]
  exact Selection.run_changes hrun

/-- CORRECT: after a run that succeeds, the files of its registry are rendered exactly when, unless no
state is bound, every recorded function type is served and the types of every generated function are of
shapes that have code. -/
theorem rendered_after_selection_iff (patches : Patches) (headers : NameSet)
    (sources : List DeclarationSource) (cxxNamespace : String) (summary : Summary)
    (hselected : (({ patches, headers } : Registry).select sources).outcome = .ok summary) :
    let registry := (({ patches, headers } : Registry).select sources).registry
    (∃ files, (registry.renderAll cxxNamespace).files = .ok files)
      ↔ ∀ state ∈ registry.states.toList, (∀ s ∈ registry.signatures.values, s.isServed registry.holds = true)
        ∧ ∀ f ∈ registry.generated state, f.hasShape = true := by
  intro registry
  obtain ⟨complete, hchanges, hsettled⟩ := exists_settled hselected
  have hstocked := (Registry.Stocked.empty patches headers).changes hchanges
  have hsurvivors := complete.survivors hstocked.placed
  have hregistry : registry = complete.settled := hsettled
  rw [hregistry, Registry.renderAll_ok_iff]
  refine forall₂_congr fun state _ => and_congr (forall₂_congr fun s hs => ?_) (forall₂_congr fun f hf => ?_)
  · rw [hsurvivors.signatures] at hs
    obtain ⟨key, hname⟩ := hstocked.signatures s hs
    rw [wrappable_of_named hname]
  · obtain ⟨hresolves, hoverloads⟩ := resolves_of_mem_generated hstocked hf
    rw [wrappable_of_resolves hsurvivors.holds hresolves hoverloads]

/-- A file that declares `Find`, which takes a callback. -/
def callbackSource : DeclarationSource where
  path := "find.toml"
  text := some "source='find.hpp'\n[[function]]\nname='Find'\ncomment='CUSTOM_ATTRIBUTE[Lua(Main)]'\nparams=[['test','bool(*)(int)']]"

theorem callback_rendered : ∃ summary, (Registry.select {} [callbackSource]).outcome = .ok summary
    ∧ ∃ files, ((Registry.select {} [callbackSource]).registry.renderAll "Glue").files = .ok files := by
  have hrun : (Registry.select {} [callbackSource]).outcome.isOk = true
      ∧ ∀ state ∈ (Registry.select {} [callbackSource]).registry.states.toList,
        (∀ s ∈ (Registry.select {} [callbackSource]).registry.signatures.values,
          s.isServed (Registry.select {} [callbackSource]).registry.holds = true)
        ∧ ∀ f ∈ (Registry.select {} [callbackSource]).registry.generated state, f.hasShape = true := by
    decide +kernel
  obtain ⟨summary, hsummary⟩ := isOk_iff.1 hrun.1
  exact ⟨summary, hsummary, (rendered_after_selection_iff {} ∅ [callbackSource] "Glue" summary hsummary).2 hrun.2⟩

/-- A file that declares `Spawn`, which takes a callback that makes a `Gone`. No class of this name is
declared. -/
def danglingSource : DeclarationSource where
  path := "spawn.toml"
  text := some "source='spawn.hpp'\n[[function]]\nname='Spawn'\ncomment='CUSTOM_ATTRIBUTE[Lua(Main)]'\nparams=[['make','struct Gone(*)(int)']]"

/-- `Spawn` is dropped, but the type of its callback stays recorded and stops the rendering. -/
theorem dangling_stops_rendering : ∃ summary, (Registry.select {} [danglingSource]).outcome = .ok summary
    ∧ ((Registry.select {} [danglingSource]).registry.renderAll "Glue").files = .error (.missingOwner "::Gone") := by
  have hrun : (Registry.select {} [danglingSource]).outcome.isOk = true
      ∧ ((Registry.select {} [danglingSource]).registry.renderStates "Glue"
        (Registry.select {} [danglingSource]).registry.states.toList).2 = some (.missingOwner "::Gone") := by
    decide +kernel
  obtain ⟨summary, hsummary⟩ := isOk_iff.1 hrun.1
  refine ⟨summary, hsummary, ?_⟩
  unfold Registry.renderAll
  simp only [hrun.2]

end LuaGlue
