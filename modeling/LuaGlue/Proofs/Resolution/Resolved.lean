import LuaGlue.Proofs.Emission.Parts
import LuaGlue.Proofs.Emission.Types
import LuaGlue.Proofs.Resolution.Lookups
import LuaGlue.Proofs.Selection.Learned
import LuaGlue.Proofs.Selection.Settled

/-!
The functions that are left find their classes.

A type uses classes, at any depth, and each use is either one where a value is only read or one where it is
also made. The walk through a type stops at the first use of a class that is missing (`missing_reach`), so a
function is dropped exactly when one of its uses is (`misses_iff`). The other way round every class of a
function that is left is registered in the end: it was declared, or it was noted and has been made thin.
Code for such a function never stops at a class.

    uses ──none missing──▶ every class declared or noted ──▶ every class registered ──▶ every lookup finds
-/

namespace LuaGlue

open Selection

/-! ### Uses of classes -/

/-- A class where a type names it. -/
structure ClassUse where
  ref : ClassRef
  /-- Is it a parameter, or inside an array that is one? Then a value of it is only read. -/
  onlyRead : Bool
  deriving DecidableEq, Repr

namespace CxxType

mutual

/-- The uses of classes in a type. Nothing inside a function type is only read. -/
def uses (onlyRead : Bool) : CxxType → List ClassUse
  | .record ref _ => [⟨ref, onlyRead⟩]
  | .function params result _ _ => usesOf false params ++ uses false result
  | .array _ element _ => uses onlyRead element
  | .void _ | .numeric _ _ | .bool _ | .text _ _ | .enum _ _ => []

/-- The uses of classes in these types. -/
def usesOf (onlyRead : Bool) : List CxxType → List ClassUse
  | [] => []
  | t :: rest => uses onlyRead t ++ usesOf onlyRead rest

end

end CxxType

/-- The uses of classes in the types of a function. -/
def BoundFunction.uses (f : BoundFunction) : List ClassUse :=
  CxxType.usesOf true f.paramTypes ++ f.result.uses false

namespace Registry

variable {r : Registry}

/-- Is the class missing? It is if it is not registered, unless it was written with a keyword where a value
is only read. -/
def lacks (r : Registry) (use : ClassUse) : Bool :=
  !r.holds use.ref && !(use.onlyRead && use.ref.forward.isSome)

/-- Why a type with these uses cannot be bound. -/
def refusal (r : Registry) (uses : List ClassUse) : Option SkipReason :=
  (uses.find? r.lacks).map fun use => .unknownClass use.ref.qualified

theorem refusal_append (uses rest : List ClassUse) :
    r.refusal (uses ++ rest) = (r.refusal uses).or (r.refusal rest) := by
  rw [refusal, List.find?_append]
  cases h : uses.find? r.lacks <;> simp [refusal, h]

theorem refusal_isSome {uses : List ClassUse} :
    (r.refusal uses).isSome = true ↔ ∃ use ∈ uses, r.lacks use = true := by
  rw [refusal, Option.isSome_map, List.find?_isSome]

mutual

/-- What stops the walk through a type is the first use that is missing. -/
theorem missing_reach (r : Registry) (standing : Standing) (met : Reached) :
    ∀ t : CxxType, (t.reach r standing met).2 = r.refusal (t.uses standing.onlyRead)
  | .record ref _ => by
    rw [CxxType.reach, CxxType.uses, ClassRef.reach, refusal, List.find?_cons, lacks, holds]
    cases r.find? ref.scope ref.name with
    | some c => rfl
    | none => cases standing.onlyRead && ref.forward.isSome <;> simp
  | .function params result _ _ => by
    have hparams := missing_reachAll r { standing with onlyRead := false } met params
    rw [CxxType.reach, CxxType.uses, refusal_append]
    cases hwalk : reachAll r { standing with onlyRead := false } params met with
    | mk met' reason =>
      rw [hwalk] at hparams
      rw [← hparams]
      cases reason with
      | none => exact missing_reach r { standing with onlyRead := false } met' result
      | some reason => rfl
  | .array _ element _ => by
    rw [CxxType.reach, CxxType.uses]
    exact missing_reach r { standing with inArray := true } met element
  | .void _ | .numeric _ _ | .bool _ | .text _ _ | .enum _ _ => by
    rw [CxxType.reach, CxxType.uses]
    rfl

theorem missing_reachAll (r : Registry) (standing : Standing) (met : Reached) :
    ∀ ts : List CxxType, (reachAll r standing ts met).2 = r.refusal (CxxType.usesOf standing.onlyRead ts)
  | [] => by
    rw [reachAll, CxxType.usesOf]
    rfl
  | t :: rest => by
    have hfirst := missing_reach r standing met t
    rw [reachAll, CxxType.usesOf, refusal_append]
    cases hwalk : t.reach r standing met with
    | mk met' reason =>
      rw [hwalk] at hfirst
      rw [← hfirst]
      cases reason with
      | none => exact missing_reachAll r standing met' rest
      | some reason => rfl

end

theorem missing_reach_function (r : Registry) (f : BoundFunction) (met : Reached) :
    (f.reach r met).2 = r.refusal f.uses := by
  have hparams := missing_reachAll r ⟨true, false⟩ met f.paramTypes
  rw [BoundFunction.reach, BoundFunction.uses, refusal_append]
  cases hwalk : reachAll r ⟨true, false⟩ f.paramTypes met with
  | mk met' reason =>
    rw [hwalk] at hparams
    rw [← hparams]
    cases reason with
    | none => exact missing_reach r ⟨false, false⟩ met' f.result
    | some reason => rfl

/-- A function is dropped for a class that one of its types uses and that is missing. -/
theorem misses_iff {f : BoundFunction} :
    r.misses f = true ↔ f.wrapperName = none ∧ ∃ use ∈ f.uses, r.lacks use = true := by
  rw [misses, missing_reach_function, Bool.and_eq_true, Option.isNone_iff_eq_none, refusal_isSome]

/-- A generated function is kept when no class that it uses is missing. -/
theorem misses_eq_false_iff_lacks {f : BoundFunction} (hdirect : f.wrapperName = none) :
    r.misses f = false ↔ ∀ use ∈ f.uses, r.lacks use = false := by
  rw [Bool.eq_false_iff, Ne, misses_iff, and_iff_right hdirect]
  simp only [not_exists, not_and, Bool.not_eq_true]

end Registry

/-! ### What is left -/

namespace Selection

/-- A function that is left resolves, up to noted classes. -/
theorem resolvesWithin_of_binds (s : Selection) (hplaced : s.registry.Placed) {f : BoundFunction}
    (hbinds : s.settled.Binds f) (hdirect : f.wrapperName = none) :
    f.ResolvesWithin s.registry (survey s.registry).met := by
  rcases hbinds with hfree | ⟨c, hc, kind, hkind, hf⟩
  · exact (s.resolvedWithin hplaced).functions f hfree hdirect
  · obtain ⟨hmem, hexposed⟩ := List.mem_filter.1 hc
    exact (s.resolvedWithin hplaced).members c hmem hexposed kind hkind f hf hdirect

/-- Settling keeps the functions it goes through, but for those that use a missing class. -/
theorem settled_bound?_eq_none_iff (s : Selection) (hplaced : s.registry.Placed) {p : Place} {f : BoundFunction}
    (hf : s.registry.bound? p = some f) :
    (s.settled.bound? p = none
        ↔ s.registry.surveys p = true ∧ f.wrapperName = none ∧ ∃ use ∈ f.uses, s.registry.lacks use = true)
      ∧ (s.settled.bound? p = none ∨ s.settled.bound? p = some f) := by
  have hdropped : p ∈ Registry.dropped (survey s.registry)
      ↔ s.registry.surveys p = true ∧ f.wrapperName = none ∧ ∃ use ∈ f.uses, s.registry.lacks use = true := by
    rw [Registry.mem_dropped_survey hplaced, hf, ← Registry.misses_iff]
    simp
  rw [bound?_settled, Registry.bound?_prune, hf, ← hdropped]
  split
  · next hp => exact ⟨⟨fun _ => hp, fun _ => rfl⟩, .inl rfl⟩
  · next hp => exact ⟨⟨nofun, fun h => absurd h hp⟩, .inr rfl⟩

end Selection

/-- The convertible set of each registered class stands in each state file. -/
theorem StateFile.occurs_convertibleSet (registry : Registry) (file : StateFile) {c : BoundClass}
    (hc : c ∈ registry.classes) : Occurs (renderConvertibleSet registry c) (file.render registry) := by
  have hsets : Occurs (renderConvertibleSet registry c) (setsPart registry).text :=
    (Occurs.separated "\n\n" (.refl _) (List.mem_map.2 ⟨c, hc, rfl⟩)).left _
  rw [← textAll_parts]
  refine hsets.join (List.mem_map.2 ⟨setsPart registry, ?_, rfl⟩)
  simp [sharedParts]

/-- CORRECT: after a run that succeeds, the code for a function without a native wrapper never stops at a class
that is looked up. Every class in its types is registered, at any depth, and each state file has the convertible
set of this class, under the name by which the code calls it. What the end of the run drops are exactly the
functions it goes through that use a missing class: one that is not registered, other than one written with
a keyword where a value is only read. -/
theorem resolved_functions_find_classes (patches : Patches) (headers : NameSet) (sources : List DeclarationSource)
    (summary : Summary) (hselected : (({ patches, headers } : Registry).select sources).outcome = .ok summary) :
    let registry := (({ patches, headers } : Registry).select sources).registry
    let complete := (start { patches, headers }).complete (DeclarationSource.stream sources)
    (∀ f, registry.Binds f → f.wrapperName = none →
        (∀ withCall, Finds (CallCode.of f registry withCall)) ∧ Finds (f.pushResult registry)
        ∧ ∀ ref ∈ f.refs, ∃ c ∈ registry.classes, registry.find? ref.scope ref.name = some c
          ∧ (∀ file : StateFile, Occurs (StateFile.renderConvertibleSet registry c) (file.render registry))
          ∧ (PlainNames (DeclarationSource.stream sources) → c.convertibleSet = convertibleSetOf ref.tag))
      ∧ registry = complete.settled
      ∧ ∀ p f, complete.registry.bound? p = some f →
        (registry.bound? p = none
            ↔ complete.registry.surveys p = true ∧ f.wrapperName = none
              ∧ ∃ use ∈ f.uses, complete.registry.lacks use = true)
          ∧ (registry.bound? p = none ∨ registry.bound? p = some f) := by
  intro registry complete
  have hplaced : complete.registry.Placed := placed_complete patches headers (DeclarationSource.stream sources)
  have hsettled : registry = complete.settled := by
    unfold Registry.select at hselected
    split at hselected
    · next s hrun =>
      have hregistry : registry = s.registry := by
        change (Registry.select { patches, headers } sources).registry = s.registry
        rw [Registry.select, hrun]
      exact hregistry.trans (passes_of_run hrun).2.2
    · cases hselected
  refine ⟨fun f hbinds hdirect => ?_, hsettled, fun p f hf => ?_⟩
  · rw [hsettled] at hbinds
    have hresolves := complete.resolvesWithin_of_binds hplaced hbinds hdirect
    have hholds : ∀ ref ∈ f.refs, registry.holds ref = true := by
      intro ref href
      rw [hsettled]
      exact complete.holds_of_resolvesWithin hplaced hresolves href
    refine ⟨fun withCall => CallCode.finds_of (fun ref href => hholds ref (List.mem_append_left _ href)) withCall,
      BoundFunction.finds_pushResult fun ref href => hholds ref (List.mem_append_right _ href), fun ref href => ?_⟩
    obtain ⟨c, hfind⟩ := Option.isSome_iff_exists.1 (hholds ref href)
    have hc : c ∈ registry.classes := Registry.mem_of_find? hfind
    refine ⟨c, hc, hfind, fun file => file.occurs_convertibleSet registry hc, fun hplain => ?_⟩
    have hsound : registry.Sound := (finished_of_run hplain hselected).sound
    rw [← hsettled] at hbinds
    obtain ⟨hscope, hname⟩ := hsound.regular.eq_of_find? (hsound.isLegible_of_mem_refs hbinds hdirect href) hfind
    rw [BoundClass.convertibleSet, convertibleSetOf, BoundClass.tag, ClassRef.tag, hscope, hname]
  · rw [hsettled]
    exact complete.settled_bound?_eq_none_iff hplaced hf

/-- A file that declares `Draw`, whose parameter is of a class that is only named. -/
def drawSource : DeclarationSource where
  path := "draw.toml"
  text := some "source='draw.hpp'\n[[function]]\nname='Draw'\ncomment='CUSTOM_ATTRIBUTE[Lua(Main)]'\nparams=[['on','struct Page*']]"

theorem draw_finds_page : ∃ summary, (Registry.select {} [drawSource]).outcome = .ok summary
    ∧ ∃ f, (Registry.select {} [drawSource]).registry.functions.get? "::Draw" = some f
      ∧ f.wrapperName = none ∧ f.refs.map (·.qualified) = ["::Page"]
      ∧ Finds (CallCode.of f (Registry.select {} [drawSource]).registry true)
      ∧ ∃ c ∈ (Registry.select {} [drawSource]).registry.classes, c.convertibleSet = "convertible_to__Page" := by
  have hrun : (Registry.select {} [drawSource]).outcome.isOk = true
      ∧ PlainNames (DeclarationSource.stream [drawSource])
      ∧ ((Registry.select {} [drawSource]).registry.functions.get? "::Draw").any (fun f => f.wrapperName.isNone
        && f.refs.map (·.qualified) == ["::Page"] && f.refs.map (·.tag) == ["_Page"]) = true := by
    decide +kernel
  obtain ⟨hok, hplain, hany⟩ := hrun
  obtain ⟨summary, hsummary⟩ := isOk_iff.1 hok
  obtain ⟨f, hf, hholds⟩ := (Option.any_eq_true ..).1 hany
  simp only [Bool.and_eq_true, Option.isNone_iff_eq_none, beq_iff_eq] at hholds
  obtain ⟨⟨hdirect, hnames⟩, htags⟩ := hholds
  obtain ⟨hcalls, -, hrefs⟩ := (resolved_functions_find_classes {} ∅ [drawSource] summary hsummary).1 f
    (.inl (NameMap.mem_values_of_get? hf)) hdirect
  obtain ⟨ref, href, htag⟩ := List.mem_map.1 (htags ▸ List.mem_cons_self : "_Page" ∈ f.refs.map (·.tag))
  obtain ⟨c, hc, -, -, hset⟩ := hrefs ref href
  exact ⟨summary, hsummary, f, hf, hdirect, hnames, hcalls true, c, hc, (hset hplain).trans (congrArg _ htag)⟩

end LuaGlue
