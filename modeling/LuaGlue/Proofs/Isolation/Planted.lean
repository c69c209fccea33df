import LuaGlue.Proofs.Isolation.Findings
import LuaGlue.Proofs.Selection.Learned

/-!
What one more free function leaves in the registry.

Binding a free function fills places with functions of its types, and records its function types
(`plants_registerFunction`). What settles afterwards is the same registry but for the free functions, the
function types, the headers and the states (`core_settled`), and the headers and function types are those of
the run without the function, and more.

    without it    classes · enums · functions · function types      · headers
    with it       classes · enums · functions' · function types + δ · headers + ε
-/

namespace LuaGlue

open Selection

/-- What becomes of a place when functions of these types are bound: a function gets overloads, and a new one
is a native wrapper or of these types. -/
structure Planted (types : List CxxType) (old new : Option BoundFunction) : Prop where
  kept : ∀ f, old = some f → ∃ g, new = some g ∧ f.Extends types g
  fresh : old = none → ∀ g, new = some g →
    g.wrapperName ≠ none ∨ (∀ t ∈ g.paramTypes, t ∈ types) ∧ g.result ∈ types

namespace Planted

variable {types : List CxxType} {old new newer : Option BoundFunction}

theorem refl (types : List CxxType) (old : Option BoundFunction) : Planted types old old := by
  refine ⟨fun f hf => ⟨f, hf, .refl types f⟩, fun hnone g hg => ?_⟩
  rw [hnone] at hg
  cases hg

theorem trans (h : Planted types old new) (h' : Planted types new newer) : Planted types old newer := by
  refine ⟨fun f hf => ?_, fun hnone g hg => ?_⟩
  · obtain ⟨g, hg, hfg⟩ := h.kept f hf
    obtain ⟨k, hk, hgk⟩ := h'.kept g hg
    exact ⟨k, hk, hfg.trans hgk⟩
  · cases new with
    | none => exact h'.fresh rfl g hg
    | some f =>
      obtain ⟨k, hk, hext⟩ := h'.kept f rfl
      rw [hk] at hg
      obtain rfl : k = g := Option.some.inj hg
      obtain ⟨more, hmore, hnew⟩ := hext.paramTypes
      rw [hext.wrapperName, hext.result, hmore]
      refine (h.fresh hnone f rfl).imp_right (And.imp_left fun hold t ht => ?_)
      exact (List.mem_append.1 ht).elim (hold t) (hnew t)

/-- One more overload of these types. -/
theorem extendWith {fresh : BoundFunction} {o : Overload} (hempty : fresh.overloads = [])
    (ho : ∀ p ∈ o, p.type ∈ types) (hresult : fresh.result ∈ types) (old : Option BoundFunction) {g : BoundFunction}
    (hg : Selection.extendWith fresh o old = some g) : Planted types old (some g) := by
  have hmore : ∀ t ∈ o.map Param.type, t ∈ types := by
    intro t ht
    obtain ⟨p, hp, rfl⟩ := List.mem_map.1 ht
    exact ho p hp
  have hadd : (old.getD fresh).addOverload o = .ok g := by
    rw [Selection.extendWith] at hg
    cases hadd : (old.getD fresh).addOverload o with
    | error reason =>
      rw [hadd] at hg
      cases hg
    | ok f =>
      rw [hadd] at hg
      cases hg
      rfl
  rw [BoundFunction.addOverload_eq_ok hadd]
  cases old with
  | some f =>
    refine ⟨fun h hh => ⟨_, rfl, ?_⟩, fun hnone => absurd hnone (Option.some_ne_none f)⟩
    cases hh
    refine ⟨rfl, rfl, rfl, o.map Param.type, ?_, hmore⟩
    rw [Option.getD_some, BoundFunction.paramTypes, List.flatMap_append, List.flatMap_singleton]
    rfl
  | none =>
    refine ⟨fun f hf => absurd hf.symm (Option.some_ne_none f), fun _ h hh => .inr ?_⟩
    cases hh
    refine ⟨fun t ht => hmore t ?_, hresult⟩
    rw [Option.getD_none, BoundFunction.paramTypes, hempty] at ht
    simpa using ht

/-- A native wrapper stands only where nothing is bound. -/
theorem standInFor {g f : BoundFunction} (hwrapper : g.wrapperName ≠ none) (old : Option BoundFunction)
    (hf : Selection.standInFor g old = some f) : Planted types old (some f) := by
  cases old with
  | some f => cases hf
  | none =>
    cases hf
    refine ⟨fun f hf => absurd hf.symm (Option.some_ne_none f), fun _ h hh => .inl ?_⟩
    cases hh
    exact hwrapper

end Planted

namespace Registry

variable {types : List CxxType} {r : Registry}

theorem planted_fill {p : Place} (hhosts : r.hosts p = true) {u : Option BoundFunction → Option BoundFunction}
    (hu : ∀ old g, u old = some g → Planted types old (some g)) (q : Place) :
    Planted types (r.bound? q) ((r.fill p u).bound? q) := by
  by_cases hq : q = p
  · subst hq
    cases hupdate : u (r.bound? q) with
    | none =>
      rw [fill_of_eq_none hupdate]
      exact .refl types _
    | some g =>
      rw [fill_of_eq_some hupdate, bound?_put_self r hhosts]
      exact hu _ g hupdate
  · rw [bound?_fill_of_ne r hq]
    exact .refl types _

/-- Every function type that is recorded stays, and the new ones are among those of some types. -/
structure Records (types : List CxxType) (old new : NameMap Signature) : Prop where
  kept : ∀ key s, old.get? key = some s → new.get? key = some s
  added : ∀ key, new.contains key = true →
    old.contains key = true ∨ ∃ t ∈ types, ∃ s ∈ t.signatures, s.wrapperName = .ok key

theorem Records.refl (types : List CxxType) (old : NameMap Signature) : Records types old old :=
  ⟨fun _ _ h => h, fun _ h => .inl h⟩

theorem Records.trans {old new newer : NameMap Signature} (h : Records types old new) (h' : Records types new newer) :
    Records types old newer :=
  ⟨fun key s hs => h'.kept key s (h.kept key s hs), fun key hkey => (h'.added key hkey).elim (h.added key) .inr⟩

theorem records_addSignatures (r : Registry) {t : CxxType} (ht : t ∈ types) {l : List Signature}
    (hl : ∀ s ∈ l, s ∈ t.signatures) : Records types r.signatures (r.addSignatures l).1.signatures := by
  induction l generalizing r with
  | nil => exact .refl types _
  | cons s rest ih =>
    rw [addSignatures]
    split
    · next key hname =>
      refine Records.trans ?_ (ih _ fun other hother => hl other (List.mem_cons_of_mem _ hother))
      rw [addSignature]
      split
      · exact .refl types _
      · next hnew =>
        refine ⟨fun other sig hsig => ?_, fun other hother => ?_⟩
        · refine (NameMap.get?_insert_of_ne r.signatures s fun heq => hnew ?_).trans hsig
          rw [← heq, NameMap.contains, hsig]
          rfl
        · rw [NameMap.contains_insert, Bool.or_eq_true, beq_iff_eq] at hother
          rcases hother with rfl | hold
          · exact .inr ⟨t, ht, s, hl s List.mem_cons_self, hname⟩
          · exact .inl hold
    · exact .refl types _

end Registry

namespace Selection

open Registry

theorem records_wrapAll (s : Selection) (o : Overload) (result : CxxType) :
    Records (o.map Param.type ++ [result]) s.registry.signatures (s.wrapAll o result).registry.signatures := by
  have hfold : ∀ (ts types : List CxxType) (s : Selection), (∀ t ∈ ts, t ∈ types) →
      Records types s.registry.signatures (ts.foldl wrapSignatures s).registry.signatures := by
    intro ts types
    induction ts with
    | nil => exact fun s _ => .refl types _
    | cons t rest ih =>
      intro s hts
      have hfirst := records_addSignatures s.registry (hts t List.mem_cons_self) (l := t.signatures) fun _ h => h
      have hregistry : (s.wrapSignatures t).registry = (s.registry.addSignatures t.signatures).1 := by
        rw [wrapSignatures, registerSignatures]
        split <;> next heq => rw [heq]; rfl
      rw [← hregistry] at hfirst
      exact hfirst.trans (ih _ fun other hother => hts other (List.mem_cons_of_mem _ hother))
  exact hfold _ _ s fun _ h => h

/-! ### Binding a free function -/

/-- The request that a free function is bound by: as a native wrapper, or by its types. -/
def grant? (s : Selection) (f : DeclaredFunction) : Option FunctionRequest :=
  if (s.requests.metamethods.get? f.qualified).isSome || (s.requests.redirectors.get? f.qualified).isSome then none
  else (s.requests.customFunctions.get? f.qualified).or
    ((s.requests.functions.get? f.qualified).or (inlineRequest? f))

theorem registerFunction_of_grant? {s : Selection} {f : DeclaredFunction} {request : FunctionRequest}
    (h : s.grant? f = some request) :
    s.registerFunction f = s.addCustomFunction f request ∨ s.registerFunction f = s.addFunction f request := by
  unfold grant? at h
  split at h
  · cases h
  · next hnative =>
    simp only [Bool.not_eq_true, Bool.or_eq_false_iff, Option.isSome_eq_false_iff,
      Option.isNone_iff_eq_none] at hnative
    unfold registerFunction
    simp only [hnative]
    cases hcustom : s.requests.customFunctions.get? f.qualified with
    | some found =>
      rw [hcustom, Option.some_or] at h
      cases h
      exact .inl rfl
    | none =>
      rw [hcustom, Option.none_or] at h
      cases hrequested : s.requests.functions.get? f.qualified with
      | some found =>
        rw [hrequested, Option.some_or] at h
        cases h
        exact .inr rfl
      | none =>
        rw [hrequested, Option.none_or] at h
        exact .inr (by simp only [h])

/-- The types of a function, if they can be read. -/
def typesOf (s : Selection) (f : DeclaredFunction) : List CxxType :=
  match s.signature f with
  | .ok (o, result) => o.map Param.type ++ [result]
  | .error _ => []

/-- The places of a request. -/
def placesOf (request : FunctionRequest) : List Place :=
  request.names.map fun luaName => .free (Scope.qualify request.scope luaName)

/-- A step that binds functions of these types at these places. -/
structure Plants (places : List Place) (types : List CxxType) (s t : Selection) : Prop where
  frame : t.registry.frame = s.registry.frame
  plan : t.plan = s.plan
  off : ∀ p ∉ places, t.registry.bound? p = s.registry.bound? p
  planted : ∀ p, Planted types (s.registry.bound? p) (t.registry.bound? p)
  records : Records types s.registry.signatures t.registry.signatures

namespace Plants

variable {places : List Place} {types : List CxxType} {s t u : Selection}

theorem refl (places : List Place) (types : List CxxType) (s : Selection) : Plants places types s s :=
  ⟨rfl, rfl, fun _ _ => rfl, fun _ => .refl types _, .refl types _⟩

theorem trans (h : Plants places types s t) (h' : Plants places types t u) : Plants places types s u :=
  ⟨h'.frame.trans h.frame, h'.plan.trans h.plan, fun p hp => (h'.off p hp).trans (h.off p hp),
    fun p => (h.planted p).trans (h'.planted p), h.records.trans h'.records⟩

/-- What is reported, and which states are bound in, does not matter. -/
theorem of_registry_eq (h : Plants places types s t) (hregistry : u.registry = t.registry) (hplan : u.plan = t.plan) :
    Plants places types s u := by
  refine ⟨?_, hplan.trans h.plan, ?_, ?_, ?_⟩ <;> rw [hregistry]
  · exact h.frame
  · exact h.off
  · exact h.planted
  · exact h.records

theorem fill {key : String} (hp : Place.free key ∈ places) {u : Option BoundFunction → Option BoundFunction}
    (hu : ∀ old g, u old = some g → Planted types old (some g)) (s : Selection) :
    Plants places types s (s.withRegistry (s.registry.fill (.free key) u)) := by
  refine ⟨frame_fill s.registry _ u, rfl, fun q hq => ?_, planted_fill rfl hu, ?_⟩
  · have hne : q ≠ .free key := fun heq => hq (heq ▸ hp)
    exact bound?_fill_of_ne s.registry hne u
  · change Records types s.registry.signatures (s.registry.fill (.free key) u).signatures
    rw [signatures_fill]
    exact .refl types _

theorem wrapAll (o : Overload) (result : CxxType) (s : Selection) :
    Plants places (o.map Param.type ++ [result]) s (s.wrapAll o result) := by
  obtain ⟨hrest, hregistry⟩ := (wrapAll_spec s o result).1
  refine ⟨hregistry.frame_eq, ?_, fun p _ => hregistry.bound?_eq p, fun p => ?_, records_wrapAll s o result⟩
  · rw [hrest]
    rfl
  · rw [hregistry.bound?_eq]
    exact .refl _ _

/-- The run that binds the functions is beside the one that does not. -/
theorem beside (h : Plants places types s t) : Beside places none False t s := ⟨h.frame, h.off, h.plan, False.elim⟩

end Plants

theorem plants_addNames {request : FunctionRequest} (f : DeclaredFunction) (o : Overload) (result : CxxType)
    {names : List String} (hnames : ∀ luaName ∈ names, luaName ∈ request.names) (index : Nat) (taken : Bool)
    (s : Selection) : Plants (placesOf request) (o.map Param.type ++ [result]) s
      (s.addNames f request o result index taken names).1 := by
  induction names generalizing s index taken with
  | nil => exact .refl _ _ s
  | cons luaName rest ih =>
    obtain ⟨notices, heq⟩ := addNames_cons s f request o result index taken luaName rest
    have hplace : Place.free (Scope.qualify request.scope luaName) ∈ placesOf request :=
      List.mem_map_of_mem (hnames luaName List.mem_cons_self)
    have hextended : ∀ old g, Selection.extendWith (newFunction f request index luaName result) o old = some g →
        Planted (o.map Param.type ++ [result]) old (some g) := fun old g hg =>
      .extendWith rfl (fun p hp => List.mem_append_left _ (List.mem_map_of_mem hp))
        (List.mem_append_right _ List.mem_cons_self) old hg
    have hfilled := Plants.fill hplace hextended s
    have hnoted : Plants _ _ s { s.withRegistry (s.registry.fill _ _) with notices } := hfilled.of_registry_eq rfl rfl
    rw [heq]
    exact hnoted.trans (ih (fun other hother => hnames other (List.mem_cons_of_mem _ hother)) _ _ _)

theorem plants_addFunction (s : Selection) (f : DeclaredFunction) (request : FunctionRequest) :
    Plants (placesOf request) (s.typesOf f) s (s.addFunction f request) := by
  rw [addFunction, withSignature, typesOf]
  cases s.signature f with
  | error reason => exact (Plants.refl _ _ s).of_registry_eq rfl rfl
  | ok types =>
    obtain ⟨o, result⟩ := types
    have hnames := plants_addNames f o result (fun luaName (h : luaName ∈ request.names) => h) 0 false s
    simp only
    split
    · next t heq =>
      rw [heq] at hnames
      exact (hnames.trans (.wrapAll o result t)).of_registry_eq rfl rfl
    · next t heq =>
      rw [heq] at hnames
      exact hnames

theorem plants_addCustomFunction (s : Selection) (types : List CxxType) (f : DeclaredFunction)
    (request : FunctionRequest) : Plants (placesOf request) types s (s.addCustomFunction f request) := by
  have hnames : ∀ (names : List (String × Nat)), (∀ name ∈ names, name.1 ∈ request.names) → ∀ s : Selection,
      Plants (placesOf request) types s
        (s.withRegistry { s.registry with functions := names.foldl (addCustomName f request) s.registry.functions }) := by
    intro names
    induction names with
    | nil => exact fun _ s => .refl _ _ s
    | cons name rest ih =>
      intro hnames s
      have hplace : Place.free (Scope.qualify request.scope name.1) ∈ placesOf request :=
        List.mem_map_of_mem (hnames name List.mem_cons_self)
      have hstands : ∀ old g, Selection.standInFor (newCustomFunction f request name.2 name.1) old = some g →
          Planted types old (some g) := fun old g hg => .standInFor (Option.some_ne_none _) old hg
      have hfilled := Plants.fill hplace hstands s
      rw [← addCustomName_eq_fill] at hfilled
      exact hfilled.trans (ih (fun other hother => hnames other (List.mem_cons_of_mem _ hother)) _)
  exact (hnames _ (fun name hname => (List.mem_zipIdx' hname).2 ▸ List.getElem_mem _) s).of_registry_eq rfl rfl

/-- A free function that is asked for is bound at the places of its request. -/
theorem plants_registerFunction {s : Selection} {f : DeclaredFunction} {request : FunctionRequest}
    (h : s.grant? f = some request) : Plants (placesOf request) (s.typesOf f) s (s.registerFunction f) := by
  rcases registerFunction_of_grant? h with hcustom | hfunction
  · rw [hcustom]
    exact plants_addCustomFunction s _ f request
  · rw [hfunction]
    exact plants_addFunction s f request

end Selection

end LuaGlue
