import LuaGlue.Proofs.Selection.Sound

/-!
Members, functions and the end of a run.

Every step of a run keeps the registry sound. A function is bound before its function types are recorded,
so between the two its result may not be recorded; `grows_bound` takes both steps at once.

    bind the overload ──▶ (result not recorded yet) ──wrapAll──▶ recorded
-/

namespace LuaGlue

open Selection

namespace Registry

/-- Functions are bound, and then function types are recorded: what is bound may rely on all of them. -/
theorem grows_bound {r bound recorded : Registry} (hretains : Retains r bound)
    (hsignatures : bound.signatures = r.signatures) (hrecording : Recording bound recorded)
    (hregular : r.Regular → bound.Regular)
    (hhoused : r.Sound → r.Housed recorded.signatures → bound.Housed recorded.signatures) : Grows r recorded := by
  have hclasses : recorded.classes = bound.classes := by rw [hrecording.rest]
  have hfunctions : recorded.functions = bound.functions := by rw [hrecording.rest]
  have hcovers := hrecording.covers
  have hkeyed := hrecording.keyed
  rw [hsignatures] at hcovers hkeyed
  refine ⟨hretains.trans (retains_of_classes_eq hclasses), fun h => ⟨(hregular h.regular).of_classes_eq hclasses,
    ?_, hkeyed h.keyed⟩⟩
  have hbound := hhoused h (h.housed.mono hcovers)
  refine ⟨?_, ?_⟩
  · rw [hclasses]
    exact hbound.classes
  · rw [hfunctions]
    exact hbound.functions

end Registry

namespace Selection

open Registry

/-! ### Signatures -/

theorem exists_convert_of_convertParams {ctx : Spelling.Context} {scope : String} {params : List DeclaredParam}
    {o : Overload} (h : convertParams ctx scope params = .ok o) :
    ∀ p ∈ o, ∃ spelling, Spelling.convert ctx spelling scope = .ok p.type := by
  induction params generalizing o with
  | nil =>
    cases h
    intro p hp
    cases hp
  | cons first rest ih =>
    rw [convertParams] at h
    split at h
    · cases h
    · next type hconvert =>
      obtain ⟨others, hothers, ho⟩ := bind_eq_ok.1 h
      cases ho
      intro p hp
      rcases List.mem_cons.1 hp with rfl | hp
      · exact ⟨first.type, hconvert⟩
      · exact ih hothers p hp

/-- The types of a function are read, but the result of a constructor is its class. -/
theorem types_of_signature {s : Selection} {f : DeclaredFunction} {o : Overload} {result : CxxType}
    (h : s.signature f = .ok (o, result)) :
    (∀ p ∈ o, ∃ spelling, Spelling.convert (.of s.registry s.known) spelling f.scope = .ok p.type)
      ∧ ((∃ owner, f.owner = some owner ∧ f.isConstructor = true
          ∧ result = .record { name := owner.2, scope := owner.1 } {})
        ∨ (f.isConstructor && f.owner.isSome) = false
          ∧ Spelling.convert (.of s.registry s.known) f.returns f.scope = .ok result) := by
  obtain ⟨params, hparams, hrest⟩ := bind_eq_ok.1 h
  obtain ⟨type, hresult, heq⟩ := bind_eq_ok.1 hrest
  cases heq
  refine ⟨exists_convert_of_convertParams hparams, ?_⟩
  unfold convertResult at hresult
  split at hresult
  · next scope name howner hconstructor =>
    cases hresult
    exact .inl ⟨(scope, name), howner, hconstructor, rfl⟩
  · next hplain =>
    refine .inr ⟨?_, ?_⟩
    · cases howner : f.owner with
      | none => simp
      | some owner =>
        cases hconstructor : f.isConstructor with
        | false => rfl
        | true => exact absurd hconstructor (hplain owner.1 owner.2 howner)
    · cases hconvert : Spelling.convert (.of s.registry s.known) f.returns f.scope with
      | error reason =>
        rw [hconvert] at hresult
        cases hresult
      | ok type =>
        rw [hconvert] at hresult
        cases hresult
        rfl

/-- The types of a function that is read: those of a constructor include its class. -/
theorem isLegible_of_signature {s : Selection} {f : DeclaredFunction} {o : Overload} {result : CxxType}
    (h : s.signature f = .ok (o, result)) (howner : ∀ owner, f.owner = some owner → Scope.Legible owner.1 owner.2) :
    (∀ p ∈ o, p.type.IsLegible) ∧ result.IsLegible := by
  obtain ⟨hparams, hresult⟩ := types_of_signature h
  refine ⟨fun p hp => ?_, ?_⟩
  · obtain ⟨_, hconvert⟩ := hparams p hp
    exact Spelling.convert_legible hconvert
  · obtain ⟨owner, hf, -, rfl⟩ | ⟨-, hconvert⟩ := hresult
    · exact CxxType.isLegible_record.2 (howner owner hf)
    · exact Spelling.convert_legible hconvert

/-! ### Members -/

theorem kindOf_ne_function_iff (f : DeclaredFunction) :
    (f.isStatic || f.isConstructor) = true ↔ kindOf f ≠ .function := by
  rw [kindOf]
  cases f.isConstructor <;> cases f.isStatic <;> simp

/-- A member that takes one more overload belongs to its class. -/
theorem houses_extended {signatures : NameMap Signature} {c : BoundClass} {f : DeclaredFunction} {o : Overload}
    {result : CxxType} {m : BoundFunction} (hc : c.Housed signatures) (hexposed : c.isExposed = true)
    (hkind : kindOf f ∈ generatedKinds) (hscope : f.scope = c.qualified) (ho : ∀ p ∈ o, p.type.IsLegible)
    (hresult : result.IsLegible) (hrecorded : result.IsRecorded signatures)
    (hadd : (((c.members (kindOf f)).get? f.name).getD (newMember c f result)).addOverload o = .ok m) :
    c.Houses signatures (kindOf f) m := by
  have heq := BoundFunction.addOverload_eq_ok hadd
  cases hold : (c.members (kindOf f)).get? f.name with
  | none =>
    rw [hold, Option.getD_none] at hadd heq
    have hnew : (newMember c f result).Served signatures :=
      ⟨(fun t ht => by cases ht), hresult, hrecorded⟩
    have hserved := hnew.addOverload ho hadd
    rw [heq] at hserved ⊢
    exact ⟨hexposed, nofun, fun _ => ⟨rfl, hscope, kindOf_ne_function_iff f, rfl, hserved⟩⟩
  | some old =>
    rw [hold, Option.getD_some] at hadd heq
    have hhouses := hc.members _ hkind old (NameMap.mem_values_of_get? hold)
    refine ⟨hexposed, fun hredirector => ?_, fun hdirect => ?_⟩
    · rw [heq] at hredirector ⊢
      exact hhouses.redirected hredirector
    · have hold : old.isRedirector = false := by rwa [heq] at hdirect
      have hown := hhouses.owned hold
      have hserved := hown.served.addOverload ho hadd
      rw [heq] at hserved ⊢
      exact ⟨hown.owner, hown.scope, hown.isStatic, hown.direct, hserved⟩

/-- A member of the current class. -/
theorem keeps_addMember (s : Selection) {owner : Option (String × String)} {id : ClassId} {f : DeclaredFunction}
    {o : Overload} {result : CxxType} (hcurrent : s.registry.IsCurrent owner id)
    (hfollows : ∀ o, owner = some o → f.scope = Scope.qualify o.1 o.2)
    (ho : ∀ p ∈ o, p.type.IsLegible) (hresult : result.IsLegible) : Keeps s (s.addMember id f o result) := by
  obtain ⟨c, hc, hexposed, howner⟩ := hcurrent
  rw [addMember, hc]
  simp only
  split
  · next m hadd =>
    obtain ⟨hrecording, hrecorded⟩ := wrapAll_spec
      (s.modifyClass id fun d => d.withMembers (kindOf f) ((c.members (kindOf f)).insert f.name m)) o result
    have hface := sameFace_withMembers (kindOf f) fun _ => (c.members (kindOf f)).insert f.name m
    have hretains := retains_modifyClass s.registry id hface.scope hface.name fun d hd => by
      rw [isExposed_withMembers]
      exact hd
    refine ⟨grows_bound hretains rfl hrecording.registry (·.modifyClass id hface) fun _ hhoused => ?_, ?_, ?_⟩
    · refine hhoused.modifyClass id fun d hd => ?_
      obtain rfl : c = d := Option.some.inj (hc.symm.trans hd)
      have hclass := hhoused.classes c (List.mem_of_getElem? hc)
      refine hclass.insert f.name fun hkind => ?_
      exact houses_extended hclass hexposed hkind (hfollows _ howner) ho hresult hrecorded hadd
    · rw [hrecording.rest]
      rfl
    · rw [hrecording.rest]
      rfl
  · exact ⟨.refl _, rfl, rfl⟩

theorem keeps_withSignature (s : Selection) (f : DeclaredFunction) {bind : Overload → CxxType → Selection}
    (h : ∀ o result, s.signature f = .ok (o, result) → Keeps s (bind o result)) :
    Keeps s (s.withSignature f bind) := by
  rw [withSignature]
  split
  · exact ⟨.refl _, rfl, rfl⟩
  · next o result hsignature => exact h o result hsignature

/-- The next member of the class that members are registered for. -/
theorem Sound.registerMember {owner : Option (String × String)} {s : Selection} (h : s.Sound owner)
    {f : DeclaredFunction} (hfollows : (Declaration.function f).Follows owner) (hmember : f.owner.isSome = true) :
    (s.registerMember f).Sound owner := by
  refine h.keeps ?_
  obtain ⟨o, ho⟩ := Option.isSome_iff_exists.1 hmember
  obtain ⟨howner, hscope⟩ := hfollows o ho
  rw [Selection.registerMember]
  split
  · exact ⟨.refl _, rfl, rfl⟩
  · next id hid =>
    have hcurrent := h.current id hid
    split
    · exact ⟨grows_modifyClass s.registry id sameFace_makeDefault sameMembers_makeDefault, rfl, rfl⟩
    · split
      · exact ⟨.refl _, rfl, rfl⟩
      · split
        · exact ⟨.refl _, rfl, rfl⟩
        · refine keeps_withSignature s f fun overload result hsignature => ?_
          have hlegible : Scope.Legible o.1 o.2 := by
            obtain ⟨c, hc, -, hname⟩ := hcurrent
            cases howner.symm.trans hname
            exact h.registry.regular.named.legible c (List.mem_of_getElem? hc)
          obtain ⟨hparams, hresult⟩ := isLegible_of_signature hsignature fun other hother => by
            cases ho.symm.trans hother
            exact hlegible
          refine keeps_addMember s hcurrent (fun other hother => ?_) hparams hresult
          cases howner.symm.trans hother
          exact hscope

/-! ### Free functions -/

/-- Under Lua names only free functions and notices are added. -/
theorem addNames_rest (s : Selection) (f : DeclaredFunction) (request : FunctionRequest) (o : Overload)
    (result : CxxType) (index : Nat) (taken : Bool) (names : List String) :
    ∃ functions notices, (s.addNames f request o result index taken names).1
      = { s with registry := { s.registry with functions }, notices } := by
  induction names generalizing s index taken with
  | nil => exact ⟨_, _, rfl⟩
  | cons luaName rest ih =>
    rw [addNames]
    simp only
    split
    · obtain ⟨functions, notices, heq⟩ := ih (s.withRegistry _) (index + 1) true
      exact ⟨functions, notices, heq⟩
    · obtain ⟨functions, notices, heq⟩ := ih (s.note _) (index + 1) taken
      exact ⟨functions, notices, heq⟩

/-- Once a name has taken the overload, the rest of the names cannot change that. -/
theorem taken_addNames (s : Selection) (f : DeclaredFunction) (request : FunctionRequest) (o : Overload)
    (result : CxxType) (index : Nat) (names : List String) :
    (s.addNames f request o result index true names).2 = true := by
  induction names generalizing s index with
  | nil => rfl
  | cons luaName rest ih =>
    rw [addNames]
    simp only
    split
    · exact ih _ _
    · exact ih _ _

/-- If no name has taken the overload, nothing is bound. -/
theorem registry_addNames_of_not_taken (s : Selection) (f : DeclaredFunction) (request : FunctionRequest)
    (o : Overload) (result : CxxType) (index : Nat) (taken : Bool) (names : List String)
    (h : (s.addNames f request o result index taken names).2 = false) :
    (s.addNames f request o result index taken names).1.registry = s.registry := by
  induction names generalizing s index taken with
  | nil => rfl
  | cons luaName rest ih =>
    cases hadd : ((s.registry.functions.get? (Scope.qualify request.scope luaName)).getD
        (newFunction f request index luaName result)).addOverload o with
    | ok g =>
      simp only [addNames, hadd] at h
      rw [taken_addNames] at h
      cases h
    | error reason =>
      simp only [addNames, hadd] at h ⊢
      exact ih _ _ _ h

theorem housed_addNames {signatures : NameMap Signature} {s : Selection} {f : DeclaredFunction}
    {request : FunctionRequest} {o : Overload} {result : CxxType} (ho : ∀ p ∈ o, p.type.IsLegible)
    (hresult : result.IsLegible) (hrecorded : result.IsRecorded signatures) {index : Nat} {taken : Bool}
    {names : List String} (h : s.registry.Housed signatures) :
    (s.addNames f request o result index taken names).1.registry.Housed signatures := by
  induction names generalizing s index taken with
  | nil => exact h
  | cons luaName rest ih =>
    rw [addNames]
    simp only
    split
    · next g hadd =>
      refine ih (h.insertFunction _ fun hwrapper => ?_)
      cases hold : s.registry.functions.get? (Scope.qualify request.scope luaName) with
      | none =>
        rw [hold, Option.getD_none] at hadd
        have hnew : (newFunction f request index luaName result).Served signatures :=
          ⟨(fun t ht => by cases ht), hresult, hrecorded⟩
        exact hnew.addOverload ho hadd
      | some old =>
        rw [hold, Option.getD_some] at hadd
        have hdirect : old.wrapperName = none := by
          rw [BoundFunction.addOverload_eq_ok hadd] at hwrapper
          exact hwrapper
        exact (h.functions old (NameMap.mem_values_of_get? hold) hdirect).addOverload ho hadd
    · exact ih h

/-- A free function under its Lua names. -/
theorem keeps_addFunction (s : Selection) {f : DeclaredFunction} (hfree : f.owner = none)
    (request : FunctionRequest) : Keeps s (s.addFunction f request) := by
  refine keeps_withSignature s f fun o result hsignature => ?_
  obtain ⟨hparams, hresult⟩ := isLegible_of_signature hsignature fun owner howner => by
    rw [hfree] at howner
    cases howner
  obtain ⟨functions, notices, hrest⟩ := addNames_rest s f request o result 0 false request.names
  split
  · next bound hnames =>
    rw [hnames] at hrest
    change bound = _ at hrest
    obtain ⟨hrecording, hrecorded⟩ := wrapAll_spec bound o result
    have hclasses : bound.registry.classes = s.registry.classes := by rw [hrest]
    refine ⟨grows_bound (retains_of_classes_eq hclasses) (by rw [hrest]) hrecording.registry
      (·.of_classes_eq hclasses) fun _ hhoused => ?_, ?_, ?_⟩
    · have hbound := @housed_addNames _ s f request o result hparams hresult hrecorded 0 false request.names hhoused
      rwa [hnames] at hbound
    · change (bound.wrapAll o result).current = s.current
      rw [hrecording.rest, hrest]
    · change (bound.wrapAll o result).exposed = s.exposed
      rw [hrecording.rest, hrest]
  · next bound hnames =>
    have hsame := registry_addNames_of_not_taken s f request o result 0 false request.names (by rw [hnames])
    rw [hnames] at hrest hsame
    change bound = _ at hrest
    refine ⟨?_, ?_, ?_⟩
    · rw [hsame]
      exact .refl _
    · rw [hrest]
    · rw [hrest]

/-- A native wrapper that stands for a function: no types are read. -/
theorem keeps_addCustomFunction (s : Selection) (f : DeclaredFunction) (request : FunctionRequest) :
    Keeps s (s.addCustomFunction f request) := by
  refine ⟨⟨retains_of_classes_eq rfl, fun h => ⟨h.regular.of_classes_eq rfl, ⟨h.housed.classes, ?_⟩, h.keyed⟩⟩,
    rfl, rfl⟩
  have hfold : ∀ (names : List (String × Nat)) (functions : Functions),
      (∀ g ∈ functions.values, g.wrapperName = none → g.Served s.registry.signatures) →
      ∀ g ∈ (names.foldl (addCustomName f request) functions).values,
        g.wrapperName = none → g.Served s.registry.signatures := by
    intro names
    induction names with
    | nil => exact fun _ h => h
    | cons name rest ih =>
      intro functions h
      refine ih _ fun g hg hwrapper => ?_
      unfold addCustomName at hg
      simp only at hg
      split at hg
      · exact h g hg hwrapper
      · rcases NameMap.mem_values_insert hg with rfl | hold
        · cases hwrapper
        · exact h g hold hwrapper
  exact hfold _ _ h.housed.functions

theorem keeps_registerFunction (s : Selection) {f : DeclaredFunction} (hfree : f.owner = none) :
    Keeps s (s.registerFunction f) := by
  unfold registerFunction
  simp only
  split
  · exact ⟨.refl _, rfl, rfl⟩
  · split
    · exact ⟨.refl _, rfl, rfl⟩
    · split
      · exact keeps_addCustomFunction s f _
      · split
        · exact keeps_addFunction s hfree _
        · split
          · exact keeps_addFunction s hfree _
          · exact ⟨.refl _, rfl, rfl⟩

/-! ### The second pass -/

theorem keeps_registerEnum (s : Selection) (e : DeclaredEnum) : Keeps s (s.registerEnum e) := by
  rw [registerEnum]
  split
  · exact ⟨.refl _, rfl, rfl⟩
  · split
    · next hadd =>
      obtain ⟨-, rfl⟩ := addEnum_ok hadd
      exact ⟨grows_of_eq rfl rfl rfl, rfl, rfl⟩
    · exact ⟨.refl _, rfl, rfl⟩

/-- Are the names of classes plain? -/
def PlainNames (stream : List (Except DeclarationError Declaration)) : Prop :=
  ∀ c, .ok (.record c) ∈ stream → Scope.IsPlain c.name

/-- Is the name of the class plain, if it is one? -/
def hasPlainName : Except DeclarationError Declaration → Bool
  | .ok (.record c) => decide (Scope.IsPlain c.name)
  | _ => true

theorem plainNames_iff {stream : List (Except DeclarationError Declaration)} :
    PlainNames stream ↔ stream.all hasPlainName = true := by
  rw [List.all_eq_true]
  constructor
  · intro h item hitem
    unfold hasPlainName
    split
    · exact decide_eq_true (h _ hitem)
    · rfl
  · exact fun h c hc => of_decide_eq_true (h _ hc)

instance (stream : List (Except DeclarationError Declaration)) : Decidable (PlainNames stream) :=
  decidable_of_iff _ plainNames_iff.symm

theorem Sound.register {owner : Option (String × String)} {s : Selection} (h : s.Sound owner) {d : Declaration}
    (hfollows : d.Follows owner) (hplain : ∀ c, d = .record c → Scope.IsPlain c.name) :
    (s.register d).1.Sound (d.ownerAfter owner) := by
  cases d with
  | remark => exact h
  | record c => exact h.registerClass hfollows (hplain c rfl)
  | function f =>
    rw [Selection.register]
    simp only
    split
    · next hmember => exact h.registerMember hfollows hmember
    · next hfree => exact h.keeps (keeps_registerFunction s (by simpa using hfree))
  | enum e => exact h.keeps (keeps_registerEnum s e)

/-- What every declaration keeps, together with the class that members follow, holds after all of them. -/
theorem inOrder_induction {P : Option (String × String) → Selection → Prop}
    {stream : List (Except DeclarationError Declaration)}
    (hstep : ∀ {owner s d}, .ok d ∈ stream → d.Follows owner → P owner s → P (d.ownerAfter owner) (s.register d).1)
    {owner : Option (String × String)} {s : Selection} (hs : P owner s)
    (horder : DeclarationSource.InOrder owner stream) : ∃ owner, P owner (s.registerAll stream).1 := by
  induction stream generalizing s owner with
  | nil => exact ⟨owner, hs⟩
  | cons item rest ih =>
    cases item with
    | error e => exact ⟨owner, hs⟩
    | ok d =>
      have hfirst := hstep List.mem_cons_self horder.1 hs
      rw [registerAll]
      split
      · next heq =>
        rw [heq] at hfirst
        exact ih (fun hd => hstep (List.mem_cons_of_mem _ hd)) hfirst horder.2
      · next heq =>
        rw [heq] at hfirst
        exact ⟨_, hfirst⟩

theorem Sound.registerAll {owner : Option (String × String)} {s : Selection} (h : s.Sound owner)
    {stream : List (Except DeclarationError Declaration)} (horder : DeclarationSource.InOrder owner stream)
    (hplain : PlainNames stream) : ∃ owner, (s.registerAll stream).1.Sound owner :=
  inOrder_induction (fun hd hfollows h => h.register hfollows fun c hc => hplain c (hc ▸ hd)) h horder

/-! ### The end -/

theorem Sound.addRequestedBase {owner : Option (String × String)} {s : Selection} (h : s.Sound owner)
    (derived base : String) : (s.addRequestedBase derived base).1.Sound owner := by
  rw [Selection.addRequestedBase]
  simp only
  split
  · exact h.keeps ⟨.refl _, rfl, rfl⟩
  · next id hid =>
    obtain ⟨c, hfind, rfl⟩ := Option.map_eq_some_iff.1 hid
    have hlt := h.registry.regular.placed.id_lt (mem_of_find? hfind)
    exact h.keeps ⟨grows_addBaseNamed s.registry hlt base, rfl, rfl⟩

theorem Sound.addRequestedBases {owner : Option (String × String)} {s : Selection} (h : s.Sound owner)
    (bases : List (String × String)) : (s.addRequestedBases bases).1.Sound owner :=
  addRequestedBases_induction (fun _ derived base h => h.addRequestedBase derived base) h bases

/-- The class that a native wrapper is for has been exposed in this run. -/
theorem Sound.exposedClass? {owner : Option (String × String)} {s : Selection} (h : s.Sound owner)
    {qualified : String} {c : BoundClass} (hc : s.exposedClass? qualified = some c) :
    s.registry.class? c.id = some c ∧ c.isExposed = true := by
  obtain ⟨hfind, hexposed⟩ := Option.filter_eq_some_iff.1 hc
  have hclass := h.registry.regular.class?_eq (mem_of_find? hfind)
  obtain ⟨d, hd, hdexposed⟩ := h.exposed c.id (by simpa using hexposed)
  obtain rfl : c = d := Option.some.inj (hclass.symm.trans hd)
  exact ⟨hclass, hdexposed⟩

/-- A member that a native wrapper stands for, of an exposed class. -/
theorem Sound.setMember {owner : Option (String × String)} {s : Selection} (h : s.Sound owner) {c : BoundClass}
    (hclass : s.registry.class? c.id = some c) {kind : MemberKind} (key : String) {member : BoundFunction}
    (hmember : kind ∈ generatedKinds → c.Houses s.registry.signatures kind member) :
    (s.setMember c kind key member).Sound owner := by
  have hface := sameFace_withMembers kind fun d => (d.members kind).insert key member
  have hretains := retains_modifyClass s.registry c.id hface.scope hface.name fun d hd => by
    rw [isExposed_withMembers]
    exact hd
  refine h.keeps ⟨⟨hretains, fun hr => ⟨hr.regular.modifyClass c.id hface, ?_, hr.keyed⟩⟩, rfl, rfl⟩
  refine hr.housed.modifyClass c.id fun d hd => ?_
  obtain rfl : c = d := Option.some.inj (hclass.symm.trans hd)
  exact (hr.housed.classes c (List.mem_of_getElem? hd)).insert key hmember

theorem Sound.attachRedirector {owner : Option (String × String)} {s : Selection} (h : s.Sound owner)
    (p : Pending RedirectorRequest) : (s.attachRedirector p).Sound owner := by
  rw [Selection.attachRedirector]
  simp only
  split
  · exact h.keeps ⟨.refl _, rfl, rfl⟩
  · next c hc =>
    obtain ⟨hclass, hexposed⟩ := h.exposedClass? hc
    have hkind : (if p.request.isStatic then MemberKind.static else .function) ≠ .constructor := by
      cases p.request.isStatic <;> decide
    exact h.setMember hclass _ fun _ => ⟨hexposed, fun _ => ⟨rfl, hkind⟩, fun hdirect => by cases hdirect⟩

theorem Sound.attachMetamethod {owner : Option (String × String)} {s : Selection} (h : s.Sound owner)
    (p : Pending MetamethodRequest) : (s.attachMetamethod p).Sound owner := by
  rw [Selection.attachMetamethod]
  simp only
  split
  · exact h.keeps ⟨.refl _, rfl, rfl⟩
  · split
    · exact h.keeps ⟨.refl _, rfl, rfl⟩
    · next c hc =>
      have hset : (s.setMember c .metamethod p.request.metamethod
          (wrappedMember c p.request.metamethod p.wrapper p.source)).Sound owner :=
        h.setMember (h.exposedClass? hc).1 _ fun hkind => by simp [generatedKinds] at hkind
      split
      · exact hset
      · exact hset.keeps ⟨grows_of_eq rfl rfl rfl, rfl, rfl⟩

theorem Sound.foldl {α : Type} {owner : Option (String × String)} {step : Selection → α → Selection}
    (hstep : ∀ s a, s.Sound owner → (step s a).Sound owner) {s : Selection} (h : s.Sound owner) (l : List α) :
    (l.foldl step s).Sound owner := by
  induction l generalizing s with
  | nil => exact h
  | cons a l ih => exact ih (hstep s a h)

theorem Sound.start (patches : Patches) (headers : NameSet) :
    (Selection.start { patches, headers }).Sound none := by
  have hgrows : Grows ({ patches, headers } : Registry) (Selection.start { patches, headers }).registry :=
    grows_of_eq rfl rfl rfl
  exact ⟨hgrows.sound (Registry.Sound.empty patches headers), nofun, fun id hid => by cases hid⟩

/-- A run that succeeds comes to a sound registry, and settles that. -/
theorem run_sound {patches : Patches} {headers : NameSet} {sources : List DeclarationSource}
    (hplain : PlainNames (DeclarationSource.stream sources)) {summary : Summary}
    (h : (({ patches, headers } : Registry).select sources).outcome = .ok summary) :
    ∃ complete : Selection, complete.registry.Sound
      ∧ (({ patches, headers } : Registry).select sources).registry = complete.settled := by
  obtain ⟨s, hrun, hregistry⟩ := exists_run_of_select h
  rw [hregistry]
  unfold runAll at hrun
  split at hrun
  · cases hrun
  · next learned hlearn =>
    have hlearned := (Sound.start patches headers).keeps
      (keeps_learnAll (Selection.start { patches, headers }) (DeclarationSource.stream sources))
    rw [hlearn] at hlearned
    split at hrun
    · cases hrun
    · next registered hregister =>
      obtain ⟨owner, hregistered⟩ := hlearned.registerAll (DeclarationSource.inOrder_stream sources none) hplain
      rw [hregister] at hregistered
      split at hrun
      · cases hrun
      · next finished hfinish =>
        cases hrun
        unfold finish at hfinish
        split at hfinish
        · cases hfinish
        · next based hbased =>
          have hbases := hregistered.addRequestedBases registered.requests.bases
          rw [hbased] at hbases
          have hredirectors := Sound.foldl (fun s p h => h.attachRedirector p) hbases based.redirectors
          have hmetamethods := Sound.foldl (fun s p h => h.attachMetamethod p) hredirectors
            (based.redirectors.foldl Selection.attachRedirector based).metamethods
          cases hfinish
          exact ⟨_, hmetamethods.registry, rfl⟩

end Selection

end LuaGlue
