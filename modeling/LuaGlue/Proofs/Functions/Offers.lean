import LuaGlue.Proofs.Selection.Learned

/-!
What declarations offer to the free functions.

A declaration of a free function makes an `Offer` under each Lua name that it is requested by: its overload,
or itself where it is a native wrapper. Offers depend on the first pass alone (`offers_congr`). The second
pass settles the offers to one key in their order, and every key for itself (`functions_registerAll`):

    key ── offer ── offer ── ..      the first one says what is bound, each later one may add an overload

At the end a function stays unless it names a missing class (`functions_of_run`).
-/

namespace LuaGlue

open Registry Selection

/-- What a declaration offers under one Lua name. -/
structure Offer where
  declared : DeclaredFunction
  request : FunctionRequest
  luaName : String
  /-- The place of the name in the request. -/
  index : Nat
  /-- The parameters and the result. A native wrapper has none, its signature is not read. -/
  types? : Option (Overload × CxxType)

namespace Offer

/-- The path in Lua that it is offered under. -/
def key (o : Offer) : String := Scope.qualify o.request.scope o.luaName

/-- What is bound if nothing is there, but for its overload. -/
def fresh (o : Offer) : BoundFunction :=
  match o.types? with
  | some (_, result) => newFunction o.declared o.request o.index o.luaName result
  | none => newCustomFunction o.declared o.request o.index o.luaName

/-- What the offer puts in the place of what is there, if anything. -/
def update (o : Offer) : Option BoundFunction → Option BoundFunction :=
  match o.types? with
  | some (overload, _) => extendWith o.fresh overload
  | none => standInFor o.fresh

/-- What is bound after the offer. -/
def settle (o : Offer) (old : Option BoundFunction) : Option BoundFunction := (o.update old).or old

/-- What is bound at a key after offers to all keys. -/
def settleAll (key : String) (offers : List Offer) (old : Option BoundFunction) : Option BoundFunction :=
  (offers.filter fun o => o.key == key).foldl (fun old o => o.settle old) old

theorem settleAll_cons (key : String) (o : Offer) (rest : List Offer) (old : Option BoundFunction) :
    settleAll key (o :: rest) old = settleAll key rest (if o.key = key then o.settle old else old) := by
  rw [settleAll, List.filter_cons]
  by_cases h : o.key = key
  · rw [if_pos (beq_iff_eq.2 h), if_pos h]
    rfl
  · rw [if_neg (by simpa using h), if_neg h]
    rfl

theorem settleAll_append (key : String) (offers more : List Offer) (old : Option BoundFunction) :
    settleAll key (offers ++ more) old = settleAll key more (settleAll key offers old) := by
  rw [settleAll, List.filter_append, List.foldl_append]
  rfl

end Offer

namespace Selection

/-! ### Who offers -/

/-- The request that a native wrapper stands for functions by. -/
def customRequestFor? (s : Selection) (f : DeclaredFunction) : Option FunctionRequest :=
  if (s.requests.metamethods.get? f.qualified).isSome || (s.requests.redirectors.get? f.qualified).isSome then none
  else s.requests.customFunctions.get? f.qualified

/-- The offers of a function to the names of a request. -/
def offersTo (f : DeclaredFunction) (request : FunctionRequest) (types? : Option (Overload × CxxType)) : List Offer :=
  request.names.zipIdx.map fun name => ⟨f, request, name.1, name.2, types?⟩

/-- The offers of a declaration. -/
def offers (s : Selection) : Declaration → List Offer
  | .function f =>
    if f.owner.isSome then []
    else
      match s.customRequestFor? f with
      | some request => offersTo f request none
      | none =>
        match s.requestFor? f, s.signature f with
        | some request, .ok types => offersTo f request (some types)
        | _, _ => []
  | _ => []

/-- The offers of all declarations, in order. -/
def allOffers (s : Selection) (stream : List (Except DeclarationError Declaration)) : List Offer :=
  stream.flatMap fun
    | .ok d => s.offers d
    | .error _ => []

/-- An offer comes from a free function that is declared, at one of the names of its request. -/
theorem mem_offers_iff {s : Selection} {d : Declaration} {offer : Offer} :
    offer ∈ s.offers d ↔ d = .function offer.declared ∧ offer.declared.owner = none
      ∧ offer.request.names[offer.index]? = some offer.luaName
      ∧ match offer.types? with
        | some types => s.customRequestFor? offer.declared = none
          ∧ s.requestFor? offer.declared = some offer.request ∧ s.signature offer.declared = .ok types
        | none => s.customRequestFor? offer.declared = some offer.request := by
  have hnames : ∀ f request types?, offer ∈ offersTo f request types?
      ↔ f = offer.declared ∧ request = offer.request ∧ types? = offer.types?
        ∧ offer.request.names[offer.index]? = some offer.luaName := by
    intro f request types?
    rw [offersTo, List.mem_map]
    constructor
    · rintro ⟨⟨luaName, index⟩, hname, rfl⟩
      exact ⟨rfl, rfl, rfl, List.mem_zipIdx_iff_getElem?.1 hname⟩
    · rintro ⟨rfl, rfl, rfl, hname⟩
      exact ⟨(offer.luaName, offer.index), List.mem_zipIdx_iff_getElem?.2 hname, rfl⟩
  cases d with
  | remark => simp [offers]
  | record => simp [offers]
  | enum => simp [offers]
  | function f =>
    by_cases hfree : f.owner = none
    · have hfunction : ∀ P : Prop, (Declaration.function f = .function offer.declared ∧ offer.declared.owner = none ∧ P
          ↔ f = offer.declared ∧ P) := by
        intro P
        rw [Declaration.function.injEq]
        refine and_congr_right fun heq => and_iff_right ?_
        rw [← heq, hfree]
      rw [offers, if_neg (by simp [hfree]), hfunction]
      cases hcustom : s.customRequestFor? f with
      | some request =>
        rw [hnames]
        refine and_congr_right fun heq => ?_
        subst heq
        rw [hcustom]
        cases offer.types? with
        | some types => simp
        | none => simp [and_comm]
      | none =>
        cases hrequest : s.requestFor? f with
        | none =>
          simp only [List.not_mem_nil, false_iff]
          rintro ⟨rfl, -, htypes⟩
          rw [hcustom, hrequest] at htypes
          cases hoffer : offer.types? <;> simp [hoffer] at htypes
        | some request =>
          cases hsignature : s.signature f with
          | error reason =>
            simp only [List.not_mem_nil, false_iff]
            rintro ⟨rfl, -, htypes⟩
            rw [hcustom, hsignature] at htypes
            cases hoffer : offer.types? <;> simp [hoffer] at htypes
          | ok types =>
            simp only [hnames]
            refine and_congr_right fun heq => ?_
            subst heq
            rw [hcustom, hrequest, hsignature]
            cases offer.types? with
            | none => simp
            | some found => simp [and_comm, and_assoc, eq_comm]
    · rw [offers, if_pos (by simpa [Option.isSome_iff_ne_none] using hfree)]
      refine ⟨fun h => absurd h List.not_mem_nil, ?_⟩
      rintro ⟨heq, hnone, -⟩
      cases heq
      exact absurd hnone hfree

theorem mem_allOffers_iff {s : Selection} {stream : List (Except DeclarationError Declaration)} {offer : Offer} :
    offer ∈ s.allOffers stream ↔ .ok (.function offer.declared) ∈ stream
      ∧ offer ∈ s.offers (.function offer.declared) := by
  rw [allOffers, List.mem_flatMap]
  refine ⟨?_, fun h => ⟨_, h⟩⟩
  rintro ⟨item, hitem, hoffer⟩
  cases item with
  | error e => cases hoffer
  | ok d =>
    obtain ⟨rfl, -⟩ := mem_offers_iff.1 hoffer
    exact ⟨hitem, hoffer⟩

theorem offers_congr {s t : Selection} (h : Learned s t) (d : Declaration) : t.offers d = s.offers d := by
  cases d with
  | function f =>
    simp only [offers, customRequestFor?, requestFor?, h.requests, h.signature]
  | _ => rfl

theorem allOffers_congr {s t : Selection} (h : Learned s t) (stream : List (Except DeclarationError Declaration)) :
    t.allOffers stream = s.allOffers stream := by
  rw [allOffers, allOffers]
  refine congrArg (List.flatMap · stream) (funext fun item => ?_)
  cases item with
  | error e => rfl
  | ok d => exact offers_congr h d

/-! ### What becomes of the offers -/

theorem get?_functions_fill (r : Registry) (filled key : String) (update : Option BoundFunction → Option BoundFunction) :
    (r.fill (.free filled) update).functions.get? key
      = if filled = key then (update (r.functions.get? key)).or (r.functions.get? key) else r.functions.get? key := by
  by_cases h : filled = key
  · subst h
    rw [if_pos rfl]
    unfold Registry.fill
    split
    · next f hf =>
      rw [bound?] at hf
      rw [hf, Option.some_or]
      exact NameMap.get?_insert_self r.functions filled f
    · next hf =>
      rw [bound?] at hf
      rw [hf, Option.none_or]
  · rw [if_neg h]
    exact bound?_fill_of_ne r (p := .free filled) (q := .free key) (fun heq => h (Place.free.inj heq).symm) update

theorem functions_addNames (s : Selection) (f : DeclaredFunction) (request : FunctionRequest) (o : Overload)
    (result : CxxType) (index : Nat) (taken : Bool) (names : List String) (key : String) :
    (s.addNames f request o result index taken names).1.registry.functions.get? key
      = Offer.settleAll key ((names.zipIdx index).map fun name => ⟨f, request, name.1, name.2, some (o, result)⟩)
        (s.registry.functions.get? key) := by
  induction names generalizing s index taken with
  | nil => rfl
  | cons luaName rest ih =>
    obtain ⟨notices, heq⟩ := addNames_cons s f request o result index taken luaName rest
    rw [heq, ih, List.zipIdx_cons, List.map_cons, Offer.settleAll_cons]
    exact congrArg (Offer.settleAll key _) (get?_functions_fill s.registry _ key _)

theorem functions_addFunction (s : Selection) (f : DeclaredFunction) (request : FunctionRequest) {o : Overload}
    {result : CxxType} (hsignature : s.signature f = .ok (o, result)) (key : String) :
    (s.addFunction f request).registry.functions.get? key
      = Offer.settleAll key (offersTo f request (some (o, result))) (s.registry.functions.get? key) := by
  have hnames := functions_addNames s f request o result 0 false request.names key
  rw [addFunction, withSignature, hsignature]
  simp only
  split
  · next t heq =>
    rw [heq] at hnames
    have hfunctions : (t.wrapAll o result).registry.functions = t.registry.functions :=
      (Aside.of_recording (wrapAll_spec t o result).1).functions
    exact (congrArg (NameMap.get? · key) hfunctions).trans hnames
  · next t heq =>
    rw [heq] at hnames
    exact hnames

theorem functions_addCustomFunction (s : Selection) (f : DeclaredFunction) (request : FunctionRequest) (key : String) :
    (s.addCustomFunction f request).registry.functions.get? key
      = Offer.settleAll key (offersTo f request none) (s.registry.functions.get? key) := by
  have hnames : ∀ (names : List (String × Nat)) (r : Registry),
      (names.foldl (addCustomName f request) r.functions).get? key
        = Offer.settleAll key (names.map fun name => ⟨f, request, name.1, name.2, none⟩) (r.functions.get? key) := by
    intro names
    induction names with
    | nil => exact fun r => rfl
    | cons name rest ih =>
      intro r
      have hfill := get?_functions_fill r (Scope.qualify request.scope name.1) key
        (standInFor (newCustomFunction f request name.2 name.1))
      rw [← addCustomName_eq_fill] at hfill
      rw [List.foldl_cons, List.map_cons, Offer.settleAll_cons]
      exact (ih { r with functions := addCustomName f request r.functions name }).trans
        (congrArg (Offer.settleAll key _) hfill)
  exact hnames _ s.registry

/-- A free function settles its offers. -/
theorem functions_registerFunction (s : Selection) {f : DeclaredFunction} (hfree : f.owner.isSome = false)
    (key : String) : (s.registerFunction f).registry.functions.get? key
      = Offer.settleAll key (s.offers (.function f)) (s.registry.functions.get? key) := by
  have hoffers : s.offers (.function f) = match s.customRequestFor? f with
      | some request => offersTo f request none
      | none =>
        match s.requestFor? f, s.signature f with
        | some request, .ok types => offersTo f request (some types)
        | _, _ => [] := by
    simp [offers, hfree]
  have hbind : ∀ request, s.customRequestFor? f = none → s.requestFor? f = some request →
      (s.addFunction f request).registry.functions.get? key
        = Offer.settleAll key (s.offers (.function f)) (s.registry.functions.get? key) := by
    intro request hcustom hrequest
    rw [hoffers, hcustom, hrequest]
    cases hsignature : s.signature f with
    | ok types => exact functions_addFunction s f request hsignature key
    | error reason =>
      rw [addFunction, withSignature, hsignature]
      rfl
  unfold registerFunction
  simp only
  cases hmetamethod : s.requests.metamethods.get? f.qualified with
  | some request =>
    have hcustom : s.customRequestFor? f = none := by simp [customRequestFor?, hmetamethod]
    have hrequest : s.requestFor? f = none := by simp [requestFor?, hmetamethod]
    rw [hoffers, hcustom, hrequest]
    rfl
  | none =>
    cases hredirector : s.requests.redirectors.get? f.qualified with
    | some request =>
      have hcustom : s.customRequestFor? f = none := by simp [customRequestFor?, hredirector]
      have hrequest : s.requestFor? f = none := by simp [requestFor?, hredirector]
      rw [hoffers, hcustom, hrequest]
      rfl
    | none =>
      have hcustom : s.customRequestFor? f = s.requests.customFunctions.get? f.qualified := by
        simp [customRequestFor?, hmetamethod, hredirector]
      cases hwrapper : s.requests.customFunctions.get? f.qualified with
      | some request =>
        rw [hoffers, hcustom, hwrapper]
        exact functions_addCustomFunction s f request key
      | none =>
        have hrequest : s.requestFor? f = (s.requests.functions.get? f.qualified).or (inlineRequest? f) := by
          simp [requestFor?, hmetamethod, hredirector, hwrapper]
        cases hfunction : s.requests.functions.get? f.qualified with
        | some request => exact hbind request (hcustom.trans hwrapper) (by rw [hrequest, hfunction, Option.some_or])
        | none =>
          rw [hfunction, Option.none_or] at hrequest
          cases hinline : inlineRequest? f with
          | some request => exact hbind request (hcustom.trans hwrapper) (hrequest.trans hinline)
          | none =>
            rw [hoffers, hcustom, hwrapper, hrequest, hinline]
            rfl

theorem functions_register (s : Selection) (d : Declaration) (key : String) :
    (s.register d).1.registry.functions.get? key
      = Offer.settleAll key (s.offers d) (s.registry.functions.get? key) := by
  by_cases haside : ∀ f, d = .function f → f.owner.isSome = true
  · have hnone : s.offers d = [] := by
      cases d with
      | function f => simp [offers, haside f rfl]
      | _ => rfl
    rw [hnone, (aside_register s haside).functions]
    rfl
  · push Not at haside
    obtain ⟨f, rfl, hfree⟩ := haside
    rw [register]
    simp only
    rw [if_neg hfree]
    exact functions_registerFunction s (by simpa using hfree) key

/-- The second pass settles all offers. -/
theorem functions_registerAll (s : Selection) {stream : List (Except DeclarationError Declaration)}
    (hends : (s.registerAll stream).2 = none) (key : String) :
    (s.registerAll stream).1.registry.functions.get? key
      = Offer.settleAll key (s.allOffers stream) (s.registry.functions.get? key) := by
  induction stream generalizing s with
  | nil => rfl
  | cons item rest ih =>
    cases item with
    | error e => cases hends
    | ok d =>
      have hfirst := functions_register s d key
      have hlearned := learned_register s d
      rw [registerAll] at hends ⊢
      rw [allOffers, List.flatMap_cons, Offer.settleAll_append]
      split at hends
      · next t heq =>
        rw [heq] at hfirst hlearned
        refine (ih t hends).trans ?_
        rw [hfirst, allOffers_congr hlearned rest]
        rfl
      · cases hends

/-! ### Whole runs -/

/-- What a run has assembled at a key is what the offers settle to. -/
theorem functions_complete {registry : Registry} {stream : List (Except DeclarationError Declaration)} {s : Selection}
    (hnone : registry.functions = ∅) (h : (start registry).runAll stream = (s, none)) (key : String) :
    ((start registry).complete stream).registry.functions.get? key
      = Offer.settleAll key (((start registry).learnAll stream).1.allOffers stream) none := by
  obtain ⟨-, hends, -⟩ := passes_of_run h
  obtain ⟨_, _, _, _, hlearned⟩ := learnAll_rest (start registry) stream
  have hempty : ((start registry).learnAll stream).1.registry.functions = ∅ := by
    rw [hlearned]
    exact hnone
  rw [complete, (aside_assembled _).functions, functions_registerAll _ hends key, hempty]
  rfl

/-- The function at a key after a run: what the offers settle to, unless it names a missing class. -/
theorem functions_of_run {patches : Patches} {headers : NameSet} {stream : List (Except DeclarationError Declaration)}
    {s : Selection} (h : (start { patches, headers }).runAll stream = (s, none)) {key : String} {f : BoundFunction} :
    s.registry.functions.get? key = some f
      ↔ Offer.settleAll key (((start { patches, headers }).learnAll stream).1.allOffers stream) none = some f
        ∧ ((start { patches, headers }).complete stream).registry.misses f = false := by
  obtain ⟨-, -, hsettled⟩ := passes_of_run h
  have hplaced := placed_complete patches headers stream
  rw [hsettled, ← functions_complete rfl h key]
  generalize (start { patches, headers }).complete stream = s at hplaced
  change s.settled.bound? (.free key) = some f ↔ s.registry.bound? (.free key) = some f ∧ _
  rw [bound?_settled_iff s hplaced]
  simp only [surveys, true_and, Bool.not_eq_true]

end Selection

end LuaGlue
