import LuaGlue.Call.Wrapper
import LuaGlue.Proofs.Functions.Ledger

/-!
Aliases and the functions they stand for.

A function with several Lua names is bound under each of them. The first name binds the *primary* one, which owns
the generated wrapper; the others bind aliases, which only name it. A sequence of declarations is `Uncontended` if
no key and no wrapper is shared by two native functions. Then all names of a request settle alike
(`settleAll_paired`), so every alias has its primary, and drops out together with it (`exists_primary`):

    declaration ──▶ first name   primary     overloads o₁ o₂ ..
                └─▶ other name   alias       the same overloads
-/

namespace LuaGlue

open Registry Selection

/-! ### Requests -/

/-- Overloads of one native function are requested under the same names. -/
theorem Selection.requestFor?_congr {s : Selection} {f g : DeclaredFunction} {request other : FunctionRequest}
    (hscope : f.scope = g.scope) (hname : f.name = g.name) (hf : s.requestFor? f = some request)
    (hg : s.requestFor? g = some other) : request.scope = other.scope ∧ request.names = other.names := by
  have hqualified : f.qualified = g.qualified := by
    rw [DeclaredFunction.qualified, DeclaredFunction.qualified, hscope, hname]
  unfold requestFor? at hf hg
  rw [hqualified] at hf
  split at hf
  · cases hf
  · next hnative =>
    rw [if_neg hnative] at hg
    cases hrequested : s.requests.functions.get? g.qualified with
    | some found =>
      rw [hrequested, Option.some_or] at hf hg
      cases hf
      cases hg
      exact ⟨rfl, rfl⟩
    | none =>
      rw [hrequested, Option.none_or, inlineRequest?, Option.map_eq_some_iff] at hf hg
      obtain ⟨_, -, rfl⟩ := hf
      obtain ⟨_, -, rfl⟩ := hg
      exact ⟨hscope, by rw [hname]⟩

/-! ### Overloads that are offered again -/

theorem BoundFunction.covers_congr {f g : BoundFunction} (h : ∀ x, x ∈ f.overloads ↔ x ∈ g.overloads) (o : Overload) :
    f.covers o = g.covers o := by
  have hempty : f.overloads.isEmpty = g.overloads.isEmpty := by
    rw [Bool.eq_iff_iff, List.isEmpty_iff, List.isEmpty_iff, List.eq_nil_iff_forall_not_mem,
      List.eq_nil_iff_forall_not_mem]
    exact forall_congr' fun x => not_congr (h x)
  have hany : f.overloads.any (·.equivalent o) = g.overloads.any (·.equivalent o) := by
    rw [Bool.eq_iff_iff, List.any_eq_true, List.any_eq_true]
    exact exists_congr fun x => and_congr_left fun _ => h x
  rw [covers, covers, hempty, hany]

namespace Offer

section Settle

variable {f : BoundFunction} {o : Overload} {result : CxxType}

/-- An offer adds its overload unless that is covered. -/
theorem settle_spec {offer : Offer} (htypes : offer.types? = some (o, result)) :
    ∃ overloads, offer.settle (some f) = some { f with overloads }
      ∧ ∀ x, x ∈ overloads ↔ x ∈ f.overloads ∨ (x = o ∧ f.covers o = false) := by
  simp only [settle, update, htypes, extendWith, Option.getD_some, BoundFunction.addOverload]
  cases f.covers o with
  | true => exact ⟨f.overloads, rfl, fun x => by simp⟩
  | false => exact ⟨f.overloads ++ [o], rfl, fun x => by simp⟩

/-- Offering an overload more than once adds no more than offering it once. -/
theorem foldl_settle_same {l : List Offer} (hne : l ≠ []) (hall : ∀ offer ∈ l, offer.types? = some (o, result)) :
    ∃ overloads, l.foldl (fun old offer => offer.settle old) (some f) = some { f with overloads }
      ∧ ∀ x, x ∈ overloads ↔ x ∈ f.overloads ∨ (x = o ∧ f.covers o = false) := by
  induction l using List.reverseRecOn with
  | nil => exact absurd rfl hne
  | append_singleton l offer ih =>
    have hlast := hall offer (List.mem_append_right _ List.mem_cons_self)
    rw [List.foldl_append, List.foldl_cons, List.foldl_nil]
    by_cases hl : l = []
    · subst hl
      exact settle_spec hlast
    · obtain ⟨overloads, heq, hmem⟩ := ih hl fun other hother => hall other (List.mem_append_left _ hother)
      obtain ⟨final, hfinal, hfinalmem⟩ := settle_spec (f := { f with overloads }) hlast
      rw [heq, hfinal]
      refine ⟨final, rfl, fun x => (hfinalmem x).trans ((or_congr_left (hmem x)).trans (or_iff_left_of_imp ?_))⟩
      rintro ⟨rfl, hcovers⟩
      refine .inr ⟨rfl, Bool.eq_false_iff.2 fun hcovered => ?_⟩
      have hsame : ({ f with overloads } : BoundFunction).covers x = f.covers x :=
        BoundFunction.covers_congr (fun y => (hmem y).trans (by simp [hcovered])) x
      rw [hsame, hcovered] at hcovers
      cases hcovers

end Settle

/-- The offers of one function to names of a request, where nothing is bound yet. -/
theorem foldl_settle_none {first : Offer} {rest : List Offer} {o : Overload} {result : CxxType}
    (hall : ∀ offer ∈ first :: rest, offer.types? = some (o, result)) :
    ∃ overloads, (first :: rest).foldl (fun old offer => offer.settle old) none
        = some { newFunction first.declared first.request first.index first.luaName result with overloads }
      ∧ ∀ x, x ∈ overloads ↔ x = o := by
  have hfirst : first.settle none
      = some { newFunction first.declared first.request first.index first.luaName result with overloads := [o] } := by
    simp [settle, update, fresh, hall first List.mem_cons_self, extendWith, BoundFunction.addOverload,
      BoundFunction.covers, newFunction, BoundFunction.new, Except.toOption]
  rw [List.foldl_cons, hfirst]
  cases rest with
  | nil => exact ⟨[o], rfl, fun x => List.mem_singleton⟩
  | cons next rest =>
    obtain ⟨overloads, heq, hmem⟩ := foldl_settle_same
      (f := { newFunction first.declared first.request first.index first.luaName result with overloads := [o] })
      (List.cons_ne_nil next rest) fun offer hoffer => hall offer (List.mem_cons_of_mem _ hoffer)
    rw [heq]
    refine ⟨overloads, rfl, fun x => (hmem x).trans ?_⟩
    simp only [List.mem_singleton]
    exact or_iff_left_of_imp And.left

end Offer

/-! ### Primaries -/

/-- Is this the function that owns the wrapper of another one? Both have the same overloads, up to order and
repetition. -/
structure BoundFunction.IsPrimaryOf (g f : BoundFunction) : Prop where
  name : g.name = f.name
  scope : g.scope = f.scope
  state : g.state = f.state
  result : g.result = f.result
  overloads : ∀ x, x ∈ f.overloads ↔ x ∈ g.overloads
  generated : g.wrapperName = none
  own : g.isAlias = false
  direct : g.isRedirector = false

/-- What is bound at the key of a name, and at the key of the first name of its request. -/
def Paired (atKey atFirst : Option BoundFunction) : Prop :=
  (atKey = none ∧ atFirst = none) ∨ ∃ f g, atKey = some f ∧ atFirst = some g ∧ g.IsPrimaryOf f

section Paired

variable {d : DeclaredFunction} {request : FunctionRequest} {types? : Option (Overload × CxxType)}

theorem eq_of_mem_offersTo {offer : Offer} (h : offer ∈ offersTo d request types?) :
    offer.declared = d ∧ offer.request = request ∧ offer.types? = types? := by
  obtain ⟨name, -, rfl⟩ := List.mem_map.1 h
  exact ⟨rfl, rfl, rfl⟩

theorem exists_mem_offersTo {luaName : String} (h : luaName ∈ request.names) :
    ∃ offer ∈ offersTo d request types?, offer.key = Scope.qualify request.scope luaName := by
  obtain ⟨index, hindex⟩ := List.getElem?_of_mem h
  exact ⟨⟨d, request, luaName, index, types?⟩,
    List.mem_map.2 ⟨(luaName, index), List.mem_zipIdx_iff_getElem?.2 hindex, rfl⟩, rfl⟩

/-- At the key of the first name the first offer is the one to the first name. -/
theorem filter_offersTo_first {first : String} {others : List String} (hnames : request.names = first :: others) :
    ∃ rest, ((offersTo d request types?).filter fun o => o.key == Scope.qualify request.scope first)
      = ⟨d, request, first, 0, types?⟩ :: rest := by
  rw [offersTo, hnames, List.zipIdx_cons, List.map_cons, List.filter_cons_of_pos (by simp [Offer.key])]
  exact ⟨_, rfl⟩

/-- All names of a request take the offers of a function alike. -/
theorem paired_offersTo {a b : Option BoundFunction} (h : Paired a b) {first luaName : String}
    {others : List String} (hnames : request.names = first :: others) (hname : luaName ∈ request.names)
    (types : Overload × CxxType) :
    Paired (Offer.settleAll (Scope.qualify request.scope luaName) (offersTo d request (some types)) a)
      (Offer.settleAll (Scope.qualify request.scope first) (offersTo d request (some types)) b) := by
  obtain ⟨o, result⟩ := types
  have htypes : ∀ key, ∀ offer ∈ (offersTo d request (some (o, result))).filter fun o => o.key == key,
      offer.declared = d ∧ offer.request = request ∧ offer.types? = some (o, result) :=
    fun key offer hoffer => eq_of_mem_offersTo (List.mem_of_mem_filter hoffer)
  have hatKey : ((offersTo d request (some (o, result))).filter fun o =>
      o.key == Scope.qualify request.scope luaName) ≠ [] := by
    obtain ⟨offer, hoffer, hkey⟩ := @exists_mem_offersTo d request (some (o, result)) luaName hname
    exact List.ne_nil_of_mem (List.mem_filter.2 ⟨hoffer, beq_iff_eq.2 hkey⟩)
  obtain ⟨rest, hfirst⟩ := @filter_offersTo_first d request (some (o, result)) first others hnames
  rw [Offer.settleAll, Offer.settleAll]
  rcases h with ⟨rfl, rfl⟩ | ⟨f, g, rfl, rfl, hprimary⟩
  · -- nothing is bound yet, and the request says what is
    obtain ⟨next, others, hcons⟩ := List.exists_cons_of_ne_nil hatKey
    have hall := htypes (Scope.qualify request.scope luaName)
    have hallFirst := htypes (Scope.qualify request.scope first)
    rw [hcons] at hall ⊢
    rw [hfirst] at hallFirst ⊢
    obtain ⟨overloads, heq, hmem⟩ := Offer.foldl_settle_none fun offer hoffer => (hall offer hoffer).2.2
    obtain ⟨overloads', heq', hmem'⟩ := Offer.foldl_settle_none fun offer hoffer => (hallFirst offer hoffer).2.2
    obtain ⟨hdeclared, hrequest, -⟩ := hall next List.mem_cons_self
    rw [heq, heq', hdeclared, hrequest]
    exact .inr ⟨_, _, rfl, rfl, rfl, rfl, rfl, rfl, fun x => (hmem x).trans (hmem' x).symm, rfl, rfl, rfl⟩
  · obtain ⟨overloads, heq, hmem⟩ := Offer.foldl_settle_same (f := f) hatKey fun offer hoffer =>
      (htypes _ offer hoffer).2.2
    obtain ⟨overloads', heq', hmem'⟩ := Offer.foldl_settle_same (f := g) (hfirst ▸ List.cons_ne_nil _ rest)
      fun offer hoffer => (htypes _ offer hoffer).2.2
    have hcovers := BoundFunction.covers_congr hprimary.overloads o
    rw [heq, heq']
    refine .inr ⟨_, _, rfl, rfl, hprimary.name, hprimary.scope, hprimary.state, hprimary.result, fun x => ?_,
      hprimary.generated, hprimary.own, hprimary.direct⟩
    rw [hmem, hmem', hprimary.overloads x, hcovers]

end Paired

/-! ### Whole runs -/

/-- Are two offers of one native function? -/
def Offer.SameNative (a b : Offer) : Prop :=
  a.declared.scope = b.declared.scope ∧ a.declared.name = b.declared.name

instance (a b : Offer) : Decidable (a.SameNative b) := inferInstanceAs (Decidable (_ ∧ _))

namespace Selection

/-- Are no key and no generated wrapper shared by two native functions, and no key by a function and a native
wrapper? -/
structure Uncontended (s : Selection) (stream : List (Except DeclarationError Declaration)) : Prop where
  keys : ∀ a ∈ s.allOffers stream, ∀ b ∈ s.allOffers stream, a.key = b.key → a.types?.isSome = true →
    b.types?.isSome = true ∧ a.SameNative b
  wrappers : ∀ a ∈ s.allOffers stream, ∀ b ∈ s.allOffers stream, a.types?.isSome = true → b.types?.isSome = true →
    a.fresh.freeWrapperName = b.fresh.freeWrapperName → a.SameNative b

instance (s : Selection) (stream : List (Except DeclarationError Declaration)) : Decidable (s.Uncontended stream) :=
  decidable_of_iff
    ((∀ a ∈ s.allOffers stream, ∀ b ∈ s.allOffers stream, a.key = b.key → a.types?.isSome = true →
        b.types?.isSome = true ∧ a.SameNative b)
      ∧ ∀ a ∈ s.allOffers stream, ∀ b ∈ s.allOffers stream, a.types?.isSome = true → b.types?.isSome = true →
        a.fresh.freeWrapperName = b.fresh.freeWrapperName → a.SameNative b)
    ⟨fun h => ⟨h.1, h.2⟩, fun h => ⟨h.keys, h.wrappers⟩⟩

variable {s : Selection} {stream : List (Except DeclarationError Declaration)}

theorem offers_eq_offersTo {d : Declaration} {offer : Offer} (h : offer ∈ s.offers d) :
    s.offers d = offersTo offer.declared offer.request offer.types? := by
  obtain ⟨rfl, hfree, -, hsource⟩ := mem_offers_iff.1 h
  rw [offers, if_neg (by simp [hfree])]
  cases htypes : offer.types? with
  | none =>
    rw [htypes] at hsource
    rw [hsource]
  | some types =>
    rw [htypes] at hsource
    rw [hsource.1, hsource.2.1, hsource.2.2]

theorem settleAll_of_forall_ne {key : String} {offers : List Offer} (h : ∀ offer ∈ offers, offer.key ≠ key)
    (old : Option BoundFunction) : Offer.settleAll key offers old = old := by
  rw [Offer.settleAll, List.filter_eq_nil_iff.2 fun offer hoffer => by simpa using h offer hoffer]
  rfl

/-- All names of a request settle alike, if nothing else is offered there. -/
theorem settleAll_paired {scope first luaName : String} {others : List String} (hname : luaName ∈ first :: others)
    (hall : ∀ offer ∈ s.allOffers stream,
      offer.key = Scope.qualify scope luaName ∨ offer.key = Scope.qualify scope first →
        offer.types?.isSome = true ∧ offer.request.scope = scope ∧ offer.request.names = first :: others)
    {a b : Option BoundFunction} (h : Paired a b) :
    Paired (Offer.settleAll (Scope.qualify scope luaName) (s.allOffers stream) a)
      (Offer.settleAll (Scope.qualify scope first) (s.allOffers stream) b) := by
  induction stream generalizing a b with
  | nil => exact h
  | cons item rest ih =>
    rw [allOffers, List.flatMap_cons] at hall ⊢
    rw [Offer.settleAll_append, Offer.settleAll_append]
    refine ih (fun offer hoffer => hall offer (List.mem_append_right _ hoffer)) ?_
    cases item with
    | error e => exact h
    | ok d =>
      by_cases hany : ∃ offer ∈ s.offers d,
          offer.key = Scope.qualify scope luaName ∨ offer.key = Scope.qualify scope first
      · obtain ⟨offer, hoffer, hkey⟩ := hany
        obtain ⟨hsome, hscope, hnames⟩ := hall offer (List.mem_append_left _ hoffer) hkey
        obtain ⟨types, htypes⟩ := Option.isSome_iff_exists.1 hsome
        have hpaired := paired_offersTo (d := offer.declared) h hnames (hnames ▸ hname) types
        simp only
        rwa [offers_eq_offersTo hoffer, htypes, ← hscope]
      · push Not at hany
        simp only
        rw [settleAll_of_forall_ne fun offer hoffer => (hany offer hoffer).1,
          settleAll_of_forall_ne fun offer hoffer => (hany offer hoffer).2]
        exact h

/-- Offers of one native function are made to the same names. -/
theorem request_eq_of_sameNative {a b : Offer} (ha : a ∈ s.allOffers stream) (hb : b ∈ s.allOffers stream)
    (hasome : a.types?.isSome = true) (hbsome : b.types?.isSome = true) (hsame : a.SameNative b) :
    a.request.scope = b.request.scope ∧ a.request.names = b.request.names := by
  obtain ⟨_, hatypes⟩ := Option.isSome_iff_exists.1 hasome
  obtain ⟨_, hbtypes⟩ := Option.isSome_iff_exists.1 hbsome
  obtain ⟨-, -, -, hasource⟩ := mem_offers_iff.1 (mem_allOffers_iff.1 ha).2
  obtain ⟨-, -, -, hbsource⟩ := mem_offers_iff.1 (mem_allOffers_iff.1 hb).2
  rw [hatypes] at hasource
  rw [hbtypes] at hbsource
  exact requestFor?_congr hsame.1 hsame.2 hasource.2.1 hbsource.2.1

/-- Every function without a native wrapper has its primary, and no other primary has its wrapper. -/
theorem Uncontended.exists_primary (h : s.Uncontended stream) {key : String} {f : BoundFunction}
    (hf : Offer.settleAll key (s.allOffers stream) none = some f) (hwrapper : f.wrapperName = none) :
    ∃ first g, Offer.settleAll first (s.allOffers stream) none = some g ∧ g.IsPrimaryOf f
      ∧ ∀ other g', Offer.settleAll other (s.allOffers stream) none = some g' → g'.wrapperName = none →
        g'.isAlias = false → g'.freeWrapperName = f.freeWrapperName → other = first := by
  have hfirst : ∀ {key : String} {f : BoundFunction}, Offer.settleAll key (s.allOffers stream) none = some f →
      f.wrapperName = none → ∃ a ∈ s.allOffers stream, a.key = key ∧ a.types?.isSome = true
        ∧ f.freeWrapperName = a.fresh.freeWrapperName ∧ f.isAlias = decide (0 < a.index) := by
    intro key f hf hwrapper
    obtain ⟨a, rest, o, result, hoffers, htypes, -, heq⟩ := Offer.eq_of_foldl_settle hf hwrapper
    have ha : a ∈ (s.allOffers stream).filter fun o => o.key == key := hoffers ▸ List.mem_cons_self
    obtain ⟨ha, hkey⟩ := List.mem_filter.1 ha
    refine ⟨a, ha, beq_iff_eq.1 hkey, Option.isSome_iff_exists.2 ⟨_, htypes⟩, ?_, ?_⟩
    · rw [heq, Offer.fresh, htypes]
      rfl
    · rw [heq]
      rfl
  obtain ⟨a, ha, rfl, hsome, hnamed, -⟩ := hfirst hf hwrapper
  obtain ⟨hdeclared, hoffer⟩ := mem_allOffers_iff.1 ha
  obtain ⟨-, -, hindex, -⟩ := mem_offers_iff.1 hoffer
  have hname := List.mem_of_getElem? hindex
  obtain ⟨first, others, hnames⟩ := List.exists_cons_of_ne_nil (List.ne_nil_of_mem hname)
  -- the offer of the same declaration to the first name
  have hprimary : (⟨a.declared, a.request, first, 0, a.types?⟩ : Offer) ∈ s.allOffers stream := by
    refine mem_allOffers_iff.2 ⟨hdeclared, ?_⟩
    rw [offers_eq_offersTo hoffer]
    exact List.mem_map.2 ⟨(first, 0), List.mem_zipIdx_iff_getElem?.2 (by rw [hnames]; rfl), rfl⟩
  have hall : ∀ offer ∈ s.allOffers stream, offer.key = Scope.qualify a.request.scope a.luaName
      ∨ offer.key = Scope.qualify a.request.scope first →
        offer.types?.isSome = true ∧ offer.request.scope = a.request.scope ∧ offer.request.names = first :: others := by
    intro offer hoffer hkey
    have hsame : offer.types?.isSome = true ∧ a.SameNative offer := by
      rcases hkey with hkey | hkey
      · exact h.keys a ha offer hoffer hkey.symm hsome
      · exact h.keys _ hprimary offer hoffer hkey.symm hsome
    obtain ⟨hscope, hsamenames⟩ := request_eq_of_sameNative ha hoffer hsome hsame.1 hsame.2
    exact ⟨hsame.1, hscope.symm, hsamenames.symm.trans hnames⟩
  have hpaired := settleAll_paired (hnames ▸ hname) hall (a := none) (b := none) (.inl ⟨rfl, rfl⟩)
  change Offer.settleAll (Scope.qualify a.request.scope a.luaName) _ none = some f at hf
  rcases hpaired with ⟨hnone, -⟩ | ⟨f', g, hf', hg, hisprimary⟩
  · rw [hf] at hnone
    cases hnone
  · rw [hf] at hf'
    cases hf'
    refine ⟨_, g, hg, hisprimary, fun other g' hg' hgenerated hown hshared => ?_⟩
    obtain ⟨b, hb, rfl, hbsome, hbnamed, hbown⟩ := hfirst hg' hgenerated
    obtain ⟨hscope, hsamenames⟩ := request_eq_of_sameNative hb ha hbsome hsome
      (h.wrappers b hb a ha hbsome hsome (hbnamed.symm.trans (hshared.trans hnamed)))
    have hzero : b.index = 0 := by
      rw [hbown] at hown
      simpa using hown
    obtain ⟨-, -, hbindex, -⟩ := mem_offers_iff.1 (mem_allOffers_iff.1 hb).2
    rw [hsamenames, hnames, hzero] at hbindex
    obtain rfl : first = b.luaName := Option.some.inj hbindex
    rw [Offer.key, hscope]

end Selection

end LuaGlue
