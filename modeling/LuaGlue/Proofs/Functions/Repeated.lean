import LuaGlue.Proofs.Attachment.Requested
import LuaGlue.Proofs.Functions.Ledger
import LuaGlue.Proofs.Resolution.Resolved

/-!
Repeated requests for one free function.

A comment asks for a free function under one Lua name (`NameRequest`). The first pass folds all of them that are for
one function into a single request, which takes its state and its scope from the first and a name from each
(`get?_functions_learnAll`):

    (Main, ::World, Find)   (Main, ::World, Seek)   (Editor, ::Tools, Find)
    Main, ::World, [Find, Seek, Find]

So a request is honoured when it agrees with the first one in state and scope, and is lost without a word otherwise.
-/

namespace LuaGlue

open Registry Selection

/-! ### What a comment asks for -/

/-- A free function that is asked for under one Lua name, in the Lua state `state`. -/
structure NameRequest where
  target : String
  state : String
  scope : String
  luaName : String
  deriving DecidableEq, Repr

namespace NameRequest

/-- The path in Lua that is asked for. -/
def path (q : NameRequest) : String := Scope.qualify q.scope q.luaName

/-- What a request for a free function is for. -/
def of? : Request → Option NameRequest
  | .function target state scope luaName => some ⟨target, state, scope, luaName⟩
  | _ => none

/-- What the comment of a declaration asks for. -/
def read? (item : Except DeclarationError Declaration) : Option NameRequest := (Request.read? item).bind of?

end NameRequest

/-- The requests for a free function, in order. -/
def nameRequests (target : String) (stream : List (Except DeclarationError Declaration)) : List NameRequest :=
  (stream.filterMap NameRequest.read?).filter fun q => q.target == target

namespace Annotation

/-- The scope in Lua that a request for a free function gives, or else that of the function. -/
def luaScope (late : Annotation) (target : String) : String :=
  match late.params[2]? with
  | none | some "" | some "_" => (Scope.splitQualified target).1
  | some scope => Scope.normalize scope

/-- The Lua name that a request for a free function gives, or else that of the function. -/
def luaName (late : Annotation) (target : String) : String :=
  match late.params[3]? with
  | none | some "" => (Scope.splitQualified target).2
  | some name => name

end Annotation

/-- Does the annotation ask for just this? -/
structure Annotation.AsksFor (late : Annotation) (q : NameRequest) : Prop where
  kind : late.params[0]? = some "FreeFunction"
  target : late.params[1]?.map Scope.canonical = some q.target
  scope : late.luaScope q.target = q.scope
  luaName : late.luaName q.target = q.luaName

/-- Does a comment name a Lua state and ask for just this? -/
structure AsksFor (comment : String) (q : NameRequest) : Prop where
  named : ((Annotations.parse comment).get? "LuaStateTypes").bind (·.params[0]?) = some q.state
  asked : ∃ late, (Annotations.parse comment).get? "LuaLate" = some late ∧ late.AsksFor q

theorem Annotation.param_eq_ok {a : Annotation} {index : Nat} {text : String} (h : a.params[index]? = some text) :
    a.param index = .ok text := by
  rw [param, h]

theorem Annotation.luaName_eq (late : Annotation) (target : String) :
    (late.optional 3).getD (Scope.splitQualified target).2 = late.luaName target := by
  rw [optional, luaName]
  cases late.params[3]? with
  | none => rfl
  | some name => by_cases h : name = "" <;> simp [h, Option.filter_some]

theorem Annotation.luaScope_eq (late : Annotation) (target : String) :
    (match late.optional 2 with
      | some scope => if scope = "_" then (Scope.splitQualified target).1 else Scope.normalize scope
      | none => (Scope.splitQualified target).1) = late.luaScope target := by
  rw [optional, luaScope]
  cases late.params[2]? with
  | none => rfl
  | some scope =>
    by_cases h : scope = ""
    · simp [h, Option.filter_some]
    · by_cases hblank : scope = "_" <;> simp [h, hblank, Option.filter_some]

/-- What a comment asks for is read from it. -/
theorem AsksFor.read? {d : Declaration} {q : NameRequest} (h : AsksFor d.comment q) :
    NameRequest.read? (.ok d) = some q := by
  obtain ⟨x, hx, hstate⟩ := Option.bind_eq_some_iff.1 h.named
  obtain ⟨late, hfound, hasks⟩ := h.asked
  obtain ⟨name, hname, htarget⟩ := Option.map_eq_some_iff.1 hasks.target
  have hlate : Request.withParams? (Annotations.parse d.comment) "LuaLate" 2 = some late := by
    have hlength : 2 ≤ late.params.length := (List.getElem?_eq_some_iff.1 hname).1
    exact Annotations.withParams?_eq_some.2 ⟨hfound, hlength⟩
  have hrequest : Request.late q.state late = .ok (.function q.target q.state q.scope q.luaName) := by
    rw [← hasks.scope, ← hasks.luaName, ← htarget]
    simp only [Request.late, Annotation.param_eq_ok hasks.kind, Annotation.param_eq_ok hname,
      ← Annotation.luaName_eq, ← Annotation.luaScope_eq]
    rfl
  have hof : Request.of (Annotations.parse d.comment)
      = .ok (some (.function q.target q.state q.scope q.luaName)) := by
    rw [Request.of, hx]
    simp only [hlate, Annotation.param_eq_ok hstate]
    exact bind_eq_ok.2 ⟨q.state, rfl, map_eq_ok.2 ⟨_, hrequest, rfl⟩⟩
  rw [NameRequest.read?, Request.read?, hof]
  rfl

/-! ### What the first pass makes of the requests -/

namespace FunctionRequest

/-- The request for a function after one more Lua name is asked for. -/
def extend (request : Option FunctionRequest) (q : NameRequest) : Option FunctionRequest :=
  some (Requests.addName q.state q.scope q.luaName request)

theorem foldl_extend_some (request : FunctionRequest) (asked : List NameRequest) :
    asked.foldl extend (some request) = some { request with names := request.names ++ asked.map (·.luaName) } := by
  induction asked generalizing request with
  | nil => simp
  | cons q rest ih =>
    have hfirst : extend (some request) q = some { request with names := request.names ++ [q.luaName] } := rfl
    rw [List.foldl_cons, hfirst, ih, List.map_cons]
    simp

/-- The first request gives state and scope, and every request a name. -/
theorem foldl_extend_cons (first : NameRequest) (rest : List NameRequest) :
    (first :: rest).foldl extend none
      = some ⟨first.state, first.scope, (first :: rest).map (·.luaName)⟩ := by
  have hfirst : extend none first = some ⟨first.state, first.scope, [first.luaName]⟩ := rfl
  rw [List.foldl_cons, hfirst, foldl_extend_some]
  rfl

end FunctionRequest

theorem Requests.get?_functions_add (rs : Requests) (request : Request) (target : String) :
    (rs.add request).functions.get? target
      = ((NameRequest.of? request).toList.filter fun q => q.target == target).foldl FunctionRequest.extend
        (rs.functions.get? target) := by
  cases request with
  | function other state scope luaName =>
    rw [add, NameMap.alter, NameMap.get?_insert, NameRequest.of?, Option.toList_some, List.filter_singleton]
    by_cases h : target = other
    · subst h
      simp [FunctionRequest.extend]
    · have hother : (other == target) = false := by simpa using Ne.symm h
      simp [h, hother]
  | _ => rfl

theorem Requests.get?_functions_foldl (rs : Requests) (requests : List Request) (target : String) :
    (requests.foldl add rs).functions.get? target
      = ((requests.filterMap NameRequest.of?).filter fun q => q.target == target).foldl FunctionRequest.extend
        (rs.functions.get? target) := by
  induction requests generalizing rs with
  | nil => rfl
  | cons request rest ih =>
    rw [List.foldl_cons, ih, get?_functions_add, ← List.foldl_append, ← List.filter_append, List.filterMap_cons]
    cases NameRequest.of? request <;> rfl

/-- After the first pass the requests for a function are one. -/
theorem Selection.get?_functions_learnAll {registry : Registry} {stream : List (Except DeclarationError Declaration)}
    (hends : ((start registry).learnAll stream).2 = none) (target : String) :
    ((start registry).learnAll stream).1.requests.functions.get? target
      = (nameRequests target stream).foldl FunctionRequest.extend none := by
  have hnone : (start registry).requests.functions.get? target = none := rfl
  rw [requests_learnAll _ hends, Requests.get?_functions_foldl, hnone, List.filterMap_filterMap]
  rfl

/-- The one request for a function that a comment asks for has the state and the scope of the first, and all names. -/
theorem Selection.exists_merged_request {registry : Registry} {stream : List (Except DeclarationError Declaration)}
    (hends : ((start registry).learnAll stream).2 = none) {d : Declaration} {q : NameRequest} (hd : .ok d ∈ stream)
    (hasks : AsksFor d.comment q) : ∃ first request, (nameRequests q.target stream).head? = some first
      ∧ ((start registry).learnAll stream).1.requests.functions.get? q.target = some request
      ∧ request.state = first.state ∧ request.scope = first.scope ∧ q.luaName ∈ request.names := by
  have hq : q ∈ nameRequests q.target stream :=
    List.mem_filter.2 ⟨List.mem_filterMap.2 ⟨.ok d, hd, hasks.read?⟩, by simp⟩
  obtain ⟨first, rest, hlist⟩ := List.exists_cons_of_ne_nil (List.ne_nil_of_mem hq)
  refine ⟨first, ⟨first.state, first.scope, (first :: rest).map (·.luaName)⟩, by rw [hlist]; rfl, ?_, rfl, rfl, ?_⟩
  · rw [get?_functions_learnAll hends, hlist, FunctionRequest.foldl_extend_cons]
  · exact List.mem_map.2 ⟨q, hlist ▸ hq, rfl⟩

/-! ### Runs -/

/-- Is there a function at the path that was asked for, with the scope, the name and the state that were asked for? -/
def Registry.Honours (r : Registry) (q : NameRequest) : Prop :=
  ∃ f, r.functions.get? q.path = some f ∧ f.qualified = q.target ∧ f.luaScope = q.scope ∧ f.luaName = q.luaName
    ∧ f.state = some q.state

/-- Is the function claimed as a native wrapper that stands for something else? -/
def Requests.claims (rs : Requests) (target : String) : Bool :=
  (rs.metamethods.get? target).isSome || (rs.redirectors.get? target).isSome || (rs.customFunctions.get? target).isSome

theorem luaScope_newFunction (f : DeclaredFunction) (request : FunctionRequest) (index : Nat) (luaName : String)
    (result : CxxType) (overloads : List Overload) :
    ({ newFunction f request index luaName result with overloads } : BoundFunction).luaScope = request.scope := by
  by_cases h : request.scope = f.scope <;> simp [BoundFunction.luaScope, newFunction, BoundFunction.new, h]

theorem Scope.eq_of_qualify_left_eq {scope name name' : String} (h : qualify scope name = qualify scope name') :
    name = name' := by
  have htext := congrArg String.toList h
  rw [toList_qualify, toList_qualify, List.append_cancel_left_eq] at htext
  exact String.toList_inj.1 (List.cons.inj (List.cons.inj htext).2).2

section Unclaimed

variable {learned : Selection} {f : DeclaredFunction} (hclaims : learned.requests.claims f.qualified = false)

include hclaims

theorem customRequestFor?_of_not_claims : learned.customRequestFor? f = none := by
  simp only [Requests.claims, Bool.or_eq_false_iff, Option.isSome_eq_false_iff, Option.isNone_iff_eq_none] at hclaims
  obtain ⟨⟨hmetamethods, hredirectors⟩, hcustom⟩ := hclaims
  simp [customRequestFor?, hmetamethods, hredirectors, hcustom]

theorem requestFor?_of_not_claims {request : FunctionRequest}
    (hrequest : learned.requests.functions.get? f.qualified = some request) : learned.requestFor? f = some request := by
  simp only [Requests.claims, Bool.or_eq_false_iff, Option.isSome_eq_false_iff, Option.isNone_iff_eq_none] at hclaims
  obtain ⟨⟨hmetamethods, hredirectors⟩, hcustom⟩ := hclaims
  simp [requestFor?, hmetamethods, hredirectors, hcustom, hrequest]

/-- It is offered under each of its names. -/
theorem offersAt_ne_nil_of_not_claims {stream : List (Except DeclarationError Declaration)} {request : FunctionRequest}
    (hrequest : learned.requests.functions.get? f.qualified = some request) (hf : .ok (.function f) ∈ stream)
    (hfree : f.owner = none) {types : Overload × CxxType} (hsignature : learned.signature f = .ok types)
    {luaName : String} (hname : luaName ∈ request.names) :
    learned.offersAt (Scope.qualify request.scope luaName) stream ≠ [] := by
  obtain ⟨index, hindex⟩ := List.mem_iff_getElem?.1 hname
  have hoffer : (⟨f, request, luaName, index, some types⟩ : Offer) ∈ learned.offers (.function f) :=
    mem_offers_iff.2 ⟨rfl, hfree, hindex, customRequestFor?_of_not_claims hclaims,
      requestFor?_of_not_claims hclaims hrequest, hsignature⟩
  exact List.ne_nil_of_mem (mem_offersAt.2 ⟨hf, hoffer, rfl⟩)

end Unclaimed

/-- What is assembled from typed offers of one request: a function with its scope and its state, under one of its
names. -/
theorem Offer.settled_of_typed {offers : List Offer} {request : FunctionRequest} {target key : String}
    (htyped : ∀ offer ∈ offers, offer.declared.qualified = target ∧ offer.request = request ∧ offer.key = key
      ∧ ∃ types, offer.types? = some types) :
    (offers = [] ∧ offers.foldl (fun old o => o.settle old) none = none)
      ∨ ∃ f, offers.foldl (fun old o => o.settle old) none = some f ∧ f.qualified = target
        ∧ f.luaScope = request.scope ∧ f.state = some request.state ∧ f.wrapperName = none
        ∧ Scope.qualify request.scope f.luaName = key := by
  cases offers with
  | nil => exact .inl ⟨rfl, rfl⟩
  | cons first rest =>
    obtain ⟨hdeclared, hrequest, hkey, ⟨o, result⟩, htypes⟩ := htyped first List.mem_cons_self
    rw [(Offer.foldl_settle_cons htypes rest).1]
    refine .inr ⟨_, rfl, hdeclared, ?_, ?_, rfl, ?_⟩
    · rw [luaScope_newFunction, hrequest]
    · exact congrArg (fun request => some request.state) hrequest
    · rw [← hrequest]
      exact hkey

/-- Where a function that is not claimed is the only one that is offered, all offers are to its one request. -/
theorem typed_of_mem_offersAt {learned : Selection} {stream : List (Except DeclarationError Declaration)}
    {target key : String} {request : FunctionRequest} (hclaims : learned.requests.claims target = false)
    (hrequest : learned.requests.functions.get? target = some request)
    (hothers : ∀ offer ∈ learned.offersAt key stream, offer.declared.qualified = target) :
    ∀ offer ∈ learned.offersAt key stream, offer.declared.qualified = target ∧ offer.request = request
      ∧ offer.key = key ∧ ∃ types, offer.types? = some types := by
  intro offer hoffer
  have hdeclared := hothers offer hoffer
  obtain ⟨-, hmem, hkey⟩ := mem_offersAt.1 hoffer
  obtain ⟨-, -, -, hsource⟩ := mem_offers_iff.1 hmem
  rw [← hdeclared] at hclaims hrequest
  rw [customRequestFor?_of_not_claims hclaims, requestFor?_of_not_claims hclaims hrequest] at hsource
  cases htypes : offer.types? with
  | none => simp [htypes] at hsource
  | some types =>
    rw [htypes] at hsource
    exact ⟨hdeclared, (Option.some.inj hsource.2.1).symm, hkey, types, rfl⟩

/-- CORRECT: take a comment that asks for a free function in a Lua state, where the function is declared with types that
can be read and is not claimed as a native wrapper, and no other function is offered under the path that is asked for.
After a run that succeeds the function is bound at this path, with the scope, the name and the state that the comment
asks for, exactly when the first comment that asks for this function gives the same scope and the same state, and no
class is missing that is used by what was assembled at the path. -/
theorem function_request_honoured_iff (patches : Patches) (headers : NameSet)
    (stream : List (Except DeclarationError Declaration)) (s : Selection)
    (hrun : (start { patches, headers }).runAll stream = (s, none)) :
    let learned := ((start { patches, headers }).learnAll stream).1
    let complete := (start { patches, headers }).complete stream
    ∀ d q, .ok d ∈ stream → AsksFor d.comment q →
      (∃ f, .ok (.function f) ∈ stream ∧ f.owner = none ∧ f.qualified = q.target
        ∧ ∃ types, learned.signature f = .ok types) →
      learned.requests.claims q.target = false →
      (∀ offer ∈ learned.offersAt q.path stream, offer.declared.qualified = q.target) →
      ∃ first, (nameRequests q.target stream).head? = some first
        ∧ (s.registry.Honours q ↔ q.scope = first.scope ∧ q.state = first.state
          ∧ ∀ f, complete.registry.functions.get? q.path = some f →
            ∀ use ∈ f.uses, complete.registry.lacks use = false) := by
  intro learned complete d q hd hasks ⟨f, hf, hfree, hqualified, types, hsignature⟩ hclaims hothers
  obtain ⟨hends, -, -⟩ := passes_of_run hrun
  obtain ⟨first, request, hhead, hmerged, hstate, hscope, hname⟩ := exists_merged_request hends hd hasks
  have hcomplete : complete.registry.functions.get? q.path
      = (learned.offersAt q.path stream).foldl (fun old o => o.settle old) none := functions_complete rfl hrun q.path
  have hkept : ∀ g, s.registry.functions.get? q.path = some g
      ↔ complete.registry.functions.get? q.path = some g ∧ complete.registry.misses g = false := by
    intro g
    rw [hcomplete]
    exact functions_of_run hrun
  refine ⟨first, hhead, ?_⟩
  rcases Offer.settled_of_typed (typed_of_mem_offersAt hclaims hmerged hothers) with
    ⟨hnone, hfold⟩ | ⟨g, hfold, hgtarget, hgscope, hgstate, hdirect, hgpath⟩
  · -- nothing is offered at the path, so the first request gives another scope
    constructor
    · rintro ⟨g, hg, -⟩
      have hassembled := hcomplete.symm.trans ((hkept g).1 hg).1
      rw [hfold] at hassembled
      cases hassembled
    · rintro ⟨hqscope, -, -⟩
      have hpath : Scope.qualify request.scope q.luaName = q.path := by rw [hscope, ← hqscope, NameRequest.path]
      rw [← hqualified] at hclaims hmerged
      exact absurd (hpath ▸ hnone) (offersAt_ne_nil_of_not_claims hclaims hmerged hf hfree hsignature hname)
  · -- `g` is assembled there, with the scope and the state of the first request
    have hassembled : complete.registry.functions.get? q.path = some g := hcomplete.trans hfold
    have hfound : ∀ {f}, complete.registry.functions.get? q.path = some f → f = g := fun hf =>
      Option.some.inj (hf.symm.trans hassembled)
    constructor
    · rintro ⟨f, hf, -, hfscope, -, hfstate⟩
      obtain ⟨hfg, hmisses⟩ := (hkept f).1 hf
      obtain rfl := hfound hfg
      refine ⟨hfscope.symm.trans (hgscope.trans hscope), ?_, fun f' hf' => ?_⟩
      · exact Option.some.inj (hfstate.symm.trans (hgstate.trans (congrArg some hstate)))
      · rw [hfound hf']
        exact (Registry.misses_eq_false_iff_lacks hdirect).1 hmisses
    · rintro ⟨hqscope, hqstate, hresolves⟩
      have hmisses := (Registry.misses_eq_false_iff_lacks hdirect).2 (hresolves g hassembled)
      have hsame : request.scope = q.scope := hscope.trans hqscope.symm
      rw [hsame] at hgscope hgpath
      exact ⟨g, (hkept g).2 ⟨hassembled, hmisses⟩, hgtarget, hgscope, Scope.eq_of_qualify_left_eq hgpath,
        by rw [hgstate, hstate, hqstate]⟩

/-- `Find` of the scope `World`. -/
def find : DeclaredFunction := ⟨"Find", "::World", [], "void", false, "", none, false, "world.hpp"⟩

/-- `Find` behind a comment that asks for it, and behind another comment. -/
def findAskedBy (comment : String) : List (Except DeclarationError Declaration) :=
  [.ok (.remark "CUSTOM_ATTRIBUTE[LuaStateTypes(Main) LuaLate(FreeFunction, ::World::Find)]"),
    .ok (.remark comment), .ok (.function find)]

/-- One more name in the same scope. -/
def seek : NameRequest := ⟨"::World::Find", "Main", "::World", "Seek"⟩

/-- Asks for it. -/
def seekComment : String := "CUSTOM_ATTRIBUTE[LuaStateTypes(Main) LuaLate(FreeFunction, ::World::Find, _, Seek)]"

theorem asksFor_seek : AsksFor seekComment seek :=
  ⟨by decide +kernel, ⟨"LuaLate", ["FreeFunction", "::World::Find", "_", "Seek"]⟩, by decide +kernel,
    rfl, by decide +kernel, by decide +kernel, rfl⟩

theorem seek_honoured : ∃ s, (start {}).runAll (findAskedBy seekComment) = (s, none) ∧ s.registry.Honours seek := by
  have hruns : ((start {}).runAll (findAskedBy seekComment)).2 = none
      ∧ find.qualified = seek.target
      ∧ (((start {}).learnAll (findAskedBy seekComment)).1.signature find).isOk = true
      ∧ ((start {}).learnAll (findAskedBy seekComment)).1.requests.claims seek.target = false
      ∧ (((start {}).learnAll (findAskedBy seekComment)).1.offersAt seek.path (findAskedBy seekComment)).all
        (fun offer => offer.declared.qualified == seek.target) = true
      ∧ (nameRequests seek.target (findAskedBy seekComment)).head? = some ⟨"::World::Find", "Main", "::World", "Find"⟩
      ∧ (((start {}).complete (findAskedBy seekComment)).registry.functions.get? seek.path).all
        (fun f => f.uses.isEmpty) = true := by
    decide +kernel
  obtain ⟨hends, htarget, hread, hclaims, hothers, hhead, huses⟩ := hruns
  have hrun := eq_of_ends hends
  obtain ⟨first, hfirst, hiff⟩ := function_request_honoured_iff {} ∅ (findAskedBy seekComment) _ hrun
    (.remark seekComment) seek (by simp [findAskedBy]) asksFor_seek
    ⟨find, by simp [findAskedBy], rfl, htarget, isOk_iff.1 hread⟩ hclaims
    fun offer hoffer => beq_iff_eq.1 (List.all_eq_true.1 hothers offer hoffer)
  obtain rfl := Option.some.inj (hhead.symm.trans hfirst)
  refine ⟨_, hrun, hiff.2 ⟨rfl, rfl, fun f hf use huse => ?_⟩⟩
  have hnone : f.uses = [] := List.isEmpty_iff.1 (Option.all_eq_true .. |>.1 huses f hf)
  rw [hnone] at huse
  cases huse

/-- One more name in another scope. -/
def locate : NameRequest := ⟨"::World::Find", "Main", "::Tools", "Locate"⟩

/-- Asks for it. -/
def locateComment : String :=
  "CUSTOM_ATTRIBUTE[LuaStateTypes(Main) LuaLate(FreeFunction, ::World::Find, ::Tools, Locate)]"

/-- The second comment gives another scope than the first, and `Find` is not bound there. -/
theorem locate_lost : ((start {}).runAll (findAskedBy locateComment)).2 = none
    ∧ AsksFor locateComment locate
    ∧ find.qualified = locate.target
    ∧ (((start {}).learnAll (findAskedBy locateComment)).1.signature find).isOk = true
    ∧ ((start {}).learnAll (findAskedBy locateComment)).1.requests.claims locate.target = false
    ∧ (∀ f, .ok (.function f) ∈ findAskedBy locateComment → f = find)
    ∧ ¬ ((start {}).runAll (findAskedBy locateComment)).1.registry.Honours locate := by
  have hruns : ((start {}).runAll (findAskedBy locateComment)).2 = none
      ∧ find.qualified = locate.target
      ∧ (((start {}).learnAll (findAskedBy locateComment)).1.signature find).isOk = true
      ∧ ((start {}).learnAll (findAskedBy locateComment)).1.requests.claims locate.target = false
      ∧ (((start {}).runAll (findAskedBy locateComment)).1.registry.functions.get? locate.path).isNone = true := by
    decide +kernel
  obtain ⟨hends, htarget, hread, hclaims, hnone⟩ := hruns
  have hasks : AsksFor locateComment locate :=
    ⟨by decide +kernel, ⟨"LuaLate", ["FreeFunction", "::World::Find", "::Tools", "Locate"]⟩, by decide +kernel,
      rfl, by decide +kernel, by decide +kernel, rfl⟩
  refine ⟨hends, hasks, htarget, hread, hclaims, fun f hf => by simpa [findAskedBy] using hf, ?_⟩
  rintro ⟨f, hf, -⟩
  rw [hf] at hnone
  cases hnone

end LuaGlue
