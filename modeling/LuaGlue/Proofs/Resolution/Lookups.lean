import LuaGlue.Call.Wrapper
import LuaGlue.Proofs.ClassTable
import LuaGlue.Proofs.Spelling.Refs

/-!
Looking up classes while code is made.

Two of the aborts say that a class was looked up in the registry and not found: `missingClass` when a value
of it is read, `missingOwner` when one is pushed. A computation *finds* its classes if it never stops at one
of the two. Names and texts look nothing up, so they find whatever they need. The code for a type looks up
classes that the type names, and so does all code made of such code.

    names, texts           nothing is looked up
    push, retrieve         the class of the type
    closure, conversion    the classes of parameters and result
    call, return           the classes in the types of the function
-/

namespace LuaGlue

/-- Does it report a class that was looked up and not found? -/
def Abort.isLookup : Abort → Bool
  | .missingClass _ | .missingOwner _ => true
  | .unsupported _ _ | .baseCycle _ _ | .noOverloads _ => false

/-- The computation does not stop at a class that is looked up. -/
def Finds {α : Type} (x : Except Abort α) : Prop := ∀ cause, x = .error cause → cause.isLookup = false

namespace Finds

variable {α β : Type}

theorem ok (a : α) : Finds (.ok a : Except Abort α) := nofun

theorem pure (a : α) : Finds (Pure.pure a : Except Abort α) := nofun

theorem error {cause : Abort} (h : cause.isLookup = false) : Finds (.error cause : Except Abort α) := by
  intro other heq
  cases heq
  exact h

theorem bind {x : Except Abort α} {f : α → Except Abort β} (hx : Finds x) (hf : ∀ a, Finds (f a)) :
    Finds (x >>= f) := by
  cases x with
  | error cause => exact error (hx cause rfl)
  | ok a => exact hf a

theorem map {x : Except Abort α} (hx : Finds x) (f : α → β) : Finds (f <$> x) := by
  cases x with
  | error cause => exact error (hx cause rfl)
  | ok a => exact ok _

theorem mapM {f : α → Except Abort β} {l : List α} (h : ∀ a ∈ l, Finds (f a)) : Finds (l.mapM f) := by
  induction l with
  | nil => exact ok _
  | cons a l ih =>
    rw [List.mapM_cons]
    refine (h a List.mem_cons_self).bind fun b => ?_
    exact (ih fun other hother => h other (List.mem_cons_of_mem _ hother)).bind fun _ => pure _

end Finds

/-! ### Names and texts -/

namespace CxxType

theorem finds_unsupported {α : Type} (t : CxxType) (operation : String) :
    Finds (.error (t.unsupported operation) : Except Abort α) := .error rfl

theorem finds_cxxName (t : CxxType) : Finds t.cxxName := by
  cases t with
  | function params result hasStorage m => exact finds_unsupported _ _
  | _ => exact .ok _

theorem finds_elementName (t : CxxType) : Finds t.elementName := by
  rw [elementName]
  split
  · exact .ok _
  · exact t.finds_cxxName

theorem finds_spelled (t : CxxType) : Finds t.spelled := t.finds_cxxName.bind fun _ => .pure _

mutual

theorem finds_qualifiedName : ∀ t : CxxType, Finds t.qualifiedName
  | .function params result _ _ => by
    rw [qualifiedName]
    exact (finds_qualifiedParams params).bind fun _ => result.finds_cxxName.bind fun _ => .pure _
  | .void _ | .numeric _ _ | .bool _ | .text _ _ | .enum _ _ | .record _ _ | .array _ _ _ => by
    rw [qualifiedName]
    exact .ok _

theorem finds_qualifiedParams : ∀ ts : List CxxType, Finds (qualifiedParams ts)
  | [] => by
    rw [qualifiedParams]
    exact .ok _
  | t :: rest => by
    rw [qualifiedParams]
    exact (finds_qualifiedName t).bind fun _ => (finds_qualifiedParams rest).bind fun _ => .pure _

end

end CxxType

namespace Signature

theorem finds_text (s : Signature) (asPointer : Bool) : Finds (s.text asPointer) :=
  (CxxType.finds_qualifiedParams s.params).bind fun _ => s.result.finds_cxxName.bind fun _ => .pure _

theorem finds_wrapperName (s : Signature) : Finds s.wrapperName :=
  (Finds.mapM fun t _ => t.finds_cxxName.bind fun _ => .pure _).bind fun _ =>
    s.result.finds_cxxName.bind fun _ => .pure _

end Signature

/-! ### Values -/

section Held

variable {registry : Registry}

namespace CxxType

/-- A value is pushed through its own class only. -/
theorem finds_push {t : CxxType} (h : ∀ ref ∈ t.refs, registry.holds ref = true) (value qualifier : String) :
    Finds (t.push value qualifier registry) := by
  cases t with
  | void m =>
    rw [push]
    split
    · exact .ok _
    · exact finds_unsupported _ _
  | text kind m => cases kind <;> exact .ok _
  | record ref m =>
    have hheld := h ref (by simp [refs])
    rw [push]
    split
    · exact .ok _
    · next hnone =>
      rw [Registry.holds, hnone] at hheld
      cases hheld
  | function params result hasStorage m => exact (Signature.finds_wrapperName _).bind fun _ => .pure _
  | array names element m => exact element.finds_elementName.bind fun _ => .pure _
  | _ => exact .ok _

/-- So is it read. -/
theorem finds_retrieve {t : CxxType} (h : ∀ ref ∈ t.refs, registry.holds ref = true) (slot : Int) :
    Finds (t.retrieve slot registry) := by
  cases t with
  | void m =>
    rw [retrieve]
    split
    · exact .ok _
    · split
      · exact .ok _
      · exact finds_unsupported _ _
  | text kind m => cases kind <;> exact .ok _
  | record ref m =>
    have hheld := h ref (by simp [refs])
    refine Finds.bind ?_ fun _ => .pure _
    rw [Registry.recordScope]
    split
    · exact .ok _
    · next hnone =>
      rw [Registry.holds, hnone] at hheld
      cases hheld
  | _ => exact .ok _

end CxxType

/-- The lambda pushes its parameters and reads the result. -/
theorem Closure.finds_ofSignature {s : Signature} (hparams : ∀ ref ∈ CxxType.refsOf s.params, registry.holds ref = true)
    (hresult : ∀ ref ∈ s.result.refs, registry.holds ref = true) (slot : Nat) :
    Finds (Closure.ofSignature s slot registry) := by
  have hspelled : Finds (s.params.mapM (·.spelled)) := Finds.mapM fun t _ => t.finds_spelled
  have harguments : Finds (s.params.zipIdx.mapM fun place =>
      place.1.push (argumentName place.2) (qualifier slot s.hasStorage) registry) := by
    refine Finds.mapM fun place hplace => ?_
    refine CxxType.finds_push (fun ref href => hparams ref (CxxType.mem_refsOf.2 ⟨place.1, ?_, href⟩)) _ _
    exact List.mem_of_getElem? (List.mem_zipIdx_iff_getElem?.1 hplace)
  have htexts : ∀ closure : String → String → Closure, Finds (do
      let pointerText ← s.text true
      let plainText ← s.text false
      pure (closure pointerText plainText)) :=
    fun _ => (s.finds_text true).bind fun _ => (s.finds_text false).bind fun _ => .pure _
  rw [ofSignature]
  refine hspelled.bind fun _ => s.result.finds_spelled.bind fun _ => harguments.bind fun _ => ?_
  cases s.result.isVoidValue with
  | true =>
    simp only [↓reduceIte, pure_bind]
    exact htexts _
  | false =>
    simp only [Bool.false_eq_true, ↓reduceIte, pure_bind]
    exact (CxxType.finds_retrieve hresult _).bind fun _ => s.result.finds_cxxName.bind fun _ => htexts _

theorem CxxType.finds_conversion {t : CxxType} (h : ∀ ref ∈ t.refs, registry.holds ref = true) (slot : Nat) :
    Finds (t.conversion slot registry) := by
  cases t with
  | text kind m =>
    rw [conversion]
    split
    · exact .ok _
    · exact finds_unsupported _ _
  | function params result hasStorage m =>
    rw [conversion]
    refine (Closure.finds_ofSignature ?_ ?_ slot).map _
    · exact fun ref href => h ref (List.mem_append_left _ href)
    · exact fun ref href => h ref (List.mem_append_right _ href)
  | array names element m => exact element.finds_elementName.bind fun _ => .pure _
  | _ => exact finds_unsupported _ _

/-! ### Calls -/

theorem Extraction.finds_ofType {t : CxxType} (h : ∀ ref ∈ t.refs, registry.holds ref = true) (layout : Layout)
    (slot : Nat) : Finds (Extraction.ofType layout registry t slot) := by
  rw [ofType]
  split
  · exact .ok _
  · refine (CxxType.finds_retrieve h _).bind fun value => ?_
    split
    · exact ((CxxType.finds_conversion h slot).map _).bind fun _ => .pure _
    · exact .pure _

theorem Extraction.finds_ofOverload {o : Overload}
    (h : ∀ param ∈ o, ∀ ref ∈ param.type.refs, registry.holds ref = true) (layout : Layout) :
    Finds (Extraction.ofOverload layout registry o) := by
  refine Finds.mapM fun place hplace => finds_ofType (h place.1 ?_) layout _
  exact List.mem_of_getElem? (List.mem_zipIdx_iff_getElem?.1 hplace)

theorem CallCode.finds_branchesFrom (f : BoundFunction) {overloads : List Overload}
    (h : ∀ o ∈ overloads, ∀ param ∈ o, ∀ ref ∈ param.type.refs, registry.holds ref = true) (withCall : Bool)
    (index : Nat) (saved : List Nat) : Finds (branchesFrom f registry withCall index saved overloads) := by
  induction overloads generalizing index saved with
  | nil => exact .ok _
  | cons o rest ih =>
    rw [branchesFrom]
    refine (Extraction.finds_ofOverload (h o List.mem_cons_self) _).bind fun extractions => ?_
    exact (ih (fun other hother => h other (List.mem_cons_of_mem _ hother)) _ _).bind fun _ => .pure _

/-- The code of a call looks up the classes of the parameters. -/
theorem CallCode.finds_of {f : BoundFunction}
    (h : ∀ ref ∈ CxxType.refsOf f.paramTypes, registry.holds ref = true) (withCall : Bool) :
    Finds (CallCode.of f registry withCall) := by
  have hparams : ∀ o ∈ f.overloads, ∀ param ∈ o, ∀ ref ∈ param.type.refs, registry.holds ref = true := by
    intro o ho param hparam ref href
    refine h ref (CxxType.mem_refsOf.2 ⟨param.type, ?_, href⟩)
    exact List.mem_flatMap.2 ⟨o, ho, List.mem_map.2 ⟨param, hparam, rfl⟩⟩
  rw [CallCode.of]
  split
  · exact .error rfl
  · next o hone =>
    exact (Extraction.finds_ofOverload (hparams o (by simp [hone])) _).bind fun _ => .pure _
  · exact (finds_branchesFrom f hparams withCall 0 []).bind fun _ => .pure _

/-- The code that gives back a result looks up the class of the result. -/
theorem BoundFunction.finds_pushResult {f : BoundFunction}
    (h : ∀ ref ∈ f.result.refs, registry.holds ref = true) : Finds (f.pushResult registry) := by
  rw [pushResult]
  split
  · exact .ok _
  · exact (CxxType.finds_push h _ _).map _

end Held

end LuaGlue
