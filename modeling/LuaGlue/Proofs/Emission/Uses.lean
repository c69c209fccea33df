import LuaGlue.Proofs.Emission.Symbols
import LuaGlue.Proofs.Emission.Types
import LuaGlue.Proofs.Retrieval.Parts
import LuaGlue.Proofs.Selection.Recorded

/-!
Where the symbols of a wrapper come from.

The code of a function mentions the convertible set of each class that is one of its parameters, the
wrapper of the function type that is its result, and for a member the helper that finds the object, and
nothing else (`mem_symbols_of_body`). A function type among the parameters adds nothing: a lambda can only
take arguments whose types have a bare name, so it never pushes a function pointer.
-/

namespace LuaGlue

/-- The symbols that the types of a function lead to. -/
def BoundFunction.Uses (f : BoundFunction) (symbol : String) : Prop :=
  (∃ ref m, .record ref m ∈ f.paramTypes ∧ symbol = convertibleSetOf ref.tag)
    ∨ ∃ s, f.result.signature? = some s ∧ s.wrapperName = .ok symbol

/-! ### Values -/

namespace CxxType

theorem mem_symbols_of_tiebreak {t : CxxType} {slot : Int} {symbol : String}
    (h : symbol ∈ (t.tiebreak slot).symbols) : ∃ ref m, t = .record ref m ∧ symbol = convertibleSetOf ref.tag := by
  cases t with
  | record ref m => exact ⟨ref, m, rfl, List.mem_singleton.1 h⟩
  | _ => cases h

/-- Only function pointers are pushed together with a wrapper. -/
theorem mem_symbols_of_push {t : CxxType} {value qualifier : String} {registry : Registry} {code : PushCode}
    (hpush : t.push value qualifier registry = .ok code) {symbol : String} (h : symbol ∈ code.symbols) :
    ∃ s, t.signature? = some s ∧ s.wrapperName = .ok symbol := by
  cases t with
  | function params result hasStorage m =>
    obtain ⟨name, hname, hcode⟩ := bind_eq_ok.1 hpush
    cases hcode
    obtain rfl : symbol = name := by simpa [PushCode.symbols, PushCode.functionPointer, PushStep.symbols] using h
    exact ⟨_, rfl, hname⟩
  | void m =>
    rw [push] at hpush
    split at hpush
    · cases hpush
      simp [PushCode.symbols, PushCode.single, PushStep.symbols] at h
    · cases hpush
  | text kind m =>
    cases kind <;> cases hpush <;> simp [PushCode.symbols, PushCode.single, PushStep.symbols] at h
  | numeric kind m =>
    cases hpush
    split at h <;> simp [PushCode.symbols, PushCode.single, PushStep.symbols] at h
  | bool m =>
    cases hpush
    simp [PushCode.symbols, PushCode.single, PushStep.symbols] at h
  | enum name m =>
    cases hpush
    simp [PushCode.symbols, PushCode.single, PushStep.symbols] at h
  | record ref m =>
    rw [push] at hpush
    split at hpush
    · cases hpush
      simp [PushCode.symbols, PushCode.object, PushStep.symbols] at h
    · cases hpush
  | array names element m =>
    obtain ⟨name, -, hcode⟩ := bind_eq_ok.1 hpush
    cases hcode
    simp [PushCode.symbols, PushCode.arrayWrapper, PushStep.symbols] at h

end CxxType

/-! ### Parameters -/

/-- A type that a lambda takes is no function type. -/
theorem CxxType.signature?_of_spelled {t : CxxType} {spelled : SpelledType} (h : t.spelled = .ok spelled) :
    t.signature? = none := by
  cases t with
  | function params result hasStorage m =>
    obtain ⟨name, hname, -⟩ := bind_eq_ok.1 h
    cases hname
  | _ => rfl

/-- A lambda never pushes a function pointer. -/
theorem Closure.symbols_eq_nil {s : Signature} {slot : Nat} {registry : Registry} {c : Closure}
    (h : ofSignature s slot registry = .ok c) : c.symbols = [] := by
  have hmade := madeOf h
  rw [symbols]
  refine List.flatMap_eq_nil_iff.2 fun code hcode => List.eq_nil_iff_forall_not_mem.2 fun symbol hsymbol => ?_
  obtain ⟨⟨t, i⟩, ht, hpush⟩ := exists_of_mem_mapM_ok hmade.arguments code hcode
  obtain ⟨spelled, -, hspelled⟩ := exists_mem_of_mapM_ok hmade.params t (List.mem_of_getElem? (List.mem_zipIdx_iff_getElem?.1 ht))
  obtain ⟨signature, hsignature, -⟩ := CxxType.mem_symbols_of_push hpush hsymbol
  rw [CxxType.signature?_of_spelled hspelled] at hsignature
  cases hsignature

theorem Conversion.symbols_eq_nil {t : CxxType} {slot : Nat} {registry : Registry} {c : Conversion}
    (h : t.conversion slot registry = .ok c) : c.symbols = [] := by
  cases madeOf h with
  | widen | array => rfl
  | closure m hclosure => exact Closure.symbols_eq_nil hclosure

theorem Extraction.mem_symbols_of_type {layout : Layout} {registry : Registry} {t : CxxType} {slot : Nat}
    {e : Extraction} (he : ofType layout registry t slot = .ok e) {symbol : String} (h : symbol ∈ e.symbols) :
    ∃ ref m, t = .record ref m ∧ symbol = convertibleSetOf ref.tag := by
  cases madeOf he with
  | object ref m htype => exact ⟨ref, m, htype, List.mem_singleton.1 h⟩
  | direct => cases h
  | converted value conversion _ _ hconversion =>
    rw [symbols, Conversion.symbols_eq_nil hconversion] at h
    cases h

/-! ### Calls -/

theorem mem_paramTypes {f : BoundFunction} {o : Overload} (ho : o ∈ f.overloads) {p : Param} (hp : p ∈ o) :
    p.type ∈ f.paramTypes := List.mem_flatMap.2 ⟨o, ho, List.mem_map.2 ⟨p, hp, rfl⟩⟩

theorem Extraction.uses_of_overload {layout : Layout} {registry : Registry} {f : BoundFunction} {o : Overload}
    (ho : o ∈ f.overloads) {extractions : List Extraction} (hall : ofOverload layout registry o = .ok extractions)
    {symbol : String} (h : symbol ∈ extractions.flatMap Extraction.symbols) : f.Uses symbol := by
  obtain ⟨e, he, hsymbol⟩ := List.mem_flatMap.1 h
  obtain ⟨⟨p, i⟩, hp, htype⟩ := exists_of_mem_mapM_ok hall e he
  obtain ⟨ref, m, heq, rfl⟩ := mem_symbols_of_type htype hsymbol
  refine .inl ⟨ref, m, ?_, rfl⟩
  rw [← heq]
  exact mem_paramTypes ho (List.mem_of_getElem? (List.mem_zipIdx_iff_getElem?.1 hp))

theorem Candidate.uses_of_overload {f : BoundFunction} {o : Overload} (ho : o ∈ f.overloads) {index : Nat}
    {symbol : String} (h : symbol ∈ (ofOverload o index).symbols) : f.Uses symbol := by
  obtain ⟨check, hcheck, hsymbol⟩ := List.mem_flatMap.1 h
  obtain ⟨⟨p, i⟩, hp, rfl⟩ := List.mem_map.1 hcheck
  obtain ⟨ref, m, heq, rfl⟩ := CxxType.mem_symbols_of_tiebreak hsymbol
  refine .inl ⟨ref, m, ?_, rfl⟩
  rw [← heq]
  exact mem_paramTypes ho (List.mem_of_getElem? (List.mem_zipIdx_iff_getElem?.1 hp))

theorem CallCode.uses_of_branches {f g : BoundFunction} {registry : Registry} {withCall : Bool} {index : Nat}
    {saved : List Nat} {overloads : List Overload} (ho : ∀ o ∈ overloads, o ∈ f.overloads) {branches : List Branch}
    (hall : branchesFrom g registry withCall index saved overloads = .ok branches) {b : Branch} (hb : b ∈ branches)
    {symbol : String} (h : symbol ∈ b.extractions.flatMap Extraction.symbols) : f.Uses symbol := by
  induction overloads generalizing index saved branches with
  | nil =>
    cases hall
    cases hb
  | cons o rest ih =>
    rw [branchesFrom] at hall
    obtain ⟨extractions, hextractions, hall⟩ := bind_eq_ok.1 hall
    obtain ⟨others, hothers, hall⟩ := bind_eq_ok.1 hall
    cases hall
    rcases List.mem_cons.1 hb with rfl | hb
    · exact Extraction.uses_of_overload (ho o List.mem_cons_self) hextractions h
    · exact ih (fun other hother => ho other (List.mem_cons_of_mem _ hother)) hothers hb

theorem CallCode.uses_of_symbol {f : BoundFunction} {registry : Registry} {withCall : Bool} {code : CallCode}
    (hcode : CallCode.of f registry withCall = .ok code) {symbol : String} (h : symbol ∈ code.symbols) :
    f.Uses symbol := by
  obtain ⟨o, extractions, hone, hextractions, rfl⟩ | ⟨branches, -, hbranches, rfl⟩ := of_cases hcode
  · exact Extraction.uses_of_overload (by rw [hone]; exact List.mem_cons_self) hextractions h
  · rcases List.mem_append.1 h with hcandidate | hbranch
    · obtain ⟨c, hc, hsymbol⟩ := List.mem_flatMap.1 hcandidate
      obtain ⟨⟨o, i⟩, ho, rfl⟩ := List.mem_map.1 hc
      exact Candidate.uses_of_overload (List.mem_of_getElem? (List.mem_zipIdx_iff_getElem?.1 ho)) hsymbol
    · obtain ⟨b, hb, hsymbol⟩ := List.mem_flatMap.1 hbranch
      exact uses_of_branches (fun _ ho => ho) hbranches hb hsymbol

/-- What the body of a wrapper mentions. -/
theorem WrapperBody.mem_symbols {f : BoundFunction} {registry : Registry} {b : WrapperBody}
    (hb : WrapperBody.of f registry = .ok b) {symbol : String} (h : symbol ∈ b.symbols) :
    (f.isMember = true ∧ symbol = selfHelper (Scope.identifier f.scope)) ∨ f.Uses symbol := by
  rw [WrapperBody.of] at hb
  obtain ⟨call, hcall, hb⟩ := bind_eq_ok.1 hb
  obtain ⟨push, hpush, hb⟩ := bind_eq_ok.1 hb
  cases hb
  simp only [symbols, List.mem_append] at h
  rcases h with (hself | hcall') | hresult
  · split at hself
    · next hmember => exact .inl ⟨hmember, by simpa using hself⟩
    · cases hself
  · exact .inr (CallCode.uses_of_symbol hcall hcall')
  · rw [BoundFunction.pushResult] at hpush
    split at hpush
    · cases hpush
      cases hresult
    · obtain ⟨code, hcode, rfl⟩ := map_eq_ok.1 hpush
      exact .inr (.inr (CxxType.mem_symbols_of_push hcode hresult))

end LuaGlue
