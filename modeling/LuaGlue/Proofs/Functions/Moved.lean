import LuaGlue.Proofs.Functions.Proposals
import LuaGlue.Proofs.Spelling.Names

/-!
Which classes are moved.

The wrapper struct of arrays is moved into the userdata that Lua gets, every other class is copied. A class is marked
as moved when a spelling is read (`Patches.adjust`), at any depth, because every class in a type comes from a part of
the spelling that has no parts itself (`movesWrapper_of_convertChars`). What is bound at a place has its types from the
signatures that were proposed for it (`DrawnFrom`), so all of them are marked but one: the result of a constructor is
not read, it is made from the names of the class.

    ArrayWrapper Copy()        read         moved
    ArrayWrapper(int size)     not read     copied
-/

namespace LuaGlue

open Registry Selection

/-! ### Types -/

/-- Is this the wrapper struct of arrays? -/
def DynamicArray.IsWrapper (array : DynamicArray) (ref : ClassRef) : Prop :=
  ref.scope = array.names.wrapperScope ∧ ref.name = array.names.wrapperName

instance (array : DynamicArray) (ref : ClassRef) : Decidable (array.IsWrapper ref) :=
  inferInstanceAs (Decidable (_ ∧ _))

/-- Is the wrapper struct moved wherever it comes up in the type, and no other class? -/
def CxxType.MovesWrapper (array : DynamicArray) (t : CxxType) : Prop :=
  ∀ ref ∈ t.refs, ref.moved = true ↔ array.IsWrapper ref

instance (array : DynamicArray) (t : CxxType) : Decidable (t.MovesWrapper array) :=
  inferInstanceAs (Decidable (∀ ref ∈ t.refs, _))

section Types

variable {array : DynamicArray}

theorem CxxType.movesWrapper_of_refs_eq_nil {t : CxxType} (h : t.refs = []) : t.MovesWrapper array := by
  intro ref href
  rw [h] at href
  cases href

theorem CxxType.movesWrapper_record_iff {ref : ClassRef} {m : Modifiers} :
    (CxxType.record ref m).MovesWrapper array ↔ (ref.moved = true ↔ array.IsWrapper ref) := by
  simp [MovesWrapper, refs]

theorem Patches.movesWrapper_adjust {p : Patches} (h : p.array = some array) {ref : ClassRef}
    (hplain : ref.moved = false) (m : Modifiers) : (p.adjust (.record ref m)).MovesWrapper array := by
  simp only [adjust, h]
  split
  · next hwrapper => exact CxxType.movesWrapper_record_iff.2 (iff_of_true rfl hwrapper)
  · next hother => exact CxxType.movesWrapper_record_iff.2 (iff_of_false (by simp [hplain]) hother)

theorem Spelling.movesWrapper_of_isRead {p : Patches} (h : p.array = some array) {t : CxxType} (hread : t.IsRead p) :
    t.MovesWrapper array := by
  cases t with
  | record ref m =>
    rw [hread.2.2]
    exact Patches.movesWrapper_adjust h rfl m
  | function => exact hread.elim
  | array => exact hread.elim
  | _ => exact CxxType.movesWrapper_of_refs_eq_nil rfl

/-- In a type that was read, the wrapper struct is moved at any depth. -/
theorem Spelling.movesWrapper_of_convertChars {ctx : Context} (h : ctx.patches.array = some array) {scope : String}
    {spelling : List Char} {t : CxxType} (hconvert : convertChars ctx scope spelling = .ok t) :
    t.MovesWrapper array := by
  refine convertChars_induction (motive := fun _ t => t.MovesWrapper array) ?_ ?_ ?_ hconvert
  · intro spelling base m t _ hshape
    exact movesWrapper_of_isRead h (isRead_of_shape hshape)
  · intro spelling base m result params hasStorage resultType paramTypes _ _ hresult hparams ref href
    rcases List.mem_append.1 href with hparam | hin
    · obtain ⟨t, ht, hin⟩ := CxxType.mem_refsOf.1 hparam
      obtain ⟨param, -, hmoves⟩ := exists_mem_of_forall₂ hparams.flip ht
      exact hmoves ref hin
    · exact hresult ref hin
  · intro spelling base m names element elementType _ _ helement
    exact helement

/-- The types of a proposal: all of them are read, but the result of a constructor is its class, and that is copied. -/
theorem movesWrapper_of_proposal {s : Selection} (h : s.registry.patches.array = some array) {c : Proposal}
    (hsignature : s.signature c.declared = .ok (c.overload, c.result)) :
    (∀ p ∈ c.overload, p.type.MovesWrapper array)
      ∧ (c.result.MovesWrapper array ↔ ¬ ((c.declared.isConstructor && c.declared.owner.isSome) = true
        ∧ ∃ ref ∈ c.result.refs, array.IsWrapper ref)) := by
  obtain ⟨hparams, hresult⟩ := types_of_signature hsignature
  refine ⟨fun p hp => ?_, ?_⟩
  · obtain ⟨_, hconvert⟩ := hparams p hp
    exact Spelling.movesWrapper_of_convertChars h hconvert
  · obtain ⟨owner, howner, hconstructor, heq⟩ | ⟨hplain, hconvert⟩ := hresult
    · rw [heq, CxxType.movesWrapper_record_iff]
      simp [hconstructor, howner, CxxType.refs]
    · rw [hplain]
      simpa using Spelling.movesWrapper_of_convertChars h hconvert

end Types

/-! ### Places -/

/-- What is bound has its overloads from proposals, and its result from one of them, or has none. -/
structure DrawnFrom (proposals : List Proposal) (f : BoundFunction) : Prop where
  overloads : ∀ o ∈ f.overloads, ∃ c ∈ proposals, c.overload = o
  result : f.result = .plainVoid ∨ ∃ c ∈ proposals, c.result = f.result
    ∧ f.isConstructor = (c.declared.isConstructor && c.declared.owner.isSome)

theorem DrawnFrom.of_isNative {proposals : List Proposal} {f : BoundFunction} (h : f.IsNative) :
    DrawnFrom proposals f := by
  refine ⟨fun o ho => ?_, .inl h.result⟩
  rw [h.overloads] at ho
  cases ho

theorem DrawnFrom.append {proposals : List Proposal} {f : BoundFunction} (h : DrawnFrom proposals f)
    (more : List Proposal) : DrawnFrom (proposals ++ more) f := by
  refine ⟨fun o ho => ?_, h.result.imp_right ?_⟩
  · obtain ⟨c, hc, heq⟩ := h.overloads o ho
    exact ⟨c, List.mem_append_left _ hc, heq⟩
  · rintro ⟨c, hc, heq⟩
    exact ⟨c, List.mem_append_left _ hc, heq⟩

/-- One more overload is that of the proposal. -/
theorem DrawnFrom.extend {proposals : List Proposal} {f : BoundFunction} (h : DrawnFrom proposals f) {c : Proposal}
    (hc : c ∈ proposals) : DrawnFrom proposals { f with overloads := f.overloads ++ [c.overload] } := by
  refine ⟨fun o ho => ?_, h.result⟩
  rcases List.mem_append.1 ho with hold | hnew
  · exact h.overloads o hold
  · exact ⟨c, hc, (List.mem_singleton.1 hnew).symm⟩

theorem settles_drawnFrom : Settles fun proposals old => ∀ f, old = some f → DrawnFrom proposals f where
  propose {before old} proposal fresh hfresh h f hf := by
    have hmem : proposal ∈ before ++ [proposal] := by simp
    cases old with
    | none =>
      rw [hfresh.extendWith_none] at hf
      cases hf
      exact ⟨fun o ho => ⟨proposal, hmem, (List.mem_singleton.1 ho).symm⟩,
        .inr ⟨proposal, hmem, hfresh.result.symm, hfresh.isConstructor⟩⟩
    | some g =>
      rw [extendWith_or_some] at hf
      obtain rfl := Option.some.inj hf
      have hold := (h g rfl).append [proposal]
      split
      · exact hold
      · exact hold.extend hmem
  standIn {before old g} hnative h f hf := by
    cases old with
    | none =>
      cases hf
      exact .of_isNative hnative
    | some old => exact h f hf

/-! ### Native wrappers -/

namespace Registry

/-- A function that is put at a place changes nothing elsewhere. -/
theorem bound?_put_cases (r : Registry) {p q : Place} {f g : BoundFunction} (h : (r.put p f).bound? q = some g) :
    r.bound? q = some g ∨ g = f := by
  by_cases hq : q = p
  · subst hq
    cases hhosts : r.hosts q with
    | true =>
      rw [bound?_put_self r hhosts] at h
      exact .inr (Option.some.inj h).symm
    | false =>
      have hfree := hosts_of_frame_eq (frame_put r q f) q
      rw [hhosts] at hfree
      rw [bound?_of_not_hosts hfree] at h
      cases h
  · rw [bound?_put_of_ne r hq] at h
    exact .inl h

end Registry

namespace Selection

variable {s : Selection} {p : Place} {f : BoundFunction}

theorem bound?_attachRedirector (w : Pending RedirectorRequest)
    (h : (s.attachRedirector w).registry.bound? p = some f) : s.registry.bound? p = some f ∨ f.IsNative := by
  rw [attachRedirector] at h
  simp only at h
  split at h
  · exact .inl h
  · next c _ =>
    refine (bound?_put_cases s.registry (p := .member c.id _ _) h).imp_right ?_
    rintro rfl
    exact ⟨Option.some_ne_none _, rfl, rfl⟩

theorem bound?_attachMetamethod (w : Pending MetamethodRequest)
    (h : (s.attachMetamethod w).registry.bound? p = some f) : s.registry.bound? p = some f ∨ f.IsNative := by
  rw [attachMetamethod] at h
  simp only at h
  split at h
  · exact .inl h
  split at h
  · exact .inl h
  · next c _ =>
    have hput : (s.registry.put (.member c.id .metamethod w.request.metamethod)
        (wrappedMember c w.request.metamethod w.wrapper w.source)).bound? p = some f := by
      split at h
      · exact h
      · cases p <;> exact h
    refine (bound?_put_cases s.registry hput).imp_right ?_
    rintro rfl
    exact ⟨Option.some_ne_none _, rfl, rfl⟩

/-- In the end there are the functions that declarations have bound, and those of native wrappers. -/
theorem bound?_of_assembled_cases (h : s.assembled.registry.bound? p = some f) :
    s.registry.bound? p = some f ∨ f.IsNative := by
  refine keeps_assembled (P := fun t => t.registry.bound? p = some f → s.registry.bound? p = some f ∨ f.IsNative)
    (fun t w ht hf => ?_) (fun t w ht hf => ?_) (fun hf => .inl ?_) h
  · exact (bound?_attachRedirector w hf).elim ht .inr
  · exact (bound?_attachMetamethod w hf).elim ht .inr
  · rwa [bound?_addRequestedBases] at hf

end Selection

/-! ### Whole runs -/

/-- What is bound after a run has its types from the proposals for its place. -/
theorem drawnFrom_of_run {patches : Patches} {headers : NameSet} {stream : List (Except DeclarationError Declaration)}
    {s : Selection} (hrun : (start { patches, headers }).runAll stream = (s, none)) {p : Place} {f : BoundFunction}
    (hf : s.registry.bound? p = some f) :
    DrawnFrom (((start { patches, headers }).learnAll stream).1.proposalsOf p stream) f := by
  obtain ⟨-, -, hsettled⟩ := passes_of_run hrun
  rw [hsettled, bound?_settled_iff _ (placed_complete patches headers stream)] at hf
  obtain hbound | hnative := bound?_of_assembled_cases hf.1
  · exact settles_drawnFrom.of_run nofun hrun p f hbound
  · exact .of_isNative hnative

/-- CORRECT: after a run that succeeds, the wrapper struct of arrays is moved wherever it comes up in the parameters of
a function, and no other class is. In the result it is the same exactly if the function is no constructor of this very
struct. -/
theorem wrapper_moved_iff (patches : Patches) (headers : NameSet) (array : DynamicArray)
    (harray : patches.array = some array) (stream : List (Except DeclarationError Declaration)) (s : Selection)
    (hrun : (start { patches, headers }).runAll stream = (s, none)) :
    ∀ p f, s.registry.bound? p = some f →
      (∀ t ∈ f.paramTypes, t.MovesWrapper array)
        ∧ (f.result.MovesWrapper array
          ↔ ¬ (f.isConstructor = true ∧ ∃ ref ∈ f.result.refs, array.IsWrapper ref)) := by
  intro p f hf
  obtain ⟨hoverloads, hresult⟩ := drawnFrom_of_run hrun hf
  have hpatches : ((start { patches, headers }).learnAll stream).1.registry.patches.array = some array := by
    obtain ⟨_, _, _, _, hlearned⟩ := learnAll_rest (start { patches, headers }) stream
    rw [hlearned]
    exact harray
  have htypes : ∀ c ∈ ((start { patches, headers }).learnAll stream).1.proposalsOf p stream, _ :=
    fun c hc => movesWrapper_of_proposal hpatches (mem_proposalsOf hc).2
  constructor
  · intro t ht
    obtain ⟨o, ho, htype⟩ := List.mem_flatMap.1 ht
    obtain ⟨param, hparam, rfl⟩ := List.mem_map.1 htype
    obtain ⟨c, hc, rfl⟩ := hoverloads o ho
    exact (htypes c hc).1 param hparam
  · obtain hvoid | ⟨c, hc, heq, hconstructor⟩ := hresult
    · rw [hvoid]
      exact iff_of_true (CxxType.movesWrapper_of_refs_eq_nil rfl) (by simp [CxxType.plainVoid, CxxType.refs])
    · rw [hconstructor, ← heq]
      exact (htypes c hc).2

/-- Arrays are shown through `ArrayWrapper`. -/
def engineArrays : DynamicArray where
  template := "::Engine::TArray"
  wrapper := "::Engine::ArrayWrapper"
  raw := "::Engine::FScriptArray"

/-- A member of `ArrayWrapper`. -/
def wrapperMember (name returns : String) (params : List DeclaredParam) (isConstructor : Bool) : DeclaredFunction where
  name
  scope := "::Engine::ArrayWrapper"
  params
  returns
  isStatic := false
  comment := ""
  owner := some ("::Engine", "ArrayWrapper")
  isConstructor
  source := "array.hpp"

/-- The struct, with a constructor and a function that returns it. -/
def wrapperStream : List (Except DeclarationError Declaration) :=
  [.ok (.record
      { name := "ArrayWrapper", scope := "::Engine", source := "array.hpp", line := none,
        comment := "CUSTOM_ATTRIBUTE[Lua(Main)]", bases := [], hasDefaultConstructor := false }),
    .ok (.function (wrapperMember "ArrayWrapper" "void" [⟨"size", "int"⟩] true)),
    .ok (.function (wrapperMember "Copy" "ArrayWrapper" [⟨"from", "ArrayWrapper*"⟩] false))]

theorem copy_moves_wrapper : ∃ s, (start { patches := { array := some engineArrays } }).runAll wrapperStream = (s, none)
    ∧ ∃ f, s.registry.bound? (.member 0 .function "Copy") = some f ∧ f.isConstructor = false
      ∧ (∃ ref ∈ f.result.refs, engineArrays.IsWrapper ref) ∧ ∀ t ∈ f.result :: f.paramTypes, t.MovesWrapper engineArrays := by
  have hends : ((start { patches := { array := some engineArrays } }).runAll wrapperStream).2 = none
      ∧ (((start { patches := { array := some engineArrays } }).runAll wrapperStream).1.registry.bound?
        (.member 0 .function "Copy")).any (fun f => !f.isConstructor
          && f.result.refs.any fun ref => engineArrays.IsWrapper ref) = true := by
    decide +kernel
  obtain ⟨hnone, hany⟩ := hends
  obtain ⟨f, hf, hholds⟩ := (Option.any_eq_true ..).1 hany
  simp only [Bool.and_eq_true, Bool.not_eq_true', List.any_eq_true, decide_eq_true_eq] at hholds
  obtain ⟨hplain, hwrapper⟩ := hholds
  have hrun := eq_of_ends hnone
  obtain ⟨hparams, hresult⟩ :=
    wrapper_moved_iff { array := some engineArrays } ∅ engineArrays rfl wrapperStream _ hrun _ f hf
  have hmoves : f.result.MovesWrapper engineArrays := hresult.2 (by simp [hplain])
  exact ⟨_, hrun, f, hf, hplain, hwrapper, List.forall_mem_cons.2 ⟨hmoves, hparams⟩⟩

/-- What a constructor of the struct makes is copied. -/
theorem constructed_wrapper_copied :
    ((start { patches := { array := some engineArrays } }).runAll wrapperStream).2 = none
    ∧ ∃ f, ((start { patches := { array := some engineArrays } }).runAll wrapperStream).1.registry.bound?
        (.member 0 .constructor "ArrayWrapper") = some f
      ∧ ∃ ref ∈ f.result.refs, engineArrays.IsWrapper ref ∧ ref.moved = false := by
  have hends : ((start { patches := { array := some engineArrays } }).runAll wrapperStream).2 = none
      ∧ (((start { patches := { array := some engineArrays } }).runAll wrapperStream).1.registry.bound?
        (.member 0 .constructor "ArrayWrapper")).any (fun f =>
          f.result.refs.any fun ref => engineArrays.IsWrapper ref && !ref.moved) = true := by
    decide +kernel
  obtain ⟨hnone, hany⟩ := hends
  obtain ⟨f, hf, hholds⟩ := (Option.any_eq_true ..).1 hany
  simp only [List.any_eq_true, Bool.and_eq_true, Bool.not_eq_true', decide_eq_true_eq] at hholds
  exact ⟨hnone, f, hf, hholds⟩

end LuaGlue
