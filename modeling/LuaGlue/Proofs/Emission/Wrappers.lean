import LuaGlue.Glue.Bindings
import LuaGlue.Proofs.Emission.Types

/-!
Which functions have wrappers, and which state files are rendered.

A state file is made of the wrappers of all recorded function types and of the functions of its state
(`Registry.generated`). It is rendered exactly when each of these can be (`StateFile.isOk_of`): the
refusals come from types only, one function at a time.
-/

namespace LuaGlue

/-! ### Calls -/

theorem Extraction.isOk_ofOverload (layout : Layout) (registry : Registry) (o : Overload) :
    (Extraction.ofOverload layout registry o).isOk
      = o.all fun param => param.type.extractable registry.holds := by
  rw [Extraction.ofOverload]
  rw [isOk_mapM]
  simp only [isOk_ofType]
  exact all_zipIdx (fun param => param.type.extractable registry.holds) o 0

theorem CallCode.isOk_branchesFrom (f : BoundFunction) (registry : Registry) (withCall : Bool) (index : Nat)
    (saved : List Nat) (overloads : List Overload) :
    (CallCode.branchesFrom f registry withCall index saved overloads).isOk
      = overloads.all fun o => o.all fun param => param.type.extractable registry.holds := by
  induction overloads generalizing index saved with
  | nil => rfl
  | cons o rest ih =>
    rw [CallCode.branchesFrom, List.all_cons, ← Extraction.isOk_ofOverload .branch]
    refine isOk_bind fun extractions => ?_
    simp only
    rw [isOk_bind fun _ => isOk_pure _, ih, Bool.and_true]

/-- Can the arguments of every overload be read, and is there any? -/
def BoundFunction.callable (held : ClassRef → Bool) (f : BoundFunction) : Bool :=
  !f.overloads.isEmpty && f.overloads.all fun o => o.all fun param => param.type.extractable held

theorem CallCode.isOk_of (f : BoundFunction) (registry : Registry) (withCall : Bool) :
    (CallCode.of f registry withCall).isOk = f.callable registry.holds := by
  rw [CallCode.of, BoundFunction.callable]
  split
  · next hnone => rw [hnone]; rfl
  · next o hone =>
    rw [hone, isOk_bind fun _ => isOk_pure _, Extraction.isOk_ofOverload]
    simp
  · next overloads hnone hone =>
    simp only
    rw [isOk_bind fun _ => isOk_pure _, isOk_branchesFrom]
    have hsome : f.overloads.isEmpty = false := by simpa using hnone
    simp [hsome]

/-! ### Wrappers -/

/-- Can the function be called from Lua, and its result be given back? -/
def BoundFunction.wrappable (held : ClassRef → Bool) (f : BoundFunction) : Bool :=
  f.callable held && f.result.returnable held

/-- Can a pointer of this type be called from Lua? -/
def Signature.wrappable (held : ClassRef → Bool) (s : Signature) : Bool :=
  s.isFlat && s.params.all (·.extractable held) && s.result.returnable held

theorem BoundFunction.isOk_pushResult (f : BoundFunction) (registry : Registry) :
    (f.pushResult registry).isOk = f.result.returnable registry.holds := by
  rw [pushResult, CxxType.returnable]
  cases f.result.isVoidValue with
  | true => rfl
  | false =>
    simp only [Bool.false_eq_true, ↓reduceIte, Bool.false_or]
    rw [isOk_map, CxxType.isOk_push]

theorem WrapperBody.isOk_of (f : BoundFunction) (registry : Registry) :
    (WrapperBody.of f registry).isOk = f.wrappable registry.holds := by
  unfold WrapperBody.of BoundFunction.wrappable
  simp only
  rw [isOk_bind fun _ => isOk_bind fun _ => isOk_pure _, CallCode.isOk_of, f.isOk_pushResult, Bool.and_true]

theorem WrapperFunction.isOk_of (name : String) (f : BoundFunction) (registry : Registry) :
    (WrapperFunction.of name f registry).isOk = f.wrappable registry.holds := by
  rw [WrapperFunction.of]
  rw [isOk_bind fun _ => isOk_pure _, WrapperBody.isOk_of, Bool.and_true]

theorem ProtoWrapper.isOk_of (s : Signature) (registry : Registry) :
    (ProtoWrapper.of s registry).isOk = s.wrappable registry.holds := by
  have hcallable : ∀ name, (functionOf s name).callable registry.holds
      = s.params.all (·.extractable registry.holds) := by
    intro name
    simp [BoundFunction.callable, functionOf, List.all_map, Function.comp_def]
  have hreturnable : ∀ name, ((functionOf s name).pushResult registry).isOk
      = s.result.returnable registry.holds := fun name => (functionOf s name).isOk_pushResult registry
  rw [ProtoWrapper.of, Signature.wrappable]
  refine (isOk_bind fun name => ?_).trans (b := s.wrapperName.isOk && (s.params.all (·.extractable registry.holds)
    && ((s.text true).isOk && s.result.returnable registry.holds))) ?_
  · simp only
    rw [isOk_bind fun _ => isOk_bind fun _ => isOk_bind fun _ => isOk_pure _, CallCode.isOk_of, hcallable,
      hreturnable, Bool.and_true]
  · rw [Signature.isOk_wrapperName]
    cases hflat : s.isFlat with
    | false => rfl
    | true => simp [Signature.isOk_text_of_isFlat hflat]

/-! ### State files -/

/-- The functions of a class that a state file has code for. -/
def BoundClass.generated (c : BoundClass) : List BoundFunction := c.constructor?.toList ++ Members.wrapped c

/-- The functions that the file of a state has code for. -/
def Registry.generated (r : Registry) (state : String) : List BoundFunction :=
  (r.classesForState state).flatMap BoundClass.generated
    ++ (r.functions.values.filter fun f => f.state == some state).filter StateFile.ownsWrapper

theorem BoundClass.isOk_constructorDispatch (c : BoundClass) (registry : Registry) :
    (c.constructorDispatch registry).isOk = c.constructor?.toList.all (·.wrappable registry.holds) := by
  rw [constructorDispatch]
  cases c.constructor? with
  | none => rfl
  | some f =>
    simp only
    rw [isOk_bind fun _ => isOk_pure _, WrapperBody.isOk_of]
    simp

theorem ClassGlue.isOk_of (registry : Registry) (c : BoundClass) :
    (ClassGlue.of registry c).isOk = c.generated.all (·.wrappable registry.holds) := by
  rw [ClassGlue.of, BoundClass.generated, Members.wrappers]
  rw [isOk_bind fun _ => isOk_bind fun _ => isOk_pure _, c.isOk_constructorDispatch, isOk_mapM]
  simp only [WrapperFunction.isOk_of, List.all_append, Bool.and_true]

/-- A state file is there when all its wrappers are. -/
theorem StateFile.isOk_of (registry : Registry) (cxxNamespace state : String) :
    (StateFile.of registry cxxNamespace state).isOk
      = ((registry.signatures.values.all (·.wrappable registry.holds))
        && (registry.generated state).all (·.wrappable registry.holds)) := by
  unfold StateFile.of Registry.generated
  simp only
  rw [isOk_bind fun _ => isOk_bind fun _ => isOk_bind fun _ => isOk_pure _]
  simp only [isOk_mapM, ProtoWrapper.isOk_of, ClassGlue.isOk_of, WrapperFunction.isOk_of, List.all_append,
    List.all_flatMap, Bool.and_true]

theorem Registry.renderStates_eq_none_iff (r : Registry) (cxxNamespace : String) (states : List String) :
    (r.renderStates cxxNamespace states).2 = none
      ↔ ∀ state ∈ states, (StateFile.of r cxxNamespace state).isOk = true := by
  induction states with
  | nil => simp [renderStates]
  | cons state rest ih =>
    rw [renderStates, List.forall_mem_cons, ← ih]
    cases StateFile.of r cxxNamespace state with
    | error abort => simp [Except.isOk, Except.toBool]
    | ok file => simp [Except.isOk, Except.toBool]

/-- The files are rendered when every function type and every function of each state has a wrapper. -/
theorem Registry.renderAll_ok_iff (r : Registry) (cxxNamespace : String) :
    (∃ files, (r.renderAll cxxNamespace).files = .ok files)
      ↔ ∀ state ∈ r.states.toList, (∀ s ∈ r.signatures.values, s.wrappable r.holds = true)
        ∧ ∀ f ∈ r.generated state, f.wrappable r.holds = true := by
  have hstates := r.renderStates_eq_none_iff cxxNamespace r.states.toList
  simp only [StateFile.isOk_of, Bool.and_eq_true, List.all_eq_true] at hstates
  rw [← hstates]
  rw [renderAll]
  simp only
  cases (r.renderStates cxxNamespace r.states.toList).2 with
  | none => simp
  | some abort => simp

end LuaGlue
