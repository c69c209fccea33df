import LuaGlue.Call.Extraction
import LuaGlue.Proofs.ClassTable

/-!
Which types have code.

The code for a type is refused with an `Abort`. Here each of these operations gets its condition, as a
test on the shape of the type and on which classes are held:

    named         everything but a function type
    pushable      void behind a pointer, a held class, a flat function type, an array of something named
    retrievable   void behind a pointer or reference, a class that is held or was written with a keyword
    extractable   retrievable, and where a second phase follows: a closure, an array of something named

`held` stands for the classes of a registry, so that the shape alone can be asked for as well.
-/

namespace LuaGlue

/-! ### Computations that succeed -/

theorem isOk_pure {ε α : Type} (a : α) : (pure a : Except ε α).isOk = true := rfl

/-- A sequence succeeds when its parts do, if the later part does so whatever the earlier one gives. -/
theorem isOk_bind {ε α β : Type} {x : Except ε α} {f : α → Except ε β} {later : Bool}
    (h : ∀ a, (f a).isOk = later) : (x >>= f).isOk = (x.isOk && later) := by
  cases x with
  | error e => rfl
  | ok a => exact h a

theorem isOk_map {ε α β : Type} (f : α → β) (x : Except ε α) : (f <$> x).isOk = x.isOk := by
  cases x <;> rfl

theorem isOk_mapM {ε α β : Type} (f : α → Except ε β) (l : List α) :
    (l.mapM f).isOk = l.all fun a => (f a).isOk := by
  induction l with
  | nil => rfl
  | cons a l ih =>
    rw [List.mapM_cons, List.all_cons]
    refine (isOk_bind fun b => ?_)
    rw [← ih]
    exact isOk_map (b :: ·) _

theorem isOk_iff {ε α : Type} {x : Except ε α} : x.isOk = true ↔ ∃ a, x = .ok a := by
  cases x with
  | error e => simp [Except.isOk, Except.toBool]
  | ok a => simp [Except.isOk, Except.toBool]

namespace CxxType

/-! ### Names -/

/-- Has the kind a bare name? -/
def isNamed : CxxType → Bool
  | .function _ _ _ _ => false
  | _ => true

theorem isOk_cxxName (t : CxxType) : t.cxxName.isOk = t.isNamed := by
  cases t <;> rfl

theorem isOk_elementName (t : CxxType) : t.elementName.isOk = t.isNamed := by
  cases t <;> rfl

theorem isOk_spelled (t : CxxType) : t.spelled.isOk = t.isNamed := by
  rw [spelled]
  rw [isOk_bind fun _ => isOk_pure _, isOk_cxxName, Bool.and_true]

theorem isOk_paramLabel (t : CxxType) : (Signature.paramLabel t).isOk = t.isNamed := by
  rw [Signature.paramLabel]
  rw [isOk_bind fun _ => isOk_pure _, isOk_cxxName, Bool.and_true]

theorem isOk_qualifiedName {t : CxxType} (h : t.isNamed = true) : t.qualifiedName.isOk = true := by
  cases t with
  | function _ _ _ _ => cases h
  | _ => rfl

theorem isOk_qualifiedParams {ts : List CxxType} (h : ts.all isNamed = true) :
    (qualifiedParams ts).isOk = true := by
  induction ts with
  | nil => rfl
  | cons t rest ih =>
    rw [List.all_cons, Bool.and_eq_true] at h
    obtain ⟨ht, hrest⟩ := h
    rw [qualifiedParams, isOk_bind fun _ => isOk_bind fun _ => isOk_pure _, isOk_qualifiedName ht, ih hrest]
    rfl

end CxxType

namespace Signature

/-- Are the parameters and the result all named? Then the function that calls through a pointer of this
type has a name. -/
def isFlat (s : Signature) : Bool := s.params.all (·.isNamed) && s.result.isNamed

theorem isOk_wrapperName (s : Signature) : s.wrapperName.isOk = s.isFlat := by
  rw [wrapperName, isFlat]
  rw [isOk_bind fun _ => isOk_bind fun _ => isOk_pure _, isOk_mapM, CxxType.isOk_cxxName, Bool.and_true]
  simp only [CxxType.isOk_paramLabel]

theorem isOk_text (s : Signature) (asPointer : Bool) :
    (s.text asPointer).isOk = ((CxxType.qualifiedParams s.params).isOk && s.result.isNamed) := by
  rw [text]
  rw [isOk_bind fun _ => isOk_bind fun _ => isOk_pure _, CxxType.isOk_cxxName, Bool.and_true]

theorem isOk_text_of_isFlat {s : Signature} (h : s.isFlat = true) (asPointer : Bool) :
    (s.text asPointer).isOk = true := by
  obtain ⟨hparams, hresult⟩ := Bool.and_eq_true_iff.1 h
  rw [isOk_text, CxxType.isOk_qualifiedParams hparams, hresult]
  rfl

end Signature

/-! ### Values -/

namespace CxxType

variable (held : ClassRef → Bool)

/-- Can a value of the type be put on the Lua stack? -/
def pushable : CxxType → Bool
  | .void m => m.isPointer
  | .record ref _ => held ref
  | .function params result hasStorage _ => (Signature.mk params result hasStorage).isFlat
  | .array _ element _ => element.isNamed
  | _ => true

/-- Is there an expression that reads the type? -/
def retrievable : CxxType → Bool
  | .void m => m.isReference || m.isPointer
  | .record ref _ => held ref || ref.forward.isSome
  | _ => true

/-- Can a function give back a value of the type? -/
def returnable (t : CxxType) : Bool := t.isVoidValue || t.pushable held

theorem isOk_push (t : CxxType) (value qualifier : String) (registry : Registry) :
    (t.push value qualifier registry).isOk = t.pushable registry.holds := by
  cases t with
  | void m => cases h : m.isPointer <;> simp [push, pushable, h, Except.isOk, Except.toBool]
  | text kind m => cases kind <;> rfl
  | record ref m =>
    rw [push, pushable, Registry.holds]
    cases registry.find? ref.scope ref.name <;> rfl
  | function params result hasStorage m =>
    rw [push, isOk_bind fun _ => isOk_pure _, Signature.isOk_wrapperName, Bool.and_true]
    rfl
  | array names element m =>
    rw [push, isOk_bind fun _ => isOk_pure _, isOk_elementName, Bool.and_true]
    rfl
  | _ => rfl

theorem isOk_recordScope (registry : Registry) (ref : ClassRef) :
    (registry.recordScope ref).isOk = (registry.holds ref || ref.forward.isSome) := by
  rw [Registry.recordScope, Registry.holds]
  cases registry.find? ref.scope ref.name with
  | some c => rfl
  | none => cases ref.forward <;> rfl

theorem isOk_retrieve (t : CxxType) (slot : Int) (registry : Registry) :
    (t.retrieve slot registry).isOk = t.retrievable registry.holds := by
  cases t with
  | void m =>
    cases hreference : m.isReference <;> cases hpointer : m.isPointer <;>
      simp [retrieve, retrievable, hreference, hpointer, Except.isOk, Except.toBool]
  | text kind m => cases kind <;> rfl
  | record ref m =>
    rw [retrieve, isOk_bind fun _ => isOk_pure _, isOk_recordScope, Bool.and_true]
    rfl
  | _ => rfl

end CxxType

/-! ### Closures and parameters -/

/-- Can a Lua function be made into a native one of this type? Its parameters are pushed, its result is
read. -/
def Signature.closable (held : ClassRef → Bool) (s : Signature) : Bool :=
  s.isFlat && s.params.all (·.pushable held) && (s.result.isVoidValue || s.result.retrievable held)

/-- Can a parameter of the type be taken off the Lua stack? -/
def CxxType.extractable (held : ClassRef → Bool) : CxxType → Bool
  | .void m => m.isReference || m.isPointer
  | .function params result hasStorage _ => (Signature.mk params result hasStorage).closable held
  | .array _ element _ => element.isNamed
  | _ => true

theorem all_zipIdx {α : Type} (test : α → Bool) (l : List α) (start : Nat) :
    ((l.zipIdx start).all fun a => test a.1) = l.all test := by
  induction l generalizing start with
  | nil => rfl
  | cons a l ih => rw [List.zipIdx_cons, List.all_cons, List.all_cons, ih]

theorem Closure.isOk_ofSignature (s : Signature) (slot : Nat) (registry : Registry) :
    (Closure.ofSignature s slot registry).isOk = s.closable registry.holds := by
  have harguments : (s.params.zipIdx.mapM fun (x : CxxType × Nat) =>
      x.1.push (argumentName x.2) (qualifier slot s.hasStorage) registry).isOk
        = s.params.all (·.pushable registry.holds) := by
    rw [isOk_mapM]
    simp only [CxxType.isOk_push, all_zipIdx]
  -- once all parts are named the two texts at the end are there
  have htexts : (s.params.all (·.isNamed) && s.result.isNamed
      && ((CxxType.qualifiedParams s.params).isOk && s.result.isNamed)) = s.isFlat := by
    cases hflat : s.isFlat with
    | false =>
      rw [show (s.params.all (·.isNamed) && s.result.isNamed) = false from hflat]
      rfl
    | true =>
      rw [← Signature.isOk_text s true, Signature.isOk_text_of_isFlat hflat, Bool.and_true]
      exact hflat
  have hspelled : (s.params.mapM fun t => CxxType.spelled t).isOk = s.params.all (·.isNamed) := by
    rw [isOk_mapM]
    simp only [CxxType.isOk_spelled]
  rw [Closure.ofSignature, Signature.closable]
  cases hvoid : s.result.isVoidValue with
  | true =>
    simp only [↓reduceIte, pure_bind]
    rw [isOk_bind fun _ => isOk_bind fun _ => isOk_bind fun _ => isOk_bind fun _ => isOk_bind fun _ =>
      isOk_pure _, hspelled, harguments]
    simp only [Signature.isOk_text, CxxType.isOk_spelled]
    rw [← htexts]
    grind
  | false =>
    simp only [Bool.false_eq_true, ↓reduceIte, pure_bind]
    rw [isOk_bind fun _ => isOk_bind fun _ => isOk_bind fun _ => isOk_bind fun _ => isOk_bind fun _ =>
      isOk_bind fun _ => isOk_bind fun _ => isOk_pure _, hspelled, harguments]
    simp only [Signature.isOk_text, CxxType.isOk_spelled, CxxType.isOk_retrieve, CxxType.isOk_cxxName]
    rw [← htexts]
    grind

theorem CxxType.isOk_conversion (t : CxxType) (slot : Nat) (registry : Registry)
    (h : t.needsConversion = true) : (t.conversion slot registry).isOk = t.extractable registry.holds := by
  cases t with
  | text kind m =>
    have hwide : kind.isWide = true := h
    rw [conversion, if_pos hwide]
    rfl
  | function params result hasStorage m =>
    rw [conversion, isOk_map, Closure.isOk_ofSignature]
    rfl
  | array names element m =>
    rw [conversion, isOk_bind fun _ => isOk_pure _, isOk_elementName, Bool.and_true]
    rfl
  | _ => cases h

/-- Unless it is converted, a type that is read is one there is an expression for. -/
theorem CxxType.retrievable_and (held : ClassRef → Bool) {t : CxxType} {slot : Int} (h : t.fetch? slot = none) :
    (t.retrievable held && (!t.needsConversion || t.extractable held)) = t.extractable held := by
  cases t with
  | record ref m => cases h
  | text kind m => simp [retrievable, extractable]
  | _ => simp [retrievable, needsConversion, extractable]

theorem Extraction.isOk_ofType (layout : Layout) (registry : Registry) (t : CxxType) (slot : Nat) :
    (Extraction.ofType layout registry t slot).isOk = t.extractable registry.holds := by
  rw [Extraction.ofType]
  split
  · next fetch hfetch =>
    cases t with
    | record ref m => rfl
    | _ => cases hfetch
  · next hfetch =>
    rw [← CxxType.retrievable_and registry.holds hfetch]
    refine (isOk_bind fun value => ?_).trans (congrArg (· && _) (CxxType.isOk_retrieve t slot registry))
    cases hneeds : t.needsConversion with
    | false => rfl
    | true =>
      simp only [↓reduceIte]
      rw [isOk_bind fun _ => isOk_pure _, isOk_map, CxxType.isOk_conversion t slot registry hneeds]
      simp

end LuaGlue
