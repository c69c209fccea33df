import LuaGlue.Proofs.Naming.Separators
import LuaGlue.Proofs.Retrieval.Parts

/-!
The lambda around a Lua function, and the function type it is assigned to.

Both are written out, each in its own way: the lambda with the bare names of its types and all their marks, the
function type with the scopes of its parameters and the bare name of its result. C++ takes the one for the other only
if each place has one type (`lambda_typed_as_declared_iff`).

    int32_t, std::string&     int32_t         int32_t           the same
    Texture*                  Texture*        ::Gfx::Texture*   the scope is missing, and matters unless it is empty
    const char*               const char**    const char*       the bare name has the pointer already
    a result int*             int32_t*        int32_t           the marks of a result are missing
                              lambda          function type
-/

namespace LuaGlue

/-! ### Types as they are written -/

namespace SpelledType

/-- The type as it is read from the global namespace, where a separator in front makes no difference. -/
def fromGlobal (t : SpelledType) : String := t.constness ++ Scope.fromGlobal t.name ++ t.marks

/-- Do both texts denote one type, read from the global namespace? -/
def Same (t u : SpelledType) : Prop := t.fromGlobal = u.fromGlobal

instance (t u : SpelledType) : Decidable (Same t u) := inferInstanceAs (Decidable (t.fromGlobal = u.fromGlobal))

theorem same_iff_of_around_eq {constness name name' marks : String} :
    Same ⟨constness, name, marks⟩ ⟨constness, name', marks⟩ ↔ Scope.fromGlobal name = Scope.fromGlobal name' := by
  unfold Same fromGlobal
  rw [String.append_left_inj, String.append_right_inj]

end SpelledType

namespace CxxType

/-- The name of the kind with its scope. A function type has none. -/
def scopedName (t : CxxType) : Except Abort String :=
  match t with
  | .text k _ => .ok k.baseName
  | .record r _ => .ok r.qualified
  | _ => t.cxxName

/-- How a function type spells a parameter. -/
def spelledInScope (t : CxxType) : Except Abort SpelledType := do
  return { constness := t.constness, name := ← t.scopedName, marks := t.marks }

/-- How a function type spells its result. -/
def spelledBare (t : CxxType) : Except Abort SpelledType := do
  return { constness := "", name := ← t.cxxName, marks := "" }

/-- Has the kind one name, with its scope and without? -/
def hasOneName : CxxType → Bool
  | .text kind _ => kind != .narrowPointer && kind != .widePointer
  | .record ref _ => (Scope.parts ref.scope).isEmpty
  | _ => true

section Spelled

variable {t : CxxType} {u v : SpelledType}

theorem exists_name_of_spelled (h : t.spelled = .ok u) :
    ∃ name, t.cxxName = .ok name ∧ u = ⟨t.constness, name, t.marks⟩ := by
  obtain ⟨name, hname, hu⟩ := bind_eq_ok.1 h
  cases hu
  exact ⟨name, hname, rfl⟩

theorem exists_scopedName {name : String} (h : t.cxxName = .ok name) : ∃ full, t.scopedName = .ok full := by
  cases t with
  | text => exact ⟨_, rfl⟩
  | record => exact ⟨_, rfl⟩
  | _ => exact ⟨name, h⟩

/-- The name that a qualified name adds the marks to. -/
theorem qualifiedName_of_scopedName {name : String} (h : t.scopedName = .ok name) :
    t.qualifiedName = .ok (name ++ t.marks) := by
  cases t <;> cases h <;> rfl

theorem fromGlobal_scopedName_iff {name full : String} (hname : t.cxxName = .ok name)
    (hfull : t.scopedName = .ok full) :
    Scope.fromGlobal name = Scope.fromGlobal full ↔ t.hasOneName = true := by
  cases t with
  | text kind =>
    cases hname
    cases hfull
    rw [hasOneName]
    cases kind <;> decide
  | record ref =>
    cases hname
    cases hfull
    rw [eq_comm, ClassRef.qualified, Scope.fromGlobal_qualify_eq_iff, hasOneName, List.isEmpty_iff]
  | _ =>
    obtain rfl := Except.ok.inj (hname.symm.trans hfull)
    exact iff_of_true rfl rfl

end Spelled

/-- A parameter is spelled twice as one type exactly if its kind has one name. -/
theorem same_spelledInScope_iff {t : CxxType} {u v : SpelledType} (hu : t.spelled = .ok u)
    (hv : t.spelledInScope = .ok v) : u.Same v ↔ t.hasOneName = true := by
  obtain ⟨name, hname, rfl⟩ := exists_name_of_spelled hu
  obtain ⟨full, hfull, hv⟩ := bind_eq_ok.1 hv
  cases hv
  rw [SpelledType.same_iff_of_around_eq, fromGlobal_scopedName_iff hname hfull]

theorem marks_eq_empty_iff {m : Modifiers} : m.marks = "" ↔ m.isPointer = false ∧ m.isReference = false := by
  obtain ⟨isPointer, isReference, isConst⟩ := m
  cases isPointer <;> cases isReference <;> simp [Modifiers.marks]

/-- A result is spelled twice as one type exactly if nothing modifies it. -/
theorem same_spelledBare_iff {t : CxxType} {u v : SpelledType} (hu : t.spelled = .ok u)
    (hv : t.spelledBare = .ok v) : u.Same v ↔ t.mods = {} := by
  obtain ⟨name, hname, rfl⟩ := exists_name_of_spelled hu
  obtain ⟨bare, hbare, hv⟩ := bind_eq_ok.1 hv
  obtain rfl := Except.ok.inj (hname.symm.trans hbare)
  cases hv
  have hmods : t.mods = {} ↔ t.constness = "" ∧ t.marks = "" := by
    rw [constness, isConst, marks, marks_eq_empty_iff]
    obtain ⟨isPointer, isReference, isConst⟩ := t.mods
    cases isConst <;> simp
  rw [hmods]
  unfold SpelledType.Same SpelledType.fromGlobal
  constructor
  · intro heq
    have hlength := congrArg String.length heq
    simp only [String.length_append, String.length_empty] at hlength
    constructor <;> exact String.length_eq_zero_iff.1 (by omega)
  · rintro ⟨hconstness, hmarks⟩
    rw [hconstness, hmarks]

/-- Where a lambda can spell its parameters the function type can as well. -/
theorem exists_spelledInScope {ts : List CxxType} {us : List SpelledType} (h : ts.mapM (·.spelled) = .ok us) :
    ∃ vs, ts.mapM (·.spelledInScope) = .ok vs
      ∧ (List.Forall₂ SpelledType.Same us vs ↔ ∀ t ∈ ts, t.hasOneName = true) := by
  induction ts generalizing us with
  | nil =>
    cases h
    exact ⟨[], rfl, by simp⟩
  | cons t ts ih =>
    obtain ⟨u, rest, hu, hrest, rfl⟩ := mapM_cons_eq_ok.1 h
    obtain ⟨vs, hvs, hsame⟩ := ih hrest
    obtain ⟨name, hname, rfl⟩ := exists_name_of_spelled hu
    obtain ⟨full, hfull⟩ := exists_scopedName hname
    have hv : t.spelledInScope = .ok ⟨t.constness, full, t.marks⟩ := bind_eq_ok.2 ⟨full, hfull, rfl⟩
    refine ⟨_ :: vs, mapM_cons_eq_ok.2 ⟨_, vs, hv, hvs, rfl⟩, ?_⟩
    rw [List.forall₂_cons, same_spelledInScope_iff hu hv, hsame, List.forall_mem_cons]

theorem qualifiedParams_of_spelledInScope {ts : List CxxType} {vs : List SpelledType}
    (h : ts.mapM (·.spelledInScope) = .ok vs) : qualifiedParams ts = .ok (vs.map (·.render)) := by
  induction ts generalizing vs with
  | nil =>
    cases h
    rfl
  | cons t ts ih =>
    obtain ⟨v, rest, hv, hrest, rfl⟩ := mapM_cons_eq_ok.1 h
    obtain ⟨full, hfull, hv⟩ := bind_eq_ok.1 hv
    cases hv
    rw [qualifiedParams, qualifiedName_of_scopedName hfull, ih hrest]
    simp [bind, Except.bind, pure, Except.pure, SpelledType.render, String.append_assoc]

end CxxType

theorem Signature.text_of_spelled {s : Signature} {params : List SpelledType} {result : SpelledType}
    (hparams : s.params.mapM (·.spelledInScope) = .ok params) (hresult : s.result.spelledBare = .ok result)
    (asPointer : Bool) :
    s.text asPointer = .ok (CxxType.functionText (params.map (·.render)) result.render asPointer) := by
  obtain ⟨name, hname, h⟩ := bind_eq_ok.1 hresult
  cases h
  rw [text, CxxType.qualifiedParams_of_spelledInScope hparams, hname]
  simp [bind, Except.bind, pure, Except.pure, SpelledType.render]

/-! ### The lambda and its type -/

/-- The function type that the parameter is declared with. -/
def Closure.declaredType (c : Closure) : String :=
  if c.hasStorage then s!"std::function<{c.plainText}>" else c.pointerText

/-- CORRECT: a lambda is written with the bare names and the marks of all types, and assigned to a parameter that is
declared with the scoped names of the parameters and the bare name of the result alone. Place by place these are the
same types exactly if each parameter has one name, with its scope and without, and nothing modifies the result. -/
theorem lambda_typed_as_declared_iff (s : Signature) (slot : Nat) (registry : Registry) (c : Closure)
    (h : Closure.ofSignature s slot registry = .ok c) :
    ∃ params result, s.params.mapM (·.spelledInScope) = .ok params ∧ s.result.spelledBare = .ok result
      ∧ c.pointerText = CxxType.functionText (params.map (·.render)) result.render true
      ∧ c.plainText = CxxType.functionText (params.map (·.render)) result.render false
      ∧ (∃ rest, c.renderParam = Text.line 4 s!"using CXXFuncSignature = {c.declaredType};" ++ rest)
      ∧ ((List.Forall₂ SpelledType.Same c.params params ∧ c.result.Same result)
        ↔ (∀ t ∈ s.params, t.hasOneName = true) ∧ s.result.mods = {}) := by
  have hmade := Closure.madeOf h
  obtain ⟨params, hparams, hsame⟩ := CxxType.exists_spelledInScope hmade.params
  obtain ⟨name, hname, -⟩ := CxxType.exists_name_of_spelled hmade.result
  have hresult : s.result.spelledBare = .ok ⟨"", name, ""⟩ := bind_eq_ok.2 ⟨name, hname, rfl⟩
  refine ⟨params, _, hparams, hresult, ?_, ?_, ?_, ?_⟩
  · exact Except.ok.inj (hmade.texts.1.symm.trans (Signature.text_of_spelled hparams hresult true))
  · exact Except.ok.inj (hmade.texts.2.symm.trans (Signature.text_of_spelled hparams hresult false))
  · unfold Closure.renderParam Closure.declaredType
    rw [Text.lines_cons]
    exact ⟨_, rfl⟩
  · rw [hsame, CxxType.same_spelledBare_iff hmade.result hresult]

/-- `bool(const std::string&, int)`: every place is written alike. -/
def greetSignature : Signature :=
  ⟨[.text .narrow { isReference := true, isConst := true }, .numeric .int32 {}], .bool {}, true⟩

theorem greet_lambda_typed : ∃ c, Closure.ofSignature greetSignature 1 {} = .ok c
    ∧ ∃ params result, greetSignature.params.mapM (·.spelledInScope) = .ok params
      ∧ greetSignature.result.spelledBare = .ok result
      ∧ List.Forall₂ SpelledType.Same c.params params ∧ c.result.Same result := by
  refine ⟨_, rfl, ?_⟩
  obtain ⟨params, result, hparams, hresult, -, -, -, hsame⟩ :=
    lambda_typed_as_declared_iff greetSignature 1 {} _ rfl
  exact ⟨params, result, hparams, hresult, hsame.2 (by decide)⟩

/-- `int*(int)`: the lambda gives a pointer, and is assigned to a function that gives a number. -/
def nextSignature : Signature := ⟨[.numeric .int32 {}], .numeric .int32 { isPointer := true }, false⟩

theorem next_lambda_mistyped : ∃ c, Closure.ofSignature nextSignature 1 {} = .ok c
    ∧ c.declaredType = "int32_t(*)(int32_t)" ∧ c.result.render = "int32_t*"
    ∧ nextSignature.result.spelledBare = .ok ⟨"", "int32_t", ""⟩
    ∧ ¬ c.result.Same ⟨"", "int32_t", ""⟩ := by
  exact ⟨_, rfl, by decide, by decide, rfl, by decide⟩

end LuaGlue
