import LuaGlue.Proofs.Emission.Types
import LuaGlue.Proofs.Signatures.Heads
import LuaGlue.Proofs.Spelling.Names

/-!
Function pointers that are written out and read again.

Generated code casts to a function pointer by its text, which has the scoped names and the marks of the parameters,
and the bare name of the result alone. If the text is read again in the global namespace, each part is the type it
was written for only if its name leads back to it (`function_pointer_reread_iff`).

    const ::Gfx::Mesh*    ──▶  the class                      always
    enum ::Gfx::Mode      ──▶  a class                        unless the enum is known
    struct ::Gfx::Mode    ──▶  an enum                        if one is known by this name
    a result int*         ──▶  int32_t                        no marks are written
    a result ::Gfx::Mesh  ──▶  ::Mesh                         no scope is written
-/

namespace LuaGlue

open Spelling

/-! ### Builtin names -/

theorem builtin?_numeric (kind : Numeric) (isPointer : Bool) :
    builtin? (String.ofList (Scope.dropSeparators kind.cxxName.toList)) isPointer = some (.ok (.numeric kind {})) := by
  cases kind <;> rfl

/-- The name that marks are added to is the one a text type is spelled with. -/
theorem builtin?_text (kind : TextKind) {isPointer : Bool}
    (h : kind = .narrowPointer ∨ kind = .widePointer → isPointer = true) :
    builtin? (String.ofList (Scope.dropSeparators kind.baseName.toList)) isPointer = some (.ok (.text kind {})) := by
  cases kind with
  | narrowPointer =>
    rw [h (.inl rfl)]
    rfl
  | widePointer =>
    rw [h (.inr rfl)]
    rfl
  | _ => rfl

namespace CxxType

/-! ### Types that are read again -/

/-- Is the name of an enum or a class, with its scope and without, made of the characters of identifiers? -/
def isSpelledPlainly : CxxType → Bool
  | .enum name _ => isIdentifier name.toList
  | .record ref _ => isIdentifier ref.name.toList && isIdentifier ref.qualified.toList
  | _ => true

/-- Does the scoped name of a parameter lead back to its type? -/
def isReread (known : KnownNames) : CxxType → Bool
  | .enum name _ => !isBuiltin name && Scope.isGlobal name && known.enums.contains name
  | .record ref _ => !isBuiltin ref.qualified && !known.enums.contains ref.qualified
  | _ => true

/-- Is it a pointer to characters, whose name has the mark of a pointer in it? -/
def isCharacters : CxxType → Bool
  | .text .narrowPointer _ | .text .widePointer _ => true
  | _ => false

/-- Is it in no scope, if it is a class? -/
def isUnscoped : CxxType → Bool
  | .record ref _ => ref.scope == ""
  | _ => true

/-- Does the bare name of a result lead back to its type? No scope is written, and no mark but that of a pointer to
characters. -/
def isRereadBare (known : KnownNames) (t : CxxType) : Bool :=
  t.isReread known && t.isUnscoped && !t.isReference && (t.isPointer == t.isCharacters)

/-- The name of a result, without a mark that it may have in it. -/
def resultName (t : CxxType) : Except Abort String :=
  match t with
  | .text .narrowPointer _ => .ok "char"
  | .text .widePointer _ => .ok "wchar_t"
  | _ => t.cxxName

section Written

variable {t : CxxType}

theorem isIdentifier_scopedName {full : String} (hsimple : t.isSimple = true) (hplain : t.isSpelledPlainly = true)
    (h : t.scopedName = .ok full) : isIdentifier full.toList = true := by
  cases t with
  | function | array => cases hsimple
  | numeric kind =>
    cases h
    cases kind <;> decide
  | text kind =>
    cases h
    cases kind <;> decide
  | enum =>
    cases h
    exact hplain
  | record =>
    cases h
    exact (Bool.and_eq_true_iff.1 hplain).2
  | void | bool =>
    cases h
    decide

theorem isIdentifier_resultName {name : String} (hsimple : t.isSimple = true) (hplain : t.isSpelledPlainly = true)
    (h : t.resultName = .ok name) : isIdentifier name.toList = true := by
  cases t with
  | function | array => cases hsimple
  | numeric kind =>
    cases h
    cases kind <;> decide
  | text kind =>
    cases kind <;> cases h <;> decide
  | enum =>
    cases h
    exact hplain
  | record =>
    cases h
    exact (Bool.and_eq_true_iff.1 hplain).1
  | void | bool =>
    cases h
    decide

/-- A type is written as a name between its constness and its marks. -/
theorem toList_render_marked (t : CxxType) (name : String) :
    (SpelledType.render ⟨t.constness, name, t.marks⟩).toList = written t.mods name.toList := by
  rw [SpelledType.render, constness, marks, written, isConst]
  cases t.mods.isConst <;> simp

/-- A parameter is written as its scoped name with its marks. -/
theorem toList_render_spelledInScope {v : SpelledType} {full : String} (hv : t.spelledInScope = .ok v)
    (h : t.scopedName = .ok full) : v.render.toList = written t.mods full.toList := by
  obtain ⟨name, hname, hv⟩ := bind_eq_ok.1 hv
  obtain rfl := Except.ok.inj (h.symm.trans hname)
  cases hv
  exact t.toList_render_marked full

/-- A result is written as its name, with the mark of a pointer to characters. -/
theorem toList_render_spelledBare {v : SpelledType} {name : String} (hv : t.spelledBare = .ok v)
    (h : t.resultName = .ok name) : v.render.toList = written { isPointer := t.isCharacters } name.toList := by
  obtain ⟨bare, hbare, hv⟩ := bind_eq_ok.1 hv
  cases hv
  have hplain : (SpelledType.render ⟨"", bare, ""⟩).toList = written {} bare.toList := by
    simp [SpelledType.render, written, Modifiers.marks]
  cases t with
  | text kind =>
    cases hbare
    cases kind with
    | narrowPointer | widePointer =>
      cases h
      rw [isCharacters]
      decide
    | _ =>
      cases h
      exact hplain
  | _ =>
    obtain rfl := Except.ok.inj (hbare.symm.trans h)
    exact hplain

end Written

/-! ### Names that lead back to types -/

section LeadsBack

variable {ctx : Context} {t : CxxType}

/-- The scoped name of a parameter leads back to its type exactly if nothing else is found by it first. -/
theorem leadsBack_scopedName_iff {full : String} (hread : t.IsRead ctx.patches) (hsimple : t.isSimple = true)
    (h : t.scopedName = .ok full) : ctx.LeadsBack full t.mods t ↔ t.isReread ctx.known = true := by
  cases t with
  | function | array => cases hsimple
  | void | bool =>
    cases h
    exact iff_of_true (leadsBack_of_builtin (u := _) rfl rfl rfl) rfl
  | numeric kind =>
    cases h
    exact iff_of_true (leadsBack_of_builtin rfl (builtin?_numeric kind _) rfl) rfl
  | text kind =>
    cases h
    exact iff_of_true (leadsBack_of_builtin rfl (builtin?_text kind hread) rfl) rfl
  | enum name =>
    cases h
    rw [leadsBack_enum_iff, isReread, Bool.and_eq_true, Bool.and_eq_true, Bool.not_eq_true', and_assoc]
  | record ref m =>
    cases h
    obtain ⟨hscope, hname, hmoved⟩ := hread
    have hself : (record ref m).bare = ctx.patches.adjust (.record { name := ref.name, scope := ref.scope } {}) := by
      rw [hmoved, Patches.bare_adjust]
      rfl
    rw [ClassRef.qualified, leadsBack_record_iff hscope hname, isReread, Bool.and_eq_true, Bool.not_eq_true',
      Bool.not_eq_true']
    simp [hself, ClassRef.qualified]

/-- The bare name of a class leads back to it exactly if its scoped name does and it is in no scope. -/
theorem leadsBack_bareName_iff {ref : ClassRef} {m n : Modifiers} (hread : (record ref n).IsRead ctx.patches) :
    ctx.LeadsBack ref.name m (.record ref n) ↔ (record ref n).isReread ctx.known = true ∧ ref.scope = "" := by
  obtain ⟨-, hname, -⟩ := id hread
  have hglobal : Scope.isGlobal ref.name = false :=
    Scope.startsScope_of_breakLast? (Scope.breakLast?_of_colon_cons hname)
  have hqualify : ctx.LeadsBack ref.name m (.record ref n)
      ↔ ctx.LeadsBack (Scope.qualify "" ref.name) m (.record ref n) := by
    rw [Context.LeadsBack, Context.LeadsBack, readName_qualify hglobal]
  rw [hqualify]
  by_cases hempty : ref.scope = ""
  · rw [and_iff_left hempty, ← leadsBack_scopedName_iff (t := record ref n) hread rfl rfl, ClassRef.qualified,
      hempty, leadsBack_record_iff Scope.isNormal_empty hname, leadsBack_record_iff Scope.isNormal_empty hname]
  · refine iff_of_false (fun h => hempty ?_) fun h => hempty h.2
    obtain ⟨-, -, hbare⟩ := (leadsBack_record_iff Scope.isNormal_empty hname).1 h
    obtain ⟨moved, hmoved⟩ := ctx.patches.exists_moved { name := ref.name, scope := "" } {}
    rw [hmoved] at hbare
    exact congrArg ClassRef.scope (CxxType.record.inj hbare).1

/-- The name of a result leads back to its type exactly if it has no scope that is not written. -/
theorem leadsBack_resultName_iff {name : String} (hread : t.IsRead ctx.patches) (hsimple : t.isSimple = true)
    (h : t.resultName = .ok name) : ctx.LeadsBack name { isPointer := t.isCharacters } t
      ↔ t.isReread ctx.known = true ∧ t.isUnscoped = true := by
  cases t with
  | function | array => cases hsimple
  | void | bool =>
    cases h
    exact iff_of_true (leadsBack_of_builtin (u := _) rfl rfl rfl) ⟨rfl, rfl⟩
  | numeric kind =>
    cases h
    exact iff_of_true (leadsBack_of_builtin rfl (builtin?_numeric kind _) rfl) ⟨rfl, rfl⟩
  | text kind =>
    refine iff_of_true ?_ ⟨rfl, rfl⟩
    cases kind <;> cases h <;> exact leadsBack_of_builtin (u := .text _ {}) rfl rfl rfl
  | enum name =>
    cases h
    rw [leadsBack_enum_iff]
    simp [isReread, isUnscoped, and_assoc]
  | record ref n =>
    cases h
    rw [leadsBack_bareName_iff hread, isUnscoped, beq_iff_eq]

end LeadsBack

/-! ### Parameters and results -/

/-- Is the second type the first one, keyword aside? -/
def SameAs (t u : CxxType) : Prop := t.bare = u.bare ∧ t.mods = u.mods

/-- Is the second type the first one, keyword and constness aside? -/
def SameResultAs (t u : CxxType) : Prop :=
  t.bare = u.bare ∧ t.isPointer = u.isPointer ∧ t.isReference = u.isReference

section Reading

variable {ctx : Context} {t : CxxType} {v : SpelledType}

/-- A type that is written with a name of the characters of identifiers is the same again exactly if this name leads
back to it. -/
theorem written_reread_iff {name : String} (h : isIdentifier name.toList = true) :
    (∃ u, convertChars ctx "" (written t.mods name.toList) = .ok u ∧ t.SameAs u) ↔ ctx.LeadsBack name t.mods t := by
  rw [convertChars_written h, String.ofList_toList]
  constructor
  · rintro ⟨u, hu, hbare, -⟩
    exact ⟨u, hu, hbare⟩
  · rintro ⟨u, hu, hbare⟩
    exact ⟨u, hu, hbare, (mods_of_readName hu).symm⟩

/-- A parameter that is written out and read is the same again exactly if its name leads back to its type. -/
theorem param_reread_iff (hread : t.IsRead ctx.patches) (hsimple : t.isSimple = true)
    (hplain : t.isSpelledPlainly = true) (hv : t.spelledInScope = .ok v) :
    (∃ u, convertChars ctx "" v.render.toList = .ok u ∧ t.SameAs u) ↔ t.isReread ctx.known = true := by
  obtain ⟨full, hfull, -⟩ := bind_eq_ok.1 hv
  rw [toList_render_spelledInScope hv hfull, written_reread_iff (isIdentifier_scopedName hsimple hplain hfull),
    leadsBack_scopedName_iff hread hsimple hfull]

theorem exists_resultName (h : t.spelledBare = .ok v) : ∃ name, t.resultName = .ok name := by
  obtain ⟨bare, hbare, -⟩ := bind_eq_ok.1 h
  cases t with
  | text kind => cases kind <;> exact ⟨_, rfl⟩
  | _ => exact ⟨bare, hbare⟩

/-- A result that is written out and read is the same again exactly if its bare name leads back to its type. -/
theorem result_reread_iff (hread : t.IsRead ctx.patches) (hsimple : t.isSimple = true)
    (hplain : t.isSpelledPlainly = true) (hv : t.spelledBare = .ok v) :
    (∃ u, convertChars ctx "" v.render.toList = .ok u ∧ t.SameResultAs u) ↔ t.isRereadBare ctx.known = true := by
  obtain ⟨name, hname⟩ := exists_resultName hv
  have hback := leadsBack_resultName_iff hread hsimple hname
  rw [toList_render_spelledBare hv hname, convertChars_written (isIdentifier_resultName hsimple hplain hname),
    String.ofList_toList, isRereadBare, Bool.and_eq_true, Bool.and_eq_true, Bool.and_eq_true, ← hback,
    Bool.not_eq_true', beq_iff_eq]
  constructor
  · rintro ⟨u, hu, hbare, hpointer, hreference⟩
    have hmods := mods_of_readName hu
    refine ⟨⟨⟨u, hu, hbare⟩, ?_⟩, ?_⟩
    · rw [hreference, isReference, hmods]
    · rw [hpointer, isPointer, hmods]
  · rintro ⟨⟨⟨u, hu, hbare⟩, hreference⟩, hpointer⟩
    have hmods := mods_of_readName hu
    refine ⟨u, hu, hbare, ?_, ?_⟩
    · rw [hpointer, isPointer, hmods]
    · rw [hreference, isReference, hmods]

/-- Parameters are the same again exactly if each one is. -/
theorem params_reread_iff {ts : List CxxType} {vs : List SpelledType} (hread : ∀ t ∈ ts, t.IsRead ctx.patches)
    (hsimple : ∀ t ∈ ts, t.isSimple = true) (hplain : ∀ t ∈ ts, t.isSpelledPlainly = true)
    (hvs : ts.mapM (·.spelledInScope) = .ok vs) :
    (∃ us, (vs.map (·.render.toList)).mapM (convertChars ctx "") = .ok us ∧ List.Forall₂ SameAs ts us)
      ↔ ∀ t ∈ ts, t.isReread ctx.known = true := by
  induction ts generalizing vs with
  | nil =>
    cases hvs
    exact iff_of_true ⟨[], rfl, .nil⟩ (by simp)
  | cons t ts ih =>
    obtain ⟨v, rest, hv, hrest, rfl⟩ := mapM_cons_eq_ok.1 hvs
    rw [List.forall_mem_cons] at hread hsimple hplain
    rw [List.forall_mem_cons, ← ih hread.2 hsimple.2 hplain.2 hrest,
      ← param_reread_iff hread.1 hsimple.1 hplain.1 hv, List.map_cons]
    constructor
    · rintro ⟨us, hus, hsame⟩
      obtain ⟨u, later, hu, hlater, rfl⟩ := mapM_cons_eq_ok.1 hus
      cases hsame with
      | cons hfirst hothers => exact ⟨⟨u, hu, hfirst⟩, later, hlater, hothers⟩
    · rintro ⟨⟨u, hu, hfirst⟩, later, hlater, hothers⟩
      exact ⟨u :: later, mapM_cons_eq_ok.2 ⟨u, later, hu, hlater, rfl⟩, .cons hfirst hothers⟩

/-- Of the types that are read again only `void` by value is written as it is where there are no parameters. -/
theorem eq_plainVoid_of_render (hread : t.IsRead ctx.patches) (hsimple : t.isSimple = true)
    (hplain : t.isSpelledPlainly = true) (hv : t.spelledInScope = .ok v) (hback : t.isReread ctx.known = true)
    (h : v.render.toList = "void".toList) : t = plainVoid := by
  obtain ⟨u, hu, hbare, hmods⟩ := (param_reread_iff hread hsimple hplain hv).2 hback
  have hname : isIdentifier "void".toList = true := by decide
  have hvoid : convertChars ctx "" "void".toList = .ok (.void {}) :=
    (convertChars_written hname {}).trans (readName_of_builtin (t := .void {}) rfl rfl)
  rw [h, hvoid] at hu
  cases hu
  cases t with
  | void m => exact congrArg CxxType.void hmods
  | _ => cases hbare

end Reading

end CxxType

/-! ### Function pointers -/

theorem CxxType.isNamed_of_isSimple {t : CxxType} (h : t.isSimple = true) : t.isNamed = true := by
  cases t with
  | function | array => cases h
  | _ => rfl

namespace Signature

/-- Simple types can be spelled as the parameters and the result of a function type. -/
theorem exists_spelled {s : Signature} (hsimple : ∀ t ∈ s.result :: s.params, t.isSimple = true) :
    ∃ params result, s.params.mapM (·.spelledInScope) = .ok params ∧ s.result.spelledBare = .ok result := by
  obtain ⟨hresult, hparams⟩ := List.forall_mem_cons.1 hsimple
  have hspelled : (s.params.mapM fun t => CxxType.spelled t).isOk = true := by
    rw [isOk_mapM, List.all_eq_true]
    intro t ht
    rw [CxxType.isOk_spelled, CxxType.isNamed_of_isSimple (hparams t ht)]
  obtain ⟨heads, hheads⟩ := isOk_iff.1 hspelled
  obtain ⟨params, hwritten, -⟩ := CxxType.exists_spelledInScope hheads
  obtain ⟨name, hname⟩ := isOk_iff.1 ((CxxType.isOk_cxxName _).trans (CxxType.isNamed_of_isSimple hresult))
  exact ⟨params, ⟨"", name, ""⟩, hwritten, bind_eq_ok.2 ⟨name, hname, rfl⟩⟩

section Text

variable {ctx : Context} {s : Signature} {params : List SpelledType} {result : SpelledType}
  (hparams : s.params.mapM (·.spelledInScope) = .ok params) (hresult : s.result.spelledBare = .ok result)

include hparams hresult

/-- A function pointer is written as its result and its parameters are. -/
theorem toList_text : ∃ text, s.text true = .ok text
    ∧ text.toList = pointerText result.render.toList (params.map (·.render.toList)) := by
  refine ⟨_, s.text_of_spelled hparams hresult true, ?_⟩
  simp [CxxType.functionText, pointerText, listed, String.toList_intercalate, Function.comp_def]

/-- Reading a function pointer again reads its parts again. -/
theorem convertChars_text (hsimple : ∀ t ∈ s.result :: s.params, t.isSimple = true)
    (hplain : ∀ t ∈ s.result :: s.params, t.isSpelledPlainly = true) :
    convertChars ctx "" (pointerText result.render.toList (params.map (·.render.toList))) = do
      let resultType ← convertChars ctx "" result.render.toList
      let paramTypes ← (if params.map (·.render.toList) = ["void".toList] then []
        else params.map (·.render.toList)).mapM (convertChars ctx "")
      return .function paramTypes resultType false {} := by
  obtain ⟨hsimpleResult, hsimpleParams⟩ := List.forall_mem_cons.1 hsimple
  obtain ⟨hplainResult, hplainParams⟩ := List.forall_mem_cons.1 hplain
  obtain ⟨name, hname⟩ := CxxType.exists_resultName hresult
  have hidentifier := CxxType.isIdentifier_resultName hsimpleResult hplainResult hname
  have hpiece := isPiece_written hidentifier { isPointer := s.result.isCharacters }
  have hpieces : ∀ piece ∈ params.map (·.render.toList), IsPiece piece := by
    intro piece hmem
    obtain ⟨v, hv, rfl⟩ := List.mem_map.1 hmem
    obtain ⟨t, ht, hspelled⟩ := exists_of_mem_mapM_ok hparams v hv
    obtain ⟨full, hfull, -⟩ := bind_eq_ok.1 hspelled
    rw [CxxType.toList_render_spelledInScope hspelled hfull]
    exact isPiece_written (CxxType.isIdentifier_scopedName (hsimpleParams t ht) (hplainParams t ht) hfull) _
  rw [CxxType.toList_render_spelledBare hresult hname]
  refine convertChars_pointerText hpiece.solid hpiece.ne_nil (fun c hc => ?_) hpieces ctx ""
  have hother : ∀ c ∈ [' ', '(', '<'], isNameChar c = false ∧ c ∉ ['*', '&'] :=
    List.forall_iff_forall_mem.1 (by decide)
  exact not_mem_marked hidentifier { isPointer := s.result.isCharacters } (hother c hc).1 (hother c hc).2

/-- The parts of a function pointer are the same again exactly if the name of each leads back to its type, but a list
with `void` alone is read as one without parameters. -/
theorem reread_iff (hread : ∀ t ∈ s.result :: s.params, t.IsRead ctx.patches)
    (hsimple : ∀ t ∈ s.result :: s.params, t.isSimple = true)
    (hplain : ∀ t ∈ s.result :: s.params, t.isSpelledPlainly = true) :
    (∃ params' result' m, convertChars ctx "" (pointerText result.render.toList (params.map (·.render.toList)))
        = .ok (.function params' result' false m)
        ∧ List.Forall₂ CxxType.SameAs s.params params' ∧ s.result.SameResultAs result')
      ↔ (∀ t ∈ s.params, t.isReread ctx.known = true) ∧ s.params ≠ [CxxType.plainVoid]
        ∧ s.result.isRereadBare ctx.known = true := by
  rw [convertChars_text hparams hresult hsimple hplain]
  rw [List.forall_mem_cons] at hread hsimple hplain
  obtain ⟨ts, resultType, hasStorage⟩ := s
  dsimp only at *
  by_cases hvoid : params.map (·.render.toList) = ["void".toList]
  · rw [if_pos hvoid]
    obtain ⟨only, rfl, honly⟩ := List.map_eq_singleton_iff.1 hvoid
    obtain ⟨t, rfl, ht⟩ : ∃ t, ts = [t] ∧ t.spelledInScope = .ok only := by
      cases forall₂_of_mapM_ok hparams with
      | cons ht hnil =>
        cases hnil
        exact ⟨_, rfl, ht⟩
    rw [List.forall_mem_singleton] at hread hsimple hplain
    refine iff_of_false ?_ ?_
    · rintro ⟨params', result', m, hok, hsame, -⟩
      obtain ⟨u, -, hrest⟩ := bind_eq_ok.1 hok
      cases hrest
      cases hsame
    · rintro ⟨hback, hne, -⟩
      rw [List.forall_mem_singleton] at hback
      have hthis := CxxType.eq_plainVoid_of_render hread.2 hsimple.2 hplain.2 ht hback honly
      exact hne (congrArg ([·]) hthis)
  · rw [if_neg hvoid, ← CxxType.params_reread_iff hread.2 hsimple.2 hplain.2 hparams,
      ← CxxType.result_reread_iff hread.1 hsimple.1 hplain.1 hresult]
    constructor
    · rintro ⟨params', result', m, hok, hsame, hsameResult⟩
      obtain ⟨u, hu, hrest⟩ := bind_eq_ok.1 hok
      obtain ⟨us, hus, heq⟩ := bind_eq_ok.1 hrest
      cases heq
      refine ⟨⟨_, hus, hsame⟩, ?_, ⟨_, hu, hsameResult⟩⟩
      rintro rfl
      cases hparams
      exact hvoid (by decide)
    · rintro ⟨⟨us, hus, hsame⟩, -, u, hu, hsameResult⟩
      exact ⟨us, u, {}, bind_eq_ok.2 ⟨_, hu, bind_eq_ok.2 ⟨_, hus, rfl⟩⟩, hsame, hsameResult⟩

end Text

end Signature

/-- CORRECT: a function pointer made of simple types with plain names is written out, and read again in the global
namespace, as a function type with the same parameters and the same result exactly if the scoped name of each
parameter and the bare name of the result lead back to their types, and `void` is not the only parameter. -/
theorem function_pointer_reread_iff (ctx : Context) (spelling scope : String) (params : List CxxType)
    (result : CxxType) (m : Modifiers) (h : convert ctx spelling scope = .ok (.function params result false m))
    (hsimple : ∀ t ∈ result :: params, t.isSimple = true)
    (hplain : ∀ t ∈ result :: params, t.isSpelledPlainly = true) :
    ∃ text, (Signature.mk params result false).text true = .ok text
      ∧ ((∃ params' result' m', convert ctx text "" = .ok (.function params' result' false m')
          ∧ List.Forall₂ CxxType.SameAs params params' ∧ result.SameResultAs result')
        ↔ (∀ t ∈ params, t.isReread ctx.known = true) ∧ params ≠ [CxxType.plainVoid]
          ∧ result.isRereadBare ctx.known = true) := by
  have hread : ∀ t ∈ result :: params, t.IsRead ctx.patches := fun t ht => by
    obtain ⟨part, hpart⟩ := parts_of_convertChars h t ht
    exact isRead_of_convertChars hpart (hsimple t ht)
  obtain ⟨vs, v, hvs, hv⟩ := Signature.exists_spelled (s := ⟨params, result, false⟩) hsimple
  obtain ⟨text, htext, hlist⟩ := Signature.toList_text (s := ⟨params, result, false⟩) hvs hv
  refine ⟨text, htext, ?_⟩
  rw [convert, hlist]
  exact Signature.reread_iff (s := ⟨params, result, false⟩) hvs hv hread hsimple hplain

/-- A class and an enum of one scope. -/
def drawContext : Context where
  known := { classes := NameSet.insert ∅ "::Gfx::Mesh", enums := NameSet.insert ∅ "::Gfx::Mode" }
  templates := ∅
  patches := {}

/-- The parameters of `bool(*)(const Mesh*, Mode, const char*)`. -/
def drawParams : List CxxType :=
  [.record ⟨"Mesh", "::Gfx", none, false⟩ { isPointer := true, isConst := true }, .enum "::Gfx::Mode" {},
    .text .narrowPointer { isPointer := true, isConst := true }]

theorem draw_pointer_reread : ∃ text, (Signature.mk drawParams (.bool {}) false).text true = .ok text
    ∧ ∃ params' result' m', convert drawContext text "" = .ok (.function params' result' false m')
      ∧ List.Forall₂ CxxType.SameAs drawParams params' ∧ CxxType.SameResultAs (.bool {}) result' := by
  have hread : convert drawContext "bool(*)(const Mesh*, Mode, const char*)" "::Gfx"
      = .ok (.function drawParams (.bool {}) false {}) := by
    with_unfolding_all rfl
  obtain ⟨text, htext, hsame⟩ :=
    function_pointer_reread_iff drawContext _ "::Gfx" drawParams (.bool {}) {} hread (by decide) (by decide)
  exact ⟨text, htext, hsame.2 ⟨by decide, nofun, by decide⟩⟩

/-- A function that gives a pointer is written as one that gives a number, and read as such. -/
theorem next_pointer_misread :
    convert drawContext "int*(*)(int)" ""
        = .ok (.function [.numeric .int32 {}] (.numeric .int32 { isPointer := true }) false {})
      ∧ nextSignature.text true = .ok "int32_t(*)(int32_t)"
      ∧ convert drawContext "int32_t(*)(int32_t)" ""
        = .ok (.function [.numeric .int32 {}] (.numeric .int32 {}) false {})
      ∧ ¬ CxxType.SameResultAs (.numeric .int32 { isPointer := true }) (.numeric .int32 {}) := by
  refine ⟨by with_unfolding_all rfl, rfl, by with_unfolding_all rfl, fun h => ?_⟩
  exact absurd h.2.1 (by decide)

end LuaGlue
