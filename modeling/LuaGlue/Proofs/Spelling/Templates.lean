import LuaGlue.Proofs.Spelling.Names

/-!
Which templates a spelling may have in it.

A function type and an instance of the container template are taken apart, and a name is read only if it is made of the
characters of identifiers. A name behind a keyword is not looked at, so the text of any template comes through there
(`template_behind_keyword`); where those names are plain, no text of a template is left in the type
(`known_templates_only_iff`).

    Buffer<Mesh>           the container template   an array of Mesh
    Box<Mesh>              another template         refused
    struct Box<Mesh>       a name behind a keyword  the class `Box<Mesh>`
-/

namespace LuaGlue

open Spelling

/-! ### Plain texts -/

/-- Is the text made of the characters of identifiers? -/
def IsNameText (text : List Char) : Prop := ∀ c ∈ text, isNameChar c = true

instance (text : List Char) : Decidable (IsNameText text) := List.decidableBAll ..

theorem isNameText_append {a b : List Char} : IsNameText (a ++ b) ↔ IsNameText a ∧ IsNameText b :=
  List.forall_mem_append

theorem isNameText_of_isIdentifier {text : List Char} (h : isIdentifier text = true) :
    IsNameText (String.ofList text).toList := by
  rw [String.toList_ofList]
  exact forall_isNameChar h

/-- Colons are characters of identifiers. -/
theorem isNameText_iff {text : List Char} : IsNameText text ↔ ∀ c ∈ text, c ≠ ':' → isNameChar c = true := by
  refine ⟨fun h c hc _ => h c hc, fun h c hc => ?_⟩
  by_cases hcolon : c = ':'
  · rw [hcolon]
    decide
  · exact h c hc hcolon

namespace Scope

/-- Only colons are lost when a text is cut at its separators. -/
theorem mem_segments {c : Char} (hc : c ≠ ':') {text : List Char} :
    (∃ piece ∈ segments text, c ∈ piece) ↔ c ∈ text := by
  induction text using segments.induct with
  | case1 => simp [segments]
  | case2 rest ih => simp [segments, ih, hc]
  | case3 d rest hsep hrest ih => exact absurd hrest (segments_ne_nil rest)
  | case4 d rest hsep piece pieces hrest ih =>
    rw [segments.eq_3 d rest hsep]
    rw [hrest] at ih ⊢
    simp only [List.mem_cons, exists_eq_or_imp] at ih ⊢
    rw [or_assoc, ih]

theorem mem_joined {c : Char} (hc : c ≠ ':') {pieces : List (List Char)} :
    c ∈ joined pieces ↔ ∃ piece ∈ pieces, c ∈ piece := by
  simp [joined, hc]

theorem mem_normalize {c : Char} (hc : c ≠ ':') {scope : String} :
    c ∈ (normalize scope).toList ↔ c ∈ scope.toList := by
  rw [normalize, parts, toList_ofParts, mem_joined hc, ← mem_segments hc]
  refine exists_congr fun piece => and_congr_left fun hpiece => ?_
  simp [List.mem_filter, List.ne_nil_of_mem hpiece]

theorem isNameText_normalize {scope : String} : IsNameText (normalize scope).toList ↔ IsNameText scope.toList := by
  rw [isNameText_iff, isNameText_iff]
  exact forall_congr' fun c =>
    ⟨fun h hc hcolon => h ((mem_normalize hcolon).2 hc) hcolon, fun h hc hcolon => h ((mem_normalize hcolon).1 hc) hcolon⟩

theorem isNameText_qualify {scope name : String} :
    IsNameText (qualify scope name).toList ↔ IsNameText scope.toList ∧ IsNameText name.toList := by
  rw [toList_qualify, show ':' :: ':' :: name.toList = [':', ':'] ++ name.toList from rfl, isNameText_append,
    isNameText_append, and_iff_right (a := IsNameText [':', ':']) (by decide)]

theorem isNameText_splitQualified {name : String} :
    IsNameText (splitQualified name).1.toList ∧ IsNameText (splitQualified name).2.toList ↔ IsNameText name.toList := by
  unfold splitQualified
  split
  · next before after hbreak =>
    rw [(breakLast?_eq_some hbreak).1]
    simp only [isNameText_normalize, String.toList_ofList]
    rw [← isNameText_append, isNameText_append, isNameText_append]
    simp [IsNameText, isNameChar]
  · exact and_iff_right (List.forall_mem_nil _)

end Scope

namespace Spelling

section Names

variable {known : NameSet} {name scope fallback : String}

theorem isNameText_of_resolve (hknown : ∀ name, known.contains name = true → IsNameText name.toList) {found : String}
    (h : resolve known name scope = some found) : IsNameText found.toList ∧ IsNameText name.toList := by
  unfold resolve at h
  split at h
  · split at h
    · next hcontains =>
      cases h
      exact ⟨hknown _ hcontains, hknown _ hcontains⟩
    · cases h
  · have hfound := hknown _ (List.find?_some h)
    obtain ⟨outer, -, rfl⟩ := List.mem_map.1 (List.mem_of_find?_eq_some h)
    exact ⟨hfound, (Scope.isNameText_qualify.1 hfound).2⟩

/-- A name that was looked up among plain names is as plain as it is written. -/
theorem isNameText_getD_resolve (hknown : ∀ name, known.contains name = true → IsNameText name.toList)
    (hfallback : IsNameText fallback.toList ↔ IsNameText name.toList) :
    IsNameText ((resolve known name scope).getD fallback).toList ↔ IsNameText name.toList := by
  cases hresolve : resolve known name scope with
  | none => exact hfallback
  | some found =>
    obtain ⟨hfound, hname⟩ := isNameText_of_resolve hknown hresolve
    exact iff_of_true hfound hname

theorem isNameText_assume (hscope : IsNameText scope.toList) :
    IsNameText (assume name scope).toList ↔ IsNameText name.toList := by
  unfold assume
  split
  · rfl
  · rw [Scope.isNameText_qualify, and_iff_right hscope]

/-- The name behind a keyword is looked up, or taken as declared in the scope. -/
theorem isNameText_elaborated (hknown : ∀ name, known.contains name = true → IsNameText name.toList)
    (hscope : IsNameText scope.toList) (text : List Char) :
    IsNameText ((resolve known (String.ofList text) scope).getD (assume (String.ofList text) scope)).toList
      ↔ IsNameText text := by
  rw [isNameText_getD_resolve hknown (isNameText_assume hscope), String.toList_ofList]

theorem mem_dropSeparators {c : Char} (hc : c ≠ ':') {text : List Char} :
    c ∈ Scope.dropSeparators text ↔ c ∈ text := by
  fun_induction Scope.dropSeparators text with
  | case1 rest ih => simp [ih, hc]
  | case2 => rfl

theorem isNameText_fromGlobal (h : IsNameText name.toList) : IsNameText (Scope.fromGlobal name).toList := by
  rw [Scope.fromGlobal, String.toList_append, isNameText_append]
  refine ⟨by decide, isNameText_iff.2 fun c hc hcolon => h c ((mem_dropSeparators hcolon).1 ?_)⟩
  rwa [String.toList_ofList] at hc

end Names

/-! ### Names of builtin types -/

/-- The names of the builtin types. -/
def builtinNames : List String :=
  ["void", "bool", "char", "wchar_t"] ++ numericNames.map Prod.fst ++ textNames.map Prod.fst

theorem mem_builtinNames {name : String} {isPointer : Bool} {builtin : Except SkipReason CxxType}
    (h : builtin? name isPointer = some builtin) : name ∈ builtinNames := by
  have hlookup : ∀ {α : Type} {entries : List (String × α)} {value : α}, entries.lookup name = some value →
      name ∈ entries.map Prod.fst := fun {α entries value} hvalue => by
    obtain ⟨before, after, rfl, -⟩ := List.lookup_eq_some_iff.1 hvalue
    simp
  unfold builtin? at h
  unfold builtinNames
  split at h
  · next hname => simp [hname]
  split at h
  · next hname => simp [hname]
  split at h
  · next hname => simp [hname]
  split at h
  · next hname => simp [hname]
  split at h
  · next kind hkind => exact List.mem_append_left _ (List.mem_append_right _ (hlookup hkind))
  · obtain ⟨kind, hkind, -⟩ := Option.map_eq_some_iff.1 h
    exact List.mem_append_right _ (hlookup hkind)

/-! ### Names behind keywords -/

/-- The keywords that a name may stand behind. -/
def keywords : List String := ["enum ", "struct ", "class "]

/-- The name behind a keyword, in a spelling without marks that is not one of a function type. -/
def elaborated? (base : List Char) : Option (List Char) :=
  if (closure? base).isSome || (functionPointer? base).isSome then none
  else (keywords.findSome? fun keyword => Text.stripFront? keyword.toList base).map Text.trim

/-- A name behind a keyword is no builtin type. -/
theorem builtin?_eq_none_of_keyword {keyword : String} (hkeyword : keyword ∈ keywords) {base text : List Char}
    (h : Text.stripFront? keyword.toList base = some text) (isPointer : Bool) :
    builtin? (String.ofList (Scope.dropSeparators base)) isPointer = none := by
  have hapart : ∀ keyword ∈ keywords, ∀ name ∈ builtinNames,
      Text.stripFront? keyword.toList name.toList = none := by decide
  have hbase : Scope.dropSeparators base = base := by
    rw [Text.stripFront?_eq_some h]
    simp only [keywords, List.mem_cons, List.not_mem_nil, or_false] at hkeyword
    rcases hkeyword with rfl | rfl | rfl <;> rfl
  cases hbuiltin : builtin? (String.ofList (Scope.dropSeparators base)) isPointer with
  | none => rfl
  | some builtin =>
    have hnone := hapart keyword hkeyword _ (mem_builtinNames hbuiltin)
    rw [String.toList_ofList, hbase, h] at hnone
    cases hnone

/-- How a spelling without marks comes to its shape. -/
inductive ShapeOf (ctx : Context) (base : List Char) (whole scope : String) (isPointer : Bool) : Shape → Prop
  | function {text : List Char} {hasStorage : Bool} {found : Shape}
      (hfunction : closure? base = some text ∨ functionPointer? base = some text)
      (hnone : elaborated? base = none) (hfound : functionShape text whole hasStorage = .ok found) :
      ShapeOf ctx base whole scope isPointer found
  | builtin {t : CxxType} (hnone : elaborated? base = none)
      (hbuiltin : builtin? (String.ofList (Scope.dropSeparators base)) isPointer = some (.ok t)) :
      ShapeOf ctx base whole scope isPointer (.leaf t)
  | enum {text : List Char} (hname : elaborated? base = some (Text.trim text)) :
      ShapeOf ctx base whole scope isPointer (enumShape ctx text scope)
  | record {text : List Char} (keyword : ForwardKeyword) (hname : elaborated? base = some (Text.trim text)) :
      ShapeOf ctx base whole scope isPointer (forwardShape ctx text scope keyword)
  | template {found : Shape} (hnone : elaborated? base = none) (hfound : templateShape ctx base whole = .ok found) :
      ShapeOf ctx base whole scope isPointer found
  | name {found : Shape} (hnone : elaborated? base = none) (hbracket : '<' ∉ base)
      (hfound : nameShape ctx base whole scope = .ok found) : ShapeOf ctx base whole scope isPointer found

theorem shapeOf_of_shape {ctx : Context} {base : List Char} {whole scope : String} {isPointer : Bool} {found : Shape}
    (h : shape ctx base whole scope isPointer = .ok found) : ShapeOf ctx base whole scope isPointer found := by
  unfold shape at h
  cases hclosure : closure? base with
  | some text =>
    rw [hclosure] at h
    exact .function (.inl hclosure) (by simp [elaborated?, hclosure]) h
  | none =>
  cases hpointer : functionPointer? base with
  | some text =>
    rw [hclosure, hpointer] at h
    exact .function (.inr hpointer) (by simp [elaborated?, hpointer]) h
  | none =>
  have hname : elaborated? base
      = (keywords.findSome? fun keyword => Text.stripFront? keyword.toList base).map Text.trim := by
    simp [elaborated?, hclosure, hpointer]
  simp only [hclosure, hpointer] at h
  cases hbuiltin : builtin? (String.ofList (Scope.dropSeparators base)) isPointer with
  | some builtin =>
    have hnone : elaborated? base = none := by
      rw [hname, Option.map_eq_none_iff, List.findSome?_eq_none_iff]
      intro keyword hkeyword
      cases hstrip : Text.stripFront? keyword.toList base with
      | none => rfl
      | some text => cases hbuiltin.symm.trans (builtin?_eq_none_of_keyword hkeyword hstrip isPointer)
    simp only [hbuiltin] at h
    cases builtin with
    | error reason => cases h
    | ok t =>
      cases h
      exact .builtin hnone hbuiltin
  | none =>
  simp only [hbuiltin] at h
  cases henum : Text.stripFront? "enum ".toList base with
  | some text =>
    simp only [henum] at h
    cases h
    exact .enum (by simp only [hname, keywords, List.findSome?_cons, henum, Option.map_some])
  | none =>
  cases hstruct : Text.stripFront? "struct ".toList base with
  | some text =>
    simp only [henum, hstruct] at h
    cases h
    exact .record .structWord (by simp only [hname, keywords, List.findSome?_cons, henum, hstruct, Option.map_some])
  | none =>
  cases hclass : Text.stripFront? "class ".toList base with
  | some text =>
    simp only [henum, hstruct, hclass] at h
    cases h
    exact .record .classWord
      (by simp only [hname, keywords, List.findSome?_cons, henum, hstruct, hclass, Option.map_some])
  | none =>
  have hnone : elaborated? base = none := by
    simp only [hname, keywords, List.findSome?_cons, henum, hstruct, hclass, List.findSome?_nil, Option.map_none]
  simp only [henum, hstruct, hclass] at h
  split at h
  · exact .template hnone h
  · next hbracket => exact .name hnone (by simpa using hbracket) h

end Spelling

namespace CxxType

mutual

/-- The names of enums, and the scopes and names of classes, in a type. -/
def names : CxxType → List String
  | .enum name _ => [name]
  | .record ref _ => [ref.scope, ref.name]
  | .function params result _ _ => namesOf params ++ names result
  | .array _ element _ => names element
  | .void _ | .numeric _ _ | .bool _ | .text _ _ => []

/-- The names of enums, and the scopes and names of classes, in these types. -/
def namesOf : List CxxType → List String
  | [] => []
  | t :: ts => names t ++ namesOf ts

end

theorem mem_namesOf {ts : List CxxType} {name : String} : name ∈ namesOf ts ↔ ∃ t ∈ ts, name ∈ t.names := by
  induction ts with
  | nil => simp [namesOf]
  | cons t ts ih => simp [namesOf, ih]

theorem names_withMods (m : Modifiers) (t : CxxType) : (t.withMods m).names = t.names := by
  cases t <;> rfl

theorem names_bare (t : CxxType) : t.bare.names = t.names := by
  cases t <;> rfl

/-- Are all names in the type made of the characters of identifiers? -/
def HasNameTexts (t : CxxType) : Prop := ∀ name ∈ t.names, IsNameText name.toList

theorem hasNameTexts_function {params : List CxxType} {result : CxxType} {hasStorage : Bool} {m : Modifiers} :
    (function params result hasStorage m).HasNameTexts
      ↔ result.HasNameTexts ∧ ∀ t ∈ params, t.HasNameTexts := by
  simp only [HasNameTexts, names, List.mem_append, mem_namesOf, or_imp, forall_and, forall_exists_index, and_imp]
  exact and_comm.trans (and_congr_right' ⟨fun h t ht name => h name t ht, fun h name t ht => h t ht name⟩)

end CxxType

theorem Patches.names_adjust (p : Patches) (t : CxxType) : (p.adjust t).names = t.names := by
  cases t with
  | record ref m =>
    obtain ⟨moved, hmoved⟩ := p.exists_moved ref m
    rw [hmoved]
    rfl
  | _ => rfl

/-- Are all known names made of the characters of identifiers? -/
structure KnownNames.HasNameTexts (known : KnownNames) : Prop where
  classes : ∀ name, known.classes.contains name = true → IsNameText name.toList
  enums : ∀ name, known.enums.contains name = true → IsNameText name.toList

namespace Spelling

theorem names_of_builtin? {name : String} {isPointer : Bool} {t : CxxType}
    (h : builtin? name isPointer = some (.ok t)) : t.names = [] := by
  rcases builtin?_cases h with rfl | rfl | ⟨kind, rfl⟩ | ⟨kind, rfl, -⟩ <;> rfl

theorem hasNameTexts_classRef (name : String) (forward : Option ForwardKeyword) (m : Modifiers) :
    (CxxType.record (classRef name forward) m).HasNameTexts ↔ IsNameText name.toList := by
  rw [← Scope.isNameText_splitQualified]
  simp [CxxType.HasNameTexts, CxxType.names, classRef]

/-- The names in a type without parts are plain exactly if the name behind its keyword is, if there is one. -/
theorem hasNameTexts_of_leaf {ctx : Context} {base : List Char} {whole scope : String} {isPointer : Bool} {t : CxxType}
    (hknown : ctx.known.HasNameTexts) (hscope : IsNameText scope.toList)
    (h : shape ctx base whole scope isPointer = .ok (.leaf t)) :
    t.HasNameTexts ↔ ∀ name ∈ elaborated? base, IsNameText name := by
  have hnamed : ∀ {name : List Char}, elaborated? base = some name →
      (IsNameText name ↔ ∀ name ∈ elaborated? base, IsNameText name) := fun {name} hname => by simp [hname]
  cases shapeOf_of_shape h with
  | function _ _ hfound => exact absurd hfound ne_leaf_of_functionShape
  | builtin hnone hbuiltin => simp [CxxType.HasNameTexts, names_of_builtin? hbuiltin, hnone]
  | enum hname =>
    rw [← hnamed hname, ← isNameText_elaborated hknown.enums hscope]
    exact List.forall_mem_singleton
  | record keyword hname =>
    rw [← hnamed hname, ← isNameText_elaborated hknown.classes hscope]
    exact hasNameTexts_classRef _ _ _
  | template _ hfound => exact absurd hfound ne_leaf_of_templateShape
  | name hnone _ hfound =>
    refine iff_of_true ?_ (by simp [hnone])
    obtain ⟨hidentifier, hleaf⟩ := exists_of_nameShape hfound
    have hname := isNameText_of_isIdentifier hidentifier
    obtain ⟨qualified, hresolve, heq⟩ | heq := hleaf
    · cases heq
      exact List.forall_mem_singleton.2 (isNameText_of_resolve hknown.enums hresolve).1
    · cases heq
      refine (hasNameTexts_classRef _ _ _).2 ((isNameText_getD_resolve hknown.classes ?_).2 hname)
      exact iff_of_true (isNameText_fromGlobal hname) hname

/-! ### Spellings inside a spelling -/

/-- The spellings that a spelling is made of. -/
def partsOf (ctx : Context) (scope : String) (spelling : List Char) : List (List Char) :=
  match splitMarks (Text.trim spelling) with
  | .error _ => []
  | .ok (base, m) =>
    match shape ctx base (String.ofList (Text.trim spelling)) scope m.isPointer with
    | .error _ => []
    | .ok found => found.parts

theorem length_lt_of_mem_partsOf {ctx : Context} {scope : String} {spelling part : List Char}
    (h : part ∈ partsOf ctx scope spelling) : part.length < spelling.length := by
  unfold partsOf at h
  split at h
  · cases h
  · next base m hmarks =>
    split at h
    · cases h
    · next found hshape =>
      exact Nat.lt_of_lt_of_le (length_lt_of_shape hshape h)
        (Nat.le_trans (length_of_splitMarks hmarks) (Text.length_trim_le spelling))

/-- The spellings that reading a spelling leads to, at any depth, itself first. -/
def spellings (ctx : Context) (scope : String) (spelling : List Char) : List (List Char) :=
  spelling :: (partsOf ctx scope spelling).attach.flatMap fun ⟨part, _⟩ => spellings ctx scope part
termination_by spelling.length
decreasing_by exact length_lt_of_mem_partsOf ‹_›

/-- The name behind the keyword of a spelling. -/
def elaboratedName? (spelling : List Char) : Option (List Char) :=
  match splitMarks (Text.trim spelling) with
  | .error _ => none
  | .ok (base, _) => elaborated? base

section Spellings

variable {ctx : Context} {scope : String} {spelling base : List Char} {m : Modifiers} {found : Shape} {t : CxxType}

theorem forall_mem_spellings {P : List Char → Prop} : (∀ within ∈ spellings ctx scope spelling, P within)
    ↔ P spelling ∧ ∀ part ∈ partsOf ctx scope spelling, ∀ within ∈ spellings ctx scope part, P within := by
  rw [spellings, List.forall_mem_cons]
  simp only [List.mem_flatMap, List.mem_attach, true_and, Subtype.exists, forall_exists_index]
  exact and_congr_right fun _ => ⟨fun h part hpart within hwithin => h within part hpart hwithin,
    fun h within part hpart hwithin => h part hpart within hwithin⟩

theorem partsOf_eq (hmarks : splitMarks (Text.trim spelling) = .ok (base, m))
    (hshape : shape ctx base (String.ofList (Text.trim spelling)) scope m.isPointer = .ok found) :
    partsOf ctx scope spelling = found.parts := by
  simp only [partsOf, hmarks, hshape]

theorem elaboratedName?_eq (hmarks : splitMarks (Text.trim spelling) = .ok (base, m)) :
    elaboratedName? spelling = elaborated? base := by
  simp only [elaboratedName?, hmarks]

/-- A spelling that is made of others is no name behind a keyword. -/
theorem elaborated?_eq_none {whole : String} {isPointer : Bool} (h : shape ctx base whole scope isPointer = .ok found)
    (hparts : found.parts ≠ []) : elaborated? base = none := by
  cases shapeOf_of_shape h with
  | function _ hnone _ => exact hnone
  | builtin hnone _ => exact hnone
  | enum _ => exact absurd rfl hparts
  | record _ _ => exact absurd rfl hparts
  | template hnone _ => exact hnone
  | name hnone _ _ => exact hnone

/-- The names in the type of a spelling are plain exactly if all names behind keywords in the spelling are. -/
theorem hasNameTexts_iff (hknown : ctx.known.HasNameTexts) (hscope : IsNameText scope.toList)
    (h : convertChars ctx scope spelling = .ok t) : t.HasNameTexts
      ↔ ∀ within ∈ spellings ctx scope spelling, ∀ name ∈ elaboratedName? within, IsNameText name := by
  refine convertChars_induction (motive := fun spelling t => t.HasNameTexts
    ↔ ∀ within ∈ spellings ctx scope spelling, ∀ name ∈ elaboratedName? within, IsNameText name) ?_ ?_ ?_ h
  · intro spelling base m t hmarks hshape
    rw [forall_mem_spellings, partsOf_eq hmarks hshape, elaboratedName?_eq hmarks,
      ← hasNameTexts_of_leaf hknown hscope hshape]
    simp [CxxType.HasNameTexts, Patches.names_adjust, CxxType.names_withMods, Shape.parts]
  · intro spelling base m result params hasStorage resultType paramTypes hmarks hshape hresult hparams
    rw [forall_mem_spellings, partsOf_eq hmarks hshape, elaboratedName?_eq hmarks,
      elaborated?_eq_none hshape (List.cons_ne_nil _ _), Shape.parts, List.forall_mem_cons, ← hresult,
      CxxType.hasNameTexts_function, ← forall_mem_iff_of_forall₂ (hparams.imp fun param type h => h.symm)]
    simp
  · intro spelling base m names element elementType hmarks hshape helement
    rw [forall_mem_spellings, partsOf_eq hmarks hshape, elaboratedName?_eq hmarks,
      elaborated?_eq_none hshape (List.cons_ne_nil _ _), Shape.parts, List.forall_mem_singleton, ← helement]
    simp [CxxType.HasNameTexts, CxxType.names]

/-- What is read is made of spellings that are read. -/
theorem read_of_mem_spellings (h : ∃ t, convertChars ctx scope spelling = .ok t) :
    ∀ within ∈ spellings ctx scope spelling, ∃ t, convertChars ctx scope within = .ok t := by
  induction spelling using spellings.induct ctx scope with
  | case1 spelling ih =>
    refine forall_mem_spellings.2 ⟨h, fun part hpart => ih part hpart ?_⟩
    obtain ⟨t, h⟩ := h
    rw [convertChars_eq] at h
    obtain ⟨⟨base, m⟩, hmarks, h⟩ := bind_eq_ok.1 h
    obtain ⟨found, hshape, h⟩ := bind_eq_ok.1 h
    rw [partsOf_eq hmarks hshape] at hpart
    cases found with
    | leaf t => cases hpart
    | function result params hasStorage =>
      obtain ⟨resultType, hresult, h⟩ := bind_eq_ok.1 h
      obtain ⟨paramTypes, hparams, -⟩ := bind_eq_ok.1 h
      rcases List.mem_cons.1 hpart with rfl | hpart
      · exact ⟨_, hresult⟩
      · obtain ⟨type, -, htype⟩ := exists_mem_of_mapM_ok hparams part hpart
        exact ⟨_, htype⟩
    | array names element =>
      obtain ⟨elementType, helement, -⟩ := bind_eq_ok.1 h
      rw [List.mem_singleton.1 hpart]
      exact ⟨_, helement⟩

end Spellings

/-! ### Templates -/

/-- Is the text an instance of the container template, or of one that stands for it? -/
def Context.Instantiates (ctx : Context) (base : List Char) : Prop :=
  ∃ array template arguments, ctx.patches.array = some array ∧ base = template ++ '<' :: (arguments ++ ['>'])
    ∧ '<' ∉ template
    ∧ (ctx.templates.get? (Scope.fromGlobal (String.ofList (Text.trim template)))).getD
        (Scope.fromGlobal (String.ofList (Text.trim template))) = array.names.template

/-- Is the spelling that of a closure, of a function pointer, or of an instance of the container template? -/
def Context.TakesApart (ctx : Context) (spelling : List Char) : Prop :=
  ∃ base m, splitMarks (Text.trim spelling) = .ok (base, m)
    ∧ ((closure? base).isSome = true ∨ (functionPointer? base).isSome = true ∨ ctx.Instantiates base)

/-- An instance is taken apart at its first bracket, and the first of its arguments is the element. -/
theorem exists_of_templateShape {ctx : Context} {base : List Char} {whole : String} {found : Shape}
    (h : templateShape ctx base whole = .ok found) :
    ∃ array template arguments part rest, ctx.patches.array = some array
      ∧ base = template ++ '<' :: (arguments ++ ['>']) ∧ '<' ∉ template
      ∧ (ctx.templates.get? (Scope.fromGlobal (String.ofList (Text.trim template)))).getD
          (Scope.fromGlobal (String.ofList (Text.trim template))) = array.names.template
      ∧ splitTopLevel arguments = part :: rest ∧ found = .array array.names part := by
  unfold templateShape at h
  split at h
  · cases h
  · next front hfront =>
    split at h
    · cases h
    · next template arguments hopen =>
      dsimp only at h
      split at h
      · next array part rest harray hparts =>
        split at h
        · next hmapped =>
          obtain ⟨c, hc, rfl⟩ := Text.breakAt?_eq_some hopen
          obtain rfl : c = '<' := by simpa using hc
          refine ⟨array, template, arguments, part, rest, harray, ?_, fun hin => ?_, hmapped, hparts,
            (Except.ok.inj h).symm⟩
          · rw [Text.stripBack?_eq_some hfront, List.append_assoc, List.cons_append]
          · simpa using Text.forall_of_breakAt? hopen _ hin
        · cases h
      · cases h

theorem instantiates_of_templateShape {ctx : Context} {base : List Char} {whole : String} {found : Shape}
    (h : templateShape ctx base whole = .ok found) : ctx.Instantiates base := by
  obtain ⟨array, template, arguments, -, -, harray, hbase, hbracket, hmapped, -, -⟩ := exists_of_templateShape h
  exact ⟨array, template, arguments, harray, hbase, hbracket, hmapped⟩

section Brackets

variable {c : Char} (hblank : Text.isBlank c = false) (hmark : c ∉ " const &*".toList)

include hblank hmark

theorem mem_of_stripMarks {whole : String} {m m' : Modifiers} {text base : List Char}
    (h : stripMarks whole m text = .ok (base, m')) (hc : c ∈ text) : c ∈ base := by
  have hkept : ∀ {pattern rest text : List Char}, pattern.Sublist " const &*".toList →
      Text.stripBack? pattern (Text.trimEnd text) = some rest → c ∈ text → c ∈ rest := by
    intro pattern rest text hpattern hrest hin
    rw [← Text.mem_trimEnd hblank, Text.stripBack?_eq_some hrest, List.mem_append] at hin
    exact hin.resolve_right fun hin => hmark (hpattern.mem hin)
  fun_induction stripMarks whole m text with
  | case1 => cases h
  | case2 m text text' rest hrest _ ih => exact ih h (hkept (by decide) hrest hc)
  | case3 m text text' _ rest hrest ih => exact ih h (hkept (by decide) hrest hc)
  | case4 => cases h
  | case5 m text text' _ _ rest hrest _ ih => exact ih h (hkept (by decide) hrest hc)
  | case6 m text text' =>
    obtain ⟨rfl, -⟩ := Prod.mk.inj (Except.ok.inj h)
    exact (Text.mem_trimEnd hblank).2 hc

/-- Only marks and white space are taken off a spelling. -/
theorem mem_of_splitMarks {m : Modifiers} {whole base : List Char} (h : splitMarks whole = .ok (base, m))
    (hc : c ∈ whole) : c ∈ base := by
  unfold splitMarks at h
  cases hfront : Text.stripFront? "const ".toList whole with
  | some rest =>
    rw [hfront] at h
    obtain ⟨⟨stripped, m'⟩, hstripped, h⟩ := bind_eq_ok.1 h
    cases h
    rw [Text.stripFront?_eq_some hfront, List.mem_append] at hc
    have hconst : c ∉ "const ".toList := fun hin =>
      hmark ((by decide : "const ".toList.Sublist " const &*".toList).mem hin)
    have hrest := (Text.mem_trimStart hblank).2 (hc.resolve_left hconst)
    exact (Text.mem_trim hblank).2 (mem_of_stripMarks hblank hmark hstripped hrest)
  | none =>
    rw [hfront] at h
    obtain ⟨⟨stripped, m'⟩, hstripped, h⟩ := bind_eq_ok.1 h
    cases h
    exact (Text.mem_trim hblank).2 (mem_of_stripMarks hblank hmark hstripped hc)

end Brackets

theorem mem_of_elaborated? {base name : List Char} {c : Char} (h : elaborated? base = some name)
    (hblank : Text.isBlank c = false) (hkeyword : ∀ keyword ∈ keywords, c ∉ keyword.toList) (hc : c ∈ base) :
    c ∈ name := by
  unfold elaborated? at h
  split at h
  · cases h
  · obtain ⟨text, hfound, rfl⟩ := Option.map_eq_some_iff.1 h
    obtain ⟨keyword, hmem, hstrip⟩ := List.exists_of_findSome?_eq_some hfound
    rw [Text.stripFront?_eq_some hstrip, List.mem_append] at hc
    exact (Text.mem_trim hblank).2 (hc.resolve_left (hkeyword keyword hmem))

/-- A spelling with a bracket is taken apart, if no name behind a keyword has the bracket in it. -/
theorem takesApart_of_bracket {ctx : Context} {scope : String} {spelling : List Char} {t : CxxType}
    (h : convertChars ctx scope spelling = .ok t) (hplain : ∀ name ∈ elaboratedName? spelling, IsNameText name)
    (hbracket : '<' ∈ spelling) : ctx.TakesApart spelling := by
  rw [convertChars_eq] at h
  obtain ⟨⟨base, m⟩, hmarks, h⟩ := bind_eq_ok.1 h
  obtain ⟨found, hshape, -⟩ := bind_eq_ok.1 h
  have hbase : '<' ∈ base := mem_of_splitMarks (by decide) (by decide) hmarks ((Text.mem_trim (by decide)).2 hbracket)
  have hnamed : ∀ {name}, elaborated? base ≠ some name := fun {name} hname => by
    have hin : '<' ∈ name := mem_of_elaborated? hname (by decide) (by decide) hbase
    rw [elaboratedName?_eq hmarks] at hplain
    exact absurd (hplain name hname _ hin) (by decide)
  refine ⟨base, m, hmarks, ?_⟩
  cases shapeOf_of_shape hshape with
  | function hfunction _ _ => exact hfunction.elim (fun h => .inl (by rw [h]; rfl)) fun h => .inr (.inl (by rw [h]; rfl))
  | builtin _ hbuiltin =>
    have hplain : ∀ name ∈ builtinNames, '<' ∉ name.toList := by decide
    refine absurd ?_ (hplain _ (mem_builtinNames hbuiltin))
    rw [String.toList_ofList, mem_dropSeparators (by decide)]
    exact hbase
  | enum hname => exact absurd hname hnamed
  | record _ hname => exact absurd hname hnamed
  | template _ hfound => exact .inr (.inr (instantiates_of_templateShape hfound))
  | name _ hnone _ => exact absurd hbase hnone

end Spelling

/-- CORRECT: in what is read among plain names all names are plain, and each spelling inside with a bracket is that of a
closure, of a function pointer or of an instance of the container template, if and only if the names behind the keywords
of enums and classes are plain, at any depth. -/
theorem known_templates_only_iff (ctx : Context) (spelling scope : String) (hknown : ctx.known.HasNameTexts)
    (hscope : IsNameText scope.toList) (t : CxxType) (h : convert ctx spelling scope = .ok t) :
    (t.HasNameTexts ∧ ∀ within ∈ spellings ctx scope spelling.toList, '<' ∈ within → ctx.TakesApart within)
      ↔ ∀ within ∈ spellings ctx scope spelling.toList, ∀ name ∈ elaboratedName? within, IsNameText name := by
  rw [hasNameTexts_iff hknown hscope h]
  refine and_iff_left_of_imp fun hplain within hwithin hbracket => ?_
  obtain ⟨u, hread⟩ := read_of_mem_spellings ⟨t, h⟩ within hwithin
  exact takesApart_of_bracket hread (hplain within hwithin) hbracket

/-- A class of a scope, and a container template that is shown through a wrapper. -/
def bufferContext : Context where
  known := { classes := NameSet.ofNames ["::Gfx::Mesh"] }
  templates := ∅
  patches := { array := some { template := "Buffer", wrapper := "::Gfx::BufferView", raw := "RawBuffer" } }

theorem buffer_and_socket_plain : bufferContext.known.HasNameTexts
    ∧ ∃ t, convert bufferContext "void(*)(Buffer<Mesh>, struct Socket*)" "::Gfx" = .ok t
      ∧ t.names = ["::Gfx", "Mesh", "::Gfx", "Socket"] ∧ t.HasNameTexts := by
  have hknown : bufferContext.known.HasNameTexts := by
    have hlisted : (∀ name ∈ bufferContext.known.classes.toList, IsNameText name.toList)
        ∧ ∀ name ∈ bufferContext.known.enums.toList, IsNameText name.toList := by decide
    exact ⟨fun name hname => hlisted.1 name (NameSet.mem_toList.2 hname),
      fun name hname => hlisted.2 name (NameSet.mem_toList.2 hname)⟩
  have hspellings : spellings bufferContext "::Gfx" "void(*)(Buffer<Mesh>, struct Socket*)".toList
      = ["void(*)(Buffer<Mesh>, struct Socket*)".toList, "void".toList, "Buffer<Mesh>".toList, "Mesh".toList,
        "struct Socket*".toList] := by with_unfolding_all rfl
  have hplain := known_templates_only_iff bufferContext "void(*)(Buffer<Mesh>, struct Socket*)" "::Gfx" hknown
    (by decide) _ (by with_unfolding_all rfl)
  refine ⟨hknown, _, by with_unfolding_all rfl, by with_unfolding_all rfl, (hplain.2 ?_).1⟩
  rw [hspellings]
  with_unfolding_all decide

/-- A template behind a keyword is taken for a name. -/
theorem template_behind_keyword :
    convert bufferContext "struct Box<Mesh>*" "::Gfx"
        = .ok (.record ⟨"Box<Mesh>", "::Gfx", some .structWord, false⟩ { isPointer := true })
      ∧ ¬ IsNameText "Box<Mesh>".toList
      ∧ convert bufferContext "Box<Mesh>*" "::Gfx" = .error (.templatedType "Box<Mesh>*") :=
  ⟨by with_unfolding_all rfl, by decide, by with_unfolding_all rfl⟩

end LuaGlue
