import LuaGlue.Proofs.Signatures.Reread
import LuaGlue.Proofs.Spelling.Templates

/-!
Arrays that are cast to an instance of the container template.

The cast writes the element of the array between the brackets of the template: its name, with the scope if it is a
class, and its marks. If that is read again in the global namespace, it is the element only if the name has nothing but
the characters of identifiers in it and leads back to the type (`array_cast_reread_iff`).

    Buffer<const Mesh*>       ──▶  ::Buffer<const ::Gfx::Mesh*>   the class
    Buffer<const char*>       ──▶  ::Buffer<const char**>         refused: the name has the pointer already
    Buffer<Buffer<Mesh>>      ──▶  ::Buffer<RawBuffer>            a class: the inner element is not written
    Buffer<struct Box<Mesh>>  ──▶  ::Buffer<::Gfx::Box<Mesh>>     refused: the brackets are taken for a template

What begins with a separator is not taken for a name behind a keyword, whatever marks are around it
(`elaboratedName?_eq_none`), so an enum or a class is read again only from a name of such characters
(`isIdentifier_elementName`).
-/

namespace LuaGlue

open Spelling

namespace Spelling

/-! ### What is left between marks -/

theorem isPrefix_of_stripMarks {whole : String} {m m' : Modifiers} {text base : List Char}
    (h : stripMarks whole m text = .ok (base, m')) : base <+: text := by
  have hkept : ∀ {pattern rest text : List Char}, Text.stripBack? pattern (Text.trimEnd text) = some rest →
      rest <+: text := fun hrest =>
    List.IsPrefix.trans ⟨_, (Text.stripBack?_eq_some hrest).symm⟩ (Text.isPrefix_trimEnd _)
  fun_induction stripMarks whole m text with
  | case1 => cases h
  | case2 m text text' rest hrest _ ih => exact (ih h).trans (hkept hrest)
  | case3 m text text' _ rest hrest ih => exact (ih h).trans (hkept hrest)
  | case4 => cases h
  | case5 m text text' _ _ rest hrest _ ih => exact (ih h).trans (hkept hrest)
  | case6 m text text' =>
    obtain ⟨rfl, -⟩ := Prod.mk.inj (Except.ok.inj h)
    exact Text.isPrefix_trimEnd text

/-- What is left of a spelling is the front of what follows its constant, trimmed. -/
theorem exists_of_splitMarks {whole base : List Char} {m : Modifiers} (h : splitMarks whole = .ok (base, m)) :
    ∃ rest front, ((∃ behind, whole = "const ".toList ++ behind ∧ rest = Text.trimStart behind)
        ∨ (rest = whole ∧ ¬ "const ".toList <+: whole))
      ∧ front <+: rest ∧ base = Text.trim front := by
  unfold splitMarks at h
  cases hconst : Text.stripFront? "const ".toList whole with
  | some behind =>
    rw [hconst] at h
    obtain ⟨⟨front, m'⟩, hfront, h⟩ := bind_eq_ok.1 h
    cases h
    exact ⟨_, front, .inl ⟨behind, Text.stripFront?_eq_some hconst, rfl⟩, isPrefix_of_stripMarks hfront, rfl⟩
  | none =>
    rw [hconst] at h
    obtain ⟨⟨front, m'⟩, hfront, h⟩ := bind_eq_ok.1 h
    cases h
    refine ⟨_, front, .inr ⟨rfl, ?_⟩, isPrefix_of_stripMarks hfront, rfl⟩
    rintro ⟨behind, rfl⟩
    rw [Text.stripFront?_append] at hconst
    cases hconst

/-- Nothing is added to a spelling. -/
theorem subset_of_splitMarks {whole base : List Char} {m : Modifiers} (h : splitMarks whole = .ok (base, m)) :
    base ⊆ whole := by
  obtain ⟨rest, front, hrest, hfront, rfl⟩ := exists_of_splitMarks h
  have hwhole : rest ⊆ whole := by
    obtain ⟨behind, rfl, rfl⟩ | ⟨rfl, -⟩ := hrest
    · exact List.Subset.trans (List.dropWhile_subset _) (List.subset_append_right _ _)
    · exact List.Subset.refl _
  have htrim : Text.trim front ⊆ front := List.Subset.trans (Text.isPrefix_trimEnd _).subset (List.dropWhile_subset _)
  exact List.Subset.trans htrim (List.Subset.trans hfront.subset hwhole)

/-! ### Names from the global namespace on -/

/-- Is the text empty, or one that begins with a colon? -/
def IsRooted (text : List Char) : Prop := ∀ c ∈ text.head?, c = ':'

section Rooted

variable {s t : List Char}

theorem IsRooted.of_isGlobal {name : String} (h : Scope.isGlobal name = true) :
    IsRooted name.toList ∧ name.toList ≠ [] := by
  obtain ⟨rest, hrest⟩ := Scope.startsScope_eq_true h
  rw [hrest]
  exact ⟨fun c hc => (Option.some.inj hc).symm, List.cons_ne_nil _ _⟩

theorem IsRooted.append (h : IsRooted s) (hs : s ≠ []) (t : List Char) : IsRooted (s ++ t) := by
  rwa [IsRooted, List.head?_append_of_ne_nil _ hs]

theorem IsRooted.of_front (h : IsRooted t) (hstart : s <+: t) : IsRooted s := by
  obtain ⟨rest, rfl⟩ := hstart
  cases s with
  | nil => exact nofun
  | cons c s => exact h

theorem IsRooted.trimStart (h : IsRooted s) : Text.trimStart s = s := by
  cases s with
  | nil => rfl
  | cons c s =>
    obtain rfl : c = ':' := h c rfl
    exact List.dropWhile_cons_of_neg (by decide)

theorem IsRooted.isPrefix_trim (h : IsRooted s) : Text.trim s <+: s := by
  rw [Text.trim, h.trimStart]
  exact Text.isPrefix_trimEnd s

theorem IsRooted.not_isPrefix {c : Char} (h : IsRooted s) (hc : c ≠ ':') (rest : List Char) : ¬ c :: rest <+: s := by
  rintro ⟨tail, rfl⟩
  exact hc (h c rfl)

theorem IsRooted.stripFront?_eq_none {c : Char} (h : IsRooted s) (hc : c ≠ ':') (pattern : List Char) :
    Text.stripFront? (c :: pattern) s = none := by
  cases hstrip : Text.stripFront? (c :: pattern) s with
  | none => rfl
  | some rest => exact absurd ⟨rest, (Text.stripFront?_eq_some hstrip).symm⟩ (h.not_isPrefix hc pattern)

/-- If a text begins with a colon, so does what is left of it between its marks. -/
theorem IsRooted.of_splitMarks (h : IsRooted s) (hs : s ≠ []) {m m' : Modifiers} {base : List Char}
    (hmarks : splitMarks (Text.trim (written m s)) = .ok (base, m')) : IsRooted base := by
  have hmarked := h.append hs m.marks.toList
  obtain ⟨rest, front, hrest, hfront, rfl⟩ := exists_of_splitMarks hmarks
  suffices hrooted : IsRooted rest from
    (hrooted.of_front hfront).of_front (hrooted.of_front hfront).isPrefix_trim
  unfold written at hrest
  cases hconst : m.isConst with
  | false =>
    rw [hconst, if_neg Bool.false_ne_true, List.nil_append] at hrest
    have htrim := hmarked.of_front hmarked.isPrefix_trim
    obtain ⟨behind, hbehind, -⟩ | ⟨rfl, -⟩ := hrest
    · exact absurd ⟨behind, hbehind.symm⟩ (htrim.not_isPrefix (by decide) "onst ".toList)
    · exact htrim
  | true =>
    rw [hconst, if_pos rfl] at hrest
    have htrim : Text.trim ("const ".toList ++ (s ++ m.marks.toList)) <+: "const ".toList ++ (s ++ m.marks.toList) :=
      Text.isPrefix_trimEnd _
    obtain ⟨behind, hbehind, rfl⟩ | ⟨-, hnone⟩ := hrest
    · rw [hbehind, List.prefix_append_right_inj] at htrim
      have hrooted := hmarked.of_front htrim
      rwa [hrooted.trimStart]
    · -- the colon is not trimmed, so the constant in front of it is not cut either
      obtain ⟨c, s, rfl⟩ := List.exists_cons_of_ne_nil hs
      obtain rfl : c = ':' := h c rfl
      rcases List.prefix_or_prefix_of_prefix htrim (List.prefix_append _ _) with hshort | hfull
      · have hcolon := hshort.subset ((Text.mem_trim (by decide)).2 (List.mem_append_right _ List.mem_cons_self))
        exact absurd hcolon (by decide)
      · exact absurd hfull hnone

/-- No keyword begins with a colon. -/
theorem IsRooted.elaborated?_eq_none (h : IsRooted s) : elaborated? s = none := by
  have hkeyword : ∀ keyword ∈ keywords, Text.stripFront? keyword.toList s = none := by
    simp only [keywords, List.forall_mem_cons]
    exact ⟨h.stripFront?_eq_none (by decide) "num ".toList, h.stripFront?_eq_none (by decide) "truct ".toList,
      h.stripFront?_eq_none (by decide) "lass ".toList, List.forall_mem_nil _⟩
  unfold elaborated?
  split
  · rfl
  · rw [List.findSome?_eq_none_iff.2 hkeyword, Option.map_none]

end Rooted

theorem elaboratedName?_eq_none {name : String} (h : Scope.isGlobal name = true) (m : Modifiers) :
    elaboratedName? (written m name.toList) = none := by
  obtain ⟨hrooted, hfilled⟩ := IsRooted.of_isGlobal h
  unfold elaboratedName?
  split
  · rfl
  · next base m' hmarks => exact (hrooted.of_splitMarks hfilled hmarks).elaborated?_eq_none

/-! ### Reading in the global namespace -/

section Global

variable {ctx : Context} {spelling : List Char} {t : CxxType}

theorem resolve_global {known : NameSet} {name found : String} (h : resolve known name "" = some found) :
    Scope.isGlobal found = true ∧ (IsNameText name.toList → IsNameText found.toList) := by
  cases hglobal : Scope.isGlobal name with
  | true =>
    rw [resolve_of_isGlobal known hglobal] at h
    split at h
    · cases h
      exact ⟨hglobal, id⟩
    · cases h
  | false =>
    rw [resolve_of_not_isGlobal hglobal] at h
    split at h
    · cases h
      exact ⟨Scope.isGlobal_qualify Scope.isNormal_empty name,
        fun hname => Scope.isNameText_qualify.2 ⟨by decide, hname⟩⟩
    · cases h

theorem isGlobal_getD_resolve (known : NameSet) (name : String) :
    Scope.isGlobal ((resolve known name "").getD (assume name "")) = true := by
  cases hresolve : resolve known name "" with
  | some found => exact (resolve_global hresolve).1
  | none =>
    rw [Option.getD_none, assume]
    split
    · next hglobal => exact hglobal
    · exact Scope.isGlobal_qualify Scope.isNormal_empty name

/-- In the global namespace an enum is read with a name from there on, and where there is no keyword, names have the
characters of identifiers. -/
theorem names_of_leaf {base : List Char} {whole : String} {isPointer : Bool}
    (h : shape ctx base whole "" isPointer = .ok (.leaf t)) :
    (∀ name m, t = .enum name m → Scope.isGlobal name = true) ∧ (elaborated? base = none → t.HasNameTexts) := by
  cases shapeOf_of_shape h with
  | function _ _ hfound => exact absurd hfound ne_leaf_of_functionShape
  | builtin _ hbuiltin =>
    refine ⟨?_, fun _ => by simp [CxxType.HasNameTexts, names_of_builtin? hbuiltin]⟩
    rintro name m rfl
    cases names_of_builtin? hbuiltin
  | enum hname =>
    refine ⟨fun name m heq => ?_, fun hnone => ?_⟩
    · cases heq
      exact isGlobal_getD_resolve ctx.known.enums _
    · cases hname.symm.trans hnone
  | record keyword hname =>
    refine ⟨fun name m heq => ?_, fun hnone => ?_⟩
    · cases heq
    · cases hname.symm.trans hnone
  | template _ hfound => exact absurd hfound ne_leaf_of_templateShape
  | name _ _ hfound =>
    obtain ⟨hidentifier, hleaf⟩ := exists_of_nameShape hfound
    have hname := isNameText_of_isIdentifier hidentifier
    obtain ⟨qualified, hresolve, hleaf⟩ | hleaf := hleaf
    · cases hleaf
      obtain ⟨hglobal, hplain⟩ := resolve_global hresolve
      refine ⟨fun name m heq => ?_, fun _ => List.forall_mem_singleton.2 (hplain hname)⟩
      cases heq
      exact hglobal
    · cases hleaf
      refine ⟨fun name m heq => ?_, fun _ => (hasNameTexts_classRef _ _ _).2 ?_⟩
      · cases heq
      · cases hresolve : resolve ctx.known.classes (String.ofList base) "" with
        | some found => exact (resolve_global hresolve).2 hname
        | none => exact isNameText_fromGlobal hname

theorem names_of_convertChars (h : convertChars ctx "" spelling = .ok t) (hsimple : t.isSimple = true) :
    (∀ name m, t = .enum name m → Scope.isGlobal name = true)
      ∧ (elaboratedName? spelling = none → t.HasNameTexts) := by
  obtain ⟨base, m, leaf, hmarks, hshape, rfl⟩ := leaf_of_convertChars h hsimple
  obtain ⟨hglobal, hplain⟩ := names_of_leaf hshape
  rw [elaboratedName?_eq hmarks, CxxType.HasNameTexts, Patches.names_adjust, CxxType.names_withMods]
  refine ⟨fun name n heq => ?_, hplain⟩
  cases leaf with
  | enum =>
    cases heq
    exact hglobal _ _ rfl
  | record ref =>
    obtain ⟨moved, hmoved⟩ := ctx.patches.exists_moved ref m
    cases hmoved.symm.trans heq
  | _ => cases heq

end Global

/-! ### Reading arrays -/

section Arrays

variable {ctx : Context} {scope : String} {names : ArrayNames} {element : CxxType} {m : Modifiers}

theorem templateShape_of_array {base part : List Char} {whole : String} {isPointer : Bool}
    (h : shape ctx base whole scope isPointer = .ok (.array names part)) :
    templateShape ctx base whole = .ok (.array names part) := by
  cases shapeOf_of_shape h with
  | function _ _ hfound =>
    obtain ⟨result, params, heq⟩ := exists_of_functionShape hfound
    cases heq
  | template _ hfound => exact hfound
  | name _ _ hfound =>
    obtain ⟨-, ⟨qualified, -, heq⟩ | heq⟩ := exists_of_nameShape hfound <;> cases heq

/-- An array is read only where there are brackets, and it has the names of the configured one. -/
theorem bracket_of_array {spelling : List Char} (h : convertChars ctx scope spelling = .ok (.array names element m)) :
    '<' ∈ spelling ∧ ∃ array, ctx.patches.array = some array ∧ names = array.names := by
  obtain ⟨base, part, hmarks, hshape, -⟩ := element_of_convertChars h
  obtain ⟨array, template, arguments, part, rest, harray, rfl, -, -, -, hfound⟩ :=
    exists_of_templateShape (templateShape_of_array hshape)
  cases hfound
  have hbase : '<' ∈ template ++ '<' :: (arguments ++ ['>']) := by simp
  exact ⟨(Text.mem_trim (by decide)).1 (subset_of_splitMarks hmarks hbase), array, harray, rfl⟩

/-- An instance of a template from the global namespace on has no marks. -/
theorem splitMarks_instance {text : List Char} (h : IsRooted text) (hne : text ≠ []) :
    splitMarks (Text.trim (text ++ ['>'])) = .ok (text ++ ['>'], {}) := by
  have hother : ∀ (pattern : List Char) {p : Char}, p ≠ '>' →
      Text.stripBack? (pattern ++ [p]) (text ++ ['>']) = none :=
    fun pattern p hp => Text.stripBack?_concat_of_ne hp
  have hrooted := h.append hne ['>']
  have htrim : Text.trim (text ++ ['>']) = text ++ ['>'] := by
    rw [Text.trim, hrooted.trimStart, trimEnd_mark (by decide)]
  have hdone : stripMarks (String.ofList (text ++ ['>'])) {} (text ++ ['>']) = .ok (text ++ ['>'], {}) :=
    stripMarks_done (trimEnd_mark (by decide) text) (hother [] (by decide))
      (hother " cons".toList (p := 't') (by decide)) (hother [] (by decide))
  have hconst : Text.stripFront? "const ".toList (text ++ ['>']) = none :=
    hrooted.stripFront?_eq_none (by decide) "onst ".toList
  rw [htrim, splitMarks]
  simp only [hconst, hdone, bind, Except.bind, htrim, pure, Except.pure]

/-- The element of an instance of the template is the first argument. -/
theorem element_of_instance {template arguments : String} (hglobal : Scope.isGlobal template = true)
    (hbracket : '<' ∉ template.toList)
    (h : convert ctx s!"{template}<{arguments}>" scope = .ok (.array names element m)) :
    ∃ piece rest, splitTopLevel arguments.toList = piece :: rest ∧ convertChars ctx scope piece = .ok element := by
  obtain ⟨hrooted, hfilled⟩ := IsRooted.of_isGlobal hglobal
  have htext : (s!"{template}<{arguments}>").toList = template.toList ++ '<' :: arguments.toList ++ ['>'] := by
    simp [ToString.toString]
  rw [convert, htext] at h
  obtain ⟨base, part, hmarks, hshape, helement⟩ := element_of_convertChars h
  rw [splitMarks_instance (hrooted.append hfilled _) (by simp)] at hmarks
  cases hmarks
  obtain ⟨array, front, inside, piece, rest, -, hbase, hfront, -, hpieces, hfound⟩ :=
    exists_of_templateShape (templateShape_of_array hshape)
  cases hfound
  have hcut := congrArg (Text.breakAt? (· = '<')) hbase
  rw [List.append_assoc, List.cons_append, Text.breakAt?_append_of_not_mem hbracket,
    Text.breakAt?_append_of_not_mem hfront] at hcut
  obtain ⟨-, hinside⟩ := Prod.mk.inj (Option.some.inj hcut)
  rw [List.append_cancel_right hinside]
  exact ⟨_, rest, hpieces, helement⟩

end Arrays

end Spelling

namespace CxxType

/-! ### Elements that are read again -/

/-- Is the second type the first one, keywords aside, and the elements of arrays as well? -/
inductive SameElement : CxxType → CxxType → Prop
  | simple {t u : CxxType} (hsimple : t.isSimple = true) (hsame : t.SameAs u) : SameElement t u
  | array {names : ArrayNames} {t u : CxxType} {m : Modifiers} (helement : SameElement t u) :
    SameElement (.array names t m) (.array names u m)

/-- Is the type neither a function type nor an array, written with a name of the characters of identifiers alone, and
does its scoped name lead back to it? -/
def isRereadElement (known : KnownNames) (t : CxxType) : Bool :=
  t.isSimple && t.elementName.toOption.any (fun name => isIdentifier name.toList) && t.isReread known

section Elements

variable {ctx : Context} {t u : CxxType} {name : String}

theorem sameElement_iff (h : t.isSimple = true) : t.SameElement u ↔ t.SameAs u := by
  refine ⟨fun hsame => ?_, .simple h⟩
  cases hsame with
  | simple _ hsame => exact hsame
  | array => cases h

theorem isRereadElement_iff {known : KnownNames} (h : t.elementName = .ok name) (hsimple : t.isSimple = true) :
    t.isRereadElement known = true ↔ isIdentifier name.toList = true ∧ t.isReread known = true := by
  simp [isRereadElement, h, hsimple, Except.toOption]

theorem builtin?_cxxName {kind : TextKind} (h : isIdentifier kind.cxxName.toList = true) (isPointer : Bool) :
    builtin? (String.ofList (Scope.dropSeparators kind.cxxName.toList)) isPointer = some (.ok (.text kind {})) := by
  cases kind with
  | narrowPointer | widePointer => exact absurd h (by decide)
  | _ => rfl

/-- The name of an element leads back to its type exactly if its scoped name does. -/
theorem leadsBack_elementName_iff (hread : t.IsRead ctx.patches) (hsimple : t.isSimple = true)
    (h : t.elementName = .ok name) (hname : isIdentifier name.toList = true) :
    ctx.LeadsBack name t.mods t ↔ t.isReread ctx.known = true := by
  cases t with
  | text kind =>
    cases h
    exact iff_of_true (leadsBack_of_builtin rfl (builtin?_cxxName hname _) rfl) rfl
  | _ => exact leadsBack_scopedName_iff hread hsimple h

/-- A pointer to characters is not read: the mark in its name and the one behind it are too many. -/
theorem not_read_of_isCharacters (hread : t.IsRead ctx.patches) (hchars : t.isCharacters = true)
    (h : t.elementName = .ok name) : convertChars ctx "" (written t.mods name.toList) ≠ .ok u := by
  have hclash : ∀ name ∈ ["char*", "wchar_t*"], ∀ isReference isConst,
      (splitMarks (Text.trim (written { isPointer := true, isReference, isConst } name.toList))).isOk = false := by
    simp only [List.forall_mem_cons]
    refine ⟨fun isReference isConst => ?_, fun isReference isConst => ?_, List.forall_mem_nil _⟩
    all_goals cases isReference <;> cases isConst <;> with_unfolding_all rfl
  obtain ⟨hname, hpointer⟩ : name ∈ ["char*", "wchar_t*"] ∧ t.mods.isPointer = true := by
    cases t with
    | text kind m =>
      cases h
      cases kind with
      | narrowPointer => exact ⟨by decide, hread (.inl rfl)⟩
      | widePointer => exact ⟨by decide, hread (.inr rfl)⟩
      | _ => cases hchars
    | _ => cases hchars
  intro hu
  rw [convertChars_eq] at hu
  obtain ⟨split, hsplit, -⟩ := bind_eq_ok.1 hu
  have hrefused := hclash name hname t.mods.isReference t.mods.isConst
  rw [← hpointer, hsplit] at hrefused
  cases hrefused

/-- What is read again was written with a name of the characters of identifiers. -/
theorem isIdentifier_elementName (hread : t.IsRead ctx.patches) (hsimple : t.isSimple = true)
    (h : t.elementName = .ok name) (hu : convertChars ctx "" (written t.mods name.toList) = .ok u)
    (hsame : t.SameAs u) : isIdentifier name.toList = true := by
  have hsimple' : u.isSimple = true := by
    rw [← isSimple_bare, ← hsame.1, isSimple_bare, hsimple]
  obtain ⟨hglobal, hplain⟩ := names_of_convertChars hu hsimple'
  rw [HasNameTexts, ← names_bare, ← hsame.1, names_bare, ← HasNameTexts] at hplain
  have hidentifier : Scope.isGlobal name = true → (t.HasNameTexts → IsNameText name.toList) →
      isIdentifier name.toList = true := fun hname htext => by
    obtain ⟨rest, hrest⟩ := Scope.startsScope_eq_true hname
    have hall := htext (hplain (elaboratedName?_eq_none hname _))
    rw [isIdentifier, Bool.and_eq_true, List.all_eq_true]
    exact ⟨by simp [hrest], hall⟩
  cases t with
  | function | array => cases hsimple
  | void | bool =>
    cases h
    decide
  | numeric kind =>
    cases h
    cases kind <;> decide
  | text kind m =>
    cases hchars : (text kind m).isCharacters with
    | true => exact absurd hu (not_read_of_isCharacters hread hchars h)
    | false =>
      cases h
      cases kind with
      | narrowPointer | widePointer => cases hchars
      | _ => decide
  | enum =>
    cases h
    refine hidentifier ?_ List.forall_mem_singleton.1
    cases u with
    | enum =>
      cases hsame.1
      exact hglobal _ _ rfl
    | _ => cases hsame.1
  | record ref =>
    cases h
    refine hidentifier (Scope.isGlobal_qualify hread.1 ref.name) fun htexts => ?_
    rw [ClassRef.qualified, Scope.isNameText_qualify]
    exact ⟨htexts _ (by simp [names]), htexts _ (by simp [names])⟩

/-- An element that is written out and read is the same again exactly if its name is read and leads back to it. -/
theorem element_reread_iff (hread : t.isSimple = true → t.IsRead ctx.patches) (h : t.elementName = .ok name)
    (hraw : ∀ {names element m}, t = .array names element m → '<' ∉ names.rawName.toList) :
    (∃ u, convertChars ctx "" (written t.mods name.toList) = .ok u ∧ t.SameElement u)
      ↔ t.isRereadElement ctx.known = true := by
  cases hsimple : t.isSimple with
  | true =>
    simp only [sameElement_iff hsimple, isRereadElement_iff h hsimple]
    constructor
    · rintro ⟨u, hu, hsame⟩
      have hname := isIdentifier_elementName (hread hsimple) hsimple h hu hsame
      refine ⟨hname, (leadsBack_elementName_iff (hread hsimple) hsimple h hname).1 ?_⟩
      exact (written_reread_iff hname).1 ⟨u, hu, hsame⟩
    · rintro ⟨hname, hback⟩
      exact (written_reread_iff hname).2 ((leadsBack_elementName_iff (hread hsimple) hsimple h hname).2 hback)
  | false =>
    refine iff_of_false ?_ (by simp [isRereadElement, hsimple])
    rintro ⟨u, hu, hsame⟩
    cases hsame with
    | simple htrue => cases hsimple.symm.trans htrue
    | @array names element inner m =>
      cases h
      obtain ⟨hbracket, -⟩ := bracket_of_array hu
      rcases mem_written hbracket with hconst | hmarked
      · exact absurd hconst (by decide)
      · exact (List.mem_append.1 hmarked).elim (hraw rfl) (not_mem_marks _ (by decide))

end Elements

end CxxType

theorem Conversion.render_array (template text : String) (slot : Nat) :
    (Conversion.array s!"{template}<{text}>" slot).render
      = s!"auto& param_{slot} = *std::bit_cast<{template}<{text}>*>(param_inter_{slot})" := by
  have hrender : ∀ type, (Conversion.array type slot).render
      = s!"auto& param_{slot} = *std::bit_cast<{type}*>(param_inter_{slot})" := fun type => rfl
  have hclose : ">*>(param_inter_" = ">" ++ "*>(param_inter_" := rfl
  rw [hrender]
  simp only [toString, String.append_assoc, hclose]

/-- CORRECT: the cast of an array that was read as an instance of the container template has such an instance in it, and
what stands between its brackets is read in the global namespace as the same element exactly if the element is no array,
its name as it is written is made of the characters of identifiers, and its scoped name leads back to it. The element
is the first argument of the spelling. A raw name with a bracket would be one of an instance of a template, not of the
array without its element. -/
theorem array_cast_reread_iff (ctx : Context) (array : DynamicArray) (harray : ctx.patches.array = some array)
    (argument scope : String) {names : ArrayNames} {element : CxxType} {m : Modifiers}
    (h : convert ctx s!"{array.names.template}<{argument}>" scope = .ok (.array names element m))
    (hraw : element.isSimple = false → '<' ∉ array.names.rawName.toList) (slot : Nat) (registry : Registry)
    {c : Conversion} (hc : (CxxType.array names element m).conversion slot registry = .ok c) :
    ∃ text, c.render = s!"auto& param_{slot} = *std::bit_cast<{array.names.template}<{text}>*>(param_inter_{slot})"
      ∧ ((∃ u, convert ctx text "" = .ok u ∧ element.SameElement u) ↔ element.isRereadElement ctx.known = true)
      ∧ ('<' ∉ array.names.template.toList → ∃ piece rest, splitTopLevel argument.toList = piece :: rest
        ∧ convertChars ctx scope piece = .ok element) := by
  obtain ⟨-, found, hfound, rfl⟩ := bracket_of_array h
  obtain rfl := Option.some.inj (harray.symm.trans hfound)
  obtain ⟨name, hname, hc⟩ := bind_eq_ok.1 hc
  obtain rfl := Except.ok.inj hc
  obtain ⟨base, part, -, -, helement⟩ := element_of_convertChars h
  refine ⟨SpelledType.render ⟨element.constness, name, element.marks⟩, ?_, ?_, fun hbracket => ?_⟩
  · rw [← Conversion.render_array]
    simp only [SpelledType.render, toString, String.append_assoc]
  · rw [convert, CxxType.toList_render_marked]
    refine CxxType.element_reread_iff (isRead_of_convertChars helement) hname ?_
    rintro names inner n rfl
    obtain ⟨-, nested, hnested, rfl⟩ := bracket_of_array helement
    obtain rfl := Option.some.inj (harray.symm.trans hnested)
    exact hraw rfl
  · exact element_of_instance (Scope.isGlobal_fromGlobal array.template) hbracket h

/-- The names of the container template of `bufferContext`. -/
def bufferNames : ArrayNames where
  template := "::Buffer"
  wrapperScope := "::Gfx"
  wrapperName := "BufferView"
  raw := "::RawBuffer"

theorem mesh_buffer_reread :
    ∃ element c, convert bufferContext "::Buffer<const Mesh*>" "::Gfx" = .ok (.array bufferNames element {})
      ∧ (CxxType.array bufferNames element {}).conversion 1 {} = .ok c
      ∧ ∃ text, c.render = s!"auto& param_{1} = *std::bit_cast<{bufferNames.template}<{text}>*>(param_inter_{1})"
        ∧ ∃ u, convert bufferContext text "" = .ok u ∧ element.SameElement u := by
  have hread : convert bufferContext "::Buffer<const Mesh*>" "::Gfx" = .ok (.array bufferNames
      (.record ⟨"Mesh", "::Gfx", none, false⟩ { isPointer := true, isConst := true }) {}) := by
    with_unfolding_all rfl
  obtain ⟨text, hrender, hsame, -⟩ :=
    array_cast_reread_iff bufferContext _ rfl "const Mesh*" "::Gfx" hread nofun 1 {} rfl
  exact ⟨_, _, hread, rfl, text, hrender, hsame.2 (by decide)⟩

/-- A constant pointer to characters. -/
def constChars : CxxType := .text .narrowPointer { isPointer := true, isConst := true }

/-- Its pointer is written twice, and is refused where it is read. -/
theorem chars_buffer_misread :
    ∃ c, convert bufferContext "::Buffer<const char*>" "::Gfx" = .ok (.array bufferNames constChars {})
      ∧ (CxxType.array bufferNames constChars {}).conversion 1 {} = .ok c
      ∧ c.render = "auto& param_1 = *std::bit_cast<::Buffer<const char**>*>(param_inter_1)"
      ∧ convert bufferContext "const char**" "" = .error (.multiLevelPointer "const char**") :=
  ⟨_, by with_unfolding_all rfl, rfl, rfl, by with_unfolding_all rfl⟩

end LuaGlue
