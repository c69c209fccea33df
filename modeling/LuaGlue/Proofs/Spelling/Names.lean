import LuaGlue.Proofs.Naming.Separators
import LuaGlue.Proofs.Spelling.Written

/-!
What a written name is read as.

A name is read in the global namespace: as a builtin type, as an enum that is known by it, or as a class. So the name
of a type leads back to the type only if nothing that comes before has the same name (`leadsBack_enum_iff`,
`leadsBack_record_iff`).

    ::Gfx::Mode      builtin?      no      enums.contains      yes      the enum ::Gfx::Mode
    ::Gfx::Mesh      builtin?      no      enums.contains      no       the class Mesh of ::Gfx
-/

namespace LuaGlue

/-! ### Types that were read -/

/-- The type without its marks, and without the keyword it was named with. -/
def CxxType.bare : CxxType → CxxType
  | .record ref _ => .record { ref with forward := none } {}
  | t => t.withMods {}

/-- Is it neither a function type nor an array? -/
def CxxType.isSimple : CxxType → Bool
  | .function _ _ _ _ | .array _ _ _ => false
  | _ => true

theorem CxxType.isSimple_bare (t : CxxType) : t.bare.isSimple = t.isSimple := by
  cases t <;> rfl

/-- What is known of a simple type that was read: a pointer to characters is a pointer, and a class has a normal scope
and a name that is apart from it, and is marked as moved by the extensions alone. -/
def CxxType.IsRead (p : Patches) : CxxType → Prop
  | .text kind m => kind = .narrowPointer ∨ kind = .widePointer → m.isPointer = true
  | .record ref m => Scope.IsNormal ref.scope ∧ Scope.breakLast? (':' :: ref.name.toList) = none
    ∧ .record ref m = p.adjust (.record { ref with moved := false } m)
  | .function _ _ _ _ | .array _ _ _ => False
  | _ => True

/-- The extensions change nothing but whether a class is moved. -/
theorem Patches.exists_moved (p : Patches) (ref : ClassRef) (m : Modifiers) :
    ∃ moved, p.adjust (.record ref m) = .record { ref with moved } m := by
  cases harray : p.array with
  | none => exact ⟨ref.moved, by simp [adjust, harray]⟩
  | some array =>
    simp only [adjust, harray]
    split
    · exact ⟨true, rfl⟩
    · exact ⟨ref.moved, rfl⟩

theorem Patches.mods_adjust (p : Patches) (t : CxxType) : (p.adjust t).mods = t.mods := by
  cases t with
  | record ref m =>
    obtain ⟨moved, hmoved⟩ := p.exists_moved ref m
    rw [hmoved]
    rfl
  | _ => rfl

theorem Patches.bare_adjust (p : Patches) (t : CxxType) : (p.adjust t).bare = p.adjust t.bare := by
  cases t with
  | record ref m =>
    cases harray : p.array with
    | none => simp [adjust, harray, CxxType.bare]
    | some array =>
      by_cases hwrapper : ref.scope = array.names.wrapperScope ∧ ref.name = array.names.wrapperName <;>
        simp [adjust, harray, CxxType.bare, hwrapper]
  | _ => rfl

theorem Patches.adjust_of_classRef? {p : Patches} {t : CxxType} (h : t.classRef? = none) : p.adjust t = t := by
  cases t with
  | record => cases h
  | _ => rfl

namespace Spelling

theorem breakLast?_of_resolve {known : NameSet} {name scope qualified : String}
    (h : resolve known name scope = some qualified) : Scope.breakLast? qualified.toList ≠ none := by
  unfold resolve at h
  split at h
  · next hglobal =>
    split at h
    · cases h
      exact Scope.breakLast?_ne_none_of_isGlobal hglobal
    · cases h
  · obtain ⟨outer, -, rfl⟩ := List.mem_map.1 (List.mem_of_find?_eq_some h)
    exact Scope.breakLast?_qualify_ne_none _ _

theorem breakLast?_assume (name scope : String) : Scope.breakLast? (assume name scope).toList ≠ none := by
  unfold assume
  split
  · next hglobal => exact Scope.breakLast?_ne_none_of_isGlobal hglobal
  · exact Scope.breakLast?_qualify_ne_none _ _

/-- A name that was looked up has a separator, if the one that stands in for it has. -/
theorem breakLast?_getD_resolve {fallback : String} (h : Scope.breakLast? fallback.toList ≠ none)
    (known : NameSet) (name scope : String) :
    Scope.breakLast? ((resolve known name scope).getD fallback).toList ≠ none := by
  cases hresolve : resolve known name scope with
  | some qualified => exact breakLast?_of_resolve hresolve
  | none => exact h

theorem isRead_classRef {qualified : String} (h : Scope.breakLast? qualified.toList ≠ none)
    (forward : Option ForwardKeyword) (p : Patches) (m : Modifiers) :
    (p.adjust (.record (classRef qualified forward) m)).IsRead p := by
  obtain ⟨moved, hmoved⟩ := p.exists_moved (classRef qualified forward) m
  obtain ⟨⟨before, after⟩, hbreak⟩ := Option.ne_none_iff_exists'.1 h
  have hsplit : Scope.splitQualified qualified = (Scope.normalize (String.ofList before), String.ofList after) := by
    rw [Scope.splitQualified, hbreak]
  rw [hmoved]
  refine ⟨?_, ?_, hmoved.symm⟩
  · simp only [classRef, hsplit]
    exact Scope.isNormal_normalize _
  · simp only [classRef, hsplit, String.toList_ofList]
    exact (Scope.breakLast?_eq_some hbreak).2

/-- The types that builtin names stand for. -/
theorem builtin?_cases {name : String} {isPointer : Bool} {t : CxxType} (h : builtin? name isPointer = some (.ok t)) :
    t = .void {} ∨ t = .bool {} ∨ (∃ kind, t = .numeric kind {})
      ∨ ∃ kind, t = .text kind {} ∧ (kind = .narrowPointer ∨ kind = .widePointer → isPointer = true) := by
  unfold builtin? at h
  split at h
  · cases h
    exact .inl rfl
  split at h
  · cases h
    exact .inr (.inl rfl)
  split at h
  · split at h
    · next hpointer =>
      cases h
      exact .inr (.inr (.inr ⟨_, rfl, fun _ => hpointer⟩))
    · cases h
  split at h
  · split at h
    · next hpointer =>
      cases h
      exact .inr (.inr (.inr ⟨_, rfl, fun _ => hpointer⟩))
    · cases h
  split at h
  · cases h
    exact .inr (.inr (.inl ⟨_, rfl⟩))
  · obtain ⟨kind, hkind, heq⟩ := Option.map_eq_some_iff.1 h
    cases heq
    have hstrings : ∀ entry ∈ textNames, ¬ (entry.2 = .narrowPointer ∨ entry.2 = .widePointer) := by decide
    obtain ⟨before, after, hentry, -⟩ := List.lookup_eq_some_iff.1 hkind
    have hlisted : (name, kind) ∈ textNames := by simp [hentry]
    exact .inr (.inr (.inr ⟨kind, rfl, fun hpointer => absurd hpointer (hstrings _ hlisted)⟩))

theorem isRead_of_builtin? {name : String} {m : Modifiers} {t : CxxType}
    (h : builtin? name m.isPointer = some (.ok t)) (p : Patches) : (p.adjust (t.withMods m)).IsRead p := by
  rcases builtin?_cases h with rfl | rfl | ⟨kind, rfl⟩ | ⟨kind, rfl, hpointer⟩
  · trivial
  · trivial
  · trivial
  · exact hpointer

theorem isRead_of_shape {ctx : Context} {base : List Char} {whole scope : String} {m : Modifiers} {t : CxxType}
    (h : shape ctx base whole scope m.isPointer = .ok (.leaf t)) :
    (ctx.patches.adjust (t.withMods m)).IsRead ctx.patches := by
  unfold shape at h
  split at h
  · exact absurd h ne_leaf_of_functionShape
  split at h
  · exact absurd h ne_leaf_of_functionShape
  split at h
  · next builtin hbuiltin =>
    cases builtin with
    | error reason => cases h
    | ok t' =>
      cases h
      exact isRead_of_builtin? hbuiltin ctx.patches
  split at h
  · cases h
    trivial
  split at h
  · cases h
    exact isRead_classRef (breakLast?_getD_resolve (breakLast?_assume _ _) _ _ _) _ _ _
  split at h
  · cases h
    exact isRead_classRef (breakLast?_getD_resolve (breakLast?_assume _ _) _ _ _) _ _ _
  split at h
  · exact absurd h ne_leaf_of_templateShape
  · obtain ⟨-, ⟨qualified, -, heq⟩ | heq⟩ := exists_of_nameShape h
    · cases heq
      trivial
    · cases heq
      have hglobal := Scope.breakLast?_ne_none_of_isGlobal (Scope.isGlobal_fromGlobal (String.ofList base))
      exact isRead_classRef (breakLast?_getD_resolve hglobal _ _ _) _ _ _

/-- A simple type that was read is the one that its spelling has without marks, with its marks. -/
theorem leaf_of_convertChars {ctx : Context} {scope : String} {spelling : List Char} {t : CxxType}
    (h : convertChars ctx scope spelling = .ok t) (hsimple : t.isSimple = true) :
    ∃ base m leaf, splitMarks (Text.trim spelling) = .ok (base, m)
      ∧ shape ctx base (String.ofList (Text.trim spelling)) scope m.isPointer = .ok (.leaf leaf)
      ∧ t = ctx.patches.adjust (leaf.withMods m) := by
  rw [convertChars_eq] at h
  obtain ⟨⟨base, m⟩, hmarks, h⟩ := bind_eq_ok.1 h
  obtain ⟨found, hshape, h⟩ := bind_eq_ok.1 h
  cases found with
  | leaf leaf => exact ⟨base, m, leaf, hmarks, hshape, (Except.ok.inj h).symm⟩
  | function result params hasStorage =>
    obtain ⟨resultType, -, h⟩ := bind_eq_ok.1 h
    obtain ⟨paramTypes, -, h⟩ := bind_eq_ok.1 h
    cases h
    cases hsimple
  | array names element =>
    obtain ⟨elementType, -, h⟩ := bind_eq_ok.1 h
    cases h
    cases hsimple

theorem isRead_of_convertChars {ctx : Context} {scope : String} {spelling : List Char} {t : CxxType}
    (h : convertChars ctx scope spelling = .ok t) (hsimple : t.isSimple = true) : t.IsRead ctx.patches := by
  obtain ⟨base, m, leaf, -, hshape, rfl⟩ := leaf_of_convertChars h hsimple
  exact isRead_of_shape hshape

/-- A function type that was read is made of types that were read. -/
theorem parts_of_convertChars {ctx : Context} {scope : String} {spelling : List Char} {params : List CxxType}
    {result : CxxType} {hasStorage : Bool} {m : Modifiers}
    (h : convertChars ctx scope spelling = .ok (.function params result hasStorage m)) :
    ∀ t ∈ result :: params, ∃ part, convertChars ctx scope part = .ok t := by
  rw [convertChars_eq] at h
  obtain ⟨⟨base, marks⟩, -, h⟩ := bind_eq_ok.1 h
  obtain ⟨found, hshape, h⟩ := bind_eq_ok.1 h
  cases found with
  | leaf leaf =>
    have hread := isRead_of_shape hshape
    rw [Except.ok.inj h] at hread
    cases hread
  | function resultPart paramParts hasStorage =>
    obtain ⟨resultType, hresult, h⟩ := bind_eq_ok.1 h
    obtain ⟨paramTypes, hparams, h⟩ := bind_eq_ok.1 h
    cases h
    refine List.forall_mem_cons.2 ⟨⟨_, hresult⟩, fun t ht => ?_⟩
    obtain ⟨part, -, hpart⟩ := exists_of_mem_mapM_ok hparams t ht
    exact ⟨part, hpart⟩
  | array names element =>
    obtain ⟨elementType, -, h⟩ := bind_eq_ok.1 h
    cases h

/-- An array that was read is the shape of its spelling, with an element that was read. -/
theorem element_of_convertChars {ctx : Context} {scope : String} {spelling : List Char} {names : ArrayNames}
    {element : CxxType} {m : Modifiers} (h : convertChars ctx scope spelling = .ok (.array names element m)) :
    ∃ base part, splitMarks (Text.trim spelling) = .ok (base, m)
      ∧ shape ctx base (String.ofList (Text.trim spelling)) scope m.isPointer = .ok (.array names part)
      ∧ convertChars ctx scope part = .ok element := by
  rw [convertChars_eq] at h
  obtain ⟨⟨base, marks⟩, hmarks, h⟩ := bind_eq_ok.1 h
  obtain ⟨found, hshape, h⟩ := bind_eq_ok.1 h
  cases found with
  | leaf leaf =>
    have hread := isRead_of_shape hshape
    rw [Except.ok.inj h] at hread
    cases hread
  | function resultPart paramParts hasStorage =>
    obtain ⟨resultType, -, h⟩ := bind_eq_ok.1 h
    obtain ⟨paramTypes, -, h⟩ := bind_eq_ok.1 h
    cases h
  | array names part =>
    obtain ⟨elementType, helement, h⟩ := bind_eq_ok.1 h
    cases h
    exact ⟨base, part, hmarks, hshape, helement⟩

/-! ### Names that are read -/

section ReadName

variable {ctx : Context} {m : Modifiers}

/-- Does the name stand for a builtin type? -/
def isBuiltin (name : String) : Bool := (builtin? (String.ofList (Scope.dropSeparators name.toList)) true).isSome

theorem isSome_builtin? (name : String) (isPointer : Bool) :
    (builtin? name isPointer).isSome = (builtin? name true).isSome := by
  unfold builtin?
  split
  · rfl
  split
  · rfl
  split
  · rfl
  split
  · rfl
  rfl

theorem builtin?_eq_none {name : String} (h : isBuiltin name = false) (isPointer : Bool) :
    builtin? (String.ofList (Scope.dropSeparators name.toList)) isPointer = none := by
  rw [isBuiltin, ← isSome_builtin? _ isPointer] at h
  simpa using h

theorem readName_of_builtin {name : String} {t : CxxType} (hclass : t.classRef? = none)
    (h : builtin? (String.ofList (Scope.dropSeparators name.toList)) m.isPointer = some (.ok t)) :
    ctx.readName name m = .ok (t.withMods m) := by
  have hkept : (t.withMods m).classRef? = none := by
    cases t with
    | record => cases hclass
    | _ => rfl
  rw [Context.readName, h]
  simp [Except.map, Patches.adjust_of_classRef? hkept]

theorem resolve_of_isGlobal (known : NameSet) {name : String} (h : Scope.isGlobal name = true) (scope : String) :
    resolve known name scope = if known.contains name then some name else none := by
  rw [resolve, if_pos h]

/-- In the global namespace a name without a separator is looked for there alone. -/
theorem resolve_of_not_isGlobal {known : NameSet} {name : String} (h : Scope.isGlobal name = false) :
    resolve known name "" = if known.contains (Scope.qualify "" name) then some (Scope.qualify "" name) else none := by
  rw [resolve, if_neg (by simp [h]), show Scope.enclosing "" = [""] from rfl]
  cases hknown : known.contains (Scope.qualify "" name) <;> simp [hknown]

theorem mods_of_readName {name : String} {u : CxxType} (h : ctx.readName name m = .ok u) : u.mods = m := by
  unfold Context.readName at h
  split at h
  · next builtin _ =>
    cases builtin with
    | error reason => cases h
    | ok t =>
      cases h
      rw [Patches.mods_adjust, CxxType.mods_withMods]
  · split at h
    · cases h
      rfl
    · cases h
      rw [Patches.mods_adjust]
      rfl

/-- A name that stands for a builtin type is read as no enum and no class. -/
theorem bare_of_builtin {name : String} {u : CxxType} (hbuiltin : isBuiltin name = true)
    (h : ctx.readName name m = .ok u) : (∀ n, u.bare ≠ .enum n {}) ∧ ∀ ref, u.bare ≠ .record ref {} := by
  rw [isBuiltin, ← isSome_builtin? _ m.isPointer] at hbuiltin
  obtain ⟨builtin, hfound⟩ := Option.isSome_iff_exists.1 hbuiltin
  rw [Context.readName, hfound] at h
  cases builtin with
  | error reason => cases h
  | ok t =>
    cases h
    rw [Patches.bare_adjust]
    rcases builtin?_cases hfound with rfl | rfl | ⟨kind, rfl⟩ | ⟨kind, rfl, -⟩
    all_goals
      constructor <;> rintro _ ⟨⟩

/-- In the global namespace a name is read as it is with a separator in front. -/
theorem readName_qualify {name : String} (h : Scope.isGlobal name = false) :
    ctx.readName (Scope.qualify "" name) m = ctx.readName name m := by
  have hglobal : Scope.isGlobal (Scope.qualify "" name) = true := Scope.isGlobal_qualify Scope.isNormal_empty name
  have hdrop : Scope.dropSeparators (Scope.qualify "" name).toList = Scope.dropSeparators name.toList := by
    rw [Scope.toList_qualify]
    rfl
  have hfrom : Scope.fromGlobal (Scope.qualify "" name) = Scope.fromGlobal name := by
    rw [Scope.fromGlobal, hdrop, Scope.fromGlobal]
  rw [Context.readName, Context.readName, hdrop, resolve_of_isGlobal _ hglobal, resolve_of_isGlobal _ hglobal,
    resolve_of_not_isGlobal h, resolve_of_not_isGlobal h, hfrom]

/-- A name that is not builtin is read as an enum or, if none is known by it, as a class. -/
theorem readName_of_not_builtin {name : String} (hbuiltin : isBuiltin name = false) :
    ctx.readName name m = .ok (match resolve ctx.known.enums name "" with
      | some qualified => .enum qualified m
      | none => ctx.patches.adjust
        (.record (classRef ((resolve ctx.known.classes name "").getD (Scope.fromGlobal name)) none) m)) := by
  rw [Context.readName, builtin?_eq_none hbuiltin]
  cases resolve ctx.known.enums name "" <;> rfl

/-- The class that a qualified name is read as has this scope and this name, whether it is known or not. -/
theorem classRef_qualify {scope name : String} (hscope : Scope.IsNormal scope)
    (hname : Scope.breakLast? (':' :: name.toList) = none) (known : NameSet) :
    classRef ((resolve known (Scope.qualify scope name) "").getD (Scope.fromGlobal (Scope.qualify scope name))) none
      = { name, scope } := by
  rw [resolve_of_isGlobal _ (Scope.isGlobal_qualify hscope name)]
  cases known.contains (Scope.qualify scope name) with
  | true => simp [classRef, Scope.splitQualified_qualify hscope hname]
  | false => simp [classRef, Scope.splitQualified_fromGlobal hscope hname]

/-! ### Names that lead back -/

/-- Does the name, with these marks, lead back to the type? -/
def Context.LeadsBack (ctx : Context) (name : String) (m : Modifiers) (t : CxxType) : Prop :=
  ∃ u, ctx.readName name m = .ok u ∧ t.bare = u.bare

theorem leadsBack_of_builtin {name : String} {t u : CxxType} (hclass : u.classRef? = none)
    (h : builtin? (String.ofList (Scope.dropSeparators name.toList)) m.isPointer = some (.ok u))
    (hbare : t.bare = u.bare) : ctx.LeadsBack name m t := by
  refine ⟨_, readName_of_builtin hclass h, ?_⟩
  rw [hbare]
  cases u with
  | record => cases hclass
  | _ => rfl

theorem not_leadsBack_of_isBuiltin {name : String} (hbuiltin : isBuiltin name = true) {t : CxxType}
    (h : ctx.LeadsBack name m t) : (∀ n, t.bare ≠ .enum n {}) ∧ ∀ ref, t.bare ≠ .record ref {} := by
  obtain ⟨u, hu, hbare⟩ := h
  rw [hbare]
  exact bare_of_builtin hbuiltin hu

theorem bare_enum_eq_iff {a b : String} {n k : Modifiers} :
    (CxxType.enum a n).bare = (CxxType.enum b k).bare ↔ a = b := by
  simp [CxxType.bare, CxxType.withMods]

theorem bare_enum_ne_adjust (name : String) (n : Modifiers) (p : Patches) (ref : ClassRef) (m : Modifiers) :
    (CxxType.enum name n).bare ≠ (p.adjust (.record ref m)).bare := by
  obtain ⟨moved, hmoved⟩ := p.exists_moved ref m
  rw [hmoved]
  exact nofun

/-- An enum is read again exactly if it is known, under a name that is global and not builtin. -/
theorem leadsBack_enum_iff {name : String} {n : Modifiers} : ctx.LeadsBack name m (.enum name n)
    ↔ isBuiltin name = false ∧ Scope.isGlobal name = true ∧ ctx.known.enums.contains name = true := by
  cases hbuiltin : isBuiltin name with
  | true =>
    refine iff_of_false (fun h => ?_) (by simp)
    exact (not_leadsBack_of_isBuiltin hbuiltin h).1 name rfl
  | false =>
    have hclass := fun ref => bare_enum_ne_adjust name n ctx.patches ref m
    unfold Context.LeadsBack
    simp only [readName_of_not_builtin hbuiltin, Except.ok.injEq, exists_eq_left']
    cases hglobal : Scope.isGlobal name with
    | true =>
      rw [resolve_of_isGlobal _ hglobal]
      cases hknown : ctx.known.enums.contains name with
      | true => simp [bare_enum_eq_iff]
      | false => simp [hclass]
    | false =>
      have hlonger : name ≠ Scope.qualify "" name := fun heq => by
        have hlength := congrArg (·.toList.length) heq
        simp only [Scope.toList_qualify, List.length_append, List.length_cons] at hlength
        omega
      rw [resolve_of_not_isGlobal hglobal]
      cases hknown : ctx.known.enums.contains (Scope.qualify "" name) with
      | true => simpa [bare_enum_eq_iff] using hlonger
      | false => simp [hclass]

/-- A qualified name leads back to a class exactly if it is not builtin, no enum is known by it, and the class is the
one of its scope and name. -/
theorem leadsBack_record_iff {scope name : String} {ref : ClassRef} {n : Modifiers} (hscope : Scope.IsNormal scope)
    (hname : Scope.breakLast? (':' :: name.toList) = none) : ctx.LeadsBack (Scope.qualify scope name) m (.record ref n)
      ↔ isBuiltin (Scope.qualify scope name) = false ∧ ctx.known.enums.contains (Scope.qualify scope name) = false
        ∧ (CxxType.record ref n).bare = ctx.patches.adjust (.record { name, scope } {}) := by
  cases hbuiltin : isBuiltin (Scope.qualify scope name) with
  | true =>
    refine iff_of_false (fun h => ?_) (by simp)
    exact (not_leadsBack_of_isBuiltin hbuiltin h).2 _ rfl
  | false =>
    unfold Context.LeadsBack
    simp only [readName_of_not_builtin hbuiltin, Except.ok.injEq, exists_eq_left',
      resolve_of_isGlobal ctx.known.enums (Scope.isGlobal_qualify hscope name),
      classRef_qualify hscope hname]
    cases hknown : ctx.known.enums.contains (Scope.qualify scope name) with
    | true =>
      refine iff_of_false (fun h => ?_) (by simp)
      exact absurd h nofun
    | false =>
      rw [if_neg Bool.false_ne_true, Patches.bare_adjust]
      simp [CxxType.bare]

end ReadName

end Spelling

end LuaGlue
