import LuaGlue.Proofs.Spelling.Names

/-!
Which declaration a relative name means.

A relative name is looked for from its own scope outward. That is done twice, among the enums and then among the
classes, so an enum that is far out comes before a class that is near (`mode_found_too_far_out`); only where no enum is
declared further out is the innermost declaration the one that is found (`innermost_declaration_iff`).

    scope ::Gfx::Draw        ::Gfx::Draw::Mode   ::Gfx::Mode   ::Mode
      enums                                                    found
      classes                                    nearer, never looked at
-/

namespace LuaGlue

namespace Scope

/-! ### Enclosing scopes -/

theorem mem_outward {names outer : List String} : outer ∈ outward names ↔ outer <+: names := by
  induction names generalizing outer with
  | nil => simp [outward]
  | cons name rest ih =>
    rw [outward, List.mem_append, List.mem_map, List.mem_singleton]
    cases outer with
    | nil => simp
    | cons first others => simp [ih, List.cons_prefix_cons, eq_comm, and_comm]

/-- Scopes come before the ones around them. -/
theorem pairwise_outward (names : List String) : (outward names).Pairwise fun inner outer => outer <+: inner := by
  induction names with
  | nil => simp [outward]
  | cons name rest ih =>
    rw [outward, List.pairwise_append, List.pairwise_map]
    refine ⟨ih.imp fun h => (List.prefix_cons_inj name).2 h, List.pairwise_singleton _ _, ?_⟩
    intro inner _ outer houter
    rw [List.mem_singleton.1 houter]
    exact List.nil_prefix

/-- The first enclosing scope that passes a test is the innermost one that does. -/
theorem find?_outward_eq_some_iff {names inner : List String} {test : List String → Bool} :
    (outward names).find? test = some inner
      ↔ inner <+: names ∧ test inner = true
        ∧ ∀ outer, outer <+: names → test outer = true → outer.length ≤ inner.length := by
  have hfound : ∀ {inner}, (outward names).find? test = some inner → inner <+: names ∧ test inner = true
      ∧ ∀ outer, outer <+: names → test outer = true → outer.length ≤ inner.length := by
    intro inner h
    refine ⟨mem_outward.1 (List.mem_of_find?_eq_some h), List.find?_some h, fun outer houter htest => ?_⟩
    obtain ⟨-, before, after, hsplit, hbefore⟩ := List.find?_eq_some_iff_append.1 h
    have hordered := pairwise_outward names
    rw [hsplit, List.pairwise_append, List.pairwise_cons] at hordered
    rcases List.mem_append.1 (hsplit ▸ mem_outward.2 houter) with hin | hin
    · exact absurd htest (by simpa using hbefore outer hin)
    · rcases List.mem_cons.1 hin with rfl | hin
      · exact Nat.le_refl _
      · exact (hordered.2.1.1 outer hin).length_le
  refine ⟨hfound, fun ⟨hinner, htest, hnearest⟩ => ?_⟩
  cases hfind : (outward names).find? test with
  | none => exact absurd htest (by simpa using List.find?_eq_none.1 hfind inner (mem_outward.2 hinner))
  | some other =>
    obtain ⟨hother, htestOther, hnearestOther⟩ := hfound hfind
    have hlength := Nat.le_antisymm (hnearest other hother htestOther) (hnearestOther inner hinner htest)
    rw [(List.prefix_of_prefix_length_le hother hinner (Nat.le_of_eq hlength)).eq_of_length hlength]

/-- A name declared in the scope of these names. -/
def inside (names : List String) (name : String) : String := qualify (ofParts names) name

theorem Joinable.of_append {pieces rest : List (List Char)} (h : Joinable (pieces ++ rest)) : Joinable pieces := by
  induction pieces with
  | nil => trivial
  | cons piece pieces ih =>
    cases pieces with
    | nil =>
      cases rest with
      | nil => exact h
      | cons next rest => exact unbroken_of_append h.1
    | cons next pieces => exact ⟨h.1, ih h.2⟩

/-- The names of a scope are found again in the scopes around it. -/
theorem isNormal_ofParts {outer : List String} {scope : String} (h : outer <+: parts scope) :
    IsNormal (ofParts outer) := by
  obtain ⟨rest, hparts⟩ := h
  obtain ⟨pieces, others, hpieces, rfl, -⟩ := List.map_eq_append_iff.1 hparts.symm
  have hjoinable := (joinable_segments scope.toList).filter fun piece => !piece.isEmpty
  have hfilled : ∀ piece ∈ pieces, piece ≠ [] := fun piece hpiece => by
    have hin : piece ∈ (segments scope.toList).filter fun piece => !piece.isEmpty :=
      hpieces ▸ List.mem_append_left others hpiece
    simpa using (List.mem_filter.1 hin).2
  rw [hpieces] at hjoinable
  rw [IsNormal, normalize, parts, toList_ofParts, segments_joined hjoinable.of_append, List.filter_cons_of_neg (by simp),
    List.filter_eq_self.2 (by simpa using hfilled)]

/-- A plain name in an enclosing scope is in its one spelling. -/
theorem canonical_inside {outer : List String} {scope name : String} (h : outer <+: parts scope) (hname : IsPlain name) :
    canonical (inside outer name) = inside outer name := by
  rw [canonical, inside, splitQualified_qualify (isNormal_ofParts h) (breakLast?_colon_cons hname)]

end Scope

open Scope

/-- The qualified name of the enum or class that a type is. -/
def CxxType.declared? : CxxType → Option String
  | .enum name _ => some name
  | .record ref _ => some ref.qualified
  | _ => none

/-- Is a class or an enum declared by this name? -/
def KnownNames.Declares (known : KnownNames) (name : String) : Prop :=
  known.classes.contains name = true ∨ known.enums.contains name = true

instance (known : KnownNames) (name : String) : Decidable (known.Declares name) := inferInstanceAs (Decidable (_ ∨ _))

/-- Is the scope of these names, of all those around a scope, the innermost one that declares the name? -/
structure KnownNames.IsInnermost (known : KnownNames) (name scope : String) (inner : List String) : Prop where
  encloses : inner <+: parts scope
  declares : known.Declares (inside inner name)
  nearest : ∀ outer, outer <+: parts scope → known.Declares (inside outer name) → outer.length ≤ inner.length

theorem KnownNames.isInnermost_iff {known : KnownNames} {name scope : String} {inner : List String} :
    known.IsInnermost name scope inner ↔ inner ∈ outward (parts scope) ∧ known.Declares (inside inner name)
      ∧ ∀ outer ∈ outward (parts scope), known.Declares (inside outer name) → outer.length ≤ inner.length := by
  simp only [mem_outward]
  exact ⟨fun h => ⟨h.encloses, h.declares, h.nearest⟩, fun ⟨hencloses, hdeclares, hnearest⟩ =>
    ⟨hencloses, hdeclares, hnearest⟩⟩

instance (known : KnownNames) (name scope : String) (inner : List String) :
    Decidable (known.IsInnermost name scope inner) := decidable_of_iff' _ KnownNames.isInnermost_iff

namespace Spelling

section Resolve

variable {known : NameSet} {name scope : String} {inner : List String} (hrelative : isGlobal name = false)

include hrelative

theorem resolve_eq : resolve known name scope
    = ((outward (parts scope)).find? fun outer => known.contains (inside outer name)).map (inside · name) := by
  unfold resolve
  rw [if_neg (by simp [hrelative]), enclosing, List.map_map, List.find?_map]
  rfl

theorem resolve_of_innermost (hinner : inner <+: parts scope) (hknown : known.contains (inside inner name) = true)
    (hnearest : ∀ outer, outer <+: parts scope → known.contains (inside outer name) = true →
      outer.length ≤ inner.length) : resolve known name scope = some (inside inner name) := by
  rw [resolve_eq hrelative, find?_outward_eq_some_iff.2 ⟨hinner, hknown, hnearest⟩]
  rfl

theorem resolve_eq_none_iff : resolve known name scope = none
    ↔ ∀ outer, outer <+: parts scope → known.contains (inside outer name) = false := by
  rw [resolve_eq hrelative, Option.map_eq_none_iff, List.find?_eq_none]
  simp [mem_outward]

end Resolve

theorem declared?_adjust_classRef (p : Patches) (name : String) (forward : Option ForwardKeyword) (m : Modifiers) :
    (p.adjust (.record (classRef name forward) m)).declared? = some (canonical name) := by
  obtain ⟨moved, hmoved⟩ := p.exists_moved (classRef name forward) m
  rw [hmoved]
  rfl

/-- A name that is no builtin is looked for among the enums first. -/
theorem convert_name {ctx : Context} {name : String} (hname : isIdentifier name.toList = true)
    (hbuiltin : isBuiltin name = false) (scope : String) :
    convert ctx name scope = .ok (match resolve ctx.known.enums name scope with
      | some qualified => .enum qualified {}
      | none =>
        let qualified := (resolve ctx.known.classes name scope).getD (fromGlobal name)
        ctx.patches.adjust (.record (classRef qualified none) {})) := by
  have hmarks : splitMarks (Text.trim name.toList) = .ok (name.toList, {}) := by
    have hwritten : written {} name.toList = name.toList := by simp [written, toList_marks]
    rw [Text.trim_of_isSolid (isSolid_of_isIdentifier hname), ← splitMarks_written hname, hwritten]
  have hshape := shape_name ctx hname (String.ofList (Text.trim name.toList)) scope false
  simp only [builtin?_eq_none hbuiltin, nameShape, hname, Bool.not_true, Bool.false_eq_true, ↓reduceIte,
    String.ofList_toList] at hshape
  cases henum : resolve ctx.known.enums name scope with
  | some qualified =>
    rw [henum] at hshape
    exact convertChars_of_leaf hmarks hshape
  | none =>
    rw [henum] at hshape
    exact convertChars_of_leaf hmarks hshape

end Spelling

open Spelling

/-- CORRECT: a relative name that is declared in some scope around it is read as a type. The type is the innermost
declaration if and only if that is an enum, or no enum of the name is declared in any scope around it and the class has
its one spelling, as it has if the name is plain. -/
theorem innermost_declaration_iff (ctx : Context) (name scope : String) (inner : List String)
    (hname : isIdentifier name.toList = true) (hrelative : isGlobal name = false) (hbuiltin : isBuiltin name = false)
    (hinner : ctx.known.IsInnermost name scope inner) :
    (∃ t, convert ctx name scope = .ok t
      ∧ (t.declared? = some (inside inner name)
        ↔ ctx.known.enums.contains (inside inner name) = true
          ∨ (∀ outer, outer <+: parts scope → ctx.known.enums.contains (inside outer name) = false)
            ∧ canonical (inside inner name) = inside inner name))
      ∧ (IsPlain name → canonical (inside inner name) = inside inner name) := by
  refine ⟨⟨_, convert_name hname hbuiltin scope, ?_⟩, canonical_inside hinner.encloses⟩
  cases henum : resolve ctx.known.enums name scope with
  | some qualified =>
    rw [resolve_eq hrelative] at henum
    obtain ⟨outer, hfind, rfl⟩ := Option.map_eq_some_iff.1 henum
    obtain ⟨houter, hknown, hnearest⟩ := find?_outward_eq_some_iff.1 hfind
    have hsome : ¬ ∀ outer, outer <+: parts scope → ctx.known.enums.contains (inside outer name) = false :=
      fun hnone => by simp [hnone outer houter] at hknown
    simp only [CxxType.declared?, Option.some.injEq, hsome, false_and, or_false]
    constructor
    · intro heq
      rwa [← heq]
    · intro hdeclared
      have hlength := Nat.le_antisymm (hinner.nearest outer houter (.inr hknown))
        (hnearest inner hinner.encloses hdeclared)
      rw [(List.prefix_of_prefix_length_le houter hinner.encloses (Nat.le_of_eq hlength)).eq_of_length hlength]
  | none =>
    have hnone := (resolve_eq_none_iff hrelative).1 henum
    have hclass : ctx.known.classes.contains (inside inner name) = true :=
      hinner.declares.resolve_right (by simp [hnone inner hinner.encloses])
    have hresolve := resolve_of_innermost hrelative hinner.encloses hclass
      fun outer houter hknown => hinner.nearest outer houter (.inl hknown)
    have hdeclared := declared?_adjust_classRef ctx.patches (inside inner name) none {}
    simp only [hresolve, Option.getD_some, hdeclared, Option.some.injEq, hnone inner hinner.encloses,
      Bool.false_eq_true, false_or]
    exact (and_iff_right hnone).symm

/-- Two classes of one name and an enum, and an enum outside a class of the same name. -/
def paletteContext : Context where
  known :=
    { classes := NameSet.ofNames ["::Ink", "::Gfx::Ink", "::Gfx::Mode"]
      enums := NameSet.ofNames ["::Mode", "::Gfx::Blend"] }
  templates := ∅
  patches := {}

theorem ink_found_nearby : paletteContext.known.IsInnermost "Ink" "::Gfx::Draw" ["Gfx"]
    ∧ ∃ t, convert paletteContext "Ink" "::Gfx::Draw" = .ok t ∧ t.declared? = some "::Gfx::Ink" := by
  have hinner : paletteContext.known.IsInnermost "Ink" "::Gfx::Draw" ["Gfx"] := by decide
  obtain ⟨⟨t, hread, hdeclared⟩, hplain⟩ := innermost_declaration_iff paletteContext "Ink" "::Gfx::Draw" ["Gfx"]
    (by decide) (by decide) (by decide) hinner
  have hnone : ∀ outer ∈ outward (parts "::Gfx::Draw"),
      paletteContext.known.enums.contains (inside outer "Ink") = false := by decide
  exact ⟨hinner, t, hread, hdeclared.2 (.inr ⟨fun outer houter => hnone outer (mem_outward.2 houter), hplain (by decide)⟩)⟩

/-- The enum outside is found, though the class is the innermost declaration. -/
theorem mode_found_too_far_out : paletteContext.known.IsInnermost "Mode" "::Gfx::Draw" ["Gfx"]
    ∧ paletteContext.known.classes.contains (inside ["Gfx"] "Mode") = true
    ∧ convert paletteContext "Mode" "::Gfx::Draw" = .ok (.enum "::Mode" {}) :=
  ⟨by decide, by decide, by with_unfolding_all rfl⟩

end LuaGlue
