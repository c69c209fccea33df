import LuaGlue.Proofs.Naming.Scopes

/-!
The ways to write a qualified name.

Declarations and comments spell a name loosely: with or without a separator in front, and with empty segments
wherever a segment begins or ends. `Spells` lists the spellings of a scope and `QualifiedName.IsSpelled` those of a
qualified name. They are exactly the texts whose canonical form is the text of the name (`canonical_eq_iff`), so two
spellings of one name have one canonical form, and spellings of two names never have.

    Gfx::Mesh   ::Gfx::Mesh   ::::Gfx::::Mesh   ──canonical──▶  ::Gfx::Mesh  ──splitQualified──▶  (::Gfx, Mesh)
-/

namespace LuaGlue

namespace Scope

/-- Can the text be a segment of a qualified name? -/
def IsSegment (text : String) : Prop := text ≠ "" ∧ IsPlain text

instance (text : String) : Decidable (IsSegment text) := inferInstanceAs (Decidable (_ ∧ _))

/-- The texts that are a scope of these names: a separator stands between two names, and any number of further ones
in front of a name or at the end. -/
inductive Spells : List String → String → Prop where
  | global : Spells [] ""
  | separator {names : List String} {text : String} (h : Spells names text) : Spells names ("::" ++ text)
  | last (name : String) : Spells [name] name
  | name (name : String) {names : List String} {text : String} (h : Spells names text) :
    Spells (name :: names) (name ++ "::" ++ text)

/-! ### The names of a spelling -/

theorem parts_separator (text : String) : parts ("::" ++ text) = parts text := by
  have hlist : ("::" ++ text).toList = ':' :: ':' :: text.toList := by simp
  rw [parts, hlist, segments, List.filter_cons_of_neg (by simp)]
  rfl

/-- No separator comes about where a plain text meets a colon. -/
theorem unbroken_append_colon {text : List Char} (h : ':' ∉ text) : Unbroken (text ++ [':']) := by
  induction text with
  | nil => rfl
  | cons c rest ih =>
    rw [List.mem_cons, not_or] at h
    refine unbroken_cons.2 ⟨?_, ih h.2⟩
    rw [Bool.eq_false_iff, Ne, startsScope_cons]
    exact fun hstarts => h.1 hstarts.1.symm

theorem parts_segment {name : String} (h : IsSegment name) : parts name = [name] := by
  have hwhole : segments name.toList = [name.toList] := unbroken_of_append (unbroken_append_colon h.2)
  have hfilled : name.toList ≠ [] := fun hempty => h.1 (String.toList_eq_nil_iff.1 hempty)
  rw [parts, hwhole, List.filter_cons_of_pos (by simpa using hfilled)]
  simp

theorem parts_name {name : String} (h : IsSegment name) (text : String) :
    parts (name ++ "::" ++ text) = name :: parts text := by
  have hlist : (name ++ "::" ++ text).toList = name.toList ++ ':' :: ':' :: text.toList := by simp
  have hfilled : name.toList ≠ [] := fun hempty => h.1 (String.toList_eq_nil_iff.1 hempty)
  rw [parts, hlist, segments_append (unbroken_append_colon h.2), List.filter_cons_of_pos (by simpa using hfilled),
    List.map_cons, String.ofList_toList]
  rfl

/-- A spelling is taken apart into the names it is made of. -/
theorem Spells.parts_eq {names : List String} {text : String} (h : Spells names text)
    (hnames : ∀ name ∈ names, IsSegment name) : parts text = names := by
  induction h with
  | global => rfl
  | separator _ ih => rw [parts_separator, ih hnames]
  | last name => exact parts_segment (hnames name List.mem_cons_self)
  | name name _ ih =>
    have hrest := ih fun other hother => hnames other (List.mem_cons_of_mem _ hother)
    rw [parts_name (hnames name List.mem_cons_self), hrest]

/-- Every text is a spelling of the names it is taken apart into. -/
theorem spells_parts (text : String) : Spells (parts text) text := by
  obtain ⟨chars, rfl⟩ : ∃ chars, text = String.ofList chars := ⟨text.toList, text.ofList_toList.symm⟩
  rw [parts, String.toList_ofList]
  -- the first piece is taken off, so the text that is left is shorter
  induction hlength : chars.length using Nat.strongRecOn generalizing chars with
  | ind length ih =>
    obtain ⟨piece, pieces, hpieces⟩ := List.exists_cons_of_ne_nil (segments_ne_nil chars)
    rcases eq_of_segments hpieces with ⟨rfl, rfl⟩ | ⟨hsome, tail, rfl⟩
    · rw [hpieces]
      cases chars with
      | nil => exact .global
      | cons c rest => exact .last _
    · have hjoinable := joinable_segments (piece ++ ':' :: ':' :: tail)
      obtain ⟨next, others, rfl⟩ := List.exists_cons_of_ne_nil hsome
      rw [hpieces] at hjoinable
      have hrest := ih tail.length (by simp at hlength; omega) tail rfl
      have htext : String.ofList (piece ++ ':' :: ':' :: tail) = String.ofList piece ++ "::" ++ String.ofList tail :=
        String.toList_inj.1 (by simp)
      rw [segments_append hjoinable.1, htext]
      cases piece with
      | nil => exact hrest.separator
      | cons c rest => exact hrest.name (String.ofList (c :: rest))

/-- The scope of some names is one of its spellings. -/
theorem spells_ofParts (names : List String) : Spells names (ofParts names) := by
  have hbehind : names ≠ [] → ∃ text, ofParts names = "::" ++ text ∧ Spells names text := by
    intro hsome
    induction names with
    | nil => exact absurd rfl hsome
    | cons name rest ih =>
      cases rest with
      | nil => exact ⟨name, by simp [ofParts], .last name⟩
      | cons next rest =>
        obtain ⟨text, heq, hspells⟩ := ih (List.cons_ne_nil _ _)
        refine ⟨name ++ "::" ++ text, ?_, hspells.name name⟩
        rw [ofParts, List.map_cons, String.join_cons, ← ofParts, heq]
        simp [String.append_assoc]
  cases names with
  | nil => exact .global
  | cons name rest =>
    obtain ⟨text, heq, hspells⟩ := hbehind (List.cons_ne_nil _ _)
    rw [heq]
    exact hspells.separator

theorem parts_ofParts {names : List String} (h : ∀ name ∈ names, IsSegment name) : parts (ofParts names) = names :=
  (spells_ofParts names).parts_eq h

/-- The texts that are normalized to a scope are its spellings. -/
theorem normalize_eq_iff {names : List String} (h : ∀ name ∈ names, IsSegment name) {text : String} :
    normalize text = ofParts names ↔ Spells names text := by
  constructor
  · intro heq
    have hparts := congrArg parts heq
    rw [parts_normalize, parts_ofParts h] at hparts
    rw [← hparts]
    exact spells_parts text
  · intro hspells
    rw [normalize, hspells.parts_eq h]

end Scope

open Scope

/-! ### Qualified names -/

/-- The segments of a scope and a name in it, none of them empty or with a colon. -/
@[ext] structure QualifiedName where
  segments : List String
  name : String
  segmented : ∀ segment ∈ segments, IsSegment segment
  named : IsSegment name

namespace QualifiedName

/-- The scope, in its one spelling. -/
def scope (q : QualifiedName) : String := ofParts q.segments

/-- The one spelling of the whole: each segment and the name after a separator. -/
def text (q : QualifiedName) : String := ofParts (q.segments ++ [q.name])

/-- Is the text one of the spellings? It is the bare name, if that is global, or the name behind a spelling of the
scope. -/
def IsSpelled (q : QualifiedName) (text : String) : Prop :=
  (q.segments = [] ∧ text = q.name) ∨ ∃ scope, Spells q.segments scope ∧ text = qualify scope q.name

variable {q q' : QualifiedName} {text : String}

theorem qualify_eq (q : QualifiedName) : qualify q.scope q.name = q.text := by
  rw [qualify, scope, QualifiedName.text, ofParts, ofParts, List.map_append, String.join_append]
  simp [String.append_assoc]

theorem isNormal_scope (q : QualifiedName) : IsNormal q.scope := by
  rw [IsNormal, scope, normalize_eq_iff q.segmented]
  exact spells_ofParts q.segments

theorem legible (q : QualifiedName) : Legible q.scope q.name := .of_isPlain q.isNormal_scope q.named.2

/-- The canonical text is a spelling itself. -/
theorem isSpelled_text (q : QualifiedName) : q.IsSpelled q.text :=
  .inr ⟨q.scope, spells_ofParts q.segments, q.qualify_eq.symm⟩

/-- A text is split into the scope and the name if it is a spelling of them. -/
theorem splitQualified_eq_iff : splitQualified text = (q.scope, q.name) ↔ q.IsSpelled text := by
  constructor
  · intro hsplit
    unfold splitQualified at hsplit
    split at hsplit
    · next before after hbreak =>
      obtain ⟨htext, -⟩ := breakLast?_eq_some hbreak
      obtain ⟨hscope, hname⟩ := Prod.mk.inj hsplit
      refine .inr ⟨String.ofList before, (normalize_eq_iff q.segmented).1 hscope, String.toList_inj.1 ?_⟩
      rw [toList_qualify, ← hname, String.toList_ofList, String.toList_ofList, htext]
    · obtain ⟨hscope, hname⟩ := Prod.mk.inj hsplit
      have hglobal : normalize "" = ofParts q.segments := hscope
      refine .inl ⟨?_, hname⟩
      rw [← ((normalize_eq_iff q.segmented).1 hglobal).parts_eq q.segmented]
      rfl
  · rintro (⟨hglobal, rfl⟩ | ⟨scope, hspells, rfl⟩)
    · rw [splitQualified, breakLast?_of_colonFree q.named.2, QualifiedName.scope, hglobal]
      rfl
    · rw [splitQualified, toList_qualify, breakLast?_append (breakLast?_colon_cons q.named.2)]
      simp only [String.ofList_toList]
      rw [(normalize_eq_iff q.segmented).2 hspells]
      rfl

/-- The texts of one canonical form are the spellings of one qualified name. -/
theorem canonical_eq_iff : canonical text = q.text ↔ q.IsSpelled text := by
  rw [← splitQualified_eq_iff]
  constructor
  · intro heq
    rw [← q.qualify_eq] at heq
    obtain ⟨hscope, hname⟩ := (legible_splitQualified text).eq_of_qualify_eq q.legible heq
    exact Prod.ext hscope hname
  · intro hsplit
    rw [canonical, hsplit]
    exact q.qualify_eq

/-- A canonical form is a spelling of the same qualified name. Other texts may change once more: `:a` goes to `:::a`,
and that to `:::::a`. -/
theorem canonical_canonical_eq_iff : canonical (canonical text) = q.text ↔ canonical text = q.text := by
  have hlegible := legible_splitQualified text
  cases hbreak : breakLast? (':' :: (splitQualified text).2.toList) with
  | none =>
    have hsplit : splitQualified (canonical text) = splitQualified text := splitQualified_qualify hlegible.normal hbreak
    rw [canonical, hsplit]
    rfl
  | some found =>
    refine ⟨fun heq => ?_, fun heq => (congrArg canonical heq).trans (canonical_eq_iff.2 q.isSpelled_text)⟩
    -- the text is a global name with a colon in front, which comes to stand in the scope
    have hglobal : (splitQualified text).1 = "" := hlegible.apart.resolve_right fun hnone =>
      absurd (hnone.symm.trans hbreak) nofun
    have hlist : (canonical text).toList = ':' :: ':' :: (splitQualified text).2.toList := by
      rw [canonical, toList_qualify, hglobal]
      rfl
    have hsplit := splitQualified_eq_iff.2 (canonical_eq_iff.1 heq)
    rw [breakLast?, hlegible.whole] at hbreak
    simp only at hbreak
    split at hbreak
    · next hstarts =>
      rw [splitQualified, hlist, breakLast?, breakLast?, hlegible.whole] at hsplit
      simp only [if_pos hstarts] at hsplit
      have hspells : Spells q.segments (String.ofList [':']) := (normalize_eq_iff q.segmented).1 (Prod.mk.inj hsplit).1
      have hsegments : [":"] = q.segments := hspells.parts_eq q.segmented
      exact absurd (q.segmented ":" (hsegments ▸ List.mem_cons_self)) (by decide)
    · cases hbreak

/-- Two qualified names with one text are the same. -/
theorem eq_of_text_eq (h : q.text = q'.text) : q = q' := by
  rw [← q.qualify_eq, ← q'.qualify_eq] at h
  obtain ⟨hscope, hname⟩ := q.legible.eq_of_qualify_eq q'.legible h
  refine QualifiedName.ext ?_ hname
  rw [← parts_ofParts q.segmented, ← parts_ofParts q'.segmented]
  exact congrArg parts hscope

/-- A legible scope and name have the text of a qualified name if they are its scope and its name. -/
theorem qualify_eq_text_iff {scope name : String} (h : Legible scope name) :
    qualify scope name = q.text ↔ scope = q.scope ∧ name = q.name := by
  rw [← q.qualify_eq]
  constructor
  · exact h.eq_of_qualify_eq q.legible
  · rintro ⟨rfl, rfl⟩
    rfl

end QualifiedName

end LuaGlue
