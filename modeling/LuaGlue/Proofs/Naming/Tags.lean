import LuaGlue.Proofs.Naming.Scopes
import Mathlib.Data.List.Infix

/-!
When a tag says which class it belongs to.

A tag writes the separators of the scope as two underscores and puts one more underscore in front of the
name, so in general it cannot be read back: the tag `__Gfx_Draw_Call` belongs to `::Gfx::Draw_Call` and
to `::Gfx_Draw::Call`. It can be, if names have no underscore and the parts of scopes have no two in a
row and none at the end (`Clear`).

    tag            __Gfx__Mesh_Vertex
    last _              __Gfx__Mesh │ Vertex        the name has no underscore
    first __ each       __Gfx │ __Mesh              a part neither holds __ nor ends in _
-/

namespace LuaGlue.Scope

/-! ### The name -/

/-- A text is told apart at the first occurrence of a character. -/
theorem eq_of_append_cons {c : Char} {a b u v : List Char} (ha : c ∉ a) (hb : c ∉ b)
    (h : a ++ c :: u = b ++ c :: v) : a = b ∧ u = v := by
  induction a generalizing b with
  | nil =>
    cases b with
    | nil =>
      cases h
      exact ⟨rfl, rfl⟩
    | cons d b =>
      cases h
      exact absurd List.mem_cons_self hb
  | cons d a ih =>
    cases b with
    | nil =>
      cases h
      exact absurd List.mem_cons_self ha
    | cons e b =>
      obtain ⟨rfl, htail⟩ := List.cons.inj h
      obtain ⟨rfl, rfl⟩ := ih (fun hc => ha (List.mem_cons_of_mem _ hc)) (fun hc => hb (List.mem_cons_of_mem _ hc))
        htail
      exact ⟨rfl, rfl⟩

/-- And at the last one. -/
theorem eq_of_append_cons_last {c : Char} {a b u v : List Char} (hu : c ∉ u) (hv : c ∉ v)
    (h : a ++ c :: u = b ++ c :: v) : a = b ∧ u = v := by
  have hreverse := congrArg List.reverse h
  simp only [List.reverse_append, List.reverse_cons, List.append_assoc, List.singleton_append] at hreverse
  obtain ⟨hback, hfront⟩ := eq_of_append_cons (mt List.mem_reverse.1 hu) (mt List.mem_reverse.1 hv) hreverse
  exact ⟨List.reverse_inj.1 hfront, List.reverse_inj.1 hback⟩

/-! ### The scope -/

/-- Does a part of a scope neither hold two underscores in a row nor end in one? -/
def IsClearPart (part : List Char) : Prop := ¬ ['_', '_'] <:+: part ++ ['_']

instance (part : List Char) : Decidable (IsClearPart part) := inferInstanceAs (Decidable (¬ _))

theorem IsClearPart.of_cons {c : Char} {part : List Char} (h : IsClearPart (c :: part)) : IsClearPart part :=
  fun hinside => h (hinside.trans (List.suffix_cons c _).isInfix)

/-- What follows a part in the identifier of a scope: nothing, or the next separator. -/
def IsRest (text : List Char) : Prop := text = [] ∨ ['_', '_'] <+: text

/-- A part that begins like what follows another one is not clear. -/
theorem not_isClearPart_of_append {c : Char} {part text rest : List Char} (hrest : IsRest rest)
    (h : rest = c :: part ++ text) : ¬ IsClearPart (c :: part) := by
  intro hclear
  rcases hrest with rfl | ⟨tail, rfl⟩
  · cases h
  · obtain ⟨rfl, hnext⟩ := List.cons.inj h
    cases part with
    | nil => exact hclear ⟨[], [], rfl⟩
    | cons d part =>
      obtain ⟨rfl, -⟩ := List.cons.inj hnext
      exact hclear ⟨[], part ++ ['_'], rfl⟩

/-- A clear part is told apart from what follows it. -/
theorem IsClearPart.eq_of_append_eq {part part' rest rest' : List Char} (h : IsClearPart part)
    (h' : IsClearPart part') (hrest : IsRest rest) (hrest' : IsRest rest')
    (heq : part ++ rest = part' ++ rest') : part = part' ∧ rest = rest' := by
  induction part generalizing part' with
  | nil =>
    cases part' with
    | nil => exact ⟨rfl, heq⟩
    | cons d part' => exact absurd h' (not_isClearPart_of_append hrest heq)
  | cons c part ih =>
    cases part' with
    | nil => exact absurd h (not_isClearPart_of_append hrest' heq.symm)
    | cons d part' =>
      obtain ⟨rfl, htail⟩ := List.cons.inj heq
      obtain ⟨rfl, hrests⟩ := ih h.of_cons h'.of_cons htail
      exact ⟨rfl, hrests⟩

/-- The identifier of a scope of these parts, as characters. -/
def underscored (parts : List (List Char)) : List Char := parts.flatMap fun part => '_' :: '_' :: part

theorem isRest_underscored (parts : List (List Char)) : IsRest (underscored parts) := by
  cases parts with
  | nil => exact .inl rfl
  | cons part rest => exact .inr ⟨_, rfl⟩

/-- Clear parts can be read back. -/
theorem underscored_injective {parts parts' : List (List Char)} (h : ∀ part ∈ parts, IsClearPart part)
    (h' : ∀ part ∈ parts', IsClearPart part) (heq : underscored parts = underscored parts') :
    parts = parts' := by
  induction parts generalizing parts' with
  | nil =>
    cases parts' with
    | nil => rfl
    | cons part' rest' => cases heq
  | cons part rest ih =>
    cases parts' with
    | nil => cases heq
    | cons part' rest' =>
      have htexts : part ++ underscored rest = part' ++ underscored rest' := by
        simpa [underscored] using heq
      obtain ⟨rfl, hrests⟩ := (h part List.mem_cons_self).eq_of_append_eq (h' part' List.mem_cons_self)
        (isRest_underscored rest) (isRest_underscored rest') htexts
      rw [ih (fun p hp => h p (List.mem_cons_of_mem _ hp)) (fun p hp => h' p (List.mem_cons_of_mem _ hp)) hrests]

/-! ### Tags -/

/-- Can the scope and the name be read back from the tag? -/
structure Clear (scope name : String) : Prop where
  normal : IsNormal scope
  parts : ∀ part ∈ parts scope, IsPlain part ∧ IsClearPart part.toList
  name : '_' ∉ name.toList

/-- In the identifier of a scope only the separators differ. -/
theorem toList_identifier_ofParts {names : List String} (h : ∀ name ∈ names, IsPlain name) :
    (identifier (ofParts names)).toList = underscored (names.map String.toList) := by
  induction names with
  | nil => rfl
  | cons name rest ih =>
    have hname : (identifier name).toList = name.toList := by
      rw [identifier_of_isPlain (h name List.mem_cons_self)]
    have hrest := ih fun other hother => h other (List.mem_cons_of_mem _ hother)
    rw [ofParts, List.map_cons, String.join_cons, ← ofParts, identifier_append, identifier_append,
      String.toList_append, String.toList_append, hrest, hname]
    rfl

/-- Two clear pairs with one tag are the same. -/
theorem Clear.eq_of_tag_eq {scope name scope' name' : String} (h : Clear scope name) (h' : Clear scope' name')
    (heq : tag scope name = tag scope' name') : scope = scope' ∧ name = name' := by
  have htexts : (identifier scope).toList ++ '_' :: name.toList
      = (identifier scope').toList ++ '_' :: name'.toList := by
    simpa [tag] using congrArg String.toList heq
  obtain ⟨hscopes, hnames⟩ := eq_of_append_cons_last h.name h'.name htexts
  have hparts : Scope.parts scope = Scope.parts scope' := by
    rw [← h.normal, ← h'.normal] at hscopes
    unfold normalize at hscopes
    rw [toList_identifier_ofParts fun part hpart => (h.parts part hpart).1,
      toList_identifier_ofParts fun part hpart => (h'.parts part hpart).1] at hscopes
    refine List.map_injective_iff.2 (fun a b => String.toList_inj.1) (underscored_injective ?_ ?_ hscopes)
    · intro part hpart
      obtain ⟨text, htext, rfl⟩ := List.mem_map.1 hpart
      exact (h.parts text htext).2
    · intro part hpart
      obtain ⟨text, htext, rfl⟩ := List.mem_map.1 hpart
      exact (h'.parts text htext).2
  refine ⟨?_, String.toList_inj.1 hnames⟩
  rw [← h.normal, ← h'.normal, normalize, normalize, hparts]

end LuaGlue.Scope
