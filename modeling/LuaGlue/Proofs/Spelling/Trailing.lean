import LuaGlue.Proofs.Spelling.Names
import Mathlib.Data.List.Induction
import Mathlib.Data.List.Infix

/-!
Marks behind a spelling.

The marks are read from the right to the left until one of them clashes with those that have been read; without a clash
the spelling is read as what stands in front of them, with these marks (`trailing_marks_exact`). A constant clashes with
nothing, so it does not matter where it stands.

    Mesh  * const &     & then const then *     a reference to a constant pointer, both marks set
    Mesh & *            * then &                refused: a reference left of a pointer
-/

namespace LuaGlue.Spelling

/-- A mark behind a spelling. -/
inductive Mark where
  | pointer
  | reference
  | const
  deriving DecidableEq, Repr

namespace Mark

/-- The mark as it is written. -/
def text : Mark → List Char
  | .pointer => ['*']
  | .reference => ['&']
  | .const => "const".toList

/-- Does the mark clash with those to the right of it? -/
def Clashes : Mark → List Mark → Prop
  | .pointer, right => .pointer ∈ right
  | .reference, right => .reference ∈ right ∨ .pointer ∈ right
  | .const, _ => False

/-- Why a spelling with such a clash is refused. -/
def refusal (whole : String) : Mark → SkipReason
  | .pointer => .multiLevelPointer whole
  | _ => .unhandledType whole

instance (mark : Mark) (right : List Mark) : Decidable (mark.Clashes right) :=
  match mark with
  | .pointer => inferInstanceAs (Decidable (_ ∈ right))
  | .reference => inferInstanceAs (Decidable (_ ∨ _))
  | .const => inferInstanceAs (Decidable False)

end Mark

/-- Does no mark clash with those to the right of it? -/
def Harmonious : List Mark → Prop
  | [] => True
  | mark :: right => ¬ mark.Clashes right ∧ Harmonious right

instance decidableHarmonious : (marks : List Mark) → Decidable (Harmonious marks)
  | [] => inferInstanceAs (Decidable True)
  | _ :: right =>
    have := decidableHarmonious right
    inferInstanceAs (Decidable (_ ∧ _))

theorem Harmonious.of_append {left right : List Mark} (h : Harmonious (left ++ right)) : Harmonious right := by
  induction left with
  | nil => exact h
  | cons mark left ih => exact ih h.2

theorem exists_clash {marks : List Mark} (h : ¬ Harmonious marks) :
    ∃ left mark right, marks = left ++ mark :: right ∧ Harmonious right ∧ mark.Clashes right := by
  induction marks with
  | nil => exact absurd trivial h
  | cons mark right ih =>
    by_cases hright : Harmonious right
    · exact ⟨[], mark, right, rfl, hright, Classical.not_not.1 fun hclash => h ⟨hclash, hright⟩⟩
    · obtain ⟨left, clashing, rest, rfl, hclash⟩ := ih hright
      exact ⟨mark :: left, clashing, rest, rfl, hclash⟩

theorem Mark.clashes_filter {mark : Mark} {right : List Mark} :
    mark.Clashes (right.filter (· ≠ .const)) ↔ mark.Clashes right := by
  cases mark <;> simp [Mark.Clashes]

/-- A constant is in harmony with all marks. -/
theorem harmonious_filter {marks : List Mark} : Harmonious (marks.filter (· ≠ .const)) ↔ Harmonious marks := by
  induction marks with
  | nil => rfl
  | cons mark right ih =>
    by_cases hconst : mark = .const
    · subst hconst
      rw [List.filter_cons_of_neg (by decide), ih, Harmonious]
      simp [Mark.Clashes]
    · rw [List.filter_cons_of_pos (by simpa using hconst), Harmonious, Harmonious, Mark.clashes_filter, ih]

/-- At most one pointer, at most one reference, and no reference left of a pointer. -/
theorem harmonious_iff {marks : List Mark} : Harmonious marks
    ↔ marks.count .pointer ≤ 1 ∧ marks.count .reference ≤ 1 ∧ ¬ [Mark.reference, .pointer].Sublist marks := by
  induction marks with
  | nil => simp [Harmonious]
  | cons mark right ih =>
    have honce : ∀ mark : Mark, (mark :: right).count mark ≤ 1 ↔ mark ∉ right := fun mark => by
      rw [List.count_cons_self, ← List.count_eq_zero]
      omega
    have hnone : ∀ {mark : Mark}, mark ∉ right → right.count mark ≤ 1 := fun h => by
      rw [List.count_eq_zero.2 h]
      exact Nat.zero_le 1
    have hleft : [Mark.reference, .pointer].Sublist (mark :: right)
        ↔ [Mark.reference, .pointer].Sublist right ∨ mark = .reference ∧ .pointer ∈ right := by
      rw [List.sublist_cons_iff]
      simp [eq_comm]
    rw [Harmonious, ih, hleft]
    cases mark with
    | pointer =>
      rw [honce, List.count_cons_of_ne (by decide)]
      simp only [Mark.Clashes]
      grind
    | reference =>
      rw [honce, List.count_cons_of_ne (by decide)]
      simp only [Mark.Clashes]
      grind
    | const =>
      rw [List.count_cons_of_ne (by decide), List.count_cons_of_ne (by decide)]
      simp [Mark.Clashes]

/-- The modifiers that these marks stand for, behind a constant or not. -/
def modifiersOf (lead : Bool) (marks : List Mark) : Modifiers where
  isPointer := marks.contains .pointer
  isReference := marks.contains .reference
  isConst := lead || marks.contains .const

/-- Constants aside, the same marks stand for the same modifiers. -/
theorem contains_filter {mark : Mark} (h : mark ≠ .const) (marks : List Mark) :
    (marks.filter (· ≠ .const)).contains mark = marks.contains mark := by
  rw [Bool.eq_iff_iff]
  simp [h]

/-- Marks behind a spelling, each with one blank more in front than the number says. -/
def trailing (tokens : List (Nat × Mark)) : List Char :=
  tokens.flatMap fun (blanks, mark) => List.replicate (blanks + 1) ' ' ++ mark.text

/-- A spelling with marks behind it, and a constant in front or not. -/
def spelled (lead : Bool) (base : List Char) (tokens : List (Nat × Mark)) : List Char :=
  (if lead then "const ".toList else []) ++ (base ++ trailing tokens)

/-- Can marks be told from the text, in front of it and behind it? -/
structure IsBase (base : List Char) : Prop where
  filled : base ≠ []
  solid : Text.IsSolid base
  notConst : base ≠ "const".toList
  constFront : ¬ "const ".toList <+: base
  constBack : ¬ " const".toList <:+ base
  pointerBack : ¬ ['*'] <:+ base
  referenceBack : ¬ ['&'] <:+ base

theorem trailing_append (tokens tokens' : List (Nat × Mark)) :
    trailing (tokens ++ tokens') = trailing tokens ++ trailing tokens' := List.flatMap_append

theorem trailing_singleton (blanks : Nat) (mark : Mark) :
    trailing [(blanks, mark)] = List.replicate blanks ' ' ++ ' ' :: mark.text := by
  simp [trailing, List.replicate_succ']

/-! ### Reading the marks -/

section StripMarks

variable {whole : String} {text base : List Char} {lead : Bool} {right : List Mark} {tokens : List (Nat × Mark)}

theorem stripMarks_mark (mark : Mark) :
    stripMarks whole (modifiersOf lead right) (text ++ ' ' :: mark.text)
      = if mark.Clashes right then .error (mark.refusal whole)
        else stripMarks whole (modifiersOf lead (mark :: right)) text := by
  have hblank : ∀ m, stripMarks whole m (text ++ [' ']) = stripMarks whole m text :=
    fun m => stripMarks_blanks (List.forall_mem_singleton.2 (by decide))
  cases mark with
  | pointer =>
    rw [Mark.text, List.append_cons, stripMarks_pointer, hblank]
    simp [Mark.Clashes, modifiersOf, Mark.refusal]
  | reference =>
    rw [Mark.text, List.append_cons, stripMarks_reference, hblank]
    simp [Mark.Clashes, modifiersOf, Mark.refusal]
  | const =>
    rw [Mark.text, show ' ' :: "const".toList = " const".toList from rfl, stripMarks_const]
    simp [Mark.Clashes, modifiersOf]

/-- The blanks in front of a mark do not count. -/
theorem stripMarks_token (blanks : Nat) (mark : Mark) :
    stripMarks whole (modifiersOf lead right) (text ++ trailing [(blanks, mark)])
      = if mark.Clashes right then .error (mark.refusal whole)
        else stripMarks whole (modifiersOf lead (mark :: right)) text := by
  have hblanks : ∀ c ∈ List.replicate blanks ' ', Text.isBlank c = true := fun c hc => by
    rw [List.eq_of_mem_replicate hc]
    decide
  rw [trailing_singleton, ← List.append_assoc, stripMarks_mark, stripMarks_blanks hblanks]

/-- Marks that do not clash are read one after the other, the last one first. -/
theorem stripMarks_trailing (h : Harmonious (tokens.map Prod.snd ++ right)) :
    stripMarks whole (modifiersOf lead right) (text ++ trailing tokens)
      = stripMarks whole (modifiersOf lead (tokens.map Prod.snd ++ right)) text := by
  induction tokens using List.reverseRecOn generalizing right with
  | nil => rw [trailing, List.flatMap_nil, List.append_nil, List.map_nil, List.nil_append]
  | append_singleton tokens token ih =>
    obtain ⟨blanks, mark⟩ := token
    rw [List.map_append, List.append_assoc] at h ⊢
    have hclash : ¬ mark.Clashes right := h.of_append.1
    rw [trailing_append, ← List.append_assoc, stripMarks_token, if_neg hclash]
    exact ih h

theorem stripMarks_allTrailing (h : Harmonious (tokens.map Prod.snd)) :
    stripMarks whole (modifiersOf lead []) (text ++ trailing tokens)
      = stripMarks whole (modifiersOf lead (tokens.map Prod.snd)) text := by
  have hall : Harmonious (tokens.map Prod.snd ++ []) := by rwa [List.append_nil]
  rw [stripMarks_trailing hall, List.append_nil]

/-- A text that ends in no mark is what is left. -/
theorem stripMarks_base (hbase : IsBase base) (m : Modifiers) : stripMarks whole m base = .ok (base, m) := by
  have hback : ∀ {pattern}, ¬ pattern <:+ base → Text.stripBack? pattern base = none := fun {pattern} h => by
    cases hstrip : Text.stripBack? pattern base with
    | none => rfl
    | some rest => exact absurd ⟨rest, (Text.stripBack?_eq_some hstrip).symm⟩ h
  exact stripMarks_done (Text.trimEnd_append hbase.filled hbase.solid []) (hback hbase.referenceBack)
    (hback hbase.constBack) (hback hbase.pointerBack)

/-- The first clash from the right ends the reading. -/
theorem stripMarks_clash {left : List Mark} {mark : Mark} (hsplit : tokens.map Prod.snd = left ++ mark :: right)
    (h : Harmonious right) (hclash : mark.Clashes right) :
    stripMarks whole (modifiersOf lead []) (text ++ trailing tokens) = .error (mark.refusal whole) := by
  obtain ⟨lefts, rest, rfl, rfl, hrest⟩ := List.map_eq_append_iff.1 hsplit
  obtain ⟨⟨blanks, mark⟩, rights, rfl, rfl, rfl⟩ := List.map_eq_cons_iff.1 hrest
  rw [List.append_cons, trailing_append, trailing_append, ← List.append_assoc, ← List.append_assoc,
    stripMarks_allTrailing h, stripMarks_token, if_pos hclash]

end StripMarks

/-! ### Both ends of a spelling -/

section Spelled

variable {base : List Char}

theorem head?_trailing (tokens : List (Nat × Mark)) : ∀ c ∈ (trailing tokens).head?, c = ' ' := by
  cases tokens with
  | nil => simp [trailing]
  | cons token tokens => simp [trailing, List.replicate_succ]

/-- A beginning of `const ` that stops at the blank. -/
theorem eq_const_of_append_eq {text rest : List Char} (h : "const ".toList = text ++ ' ' :: rest) :
    text = "const".toList := by
  have hstops : ∀ initial ∈ "const ".toList.inits,
      ("const ".toList.drop initial.length).head? = some ' ' → initial = "const".toList := by decide
  refine hstops text ((List.mem_inits _ _).2 ⟨_, h.symm⟩) ?_
  rw [h, List.drop_left, List.head?_cons]

/-- Marks behind a text do not make a constant in front of it. -/
theorem stripFront?_base (hbase : IsBase base) (tokens : List (Nat × Mark)) :
    Text.stripFront? "const ".toList (base ++ trailing tokens) = none := by
  cases hstrip : Text.stripFront? "const ".toList (base ++ trailing tokens) with
  | none => rfl
  | some rest =>
    rcases List.append_eq_append_iff.1 (Text.stripFront?_eq_some hstrip) with ⟨more, hconst, hmore⟩ | ⟨more, hmore, -⟩
    · cases more with
      | nil => exact absurd ⟨[], by simpa using hconst⟩ hbase.constFront
      | cons c more =>
        obtain rfl : c = ' ' := head?_trailing tokens c (by simp [hmore])
        exact absurd (eq_const_of_append_eq hconst) hbase.notConst
    · exact absurd ⟨more, hmore.symm⟩ hbase.constFront

theorem isSolid_trailing (hbase : IsBase base) (tokens : List (Nat × Mark)) : Text.IsSolid (base ++ trailing tokens) := by
  refine ⟨?_, ?_⟩
  · rw [List.head?_append_of_ne_nil _ hbase.filled]
    exact hbase.solid.1
  · cases tokens using List.reverseRecOn with
    | nil => simpa [trailing] using hbase.solid.2
    | append_singleton tokens token =>
      obtain ⟨blanks, mark⟩ := token
      rw [trailing_append, trailing_singleton]
      cases mark <;> simp [Mark.text, Text.isBlank, Text.blankRanges]

theorem isSolid_spelled (hbase : IsBase base) (lead : Bool) (tokens : List (Nat × Mark)) :
    Text.IsSolid (spelled lead base tokens) := by
  have htrailing := isSolid_trailing hbase tokens
  cases lead with
  | false => exact htrailing
  | true =>
    refine ⟨by simp [spelled, Text.isBlank, Text.blankRanges], ?_⟩
    rw [spelled, List.getLast?_append_of_ne_nil _ (by simp [hbase.filled])]
    exact htrailing.2

theorem splitMarks_spelled (hbase : IsBase base) (lead : Bool) (tokens : List (Nat × Mark)) :
    splitMarks (spelled lead base tokens) = (do
      let (rest, m) ← stripMarks (String.ofList (spelled lead base tokens)) (modifiersOf lead []) (base ++ trailing tokens)
      return (Text.trim rest, m)) := by
  unfold splitMarks
  cases lead with
  | false =>
    simp only [spelled, Bool.false_eq_true, ↓reduceIte, List.nil_append, stripFront?_base hbase]
    rfl
  | true =>
    simp only [spelled, ↓reduceIte, Text.stripFront?_append,
      Text.trimStart_append hbase.filled hbase.solid (trailing tokens)]
    rfl

end Spelled

/-! ### The spelling in front of the marks -/

/-- The kind of type that a spelling without marks stands for, without marks itself, and whether the extensions may add
to it. -/
def convertBase (ctx : Context) (base : List Char) (whole scope : String) (isPointer : Bool) :
    Except SkipReason (CxxType × Bool) := do
  match ← shape ctx base whole scope isPointer with
  | .leaf t => return (t, true)
  | .function result params hasStorage =>
    let resultType ← convertChars ctx scope result
    let paramTypes ← params.mapM (convertChars ctx scope)
    return (.function paramTypes resultType hasStorage {}, true)
  | .array names element => return (.array names (← convertChars ctx scope element) {}, false)

/-- A kind of type with marks, and what the extensions add to it. -/
def Context.marked (ctx : Context) (m : Modifiers) : CxxType × Bool → CxxType
  | (t, true) => ctx.patches.adjust (t.withMods m)
  | (t, false) => t.withMods m

/-- Marks and the spelling between them are read apart from each other. -/
theorem convertChars_eq_marked (ctx : Context) (scope : String) (spelling : List Char) :
    convertChars ctx scope spelling = do
      let (base, m) ← splitMarks (Text.trim spelling)
      return ctx.marked m (← convertBase ctx base (String.ofList (Text.trim spelling)) scope m.isPointer) := by
  rw [convertChars_eq]
  refine bind_congr fun (base, m) => ?_
  simp only [convertBase, bind_assoc]
  refine bind_congr fun found => ?_
  cases found with
  | leaf t => rfl
  | function result params hasStorage => simp [Context.marked, CxxType.withMods, Patches.adjust]
  | array names element => simp [Context.marked, CxxType.withMods]

theorem toOption_functionShape (text : List Char) (whole whole' : String) (hasStorage : Bool) :
    (functionShape text whole hasStorage).toOption = (functionShape text whole' hasStorage).toOption := by
  unfold functionShape
  cases Text.breakAt? (· = '(') text with
  | none => rfl
  | some halves =>
    obtain ⟨result, rest⟩ := halves
    dsimp only
    cases Text.breakAtLast? (· = ')') rest <;> rfl

theorem toOption_templateShape (ctx : Context) (base : List Char) (whole whole' : String) :
    (templateShape ctx base whole).toOption = (templateShape ctx base whole').toOption := by
  unfold templateShape
  cases Text.stripBack? ['>'] base with
  | none => rfl
  | some front =>
    dsimp only
    cases Text.breakAt? (· = '<') front with
    | none => rfl
    | some halves =>
      dsimp only
      split
      · split <;> rfl
      · rfl

theorem toOption_nameShape (ctx : Context) (base : List Char) (whole whole' scope : String) :
    (nameShape ctx base whole scope).toOption = (nameShape ctx base whole' scope).toOption := by
  unfold nameShape
  cases isIdentifier base <;> rfl

/-- The whole spelling is only quoted. -/
theorem toOption_shape (ctx : Context) (base : List Char) (whole whole' scope : String) (isPointer : Bool) :
    (shape ctx base whole scope isPointer).toOption = (shape ctx base whole' scope isPointer).toOption := by
  unfold shape
  cases closure? base with
  | some text => exact toOption_functionShape text whole whole' true
  | none =>
    cases functionPointer? base with
    | some text => exact toOption_functionShape text whole whole' false
    | none =>
      dsimp only
      split
      · rfl
      split
      · rfl
      split
      · rfl
      split
      · rfl
      split
      · exact toOption_templateShape ctx base whole whole'
      · exact toOption_nameShape ctx base whole whole' scope

/-- What stands in front of the marks is read alike whatever is quoted. -/
theorem convertBase_eq_ok_iff {ctx : Context} {base : List Char} {whole whole' scope : String} {isPointer : Bool}
    {r : CxxType × Bool} :
    convertBase ctx base whole scope isPointer = .ok r ↔ convertBase ctx base whole' scope isPointer = .ok r := by
  have hshape : ∀ s, shape ctx base whole scope isPointer = .ok s ↔ shape ctx base whole' scope isPointer = .ok s :=
    fun s => by
      have hquoted := toOption_shape ctx base whole whole' scope isPointer
      cases hread : shape ctx base whole scope isPointer <;>
        cases hread' : shape ctx base whole' scope isPointer <;> simp_all [Except.toOption]
  unfold convertBase
  simp only [bind_eq_ok, hshape]

theorem mods_marked (ctx : Context) (m : Modifiers) (r : CxxType × Bool) : (ctx.marked m r).mods = m := by
  obtain ⟨t, adjusted⟩ := r
  cases adjusted with
  | false => exact CxxType.mods_withMods m t
  | true => rw [Context.marked, Patches.mods_adjust, CxxType.mods_withMods]

section Convert

variable {ctx : Context} {base : List Char} {lead : Bool} {tokens : List (Nat × Mark)} {scope : String}

/-- A spelling with marks behind it is read by the marks and by what stands in front of them. -/
theorem convert_spelled (hbase : IsBase base) :
    convert ctx (String.ofList (spelled lead base tokens)) scope = (do
      let (rest, m) ← stripMarks (String.ofList (spelled lead base tokens)) (modifiersOf lead []) (base ++ trailing tokens)
      return ctx.marked m (← convertBase ctx (Text.trim rest) (String.ofList (spelled lead base tokens)) scope m.isPointer)) := by
  rw [convert, String.toList_ofList, convertChars_eq_marked, Text.trim_of_isSolid (isSolid_spelled hbase lead tokens),
    splitMarks_spelled hbase, bind_assoc]
  rfl

theorem convert_of_clash (hbase : IsBase base) {left right : List Mark} {mark : Mark}
    (hsplit : tokens.map Prod.snd = left ++ mark :: right) (h : Harmonious right) (hclash : mark.Clashes right) :
    convert ctx (String.ofList (spelled lead base tokens)) scope
      = .error (mark.refusal (String.ofList (spelled lead base tokens))) := by
  rw [convert_spelled hbase, stripMarks_clash hsplit h hclash]
  rfl

theorem convert_of_harmonious (hbase : IsBase base) (h : Harmonious (tokens.map Prod.snd)) :
    convert ctx (String.ofList (spelled lead base tokens)) scope
      = ctx.marked (modifiersOf lead (tokens.map Prod.snd))
        <$> convertBase ctx base (String.ofList (spelled lead base tokens)) scope
          ((tokens.map Prod.snd).contains .pointer) := by
  rw [convert_spelled hbase, stripMarks_allTrailing h, stripMarks_base hbase]
  show (do return ctx.marked _ (← convertBase ctx (Text.trim base) _ scope _)) = _
  rw [Text.trim_of_isSolid hbase.solid]
  rfl

end Convert

end LuaGlue.Spelling

namespace LuaGlue

open Spelling

/-- CORRECT: marks behind a spelling are read from the right to the left. The first one that clashes with those to the
right of it is refused: a second pointer as a pointer to a pointer, a reference left of a reference or a pointer as a
type that is not handled. Without a clash the spelling is read as what stands in front of the marks, and gets these
marks. So a spelling may have one pointer and one reference at most, no reference left of a pointer, and constants
anywhere: where they stand changes nothing. -/
theorem trailing_marks_exact (ctx : Context) (scope : String) (base : List Char) (hbase : IsBase base) (lead : Bool)
    (tokens : List (Nat × Mark)) :
    (∀ left mark right, tokens.map Prod.snd = left ++ mark :: right → Harmonious right → mark.Clashes right →
        convert ctx (String.ofList (spelled lead base tokens)) scope
          = .error (mark.refusal (String.ofList (spelled lead base tokens))))
      ∧ (Harmonious (tokens.map Prod.snd) →
        convert ctx (String.ofList (spelled lead base tokens)) scope
          = ctx.marked (modifiersOf lead (tokens.map Prod.snd))
            <$> convertBase ctx base (String.ofList (spelled lead base tokens)) scope
              ((tokens.map Prod.snd).contains .pointer))
      ∧ (Harmonious (tokens.map Prod.snd) ↔ (tokens.map Prod.snd).count .pointer ≤ 1
        ∧ (tokens.map Prod.snd).count .reference ≤ 1
        ∧ ¬ [Mark.reference, .pointer].Sublist (tokens.map Prod.snd))
      ∧ (∀ t, convert ctx (String.ofList (spelled lead base tokens)) scope = .ok t →
        t.mods = modifiersOf lead (tokens.map Prod.snd))
      ∧ (∀ lead' tokens', (tokens'.map Prod.snd).filter (· ≠ .const) = (tokens.map Prod.snd).filter (· ≠ .const) →
        (lead' || (tokens'.map Prod.snd).contains .const) = (lead || (tokens.map Prod.snd).contains .const) →
        ∀ t, convert ctx (String.ofList (spelled lead' base tokens')) scope = .ok t
          ↔ convert ctx (String.ofList (spelled lead base tokens)) scope = .ok t) := by
  have hok : ∀ lead tokens t, convert ctx (String.ofList (spelled lead base tokens)) scope = .ok t
      ↔ Harmonious (tokens.map Prod.snd) ∧ ∃ r, convertBase ctx base (String.ofList base) scope
          ((tokens.map Prod.snd).contains .pointer) = .ok r ∧ ctx.marked (modifiersOf lead (tokens.map Prod.snd)) r = t := by
    intro lead tokens t
    by_cases h : Harmonious (tokens.map Prod.snd)
    · simp only [convert_of_harmonious hbase h, map_eq_ok, h, true_and]
      exact exists_congr fun r => and_congr_left' convertBase_eq_ok_iff
    · obtain ⟨left, mark, right, hsplit, hright, hclash⟩ := exists_clash h
      rw [convert_of_clash hbase hsplit hright hclash]
      simp [h]
  refine ⟨fun left mark right => convert_of_clash hbase, convert_of_harmonious hbase, harmonious_iff, ?_, ?_⟩
  · intro t ht
    obtain ⟨-, r, -, rfl⟩ := (hok lead tokens t).1 ht
    exact mods_marked ctx _ r
  · intro lead' tokens' hmarks hconst t
    have hkept : ∀ mark : Mark, mark ≠ .const →
        (tokens'.map Prod.snd).contains mark = (tokens.map Prod.snd).contains mark := fun mark h => by
      rw [← contains_filter h, hmarks, contains_filter h]
    have hmods : modifiersOf lead' (tokens'.map Prod.snd) = modifiersOf lead (tokens.map Prod.snd) := by
      simp only [modifiersOf, hkept .pointer (by decide), hkept .reference (by decide), hconst]
    rw [hok, hok, ← harmonious_filter, hmarks, harmonious_filter, hkept .pointer (by decide), hmods]

/-- A class of a scope. -/
def meshContext : Context where
  known := { classes := NameSet.ofNames ["::Gfx::Mesh"] }
  templates := ∅
  patches := {}

theorem mesh_marks_read : IsBase "Mesh".toList
    ∧ convert meshContext "Mesh  * const &" "::Gfx"
      = .ok (.record ⟨"Mesh", "::Gfx", none, false⟩ { isPointer := true, isReference := true, isConst := true })
    ∧ convert meshContext "const Mesh & *" "::Gfx" = .error (.unhandledType "const Mesh & *") := by
  have hbase : IsBase "Mesh".toList :=
    ⟨by decide, isSolid_of_isIdentifier (by decide), by decide, by decide, by decide, by decide, by decide⟩
  obtain ⟨-, hread, -⟩ := trailing_marks_exact meshContext "::Gfx" _ hbase false
    [(1, .pointer), (0, .const), (0, .reference)]
  obtain ⟨hrefused, -⟩ := trailing_marks_exact meshContext "::Gfx" _ hbase true [(0, .reference), (0, .pointer)]
  have hclass : convertBase meshContext "Mesh".toList "Mesh  * const &" "::Gfx" true
      = .ok (.record ⟨"Mesh", "::Gfx", none, false⟩ {}, true) := by with_unfolding_all rfl
  refine ⟨hbase, (hread (by decide)).trans ?_, hrefused [] .reference [.pointer] rfl (by decide) (by decide)⟩
  rw [show ([(1, Mark.pointer), (0, .const), (0, .reference)].map Prod.snd).contains .pointer = true by decide]
  exact (congrArg _ hclass).trans rfl

end LuaGlue
