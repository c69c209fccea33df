import LuaGlue.Proofs.Spelling.Cuts
import LuaGlue.Proofs.Spelling.Refs
import LuaGlue.Proofs.Spelling.TopLevel
import Mathlib.Data.List.Basic

/-!
How a written type is read.

A type that is written out is a name with marks around it, or a function type made of such. If its names are made
of the characters of identifiers then nothing in them is taken for a mark, a bracket or a separator, and reading
finds the very parts that were written (`convertChars_written`, `convertChars_pointerText`).

    const Mesh*                     const    Mesh    *
    bool(*)(const Mesh*, int32_t)   bool     [const Mesh*, int32_t]
-/

namespace LuaGlue.Spelling

/-! ### Lists -/

/-- Is the text one piece of a list, which is neither trimmed nor cut any further? -/
structure IsPiece (s : List Char) : Prop where
  ne_nil : s ≠ []
  solid : Text.IsSolid s
  commaFree : ',' ∉ s
  level : ∀ c ∈ s, nesting c = 0

/-- The list with a comma and a blank between any two pieces. -/
def listed (pieces : List (List Char)) : List Char := ", ".toList.intercalate pieces

theorem listed_cons_cons (s t : List Char) (rest : List (List Char)) :
    listed (s :: t :: rest) = s ++ ',' :: ' ' :: listed (t :: rest) := by
  simp [listed, List.intercalate]

theorem listed_singleton (s : List Char) : listed [s] = s := by
  simp [listed, List.intercalate]

theorem listed_ne_nil {s : List Char} (hs : s ≠ []) (rest : List (List Char)) : listed (s :: rest) ≠ [] := by
  cases rest with
  | nil => rwa [listed_singleton]
  | cons t rest => simp [listed_cons_cons]

/-- Only a list of one piece has no comma. -/
theorem listed_eq_iff {pieces : List (List Char)} {s : List Char} (hs : s ≠ []) (hcomma : ',' ∉ s) :
    listed pieces = s ↔ pieces = [s] := by
  match pieces with
  | [] => simpa [listed, List.intercalate] using Ne.symm hs
  | [t] => simp [listed_singleton]
  | t :: u :: rest =>
    rw [listed_cons_cons]
    refine iff_of_false (fun heq => hcomma ?_) (by simp)
    simp [← heq]

/-- A piece has neither brackets nor commas. -/
theorem IsPiece.isItem {s : List Char} (h : IsPiece s) : IsItem s := by
  refine ⟨⟨?_, depth_eq_zero h.level⟩, ?_⟩
  · rintro before after rfl
    exact Int.le_of_eq (depth_eq_zero fun c hc => h.level c (List.mem_append_left after hc)).symm
  · rintro ⟨before, after, rfl, -⟩
    exact h.commaFree (by simp)

/-- The blank behind a comma is no part of the next piece. -/
theorem piecesFrom_listed {pieces : List (List Char)} (h : ∀ s ∈ pieces, IsPiece s) {lead : List Char}
    (hlead : ∀ c ∈ lead, Text.isBlank c = true) : piecesFrom 0 lead (listed pieces) = pieces := by
  induction pieces generalizing lead with
  | nil =>
    have htrim := Text.trim_blank_append hlead []
    rw [List.append_nil] at htrim
    rw [show listed [] = [] from rfl, piecesFrom, htrim]
    rfl
  | cons s rest ih =>
    obtain ⟨hs, hrest⟩ := List.forall_mem_cons.1 h
    have htrim : Text.trim (lead ++ s) = s := by
      rw [Text.trim_blank_append hlead, Text.trim_of_isSolid hs.solid]
    cases rest with
    | nil =>
      have hread := hs.isItem.piecesFrom_append lead []
      rw [List.append_nil] at hread
      rw [listed_singleton, hread, piecesFrom, htrim, if_neg (by simpa using hs.ne_nil)]
    | cons t rest =>
      have hblank : ∀ c ∈ [' '], Text.isBlank c = true := List.forall_mem_singleton.2 (by decide)
      rw [listed_cons_cons, hs.isItem.piecesFrom_append, piecesFrom, if_pos ⟨rfl, rfl⟩, htrim,
        piecesFrom, if_neg (by decide)]
      exact congrArg (s :: ·) (ih hrest hblank)

/-- The pieces that a list was put together from. -/
theorem splitTopLevel_listed {pieces : List (List Char)} (h : ∀ s ∈ pieces, IsPiece s) :
    splitTopLevel (listed pieces) = pieces := piecesFrom_listed h (List.forall_mem_nil _)

/-- A list begins as its first piece does, and ends as its last one does. -/
theorem isSolid_listed {pieces : List (List Char)} (h : ∀ s ∈ pieces, IsPiece s) : Text.IsSolid (listed pieces) := by
  induction pieces with
  | nil => constructor <;> simp [listed, List.intercalate]
  | cons s rest ih =>
    obtain ⟨hs, hrest⟩ := List.forall_mem_cons.1 h
    cases rest with
    | nil =>
      rw [listed_singleton]
      exact hs.solid
    | cons t rest =>
      have hlast : listed (t :: rest) ≠ [] := listed_ne_nil (hrest t List.mem_cons_self).ne_nil rest
      rw [listed_cons_cons]
      obtain ⟨hfirst, -⟩ := hs.solid
      obtain ⟨-, hend⟩ := ih hrest
      constructor
      · rwa [List.head?_append_of_ne_nil _ hs.ne_nil]
      · rw [List.getLast?_append_of_ne_nil _ (by simp), List.getLast?_cons_cons, List.getLast?_cons_of_ne_nil hlast]
        exact hend

/-! ### Names -/

theorem toNat_of_isAlphanum {c : Char} (h : c.isAlphanum = true) :
    (48 ≤ c.toNat ∧ c.toNat ≤ 57) ∨ (65 ≤ c.toNat ∧ c.toNat ≤ 90) ∨ (97 ≤ c.toNat ∧ c.toNat ≤ 122) := by
  have hkinds : ((c.isUpper || c.isLower) || c.isDigit) = true := h
  rw [Bool.or_eq_true, Bool.or_eq_true] at hkinds
  rcases hkinds with (hupper | hlower) | hdigit
  · exact .inr (.inl (of_decide_eq_true hupper))
  · obtain ⟨hleast, hmost⟩ := Bool.and_eq_true_iff.1 hlower
    exact .inr (.inr ⟨of_decide_eq_true hleast, of_decide_eq_true hmost⟩)
  · obtain ⟨hleast, hmost⟩ := Bool.and_eq_true_iff.1 hdigit
    exact .inl ⟨of_decide_eq_true hleast, of_decide_eq_true hmost⟩

/-- Can the character stand in an identifier? -/
def isNameChar (c : Char) : Bool := c.isAlphanum || c = '_' || c = ':'

theorem isBlank_of_isNameChar {c : Char} (h : isNameChar c = true) : Text.isBlank c = false := by
  simp only [isNameChar, Bool.or_eq_true, decide_eq_true_eq] at h
  rcases h with (halphanum | rfl) | rfl
  · have hrange := toNat_of_isAlphanum halphanum
    simp [Text.isBlank, Text.blankRanges]
    omega
  · decide
  · decide

section Names

variable {name : List Char}

theorem forall_isNameChar (h : isIdentifier name = true) : ∀ c ∈ name, isNameChar c = true := by
  rw [isIdentifier, Bool.and_eq_true, List.all_eq_true] at h
  exact h.2

theorem ne_nil_of_isIdentifier (h : isIdentifier name = true) : name ≠ [] := by
  rw [isIdentifier, Bool.and_eq_true] at h
  simpa using h.1

/-- Marks, brackets, commas and white space are not in an identifier. -/
theorem not_mem_of_isIdentifier (h : isIdentifier name = true) {c : Char} (hc : isNameChar c = false) : c ∉ name :=
  fun hmem => by simp [forall_isNameChar h c hmem] at hc

theorem isSolid_of_isIdentifier (h : isIdentifier name = true) : Text.IsSolid name :=
  ⟨fun c hc => isBlank_of_isNameChar (forall_isNameChar h c (List.mem_of_mem_head? hc)),
    fun c hc => isBlank_of_isNameChar (forall_isNameChar h c (List.mem_of_mem_getLast? hc))⟩

/-! ### Marks -/

/-- A name with marks around it. -/
def written (m : Modifiers) (name : List Char) : List Char :=
  (if m.isConst then "const ".toList else []) ++ (name ++ m.marks.toList)

section StripMarks

variable {whole : String} {m : Modifiers} {text rest : List Char}

/-- A text that does not end in a mark is what is left. -/
theorem stripMarks_done (htrim : Text.trimEnd text = text) (href : Text.stripBack? ['&'] text = none)
    (hconst : Text.stripBack? " const".toList text = none) (hptr : Text.stripBack? ['*'] text = none) :
    stripMarks whole m text = .ok (text, m) := by
  rw [← htrim] at href hconst hptr
  rw [stripMarks]
  split
  · next found hfound => cases href.symm.trans hfound
  split
  · next found hfound => cases hconst.symm.trans hfound
  split
  · next found hfound => cases hptr.symm.trans hfound
  · rw [htrim]

theorem trimEnd_mark {c : Char} (hc : Text.isBlank c = false) (text : List Char) :
    Text.trimEnd (text ++ [c]) = text ++ [c] :=
  Text.trimEnd_append (List.cons_ne_nil c []) (by simp [Text.IsSolid, hc]) text

theorem stripMarks_reference : stripMarks whole m (text ++ ['&'])
    = if m.isReference || m.isPointer then .error (.unhandledType whole)
      else stripMarks whole { m with isReference := true } text := by
  have hback : Text.stripBack? ['&'] (Text.trimEnd (text ++ ['&'])) = some text := by
    rw [trimEnd_mark (by decide), Text.stripBack?_append]
  rw [stripMarks]
  split
  · next found hfound =>
    obtain rfl := Option.some.inj (hback.symm.trans hfound)
    rfl
  · next hnone => cases hback.symm.trans hnone

theorem stripMarks_pointer : stripMarks whole m (text ++ ['*'])
    = if m.isPointer then .error (.multiLevelPointer whole)
      else stripMarks whole { m with isPointer := true } text := by
  have hother : ∀ (pattern : List Char) {p : Char}, p ≠ '*' →
      Text.stripBack? (pattern ++ [p]) (Text.trimEnd (text ++ ['*'])) = none := fun pattern p hp => by
    rw [trimEnd_mark (by decide), Text.stripBack?_concat_of_ne hp]
  have href : Text.stripBack? ['&'] (Text.trimEnd (text ++ ['*'])) = none := hother [] (by decide)
  have hconst : Text.stripBack? " const".toList (Text.trimEnd (text ++ ['*'])) = none :=
    hother " cons".toList (p := 't') (by decide)
  have hback : Text.stripBack? ['*'] (Text.trimEnd (text ++ ['*'])) = some text := by
    rw [trimEnd_mark (by decide), Text.stripBack?_append]
  rw [stripMarks]
  split
  · next found hfound => cases href.symm.trans hfound
  split
  · next found hfound => cases hconst.symm.trans hfound
  split
  · next found hfound =>
    obtain rfl := Option.some.inj (hback.symm.trans hfound)
    rfl
  · next hnone => cases hback.symm.trans hnone

theorem stripMarks_const :
    stripMarks whole m (text ++ " const".toList) = stripMarks whole { m with isConst := true } text := by
  have htrim : Text.trimEnd (text ++ " const".toList) = text ++ " const".toList := by
    rw [show " const".toList = " cons".toList ++ ['t'] from rfl, ← List.append_assoc, trimEnd_mark (by decide)]
  have href : Text.stripBack? ['&'] (Text.trimEnd (text ++ " const".toList)) = none := by
    rw [htrim, show " const".toList = " cons".toList ++ ['t'] from rfl, ← List.append_assoc]
    exact @Text.stripBack?_concat_of_ne [] _ _ _ (by decide)
  have hback : Text.stripBack? " const".toList (Text.trimEnd (text ++ " const".toList)) = some text := by
    rw [htrim, Text.stripBack?_append]
  rw [stripMarks]
  split
  · next found hfound => cases href.symm.trans hfound
  split
  · next found hfound =>
    obtain rfl := Option.some.inj (hback.symm.trans hfound)
    rfl
  · next hnone => cases hback.symm.trans hnone

/-- White space behind a text is no part of it. -/
theorem stripMarks_blanks {blanks : List Char} (h : ∀ c ∈ blanks, Text.isBlank c = true) :
    stripMarks whole m (text ++ blanks) = stripMarks whole m text := by
  have htrim := Text.trimEnd_append_blank h text
  rw [stripMarks, htrim, ← stripMarks]

end StripMarks

theorem stripMarks_name (h : isIdentifier name = true) (whole : String) (m : Modifiers) :
    stripMarks whole m name = .ok (name, m) := by
  have hback : ∀ {pattern : List Char} {c : Char}, c ∈ pattern → isNameChar c = false →
      Text.stripBack? pattern name = none :=
    fun hc hchar => Text.stripBack?_eq_none hc (not_mem_of_isIdentifier h hchar)
  exact stripMarks_done (Text.trimEnd_append (ne_nil_of_isIdentifier h) (isSolid_of_isIdentifier h) [])
    (hback (c := '&') (by decide) (by decide)) (hback (c := ' ') (by decide) (by decide))
    (hback (c := '*') (by decide) (by decide))

theorem toList_marks (m : Modifiers) : m.marks.toList
    = (if m.isPointer then ['*'] else []) ++ (if m.isReference then ['&'] else []) := by
  rw [Modifiers.marks, String.toList_append]
  cases m.isPointer <;> cases m.isReference <;> rfl

/-- The marks behind a name are the ones that are found. -/
theorem stripMarks_marks (h : isIdentifier name = true) (whole : String) (m : Modifiers) :
    stripMarks whole { isConst := m.isConst } (name ++ m.marks.toList) = .ok (name, m) := by
  have hread := fun m => stripMarks_name h whole m
  obtain ⟨isPointer, isReference, isConst⟩ := m
  rw [toList_marks]
  cases isPointer <;> cases isReference <;>
    simp only [Bool.false_eq_true, ↓reduceIte, List.append_nil, List.nil_append]
  · exact hread _
  · rw [stripMarks_reference, if_neg (by simp)]
    exact hread _
  · rw [stripMarks_pointer, if_neg (by simp)]
    exact hread _
  · rw [← List.append_assoc, stripMarks_reference, if_neg (by simp), stripMarks_pointer, if_neg (by simp)]
    exact hread _

theorem not_mem_marks (m : Modifiers) {c : Char} (hmark : c ∉ ['*', '&']) : c ∉ m.marks.toList := by
  rw [toList_marks]
  refine fun hmem => hmark ?_
  revert hmem
  cases m.isPointer <;> cases m.isReference <;> simp <;> grind

theorem not_mem_marked (h : isIdentifier name = true) (m : Modifiers) {c : Char} (hc : isNameChar c = false)
    (hmark : c ∉ ['*', '&']) : c ∉ name ++ m.marks.toList := by
  rw [List.mem_append, not_or]
  exact ⟨not_mem_of_isIdentifier h hc, not_mem_marks m hmark⟩

theorem splitMarks_written (h : isIdentifier name = true) (m : Modifiers) :
    splitMarks (written m name) = .ok (name, m) := by
  have htrim := Text.trim_of_isSolid (isSolid_of_isIdentifier h)
  have hmarks := fun whole => stripMarks_marks h whole m
  unfold splitMarks written
  cases hconst : m.isConst with
  | false =>
    rw [hconst] at hmarks
    have hfront : Text.stripFront? "const ".toList (name ++ m.marks.toList) = none :=
      Text.stripFront?_eq_none (c := ' ') (by decide) (not_mem_marked h m (by decide) (by decide))
    simp only [Bool.false_eq_true, ↓reduceIte, List.nil_append, hfront, hmarks]
    simp [bind, Except.bind, pure, Except.pure, htrim]
  | true =>
    rw [hconst] at hmarks
    have hstart := Text.trimStart_append (ne_nil_of_isIdentifier h) (isSolid_of_isIdentifier h) m.marks.toList
    simp only [↓reduceIte, Text.stripFront?_append, hstart, hmarks]
    simp [bind, Except.bind, pure, Except.pure, htrim]

theorem mem_written {m : Modifiers} {c : Char} (hc : c ∈ written m name) :
    c ∈ "const ".toList ∨ c ∈ name ++ m.marks.toList := by
  rw [written, List.mem_append] at hc
  refine hc.imp_left fun hconst => ?_
  split at hconst
  · exact hconst
  · cases hconst

theorem isSolid_written (h : isIdentifier name = true) (m : Modifiers) : Text.IsSolid (written m name) := by
  have hsolid := isSolid_of_isIdentifier h
  have hname := ne_nil_of_isIdentifier h
  have hmarks : Text.IsSolid (name ++ m.marks.toList) := by
    rw [toList_marks]
    refine ⟨by rw [List.head?_append_of_ne_nil _ hname]; exact hsolid.1, ?_⟩
    cases m.isPointer <;> cases m.isReference
    · simpa using hsolid.2
    all_goals simp [Text.isBlank, Text.blankRanges]
  unfold written
  cases m.isConst with
  | false => exact hmarks
  | true =>
    refine ⟨by simp [Text.isBlank, Text.blankRanges], ?_⟩
    rw [List.getLast?_append_of_ne_nil _ (by simp [hname])]
    exact hmarks.2

/-- A written name is one piece of a list. -/
theorem isPiece_written (h : isIdentifier name = true) (m : Modifiers) : IsPiece (written m name) where
  ne_nil := by simp [written, ne_nil_of_isIdentifier h]
  solid := isSolid_written h m
  commaFree hcomma := by
    have hconst : ',' ∉ "const ".toList := by decide
    exact (mem_written hcomma).elim hconst (not_mem_marked h m (by decide) (by decide))
  level c hc := by
    have hconst : ∀ c ∈ "const ".toList, nesting c = 0 := List.forall_iff_forall_mem.1 (by decide)
    rcases mem_written hc with hc | hc
    · exact hconst c hc
    · rw [nesting, if_neg, if_neg]
      all_goals
        rintro (rfl | rfl) <;> exact not_mem_marked h m (by decide) (by decide) hc

end Names

/-! ### Reading -/

section Reading

variable {ctx : Context} {scope : String} {spelling base : List Char} {m : Modifiers}

/-- A spelling without parts is the type of its shape, with the marks. -/
theorem convertChars_of_leaf {t : CxxType} (hmarks : splitMarks (Text.trim spelling) = .ok (base, m))
    (hshape : shape ctx base (String.ofList (Text.trim spelling)) scope m.isPointer = .ok (.leaf t)) :
    convertChars ctx scope spelling = .ok (ctx.patches.adjust (t.withMods m)) := by
  rw [convertChars_eq]
  exact bind_eq_ok.2 ⟨_, hmarks, bind_eq_ok.2 ⟨_, hshape, rfl⟩⟩

/-- A spelling whose shape is refused is refused. -/
theorem convertChars_of_error {reason : SkipReason} (hmarks : splitMarks (Text.trim spelling) = .ok (base, m))
    (hshape : shape ctx base (String.ofList (Text.trim spelling)) scope m.isPointer = .error reason) :
    convertChars ctx scope spelling = .error reason := by
  rw [convertChars_eq, hmarks]
  simp only [bind, Except.bind, hshape]

/-- A spelling of a function type is made of the types that its parts spell. -/
theorem convertChars_of_function {result : List Char} {params : List (List Char)} {hasStorage : Bool}
    (hmarks : splitMarks (Text.trim spelling) = .ok (base, m))
    (hshape : shape ctx base (String.ofList (Text.trim spelling)) scope m.isPointer
      = .ok (.function result params hasStorage)) :
    convertChars ctx scope spelling = do
      let resultType ← convertChars ctx scope result
      let paramTypes ← params.mapM (convertChars ctx scope)
      return .function paramTypes resultType hasStorage m := by
  rw [convertChars_eq, hmarks]
  simp only [bind, Except.bind, hshape]

end Reading

/-- The type that a name stands for when it is read in the global namespace with these marks. -/
def Context.readName (ctx : Context) (name : String) (m : Modifiers) : Except SkipReason CxxType :=
  match builtin? (String.ofList (Scope.dropSeparators name.toList)) m.isPointer with
  | some builtin => builtin.map fun t => ctx.patches.adjust (t.withMods m)
  | none =>
    match resolve ctx.known.enums name "" with
    | some qualified => .ok (.enum qualified m)
    | none =>
      let qualified := (resolve ctx.known.classes name "").getD (Scope.fromGlobal name)
      .ok (ctx.patches.adjust (.record (classRef qualified none) m))

section Names

variable {ctx : Context} {name : List Char}

/-- A name has no keyword in front and no brackets, so its shape is that of a builtin or of a name. -/
theorem shape_name (ctx : Context) (h : isIdentifier name = true) (whole scope : String) (isPointer : Bool) :
    shape ctx name whole scope isPointer
      = match builtin? (String.ofList (Scope.dropSeparators name)) isPointer with
        | some builtin => builtin.map .leaf
        | none => nameShape ctx name whole scope := by
  have hmissing := fun {c : Char} (hc : isNameChar c = false) => not_mem_of_isIdentifier h hc
  have hclosure : closure? name = none := by
    rw [closure?, Text.stripFront?_eq_none (c := '<') (by decide) (hmissing (by decide))]
    rfl
  have hpointer : functionPointer? name = none := by
    cases hbreak : Text.breakFirst? "(*)".toList name with
    | none =>
      rw [functionPointer?, hbreak]
      rfl
    | some halves =>
      refine absurd ?_ (hmissing (c := '(') (by decide))
      rw [Text.breakFirst?_eq_some hbreak]
      simp
  have hkeyword : ∀ keyword : String, ' ' ∈ keyword.toList → Text.stripFront? keyword.toList name = none :=
    fun _ hc => Text.stripFront?_eq_none hc (hmissing (by decide))
  have hbracket : name.contains '<' = false := by simpa using hmissing (c := '<') (by decide)
  unfold shape
  simp only [hclosure, hpointer, hkeyword "enum " (by decide), hkeyword "struct " (by decide),
    hkeyword "class " (by decide), hbracket]
  cases builtin? (String.ofList (Scope.dropSeparators name)) isPointer <;> rfl

/-- Reading a written name finds the name and the marks again. -/
theorem convertChars_written (h : isIdentifier name = true) (m : Modifiers) :
    convertChars ctx "" (written m name) = ctx.readName (String.ofList name) m := by
  have hmarks : splitMarks (Text.trim (written m name)) = .ok (name, m) := by
    rw [Text.trim_of_isSolid (isSolid_written h m), splitMarks_written h m]
  have hshape := shape_name ctx h (String.ofList (Text.trim (written m name))) "" m.isPointer
  rw [Context.readName, String.toList_ofList]
  cases hbuiltin : builtin? (String.ofList (Scope.dropSeparators name)) m.isPointer with
  | some builtin =>
    rw [hbuiltin] at hshape
    cases builtin with
    | error reason => exact convertChars_of_error hmarks hshape
    | ok t => exact convertChars_of_leaf hmarks hshape
  | none =>
    rw [hbuiltin] at hshape
    simp only [nameShape, h, Bool.not_true, Bool.false_eq_true, ↓reduceIte] at hshape
    cases henum : resolve ctx.known.enums (String.ofList name) "" with
    | some qualified =>
      rw [henum] at hshape
      exact convertChars_of_leaf hmarks hshape
    | none =>
      rw [henum] at hshape
      exact convertChars_of_leaf hmarks hshape

end Names

/-! ### Reading a function pointer -/

/-- A pointer to a function with this result and these parameters, written out. -/
def pointerText (result : List Char) (params : List (List Char)) : List Char :=
  result ++ "(*)".toList ++ ('(' :: (listed params ++ [')']))

section FunctionPointer

variable {result : List Char} {params : List (List Char)}

theorem functionShape_written (hresult : '(' ∉ result) (hparams : ∀ s ∈ params, IsPiece s) (whole : String)
    (hasStorage : Bool) :
    functionShape (result ++ '(' :: (listed params ++ [')'])) whole hasStorage
      = .ok (.function result (if params = ["void".toList] then [] else params) hasStorage) := by
  have hopen : Text.breakAt? (· = '(') (result ++ '(' :: (listed params ++ [')']))
      = some (result, listed params ++ [')']) := Text.breakAt?_append (by grind) (by decide) _
  have hclose : Text.breakAtLast? (· = ')') (listed params ++ [')']) = some (listed params, []) :=
    Text.breakAtLast?_append (by decide) (by simp) _
  rw [functionShape]
  simp only [hopen, hclose, Text.trim_of_isSolid (isSolid_listed hparams), splitTopLevel_listed hparams,
    listed_eq_iff (s := "void".toList) (by decide) (by decide)]
  cases params with
  | nil => rfl
  | cons s rest =>
    have hfilled : (listed (s :: rest)).isEmpty = false := by
      simpa using listed_ne_nil (hparams s List.mem_cons_self).ne_nil rest
    simp [hfilled]

theorem functionPointer?_pointerText (hresult : '(' ∉ result) :
    functionPointer? (pointerText result params) = some (result ++ '(' :: (listed params ++ [')'])) := by
  rw [functionPointer?, pointerText, show "(*)".toList = '(' :: ['*', ')'] from rfl, Text.breakFirst?_append hresult]
  rfl

theorem pointerText_eq (result : List Char) (params : List (List Char)) :
    pointerText result params = result ++ '(' :: ("*)(".toList ++ listed params ++ [')']) := by
  simp [pointerText]

/-- The text of a function pointer ends in a parenthesis, which is no mark. -/
theorem stripMarks_pointerText (whole : String) (m : Modifiers) :
    stripMarks whole m (pointerText result params) = .ok (pointerText result params, m) := by
  obtain ⟨front, hfront⟩ : ∃ front, pointerText result params = front ++ [')'] :=
    ⟨result ++ "(*)".toList ++ ('(' :: listed params), by simp [pointerText]⟩
  have hother : ∀ (pattern : List Char) {p : Char}, p ≠ ')' →
      Text.stripBack? (pattern ++ [p]) (front ++ [')']) = none := fun _ _ hp => Text.stripBack?_concat_of_ne hp
  rw [hfront]
  exact stripMarks_done (trimEnd_mark (by decide) front) (hother [] (by decide))
    (hother " cons".toList (p := 't') (by decide)) (hother [] (by decide))

variable (hsolid : Text.IsSolid result) (hfilled : result ≠ []) (hplain : ∀ c ∈ [' ', '(', '<'], c ∉ result)

include hsolid hfilled in
theorem trim_pointerText : Text.trim (pointerText result params) = pointerText result params := by
  have hclose : Text.IsSolid [')'] := by simp [Text.IsSolid, Text.isBlank, Text.blankRanges]
  have htrim := Text.trim_append hfilled (List.cons_ne_nil ')' []) hsolid hclose
    ("(*)".toList ++ ('(' :: listed params))
  simpa [pointerText] using htrim

include hplain in
/-- The parenthesis behind the result is not in a keyword. -/
theorem stripFront?_pointerText (word : List Char) {x : Char} (hword : ∀ c ∈ [' ', '(', '<'], c ∉ word)
    (hx : x ∈ [' ', '<']) (rest : List Char) :
    Text.stripFront? (word ++ x :: rest) (pointerText result params) = none := by
  have htest : ∀ {text : List Char}, (∀ c ∈ [' ', '(', '<'], c ∉ text) →
      ∀ c ∈ text, [' ', '(', '<'].contains c = false := by
    intro text htext c hc
    rw [List.contains_eq_mem, decide_eq_false_iff_not]
    exact fun hmem => htext c hmem hc
  rw [pointerText_eq]
  refine Text.stripFront?_eq_none_of_ne (htest hword) (htest hplain) ?_ (by decide) ?_ _ _
  · simp only [List.mem_cons, List.not_mem_nil, or_false] at hx
    rcases hx with rfl | rfl <;> decide
  · simp only [List.mem_cons, List.not_mem_nil, or_false] at hx
    rcases hx with rfl | rfl <;> decide

include hsolid hfilled hplain in
theorem splitMarks_pointerText : splitMarks (pointerText result params) = .ok (pointerText result params, {}) := by
  have hfront : Text.stripFront? "const ".toList (pointerText result params) = none :=
    stripFront?_pointerText hplain "const".toList (by simp) (by decide) []
  unfold splitMarks
  rw [hfront]
  simp [bind, Except.bind, pure, Except.pure, stripMarks_pointerText, trim_pointerText hsolid hfilled]

include hplain in
theorem shape_pointerText (hparams : ∀ s ∈ params, IsPiece s) (ctx : Context) (whole scope : String)
    (isPointer : Bool) : shape ctx (pointerText result params) whole scope isPointer
      = .ok (.function result (if params = ["void".toList] then [] else params) false) := by
  have hopen : '(' ∉ result := hplain '(' (by decide)
  have hclosure : closure? (pointerText result params) = none := by
    rw [closure?, show "std::function<".toList = "std::function".toList ++ '<' :: [] from rfl,
      stripFront?_pointerText hplain "std::function".toList (by simp) (by decide)]
    rfl
  unfold shape
  simp only [hclosure, functionPointer?_pointerText hopen]
  exact functionShape_written hopen hparams whole false

include hsolid hfilled hplain in
/-- Reading the text of a function pointer reads its result and its parameters. -/
theorem convertChars_pointerText (hparams : ∀ s ∈ params, IsPiece s) (ctx : Context) (scope : String) :
    convertChars ctx scope (pointerText result params) = do
      let resultType ← convertChars ctx scope result
      let paramTypes ← (if params = ["void".toList] then [] else params).mapM (convertChars ctx scope)
      return .function paramTypes resultType false {} := by
  have hmarks : splitMarks (Text.trim (pointerText result params)) = .ok (pointerText result params, {}) := by
    rw [trim_pointerText hsolid hfilled, splitMarks_pointerText hsolid hfilled hplain]
  exact convertChars_of_function hmarks (shape_pointerText hplain hparams ctx _ scope false)

end FunctionPointer

end LuaGlue.Spelling
