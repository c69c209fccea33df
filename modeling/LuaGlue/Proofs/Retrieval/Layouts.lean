import LuaGlue.Proofs.Retrieval.Checked
import LuaGlue.Text.Blank

/-!
The code for an argument in a body and in a branch.

An argument is read at one of two places: in the body of a function with one overload, or in the branch of
one of several. Indentation and blank lines apart (`Text.statements`) a slot is read alike at both
(`statements_render`), unless it holds a text by reference that is not widened. A body copies that, a branch
binds it.

    body      luaL_argcheck(..);  auto param_1 = std::string{..};
    branch    luaL_argcheck(..);  auto& param_1 = std::string{..};
-/

namespace LuaGlue

/-! ### Statements of a text -/

namespace Text

/-- The lines of a text without their indentation, the blank ones left out. -/
def statements (text : String) : List String :=
  (((text.toList.splitOn '\n').map trimStart).filter (!·.isEmpty)).map String.ofList

theorem splitOn_append {start : List Char} (hstart : '\n' ∉ start) (s : List Char) :
    (start ++ s).splitOn '\n' = (s.splitOn '\n').modifyHead (start ++ ·) := by
  induction start with
  | nil => exact (List.modifyHead_id).symm ▸ rfl
  | cons c start ih =>
    obtain ⟨hc, hstart⟩ := not_or.1 (List.mem_cons.not.1 hstart)
    have hne : (c == '\n') = false := beq_false_of_ne (Ne.symm hc)
    rw [List.cons_append, List.splitOn_cons_eq_if_modifyHead, hne, ih hstart, if_neg Bool.false_ne_true,
      List.modifyHead_modifyHead]
    rfl

/-- A line feed ends a statement. -/
theorem statements_feed (text rest : String) :
    statements (text ++ "\n" ++ rest) = statements text ++ statements rest := by
  have hsplit : (text ++ "\n" ++ rest).toList = text.toList ++ '\n' :: rest.toList := by
    simp [String.toList_append]
  rw [statements, hsplit, List.splitOn_append_cons_self, List.map_append, List.filter_append, List.map_append]
  rfl

theorem statements_blanks (n : Nat) (text : String) : statements (blanks n ++ text) = statements text := by
  have hnot : '\n' ∉ List.replicate n ' ' := fun h => absurd (List.eq_of_mem_replicate h) (by decide)
  have htrim (head : List Char) : trimStart (List.replicate n ' ' ++ head) = trimStart head :=
    List.dropWhile_append_of_pos fun c hc => by rw [List.eq_of_mem_replicate hc]; decide
  obtain ⟨head, tail, hlines⟩ := List.exists_cons_of_ne_nil (List.splitOn_ne_nil '\n' text.toList)
  rw [statements, statements, String.toList_append, blanks, String.toList_ofList, splitOn_append hnot, hlines,
    List.modifyHead_cons, List.map_cons, List.map_cons, htrim]

/-- How far a line is indented makes no difference. -/
theorem statements_line (indent : Nat) (text rest : String) :
    statements (line indent text ++ rest) = statements text ++ statements rest := by
  rw [line, statements_feed, statements_blanks]

theorem statements_lastLine (indent : Nat) (text : String) :
    statements (line indent text) = statements text := by
  have h := statements_line indent text ""
  rwa [String.append_empty, show statements "" = [] from rfl, List.append_nil] at h

/-- What a text begins with, its first statement begins with, unless that is blank. -/
theorem head_statements {text : String} {a : Char} {start more : List Char} (ha : isBlank a = false)
    (hstart : '\n' ∉ a :: start) (htext : text.toList = a :: start ++ more) :
    ∃ first rest, statements text = String.ofList (a :: start ++ first) :: rest := by
  obtain ⟨head, tail, hlines⟩ := List.exists_cons_of_ne_nil (List.splitOn_ne_nil '\n' more)
  refine ⟨head, ((tail.map trimStart).filter (!·.isEmpty)).map String.ofList, ?_⟩
  rw [statements, htext, splitOn_append hstart, hlines, List.modifyHead_cons, List.map_cons, trimStart,
    List.cons_append, List.dropWhile_cons_of_neg (by simp [ha])]
  rfl

/-- Texts that differ in their first line, behind more than blanks, have different statements. -/
theorem statements_ne {text text' : String} {more more' : List Char} (a : Char) (start : List Char) {c d : Char}
    (ha : isBlank a = false) (hstart : '\n' ∉ a :: start ++ [c, d]) (hne : c ≠ d)
    (htext : text.toList = a :: start ++ c :: more) (htext' : text'.toList = a :: start ++ d :: more') :
    statements text ≠ statements text' := by
  simp only [List.cons_append, List.mem_cons, List.mem_append, List.not_mem_nil, or_false, not_or] at hstart
  have hc : text.toList = a :: (start ++ [c]) ++ more := by simp [htext]
  have hd : text'.toList = a :: (start ++ [d]) ++ more' := by simp [htext']
  obtain ⟨first, rest, hfirst⟩ := head_statements ha (by simp [hstart]) hc
  obtain ⟨first', rest', hfirst'⟩ := head_statements ha (by simp [hstart]) hd
  intro h
  rw [hfirst, hfirst', List.cons.injEq, String.ofList_inj] at h
  simp [hne] at h

end Text

/-! ### One slot -/

variable {registry : Registry}

/-- A text by reference that is not widened. -/
def CxxType.isCopiedText (t : CxxType) : Bool := t.isText && !t.needsConversion && t.isReference

namespace Extraction

/-- The statements that read a slot do not depend on where they stand. -/
theorem statements_render (m n : Nat) (e : Extraction) :
    Text.statements (e.render m) = Text.statements (e.render n) := by
  match e with
  | .object fetch => rfl
  | .checked slot check (.direct byReference value) =>
    simp only [render, renderCheck, Text.statements_line, Text.statements_lastLine]
  | .checked slot check (.converted value conversion) =>
    simp only [render, renderCheck, String.append_assoc, Text.statements_line, Text.statements_lastLine]

/-- A parameter that is bound is declared by another statement than one that is copied. -/
theorem statements_direct_ne (m n slot : Nat) (check value : String) :
    Text.statements ((checked slot check (.direct false value)).render m)
      ≠ Text.statements ((checked slot check (.direct true value)).render n) := by
  simp only [render, renderCheck, Text.statements_line, Text.statements_lastLine, ne_eq,
    List.append_cancel_left_eq, Bool.false_eq_true, ↓reduceIte]
  exact Text.statements_ne 'a' "uto".toList (by decide) (by decide : '\n' ∉ "auto".toList ++ [' ', '&'])
    (by decide) (by simp [String.toList_append]; rfl) (by simp [String.toList_append]; rfl)

/-- Any other type is read by the same code at both places. -/
theorem ofType_eq {t : CxxType} (h : t.isCopiedText = false) (slot : Nat) (a b : Layout) :
    ofType a registry t slot = ofType b registry t slot := by
  unfold ofType
  cases t.fetch? slot with
  | some fetch => rfl
  | none =>
    cases hneeds : t.needsConversion with
    | true => rfl
    | false =>
      have hbinds (layout : Layout) : bindsReference layout t = t.isReference := by
        simp only [CxxType.isCopiedText, hneeds, Bool.not_false, Bool.and_true] at h
        cases layout with
        | body => cases hreference : t.isReference <;> simp_all [bindsReference]
        | branch => rfl
      simp only [hbinds]

/-- Such a text is copied in a body and bound in a branch. -/
theorem ofType_copiedText {t : CxxType} (h : t.isCopiedText = true) (slot : Nat) : ∃ check value,
    ofType .body registry t slot = .ok (.checked slot check (.direct false value))
      ∧ ofType .branch registry t slot = .ok (.checked slot check (.direct true value)) := by
  cases t with
  | text kind m =>
    simp only [CxxType.isCopiedText, Bool.and_eq_true, Bool.not_eq_true'] at h
    obtain ⟨⟨-, hneeds⟩, hreference⟩ := h
    obtain ⟨value, hvalue⟩ : ∃ value, (CxxType.text kind m).retrieve slot registry = .ok value := by
      cases kind <;> exact ⟨_, rfl⟩
    have hbody : bindsReference .body (.text kind m) = false := rfl
    have hbranch : bindsReference .branch (.text kind m) = true := hreference
    refine ⟨(CxxType.text kind m).validate slot, value, ?_, ?_⟩ <;>
    · unfold ofType
      simp only [CxxType.fetch?, hvalue, hneeds, hbody, hbranch]
      rfl
  | _ => cases h

/-- The statements that read a slot as this type. -/
def statementsOf (layout : Layout) (registry : Registry) (t : CxxType) (slot : Nat) :
    Except Abort (List String) :=
  (fun e => Text.statements (e.render layout.indent)) <$> ofType layout registry t slot

theorem statementsOf_ne {t : CxxType} (h : t.isCopiedText = true) (slot : Nat) :
    statementsOf .body registry t slot ≠ statementsOf .branch registry t slot := by
  obtain ⟨check, value, hbody, hbranch⟩ := @ofType_copiedText registry t h slot
  rw [statementsOf, statementsOf, hbody, hbranch]
  exact fun heq => statements_direct_ne _ _ slot check value (Except.ok.inj heq)

/-- Two places differ in how they read exactly the texts that one copies and the other binds. -/
theorem statementsOf_eq_iff {t : CxxType} {slot : Nat} {a b : Layout} :
    statementsOf a registry t slot = statementsOf b registry t slot ↔ a = b ∨ t.isCopiedText = false := by
  constructor
  · intro h
    refine or_iff_not_imp_right.2 fun hcopied => ?_
    have hne := @statementsOf_ne registry t (Bool.of_not_eq_false hcopied) slot
    cases a <;> cases b
    · rfl
    · exact absurd h hne
    · exact absurd h.symm hne
    · rfl
  · rintro (rfl | hcopied)
    · rfl
    · simp only [statementsOf, ofType_eq hcopied slot a b, statements_render a.indent b.indent]

end Extraction

/-! ### The code of a call -/

/-- The type of a parameter, by the index of its overload and its own. -/
def BoundFunction.paramType? (f : BoundFunction) (k i : Nat) : Option CxxType :=
  (f.overloads[k]?.bind (·[i]?)).map Param.type

namespace CallCode

variable {f : BoundFunction} {withCall : Bool} {code : CallCode}

/-- The code that reads an argument, by the index of the overload and that of the parameter. -/
def argument? (code : CallCode) (k i : Nat) : Option Extraction := code.extractions[k]?.bind (·[i]?)

/-- The code reads this argument, which has this type, by this text. -/
structure Reads (registry : Registry) (code : CallCode) (k i : Nat) (t : CxxType) (text : String) : Prop where
  argument : (code.argument? k i).map (·.render code.layout.indent) = some text
  /-- The text stands in that of the call. -/
  within : ∃ before after, code.render = before ++ text ++ after
  /-- Its statements are those that read the slot as the type. -/
  statements : Extraction.statementsOf code.layout registry t (i + 1) = .ok (Text.statements text)

theorem layout_eq_body_iff (h : CallCode.of f registry withCall = .ok code) :
    code.layout = .body ↔ f.overloads.length = 1 := by
  obtain ⟨o, extractions, hone, -, rfl⟩ | ⟨branches, hmany, -, rfl⟩ := of_cases h
  · simp [layout, hone]
  · simp only [layout, reduceCtorEq, false_iff]
    omega

/-- Each parameter is read as its type, at the place that the layout gives. -/
theorem exists_argument (h : CallCode.of f registry withCall = .ok code) {k i : Nat} {t : CxxType}
    (ht : f.paramType? k i = some t) : ∃ e, code.argument? k i = some e
      ∧ Extraction.ofType code.layout registry t (i + 1) = .ok e := by
  obtain ⟨param, hparam, rfl⟩ := Option.map_eq_some_iff.1 ht
  obtain ⟨o, ho, hi⟩ := Option.bind_eq_some_iff.1 hparam
  obtain ⟨extractions, hk, hreads⟩ := exists_getElem?_of_forall₂ (overloads_read h) ho
  have hat : o.zipIdx[i]? = some (param, i) := by simp [List.getElem?_zipIdx, hi]
  obtain ⟨e, he, htype⟩ := exists_getElem?_of_forall₂ (forall₂_of_mapM_ok hreads) hat
  exact ⟨e, by rw [argument?, hk, Option.bind_some, he], htype⟩

theorem infix_flatMap_of_mem {α β : Type} {l : List α} {a : α} (ha : a ∈ l) (g : α → List β) :
    g a <:+: l.flatMap g := by
  rw [List.flatMap_def]
  exact List.infix_of_mem_flatten (List.mem_map_of_mem ha)

/-- The pieces that read an argument stand together in the code. -/
theorem infix_pieces {k i : Nat} {e : Extraction} (h : code.argument? k i = some e) :
    e.pieces <:+: code.pieces := by
  obtain ⟨extractions, hk, hi⟩ := Option.bind_eq_some_iff.1 h
  have hblock : e.pieces <:+: extractions.flatMap Extraction.pieces :=
    infix_flatMap_of_mem (List.mem_of_getElem? hi) _
  refine hblock.trans ?_
  have hmem := List.mem_of_getElem? hk
  cases code with
  | single _ tail =>
    obtain rfl := List.mem_singleton.1 hmem
    exact (List.prefix_append _ _).isInfix
  | overloaded name candidates resultMarks branches =>
    obtain ⟨b, hb, rfl⟩ := List.mem_map.1 hmem
    have hbranch : b.extractions.flatMap Extraction.pieces <:+: b.pieces :=
      (List.prefix_append _ _).isInfix.trans (List.suffix_cons _ _).isInfix
    have hbranches : branches.flatMap Branch.pieces <:+: pieces (.overloaded name candidates resultMarks branches) :=
      (List.prefix_append _ _).isInfix.trans (List.suffix_cons _ _).isInfix
    exact hbranch.trans ((infix_flatMap_of_mem hb Branch.pieces).trans hbranches)

theorem exists_reads (h : CallCode.of f registry withCall = .ok code) {k i : Nat} {t : CxxType}
    (ht : f.paramType? k i = some t) : ∃ text, code.Reads registry k i t text := by
  obtain ⟨e, hargument, htype⟩ := exists_argument h ht
  obtain ⟨before, after, hpieces⟩ := infix_pieces hargument
  refine ⟨e.render code.layout.indent, by rw [hargument]; rfl, ⟨Piece.textAll code.layout before,
    Piece.gap.text code.layout ++ Piece.textAll code.layout after, ?_⟩, ?_⟩
  · rw [← code.textAll_pieces, ← hpieces, Piece.textAll_append, Piece.textAll_append, e.textAll_slot]
    simp only [String.append_assoc]
  · rw [Extraction.statementsOf, htype]
    rfl

end CallCode

/-- CORRECT: a body and a branch read a slot by the same statements, or fail alike, exactly when the type is
not a text by reference that is not widened. The code of two functions reads an argument of one type in
one slot by the same statements exactly when that is so, or when both functions have one overload or both
several. -/
theorem argument_statements_agree_iff (registry : Registry) (t : CxxType) :
    (∀ slot, Extraction.statementsOf .body registry t slot = Extraction.statementsOf .branch registry t slot
        ↔ t.isCopiedText = false)
      ∧ ∀ (f g : BoundFunction) (withCall withCall' : Bool) (code code' : CallCode),
        CallCode.of f registry withCall = .ok code → CallCode.of g registry withCall' = .ok code' →
        ∀ k k' i, f.paramType? k i = some t → g.paramType? k' i = some t →
        ∃ text text', code.Reads registry k i t text ∧ code'.Reads registry k' i t text'
          ∧ (Text.statements text = Text.statements text'
            ↔ (f.overloads.length = 1 ↔ g.overloads.length = 1) ∨ t.isCopiedText = false) := by
  refine ⟨fun slot => by simp [Extraction.statementsOf_eq_iff], ?_⟩
  intro f g withCall withCall' code code' hf hg k k' i hk hk'
  obtain ⟨text, htext⟩ := CallCode.exists_reads hf hk
  obtain ⟨text', htext'⟩ := CallCode.exists_reads hg hk'
  refine ⟨text, text', htext, htext', ?_⟩
  have hlayout : code.layout = code'.layout ↔ (f.overloads.length = 1 ↔ g.overloads.length = 1) := by
    rw [← CallCode.layout_eq_body_iff hf, ← CallCode.layout_eq_body_iff hg]
    cases code.layout <;> cases code'.layout <;> decide
  calc Text.statements text = Text.statements text'
      ↔ Extraction.statementsOf code.layout registry t (i + 1)
          = Extraction.statementsOf code'.layout registry t (i + 1) := by
        rw [htext.statements, htext'.statements, Except.ok.injEq]
    _ ↔ (f.overloads.length = 1 ↔ g.overloads.length = 1) ∨ t.isCopiedText = false := by
        rw [Extraction.statementsOf_eq_iff, hlayout]

/-- `Log(const std::string& line, int level)`. -/
def logLine : BoundFunction :=
  { BoundFunction.new "Log" "" CxxType.plainVoid with
    overloads := [[⟨"line", .text .narrow { isConst := true, isReference := true }⟩,
      ⟨"level", .numeric .int32 {}⟩]] }

/-- `Log(bool on)`. -/
def logSwitch : Overload := [⟨"on", .bool {}⟩]

/-- One more overload leaves the level as it is. -/
theorem log_level_kept : ∃ more code code' text text', logLine.addOverload logSwitch = .ok more
    ∧ CallCode.of logLine {} true = .ok code ∧ CallCode.of more {} true = .ok code'
    ∧ code.Reads {} 0 1 (.numeric .int32 {}) text ∧ code'.Reads {} 0 1 (.numeric .int32 {}) text'
    ∧ Text.statements text = Text.statements text' := by
  obtain ⟨text, text', htext, htext', hagree⟩ := (argument_statements_agree_iff {} (.numeric .int32 {})).2
    logLine { logLine with overloads := logLine.overloads ++ [logSwitch] } true true _ _ rfl rfl 0 0 1 rfl rfl
  exact ⟨_, _, _, text, text', rfl, rfl, rfl, htext, htext', hagree.2 (.inr rfl)⟩

/-- The line that was copied is bound once there is one more overload. -/
theorem log_line_rebound : ∃ more code code', logLine.addOverload logSwitch = .ok more
    ∧ CallCode.of logLine {} true = .ok code ∧ CallCode.of more {} true = .ok code'
    ∧ (code.argument? 0 0).map (fun e => Text.statements (e.render code.layout.indent))
        = some ["luaL_argcheck(lua_state, lua_isstring(lua_state, 1), 2, \"\");",
          "auto param_1 = std::string\x7blua_tostring(lua_state, 1)\x7d;"]
    ∧ (code'.argument? 0 0).map (fun e => Text.statements (e.render code'.layout.indent))
        = some ["luaL_argcheck(lua_state, lua_isstring(lua_state, 1), 2, \"\");",
          "auto& param_1 = std::string\x7blua_tostring(lua_state, 1)\x7d;"] :=
  ⟨_, _, _, rfl, rfl, rfl, by decide +kernel, by decide +kernel⟩

end LuaGlue
