import LuaGlue.Proofs.Retrieval.Parts

/-!
# Uses of variables in a generated text

The text is cut into words where a mark stands, and the uses of a variable are read off the words: the name by itself,
or the name behind a dot.

    validateParam_bool(lambda_params_1.lua_state, -1);
    validateParam_bool   lambda_params_1.lua_state   1       -- the words, the empty ones left out
                         └ qualifier 1 ┘└ needed ┘

A text `ReachesSaved slot` when each use of a variable that the lambda of the slot needs is spelled with the qualifier of
the saved parameters. For a text that is written from parts this is decided part by part: fixed text, in which no word
could end in a needed name, adds nothing (`IsHarmless`), and what stands between two marks counts by itself
(`reachesSaved_framed`).
-/

namespace LuaGlue

/-! ### Words of a text -/

namespace Text

/-- Is this no character of a word? A word is a name, or a chain of names with dots and colons between. -/
def isMark (c : Char) : Bool := !(c.isAlphanum || c == '_' || c == '.' || c == ':')

/-- The words of a text; there is an empty one wherever two marks meet. -/
def words (text : String) : List (List Char) := text.toList.splitOnP isMark

/-- Is there no mark in the text? -/
def isUnmarked (text : String) : Bool := text.toList.all fun c => !isMark c

/-- Does the text begin with a mark? -/
def beginsInMark (text : String) : Bool := text.toList.head?.any isMark

/-- Does the text end in a mark? -/
def endsInMark (text : String) : Bool := text.toList.getLast?.any isMark

theorem words_append_of_begins {a b : String} (h : beginsInMark b = true) {w : List Char} (hw : w ≠ []) :
    w ∈ words (a ++ b) ↔ w ∈ words a ∨ w ∈ words b := by
  obtain ⟨c, hc, hmark⟩ := (Option.any_eq_true ..).1 h
  obtain ⟨rest, hb⟩ := List.head?_eq_some_iff.1 hc
  have hsplit := List.splitOnP_append_cons [] rest hmark
  rw [List.nil_append] at hsplit
  rw [words, words, words, String.toList_append, hb, List.splitOnP_append_cons _ _ hmark, hsplit]
  simp [hw]

theorem words_append_of_ends {a b : String} (h : endsInMark a = true) {w : List Char} (hw : w ≠ []) :
    w ∈ words (a ++ b) ↔ w ∈ words a ∨ w ∈ words b := by
  obtain ⟨c, hc, hmark⟩ := (Option.any_eq_true ..).1 h
  obtain ⟨front, ha⟩ := List.getLast?_eq_some_iff.1 hc
  rw [words, words, words, String.toList_append, ha, List.append_assoc, List.singleton_append,
    List.splitOnP_append_cons _ _ hmark, List.splitOnP_append_cons _ _ hmark]
  simp [hw]

theorem isUnmarked_append (a b : String) : isUnmarked (a ++ b) = (isUnmarked a && isUnmarked b) := by
  rw [isUnmarked, String.toList_append, List.all_append]
  rfl

/-- A text without marks is one word. -/
theorem words_eq_singleton {text : String} (h : isUnmarked text = true) : words text = [text.toList] := by
  refine List.splitOnP_eq_singleton fun c hc => ?_
  have hmark := List.all_eq_true.1 h c hc
  simpa using hmark

end Text

/-! ### Uses of a variable -/

/-- Is this variable what the word names, by itself or as a member of what stands before the dot? -/
def IsUse (name word : List Char) : Prop := word = name ∨ '.' :: name <:+ word

/-- What a lambda needs to call its Lua function: the Lua state, and the reference to the function. -/
def Closure.needed (slot : Nat) : List String := ["lua_state", "param_inter_" ++ toString slot]

/-- Does the text take what the lambda for a slot needs from the saved parameters, wherever it uses it? -/
def ReachesSaved (slot : Nat) (text : String) : Prop :=
  ∀ name ∈ Closure.needed slot, ∀ word ∈ Text.words text, IsUse name.toList word →
    word = (Closure.qualifier slot false ++ name).toList

instance (name word : List Char) : Decidable (IsUse name word) := inferInstanceAs (Decidable (_ = _ ∨ _ <:+ _))

instance (slot : Nat) (text : String) : Decidable (ReachesSaved slot text) :=
  inferInstanceAs (Decidable (∀ name ∈ Closure.needed slot, ∀ word ∈ Text.words text, IsUse name.toList word →
    word = (Closure.qualifier slot false ++ name).toList))

/-- Is this word told from all uses by an underscore that it does not have, or by its end? -/
def IsHarmless (word : List Char) : Prop :=
  '_' ∉ word ∨ word.getLast?.any Char.isDigit = false ∧ ¬ "lua_state".toList <:+ word

instance (word : List Char) : Decidable (IsHarmless word) := inferInstanceAs (Decidable (_ ∨ _ ∧ ¬ _))

theorem Closure.qualifier_eq (slot : Nat) : qualifier slot false = "lambda_params_" ++ (toString slot ++ ".") :=
  String.append_assoc

section Uses

variable {slot : Nat} {name word : List Char} {a b mark text : String}

theorem endsInDigit (front : String) (n : Nat) : (front ++ toString n).toList.getLast?.any Char.isDigit = true := by
  have hne : Nat.toDigits 10 n ≠ [] := Nat.toDigits_ne_nil
  rw [String.toList_append, Nat.toString_eq_repr, Nat.toList_repr, List.getLast?_append_of_ne_nil _ hne,
    List.getLast?_eq_some_getLast hne]
  exact Nat.isDigit_of_mem_toDigits (by decide) (by decide) (List.getLast_mem hne)

theorem isDigit_of_mem_toString {n : Nat} {c : Char} (h : c ∈ (toString n).toList) : c.isDigit = true := by
  rw [Nat.toString_eq_repr, Nat.toList_repr] at h
  exact Nat.isDigit_of_mem_toDigits (by decide) (by decide) h

/-- Each name that is needed has an underscore, and one of them ends in a digit. -/
theorem Closure.needed_cases {name : String} (h : name ∈ needed slot) : '_' ∈ name.toList
    ∧ '.' ∉ name.toList ∧ (name = "lua_state" ∨ name.toList.getLast?.any Char.isDigit = true) := by
  simp only [needed, List.mem_cons, List.not_mem_nil, or_false] at h
  rcases h with rfl | rfl
  · exact ⟨by decide, by decide, .inl rfl⟩
  · refine ⟨?_, ?_, .inr (endsInDigit "param_inter_" slot)⟩
    · exact String.toList_append ▸ List.mem_append_left _ (by decide)
    · intro hdot
      rcases List.mem_append.1 (String.toList_append ▸ hdot) with hdot | hdot
      · exact absurd hdot (by decide)
      · exact absurd (isDigit_of_mem_toString hdot) (by decide)

/-- A use ends as the name of the variable does. -/
theorem IsUse.isSuffix (h : IsUse name word) : name <:+ word := by
  rcases h with rfl | hsuffix
  · exact List.suffix_rfl
  · exact (List.suffix_cons _ _).trans hsuffix

theorem IsUse.getLast?_eq (h : IsUse name word) (hne : name ≠ []) : word.getLast? = name.getLast? := by
  obtain ⟨front, rfl⟩ := h.isSuffix
  exact List.getLast?_append_of_ne_nil _ hne

theorem IsHarmless.not_isUse (h : IsHarmless word) {name : String} (hneeded : name ∈ Closure.needed slot) :
    ¬ IsUse name.toList word := by
  intro huse
  obtain ⟨hunderscore, -, hends⟩ := Closure.needed_cases hneeded
  rcases h with hnone | ⟨hdigit, hstate⟩
  · exact hnone (huse.isSuffix.subset hunderscore)
  · rcases hends with rfl | hends
    · exact hstate huse.isSuffix
    · rw [← huse.getLast?_eq (List.ne_nil_of_mem hunderscore), hdigit] at hends
      cases hends

/-! ### Texts put together -/

/-- Where no word of a text goes from one part to the other, each part is for itself. -/
theorem reachesSaved_of_words
    (h : ∀ word, word ≠ [] → (word ∈ Text.words text ↔ word ∈ Text.words a ∨ word ∈ Text.words b)) :
    ReachesSaved slot text ↔ ReachesSaved slot a ∧ ReachesSaved slot b := by
  have hboth : ∀ name ∈ Closure.needed slot, ∀ word, IsUse name.toList word →
      (word ∈ Text.words text ↔ word ∈ Text.words a ∨ word ∈ Text.words b) := fun name hname word huse =>
    h word (List.ne_nil_of_mem (huse.isSuffix.subset (Closure.needed_cases hname).1))
  constructor
  · intro htext
    exact ⟨fun name hname word hword huse => htext name hname word ((hboth name hname word huse).2 (.inl hword)) huse,
      fun name hname word hword huse => htext name hname word ((hboth name hname word huse).2 (.inr hword)) huse⟩
  · rintro ⟨ha, hb⟩ name hname word hword huse
    rcases (hboth name hname word huse).1 hword with hword | hword
    · exact ha name hname word hword huse
    · exact hb name hname word hword huse

theorem reachesSaved_append_of_begins (h : Text.beginsInMark b = true) :
    ReachesSaved slot (a ++ b) ↔ ReachesSaved slot a ∧ ReachesSaved slot b :=
  reachesSaved_of_words fun _ => Text.words_append_of_begins h

theorem reachesSaved_append_of_ends (h : Text.endsInMark a = true) :
    ReachesSaved slot (a ++ b) ↔ ReachesSaved slot a ∧ ReachesSaved slot b :=
  reachesSaved_of_words fun _ => Text.words_append_of_ends h

/-- Is every word of this text harmless? -/
def isHarmlessText (text : String) : Bool := (Text.words text).all fun word => decide (IsHarmless word)

theorem reachesSaved_of_isHarmlessText (h : isHarmlessText text = true) : ReachesSaved slot text :=
  fun _ hname word hword huse =>
    absurd huse ((of_decide_eq_true (List.all_eq_true.1 h word hword)).not_isUse hname)

/-- Does this text end in a mark, with harmless words only? -/
def isOpening (text : String) : Bool := Text.endsInMark text && isHarmlessText text

/-- Does this text begin with a mark, with harmless words only? -/
def isClosing (text : String) : Bool := Text.beginsInMark text && isHarmlessText text

/-- Does this text begin with a mark and end in one, with harmless words only? -/
def isBetween (text : String) : Bool := Text.beginsInMark text && isOpening text

theorem reachesSaved_opened (mark : String) (h : isOpening mark = true) :
    ReachesSaved slot (mark ++ a) ↔ ReachesSaved slot a := by
  obtain ⟨hends, hharmless⟩ := Bool.and_eq_true_iff.1 h
  rw [reachesSaved_append_of_ends hends, and_iff_right (reachesSaved_of_isHarmlessText hharmless)]

theorem reachesSaved_closed (mark : String) (h : isClosing mark = true) :
    ReachesSaved slot (a ++ mark) ↔ ReachesSaved slot a := by
  obtain ⟨hbegins, hharmless⟩ := Bool.and_eq_true_iff.1 h
  rw [reachesSaved_append_of_begins hbegins, and_iff_left (reachesSaved_of_isHarmlessText hharmless)]

theorem reachesSaved_between (mark : String) (h : isBetween mark = true) :
    ReachesSaved slot (a ++ (mark ++ b)) ↔ ReachesSaved slot a ∧ ReachesSaved slot b := by
  obtain ⟨hbegins, hopening⟩ := Bool.and_eq_true_iff.1 h
  have hbegins : Text.beginsInMark (mark ++ b) = true := by
    obtain ⟨c, hc, hmark⟩ := (Option.any_eq_true ..).1 hbegins
    refine (Option.any_eq_true ..).2 ⟨c, ?_, hmark⟩
    rw [String.toList_append, List.head?_append, hc, Option.some_or]
  rw [reachesSaved_append_of_begins hbegins, reachesSaved_opened mark hopening]

/-- A text in a frame. -/
theorem reachesSaved_framed {before after : String} (hbefore : isOpening before = true) (hafter : isClosing after = true) :
    ReachesSaved slot (before ++ a ++ after) ↔ ReachesSaved slot a := by
  rw [reachesSaved_closed after hafter, reachesSaved_opened before hbefore]

/-- Two texts in a frame. -/
theorem reachesSaved_framed_two {before mark after : String} (hbefore : isOpening before = true)
    (hmark : isBetween mark = true) (hafter : isClosing after = true) :
    ReachesSaved slot (before ++ a ++ mark ++ b ++ after) ↔ ReachesSaved slot a ∧ ReachesSaved slot b := by
  rw [reachesSaved_closed after hafter, String.append_assoc, String.append_assoc, reachesSaved_opened before hbefore,
    reachesSaved_between mark hmark]

theorem reachesSaved_line {n : Nat} : ReachesSaved slot (Text.line n text) ↔ ReachesSaved slot text := by
  rw [Text.line, reachesSaved_closed "\n" (by decide)]
  induction n with
  | zero => rw [show Text.blanks 0 = "" from rfl, String.empty_append]
  | succ n ih =>
    rw [Nat.add_comm, Text.blanks_add, String.append_assoc, reachesSaved_opened (Text.blanks 1) (by decide), ih]

theorem endsInMark_line {n : Nat} : Text.endsInMark (Text.line n text) = true := by
  rw [Text.endsInMark, Text.line, String.toList_append, List.getLast?_append_of_ne_nil _ (by decide)]
  decide

/-- Texts one after another, each of which ends in a mark, and one more text behind them. -/
theorem reachesSaved_join_append {texts : List String} (h : ∀ text ∈ texts, Text.endsInMark text = true) (rest : String) :
    ReachesSaved slot (String.join texts ++ rest) ↔ (∀ text ∈ texts, ReachesSaved slot text) ∧ ReachesSaved slot rest := by
  induction texts with
  | nil => simp
  | cons text others ih =>
    obtain ⟨htext, hothers⟩ := List.forall_mem_cons.1 h
    rw [String.join_cons, String.append_assoc, reachesSaved_append_of_ends htext, ih hothers, List.forall_mem_cons,
      and_assoc]

theorem reachesSaved_lines_append {n : Nat} (texts : List String) (rest : String) :
    ReachesSaved slot (Text.lines n texts ++ rest) ↔ (∀ text ∈ texts, ReachesSaved slot text) ∧ ReachesSaved slot rest := by
  rw [Text.lines, reachesSaved_join_append, List.forall_mem_map]
  · simp only [reachesSaved_line]
  · exact List.forall_mem_map.2 fun text _ => endsInMark_line

/-- Texts that are joined by a mark. -/
theorem reachesSaved_separated (h : isBetween mark = true) {texts : List String} :
    ReachesSaved slot (Text.separated mark texts) ↔ ∀ text ∈ texts, ReachesSaved slot text := by
  rw [Text.separated]
  induction texts with
  | nil => simpa using reachesSaved_of_isHarmlessText (by decide : isHarmlessText "" = true)
  | cons text rest ih =>
    cases rest with
    | nil => simp
    | cons next rest =>
      rw [String.intercalate_cons_cons, String.append_assoc, reachesSaved_between mark h, ih]
      exact List.forall_mem_cons.symm

/-! ### Single words -/

theorem isUnmarked_toString (n : Nat) : Text.isUnmarked (toString n) = true := by
  refine List.all_eq_true.2 fun c hc => ?_
  simp [Text.isMark, Char.isAlphanum, isDigit_of_mem_toString hc]

/-- A text without marks is one word. -/
theorem reachesSaved_word (h : Text.isUnmarked text = true) : ReachesSaved slot text
    ↔ ∀ name ∈ Closure.needed slot, IsUse name.toList text.toList → text = Closure.qualifier slot false ++ name := by
  simp only [ReachesSaved, Text.words_eq_singleton h, List.mem_singleton, forall_eq, String.toList_inj]

theorem reachesSaved_toString (n : Nat) : ReachesSaved slot (toString n) := by
  refine (reachesSaved_word (isUnmarked_toString n)).2 fun name hname huse => ?_
  have hdigit := isDigit_of_mem_toString (huse.isSuffix.subset (Closure.needed_cases hname).1)
  exact absurd hdigit (by decide)

theorem Closure.argumentName_eq (i : Nat) : argumentName i = "lambda_param_" ++ toString (i + 1) := rfl

theorem isUnmarked_argumentName (i : Nat) : Text.isUnmarked (Closure.argumentName i) = true := by
  rw [Closure.argumentName_eq, Text.isUnmarked_append, isUnmarked_toString]
  decide

/-- The parameters of the lambda are its own. -/
theorem reachesSaved_argumentName (i : Nat) : ReachesSaved slot (Closure.argumentName i) := by
  refine (reachesSaved_word (isUnmarked_argumentName i)).2 fun name hname huse => ?_
  have hdot : '.' ∉ (Closure.argumentName i).toList := by
    intro hdot
    rcases List.mem_append.1 (String.toList_append ▸ hdot) with hdot | hdot
    · exact absurd hdot (by decide)
    · exact absurd (isDigit_of_mem_toString hdot) (by decide)
  obtain heq | hsuffix := huse
  · simp only [Closure.needed, List.mem_cons, List.not_mem_nil, or_false] at hname
    rcases hname with rfl | rfl <;> simp [Closure.argumentName_eq, String.toList_append] at heq
  · exact absurd (hsuffix.subset List.mem_cons_self) hdot

theorem Closure.isUnmarked_of_needed {name : String} (h : name ∈ needed slot) :
    Text.isUnmarked (qualifier slot false ++ name) = true := by
  have hname : Text.isUnmarked name = true := by
    simp only [needed, List.mem_cons, List.not_mem_nil, or_false] at h
    rcases h with rfl | rfl
    · decide
    · rw [Text.isUnmarked_append, isUnmarked_toString, Bool.and_true]
      decide
  rw [qualifier_eq, Text.isUnmarked_append, Text.isUnmarked_append, Text.isUnmarked_append, isUnmarked_toString, hname]
  decide

/-- What is needed is reached through its qualifier. -/
theorem reachesSaved_qualified {name : String} (h : name ∈ Closure.needed slot) :
    ReachesSaved slot (Closure.qualifier slot false ++ name) := by
  refine (reachesSaved_word (Closure.isUnmarked_of_needed h)).2 fun other hother huse => ?_
  have hends := huse.getLast?_eq (List.ne_nil_of_mem (Closure.needed_cases hother).1)
  rw [String.toList_append, List.getLast?_append_of_ne_nil _ (List.ne_nil_of_mem (Closure.needed_cases h).1)] at hends
  simp only [Closure.needed, List.mem_cons, List.not_mem_nil, or_false] at h hother
  have hdigit := endsInDigit "param_inter_" slot
  rcases h with rfl | rfl <;> rcases hother with rfl | rfl
  · rfl
  · rw [← hends] at hdigit
    exact absurd hdigit (by decide)
  · rw [hends] at hdigit
    exact absurd hdigit (by decide)
  · rfl

/-- The Lua state by itself is that of the call. -/
theorem not_reachesSaved_of_mem (h : "lua_state".toList ∈ Text.words text) : ¬ ReachesSaved slot text := by
  intro hreaches
  have heq := hreaches "lua_state" List.mem_cons_self _ h (.inl rfl)
  simp [Closure.qualifier_eq, String.toList_append] at heq

/-- A word with another end than a digit and that of the Lua state. -/
theorem reachesSaved_of_getLast? (h : Text.isUnmarked text = true) {c : Char}
    (hlast : text.toList.getLast? = some c) (hdigit : c.isDigit = false) (hstate : c ≠ 'e') : ReachesSaved slot text := by
  refine (reachesSaved_word h).2 fun name hname huse => ?_
  obtain ⟨hunderscore, -, hends⟩ := Closure.needed_cases hname
  have hsame := huse.getLast?_eq (List.ne_nil_of_mem hunderscore)
  rw [hlast] at hsame
  rcases hends with rfl | hends
  · exact absurd (Option.some.inj hsame) hstate
  · rw [← hsame, Option.any_some, hdigit] at hends
    cases hends

/-- A member of a parameter of the lambda. -/
theorem reachesSaved_characters (i : Nat) : ReachesSaved slot (Closure.argumentName i ++ ".c_str()") := by
  have hcut : Closure.argumentName i ++ ".c_str()" = (Closure.argumentName i ++ ".c_str") ++ "()" := by
    rw [String.append_assoc]
    rfl
  rw [hcut, reachesSaved_closed "()" (by decide)]
  refine reachesSaved_of_getLast? ?_ (?_ : _ = some 'r') (by decide) (by decide)
  · rw [Text.isUnmarked_append, isUnmarked_argumentName]
    decide
  · rw [String.toList_append, List.getLast?_append_of_ne_nil _ (by decide)]
    decide

end Uses

end LuaGlue
