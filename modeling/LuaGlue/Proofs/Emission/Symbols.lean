import LuaGlue.Glue.StateFile
import LuaGlue.Proofs.Results

/-!
The symbols that generated code mentions.

Of the code of a call only four kinds of statements name something that is defined elsewhere in the file:
the check and the extraction of an object name the convertible set of its class, a wrapper of a member
names the helper that finds the object, and the push of a function pointer names the wrapper that calls
it. `symbols` collects these names from the data that the code is rendered from, and `occurs_*` says that
they stand in the text.

    checks, extractions     convertible_to_<tag>
    prologue                internal_<class>_get_self
    push                    Ret_<result>_Params_<parameters>
-/

namespace LuaGlue

/-! ### Occurrences -/

/-- Does the symbol stand in the text? -/
def Occurs (symbol text : String) : Prop := ∃ before after, text = before ++ symbol ++ after

namespace Occurs

variable {symbol : String}

theorem between (before symbol after : String) : Occurs symbol (before ++ symbol ++ after) := ⟨before, after, rfl⟩

theorem refl (symbol : String) : Occurs symbol symbol := ⟨"", "", by simp⟩

theorem left {a : String} (h : Occurs symbol a) (b : String) : Occurs symbol (a ++ b) := by
  obtain ⟨before, after, rfl⟩ := h
  exact ⟨before, after ++ b, by simp only [String.append_assoc]⟩

theorem right {b : String} (h : Occurs symbol b) (a : String) : Occurs symbol (a ++ b) := by
  obtain ⟨before, after, rfl⟩ := h
  exact ⟨a ++ before, after, by simp only [String.append_assoc]⟩

theorem join {text : String} {texts : List String} (h : Occurs symbol text) (ht : text ∈ texts) :
    Occurs symbol (String.join texts) := by
  induction texts with
  | nil => cases ht
  | cons first rest ih =>
    rw [String.join_cons]
    rcases List.mem_cons.1 ht with rfl | ht
    · exact h.left _
    · exact (ih ht).right _

theorem separated {text : String} {texts : List String} (separator : String) (h : Occurs symbol text)
    (ht : text ∈ texts) : Occurs symbol (Text.separated separator texts) := by
  unfold Text.separated
  induction texts with
  | nil => cases ht
  | cons first rest ih =>
    cases rest with
    | nil =>
      obtain rfl := List.mem_singleton.1 ht
      simpa using h
    | cons next rest =>
      rw [String.intercalate_cons_cons]
      rcases List.mem_cons.1 ht with rfl | ht
      · exact (h.left _).left _
      · exact (ih ht).right _

theorem line {text : String} (indent : Nat) (h : Occurs symbol text) : Occurs symbol (Text.line indent text) :=
  (h.right _).left _

theorem lines {text : String} {texts : List String} (indent : Nat) (h : Occurs symbol text) (ht : text ∈ texts) :
    Occurs symbol (Text.lines indent texts) :=
  (h.line indent).join (List.mem_map.2 ⟨text, ht, rfl⟩)

theorem openLines {text : String} {texts : List String} (indent : Nat) (h : Occurs symbol text)
    (ht : text ∈ texts) : Occurs symbol (Text.openLines indent texts) :=
  (h.right (Text.blanks indent)).separated "\n" (List.mem_map.2 ⟨text, ht, rfl⟩)

end Occurs

/-! ### Checks and extractions -/

/-- The set of the metatables that are convertible to the class of a tag. -/
def convertibleSetOf (tag : String) : String := s!"convertible_to_{tag}"

/-- The symbols of a finer check. -/
def Tiebreak.symbols : Tiebreak → List String
  | .holds => []
  | .convertible tag _ => [convertibleSetOf tag]

theorem Tiebreak.occurs_symbols {t : Tiebreak} {symbol : String} (h : symbol ∈ t.symbols) :
    Occurs symbol t.render := by
  cases t with
  | holds => cases h
  | convertible tag slot =>
    obtain rfl := List.mem_singleton.1 h
    rw [render]
    refine Occurs.openLines 16 ?_ (List.mem_of_getElem? (i := 7) rfl)
    exact .between "    if (" (convertibleSetOf tag) ".contains(metatable_name))"

/-- The symbols of the test whether one overload is meant. -/
def Candidate.symbols (c : Candidate) : List String := c.tiebreaks.flatMap Tiebreak.symbols

theorem Candidate.occurs_symbols {c : Candidate} {symbol : String} (h : symbol ∈ c.symbols) :
    Occurs symbol c.render := by
  obtain ⟨t, ht, hsymbol⟩ := List.mem_flatMap.1 h
  obtain ⟨i, hi⟩ := List.mem_iff_getElem?.1 ht
  have hplace : (t, i) ∈ c.tiebreaks.zipIdx := List.mem_zipIdx_iff_getElem?.2 hi
  have hcheck : Occurs symbol (renderTiebreak (i + 1) t) := by
    rw [renderTiebreak]
    exact ((((t.occurs_symbols hsymbol).right _).left _).left _).left _
  have hmem : renderTiebreak (i + 1) t
      ∈ c.tiebreaks.zipIdx.map fun entry => renderTiebreak (entry.2 + 1) entry.1 :=
    List.mem_map.2 ⟨(t, i), hplace, rfl⟩
  have hall := hcheck.join hmem
  rw [render]
  exact ((((hall.right _).left _).left _).left _).left _

/-- The symbols of the extraction of an object. -/
def UserdataFetch.symbols (f : UserdataFetch) : List String := [convertibleSetOf f.tag]

theorem UserdataFetch.occurs_symbols {f : UserdataFetch} {symbol : String} (h : symbol ∈ f.symbols) :
    Occurs symbol f.render := by
  obtain rfl := List.mem_singleton.1 h
  have hset : ∀ before : String, Occurs (convertibleSetOf f.tag) (before ++ ", convertible_to_" ++ f.tag) := by
    intro before
    have hword : ", convertible_to_" = ", " ++ "convertible_to_" := rfl
    rw [hword, ← String.append_assoc, String.append_assoc]
    exact (Occurs.refl _).right _
  rw [render]
  exact Occurs.line 8 ((((hset _).left _).left _).left _)

/-! ### Pushes -/

/-- The symbols of one statement that pushes a value. -/
def PushStep.symbols : PushStep → List String
  | .box _ wrapper => [wrapper]
  | _ => []

/-- The symbols of the code that pushes a value. -/
def PushCode.symbols (code : PushCode) : List String := code.steps.flatMap PushStep.symbols

theorem PushCode.occurs_symbols {code : PushCode} {symbol : String} (h : symbol ∈ code.symbols) :
    Occurs symbol code.render := by
  obtain ⟨step, hstep, hsymbol⟩ := List.mem_flatMap.1 h
  have hrender : Occurs symbol step.render := by
    cases step with
    | box value wrapper =>
      obtain rfl := List.mem_singleton.1 hsymbol
      exact ((Occurs.refl _).right _).left _
    | _ => cases hsymbol
  rw [render]
  exact ((hrender.right _).separated ";\n" (List.mem_map.2 ⟨step, hstep, rfl⟩)).left _

/-- The symbols of the lambda that calls back into Lua. -/
def Closure.symbols (c : Closure) : List String := c.arguments.flatMap PushCode.symbols

theorem Closure.occurs_symbols {c : Closure} {symbol : String} (h : symbol ∈ c.symbols) :
    Occurs symbol c.render := by
  obtain ⟨code, hcode, hsymbol⟩ := List.mem_flatMap.1 h
  have hargument : Occurs symbol (renderArgument code) := by
    rw [renderArgument]
    exact ((((code.occurs_symbols hsymbol).right _).left _).left _).left _
  have hall := hargument.join (List.mem_map.2 ⟨code, hcode, rfl⟩)
  rw [render, renderLambda]
  exact (((((((hall.right _).left _).left _).left _).left _).left _).right _).left _

/-- The symbols of the second phase of reading a parameter. -/
def Conversion.symbols : Conversion → List String
  | .closure c => c.symbols
  | .widen _ _ | .array _ _ => []

theorem Conversion.occurs_symbols {c : Conversion} {symbol : String} (h : symbol ∈ c.symbols) :
    Occurs symbol c.render := by
  cases c with
  | closure c => exact c.occurs_symbols h
  | widen => cases h
  | array => cases h

/-! ### Calls -/

/-- The symbols of the code that reads one slot. -/
def Extraction.symbols : Extraction → List String
  | .object fetch => fetch.symbols
  | .checked _ _ (.direct _ _) => []
  | .checked _ _ (.converted _ conversion) => conversion.symbols

theorem Extraction.occurs_symbols {e : Extraction} {symbol : String} (h : symbol ∈ e.symbols) (indent : Nat) :
    Occurs symbol (e.render indent) := by
  match e, h with
  | .object fetch, h => exact fetch.occurs_symbols h
  | .checked _ _ (.converted _ conversion), h =>
    exact (((conversion.occurs_symbols h).left _).line indent).right _

theorem Extraction.occurs_renderAll {extractions : List Extraction} {e : Extraction} {symbol : String}
    (he : e ∈ extractions) (h : symbol ∈ e.symbols) (layout : Layout) :
    Occurs symbol (renderAll layout extractions) :=
  ((e.occurs_symbols h layout.indent).left _).join (List.mem_map.2 ⟨e, he, rfl⟩)

/-- The symbols of the code of a call. -/
def CallCode.symbols : CallCode → List String
  | .single extractions _ => extractions.flatMap Extraction.symbols
  | .overloaded _ candidates _ branches =>
    candidates.flatMap Candidate.symbols ++ branches.flatMap fun b => b.extractions.flatMap Extraction.symbols

theorem CallCode.occurs_symbols {code : CallCode} {symbol : String} (h : symbol ∈ code.symbols) :
    Occurs symbol code.render := by
  cases code with
  | single extractions tail =>
    obtain ⟨e, he, hsymbol⟩ := List.mem_flatMap.1 h
    exact (Extraction.occurs_renderAll he hsymbol .body).left _
  | overloaded name candidates resultMarks branches =>
    rw [render]
    rcases List.mem_append.1 h with hcandidate | hbranch
    · obtain ⟨c, hc, hsymbol⟩ := List.mem_flatMap.1 hcandidate
      have hall := (c.occurs_symbols hsymbol).join (List.mem_map.2 ⟨c, hc, rfl⟩)
      exact ((((((hall.right _).left _).left _).left _).left _).left _).left _
    · obtain ⟨b, hb, hsymbol⟩ := List.mem_flatMap.1 hbranch
      obtain ⟨e, he, hsymbol⟩ := List.mem_flatMap.1 hsymbol
      have hrender : Occurs symbol b.render := by
        rw [Branch.render]
        exact (((Extraction.occurs_renderAll he hsymbol .branch).right _).left _).left _
      have hall := hrender.join (List.mem_map.2 ⟨b, hb, rfl⟩)
      exact (((hall.right _).left _).left _).left _

/-- The symbols of the body of a wrapper. -/
def WrapperBody.symbols (b : WrapperBody) : List String :=
  b.self.toList ++ b.call.symbols ++ (b.push.map PushCode.symbols).getD []

theorem WrapperBody.occurs_symbols {b : WrapperBody} {symbol : String} (h : symbol ∈ b.symbols) :
    Occurs symbol b.render := by
  rw [render]
  simp only [symbols, List.mem_append] at h
  rcases h with (hself | hcall) | hpush
  · have hhelper := Option.mem_toList.1 hself
    have hprologue : Occurs symbol ((b.self.map renderSelf).getD "") := by
      rw [Option.mem_def.1 hhelper, Option.map_some, Option.getD_some, renderSelf]
      refine (Occurs.lines 8 ?_ (List.mem_of_getElem? (i := 1) rfl)).left _
      exact .between "auto [_, self] = " symbol "(lua_state);"
    exact (((((hprologue.right _).left _).left _).left _).left _).left _
  · exact ((((b.call.occurs_symbols hcall).right _).left _).left _).left _
  · have hreturn : Occurs symbol (renderReturn b.push) := by
      cases hcode : b.push with
      | none => simp [hcode] at hpush
      | some code =>
        rw [hcode] at hpush
        exact ((code.occurs_symbols hpush).left _).left _
    exact ((hreturn.right _).left _).left _

end LuaGlue
