import LuaGlue.Proofs.Overload.Statement

/-!
The code of a call as a program.

`CallCode.program` takes the data that a call is rendered from apart into statements, and
`textAll_program` says that these statements are what is written to the file, character by character.
An overload without parameters has no place here: its guard ends in `&&`, so it is no test.
-/

namespace LuaGlue

/-! ### Candidates -/

namespace Candidate

/-- The guard: the number of arguments and every coarse check. -/
def guardTest (c : Candidate) : List Operand :=
  .stackHolds c.arity :: c.guards.zipIdx.map fun (check, i) => .validated ⟨c.index, i + 1⟩ check

/-- The finer checks, each kept in a variable. -/
def settlements (c : Candidate) : List Stmt :=
  c.tiebreaks.zipIdx.flatMap fun (check, i) => [.settle ⟨c.index, i + 1⟩ check, .blank]

/-- The test of all these variables. -/
def settledTest (c : Candidate) : List Operand :=
  (List.range c.tiebreaks.length).map fun i => .settled (i + 1)

/-- The statements of a candidate. -/
def program (c : Candidate) : List Stmt :=
  [.choose (.arm c.guardTest
    (c.settlements ++ [.choose (.arm c.settledTest [.collect c.index] .done)]) .done), .blank]

end Candidate

/-- The arms that the chosen overload is looked for in. -/
def branchChain : List Branch → Chain
  | [] => .otherwise [.raise Messages.uncaughtResolution, .throwEmpty]
  | b :: rest => .arm [.chosen b.index] [.perform .branch b.extractions b.tail] (branchChain rest)

/-- The statements that raise an error unless exactly one overload was collected, and choose it. -/
def verdict (name : String) : List Stmt :=
  [.choose (.arm [.several] [.raise (Messages.ambiguousOverload name)]
    (.arm [.unmatched] [.raise (Messages.noOverload name)] .done)), .blank, .select, .blank]

/-- The statements of a call. -/
def CallCode.program : CallCode → List Stmt
  | .single extractions tail => [.perform .body extractions tail]
  | .overloaded name candidates resultMarks branches =>
    [.declareMatching, .declareCount, .countParams]
      ++ (candidates.flatMap Candidate.program
        ++ (verdict name ++ [.invoke resultMarks [.choose (branchChain branches)], .blank]))

/-! ### Their text -/

theorem separated_indented (separator pad first : String) (rest : List String) :
    Text.separated (separator ++ pad) (first :: rest)
      = Text.separated separator (first :: rest.map (pad ++ ·)) := by
  unfold Text.separated
  induction rest generalizing first with
  | nil => rfl
  | cons next rest ih =>
    rw [String.intercalate_cons_cons, ih, List.map_cons, String.intercalate_cons_cons,
      String.intercalate_cons_append]
    simp only [String.append_assoc]

theorem text_guardChecks (c : Candidate) :
    (c.guards.zipIdx.map fun (check, i) => Operand.validated ⟨c.index, i + 1⟩ check).map Operand.text
      = c.guards.map fun guard => s!"({guard})" := by
  conv_rhs => rw [← List.zipIdx_map_fst 0 c.guards]
  simp only [List.map_map]
  rfl

theorem text_guardTest {c : Candidate} (h : c.guards ≠ []) :
    Text.line 8 (testText 8 c.guardTest) = c.renderGuard := by
  obtain ⟨guard, guards, hg⟩ := List.exists_cons_of_ne_nil h
  have hhead : "        if ((num_params_on_stack == "
      = Text.blanks 8 ++ ("if (" ++ "(num_params_on_stack == ") := rfl
  have hpad : "            (" = Text.blanks 12 ++ "(" := rfl
  have hclose : ")\n" = ")" ++ "\n" := rfl
  have hand : ") &&\n" = ")" ++ " &&\n" := rfl
  unfold Candidate.renderGuard Candidate.guardTest testText
  simp only [List.map_cons, text_guardChecks, separated_indented]
  unfold Text.line Text.separated Operand.text
  simp only [hg, List.map_cons, List.map_map, String.intercalate_cons_cons, Function.comp_def]
  rw [hhead, hpad, hclose, hand]
  simp only [String.append_assoc, toString]

theorem text_settledTest {c : Candidate} (h : c.tiebreaks ≠ []) :
    Text.line 12 (testText 12 c.settledTest) = c.renderConjunction := by
  obtain ⟨n, hn⟩ := Nat.exists_eq_succ_of_ne_zero (mt List.length_eq_zero_iff.1 h)
  have hclose : ")\n" = ")" ++ "\n" := rfl
  rw [Candidate.renderConjunction, Candidate.settledTest, testText, Text.line]
  simp only [hn, List.range_succ_eq_map, List.map_cons, List.map_map, separated_indented]
  simp only [Function.comp_def, ↓reduceIte, Nat.succ_ne_zero, String.empty_append]
  rw [hclose]
  simp only [String.append_assoc]
  rfl

theorem text_settlements (c : Candidate) : Stmt.textAll 12 c.settlements
    = String.join (c.tiebreaks.zipIdx.map fun (t, i) => Candidate.renderTiebreak (i + 1) t) := by
  rw [Candidate.settlements]
  induction c.tiebreaks.zipIdx with
  | nil => rfl
  | cons t rest ih =>
    rw [List.flatMap_cons, textAll_append, ih, List.map_cons, String.join_cons]
    unfold Candidate.renderTiebreak
    simp only [Stmt.textAll, Stmt.text, String.append_assoc, String.append_empty]

/-- A candidate for an overload with parameters is written as its statements are. -/
theorem text_candidate {c : Candidate} (hguards : c.guards ≠ []) (htiebreaks : c.tiebreaks ≠ []) :
    Stmt.textAll 8 c.program = c.render := by
  have hblanks : s!"    matching_overloads.emplace({c.index});"
      = Text.blanks 4 ++ s!"matching_overloads.emplace({c.index});" := by
    have h : "    matching_overloads.emplace(" = Text.blanks 4 ++ "matching_overloads.emplace(" := rfl
    simp only [toString, h, String.append_assoc]
  rw [Candidate.program, Candidate.render]
  simp only [Stmt.textAll, Stmt.text, Chain.text, Nat.reduceAdd, String.empty_append,
    String.append_empty, textAll_append, text_settlements, text_guardTest hguards,
    text_settledTest htiebreaks, String.append_assoc, Text.lines_cons, Text.lines_nil, hblanks,
    Text.line_blanks]

theorem text_candidates {candidates : List Candidate}
    (h : ∀ c ∈ candidates, c.guards ≠ [] ∧ c.tiebreaks ≠ []) :
    Stmt.textAll 8 (candidates.flatMap Candidate.program) = String.join (candidates.map (·.render)) := by
  induction candidates with
  | nil => rfl
  | cons c rest ih =>
    obtain ⟨hguards, htiebreaks⟩ := h c List.mem_cons_self
    rw [List.flatMap_cons, textAll_append, text_candidate hguards htiebreaks,
      ih fun c hc => h c (List.mem_cons_of_mem _ hc), List.map_cons, String.join_cons]

theorem testText_singleton (indent : Nat) (o : Operand) :
    testText indent [o] = "if (" ++ o.text ++ ")" := by
  rw [testText, Text.separated]
  rw [List.map_singleton, String.intercalate_singleton]

theorem text_verdict (name : String) :
    Stmt.textAll 8 (verdict name) = CallCode.renderVerdict name := by
  have hseveral : "if (" ++ (Operand.several.text ++ ")") = "if (matching_overloads.size() > 1)" := rfl
  have hunmatched : "else " ++ ("if (" ++ (Operand.unmatched.text ++ ")"))
      = "else if (matching_overloads.empty())" := rfl
  have hraise : "    luaL_error(lua_state, \"" = Text.blanks 4 ++ "luaL_error(lua_state, \"" := rfl
  rw [verdict, CallCode.renderVerdict]
  simp only [Stmt.textAll, Stmt.text, Chain.text, testText_singleton, Nat.reduceAdd, Text.lines_cons,
    Text.lines_nil, toString, hraise, String.append_assoc, hseveral, hunmatched, Text.line_blanks,
    String.empty_append, String.append_empty]

/-- An arm is written as its branch is, when the first arm is the one with index 0. -/
theorem text_branch (b : Branch) (rest : Chain) :
    (Chain.arm [.chosen b.index] [.perform .branch b.extractions b.tail] rest).text 12
        (if b.index = 0 then "" else "else ")
      = b.render ++ rest.text 12 "else " := by
  have hif : "if (selected_overload == " = "if (" ++ "selected_overload == " := rfl
  rw [Branch.render]
  simp only [Chain.text, Stmt.textAll, Stmt.text, testText_singleton, Text.lines_cons, Text.lines_nil]
  unfold Operand.text
  simp only [toString, hif, String.append_assoc, String.append_empty]

theorem text_uncaught (word : String) :
    (branchChain []).text 12 word = CallCode.renderUncaught := by
  have hraise : "    luaL_error(lua_state, \"" = Text.blanks 4 ++ "luaL_error(lua_state, \"" := rfl
  have hthrow : "    throw std::runtime_error\x7b\"\"\x7d;"
      = Text.blanks 4 ++ "throw std::runtime_error\x7b\"\"\x7d;" := rfl
  rw [branchChain, CallCode.renderUncaught]
  simp only [Chain.text, Stmt.textAll, Stmt.text, Nat.reduceAdd, Text.lines_cons, Text.lines_nil,
    toString, hraise, hthrow, String.append_assoc, Text.line_blanks, String.append_empty]

/-- Branches with indices in order are written as their arms are. -/
theorem text_branchChain {start : Nat} {branches : List Branch}
    (h : branches.map (·.index) = List.range' start branches.length) :
    (branchChain branches).text 12 (if start = 0 then "" else "else ")
      = String.join (branches.map (·.render)) ++ CallCode.renderUncaught := by
  induction branches generalizing start with
  | nil => rw [text_uncaught, List.map_nil, String.join_nil, String.empty_append]
  | cons b rest ih =>
    rw [List.map_cons, List.length_cons, List.range'_succ, List.cons.injEq] at h
    obtain ⟨hb, hrest⟩ := h
    have htail := ih hrest
    rw [if_neg (Nat.succ_ne_zero start)] at htail
    rw [branchChain, ← hb, text_branch, htail, List.map_cons, String.join_cons, String.append_assoc]

/-- The code of an overloaded call is written as its statements are. -/
theorem textAll_program {name : String} {candidates : List Candidate} {resultMarks : Option String}
    {branches : List Branch} (hcandidates : ∀ c ∈ candidates, c.guards ≠ [] ∧ c.tiebreaks ≠ [])
    (hbranches : branches.map (·.index) = List.range' 0 branches.length) :
    Stmt.textAll 8 (CallCode.program (.overloaded name candidates resultMarks branches))
      = (CallCode.overloaded name candidates resultMarks branches).render := by
  have hchain := text_branchChain hbranches
  rw [if_pos rfl] at hchain
  rw [CallCode.program, CallCode.render]
  simp only [textAll_append, text_candidates hcandidates, text_verdict, Stmt.textAll, Stmt.text, hchain,
    Nat.reduceAdd, Text.lines_cons, Text.lines_nil, toString, String.append_assoc, String.append_empty]

end LuaGlue
