import LuaGlue.Proofs.Overload.Dispatch

/-!
When the conditions of an overloaded call are conditions at all.

A guard is written as the test of the number of arguments, `&&`, and then the coarse checks; under it
the variables of the finer checks are joined the same way. With a parameter both are tests. Without one
the `&&` has nothing on its right, and the parentheses below it are empty:

    if ((num_params_on_stack == 0) &&
    )
    { if () { .. } }

`addOverload` takes an overload without parameters only as the first one, so the first overload decides.
-/

namespace LuaGlue

/-! ### Tests as text -/

/-- The text is an `if` with a complete condition at an indentation: one or more operands, joined. -/
def IsTest (indent : Nat) (text : String) : Prop :=
  ∃ operands : List Operand, operands ≠ [] ∧ text = Text.line indent (testText indent operands)

/-- What an operand ends in. -/
def EndsOperand (text : String) : Prop :=
  ∃ front c, text.toList = front ++ [c] ∧ (c = ')' ∨ c.isDigit = true)

theorem endsOperand_append (front : String) {back : String} (h : EndsOperand back) :
    EndsOperand (front ++ back) := by
  obtain ⟨init, c, hback, hc⟩ := h
  exact ⟨front.toList ++ init, c, by rw [String.toList_append, hback, List.append_assoc], hc⟩

theorem endsOperand_close : EndsOperand ")" := ⟨[], ')', rfl, .inl rfl⟩

theorem endsOperand_toString (n : Nat) : EndsOperand (toString n) := by
  have hne : Nat.toDigits 10 n ≠ [] := Nat.toDigits_ne_nil
  refine ⟨(Nat.toDigits 10 n).dropLast, (Nat.toDigits 10 n).getLast hne, ?_, .inr ?_⟩
  · rw [List.dropLast_append_getLast]
    exact Nat.toList_repr
  · exact Nat.isDigit_of_mem_toDigits (by decide) (by decide) (List.getLast_mem hne)

theorem endsOperand_text (o : Operand) : EndsOperand o.text := by
  cases o with
  | stackHolds count =>
    exact endsOperand_append ("(num_params_on_stack == " ++ toString count) endsOperand_close
  | validated site check => exact endsOperand_append ("(" ++ check) endsOperand_close
  | settled slot => exact endsOperand_append _ (endsOperand_toString slot)
  | several => exact ⟨"matching_overloads.size() > ".toList, '1', rfl, .inr rfl⟩
  | unmatched => exact ⟨"matching_overloads.empty(".toList, ')', rfl, .inl rfl⟩
  | chosen index => exact endsOperand_append _ (endsOperand_toString index)

theorem endsOperand_separated (separator : String) {operands : List Operand} (hne : operands ≠ []) :
    EndsOperand (Text.separated separator (operands.map Operand.text)) := by
  rw [Text.separated]
  induction operands with
  | nil => exact absurd rfl hne
  | cons o rest ih =>
    cases rest with
    | nil => simpa using endsOperand_text o
    | cons next rest =>
      rw [List.map_cons, String.intercalate_cons_of_ne_nil (by simp)]
      exact endsOperand_append _ (ih (List.cons_ne_nil _ _))

/-- Before its last parenthesis a complete condition has an operand. -/
theorem IsTest.exists_toList {indent : Nat} {text : String} (h : IsTest indent text) :
    ∃ front c, text.toList = front ++ [c, ')', '\n'] ∧ (c = ')' ∨ c.isDigit = true) := by
  obtain ⟨operands, hne, rfl⟩ := h
  obtain ⟨front, c, hfront, hc⟩ :=
    endsOperand_separated (" &&\n" ++ Text.blanks (indent + 4)) hne
  refine ⟨(Text.blanks indent).toList ++ ("if (".toList ++ front), c, ?_, hc⟩
  rw [Text.line, testText]
  simp only [String.toList_append, hfront, List.append_assoc]
  rfl

/-! ### Candidates -/

/-- The guard and the condition below it are both complete. -/
def Candidate.Complete (c : Candidate) : Prop := IsTest 8 c.renderGuard ∧ IsTest 12 c.renderConjunction

theorem complete_of_ne_nil {c : Candidate} (hguards : c.guards ≠ []) (htiebreaks : c.tiebreaks ≠ []) :
    c.Complete := by
  refine ⟨⟨c.guardTest, List.cons_ne_nil _ _, (text_guardTest hguards).symm⟩,
    ⟨c.settledTest, ?_, (text_settledTest htiebreaks).symm⟩⟩
  simpa [Candidate.settledTest] using htiebreaks

/-- Text that ends in a line feed or an open parenthesis before the last parenthesis is no test. -/
theorem not_isTest {indent : Nat} {text : String} (front : List Char) (c : Char)
    (htext : text.toList = front ++ [c, ')', '\n']) (hc : c ≠ ')' ∧ c.isDigit = false) :
    ¬ IsTest indent text := by
  intro h
  obtain ⟨other, d, hother, hd⟩ := h.exists_toList
  have hlast : d = c := by
    have := List.append_inj_right' (htext.symm.trans hother) rfl
    simpa using this.symm
  subst hlast
  rcases hd with hd | hd
  · exact hc.1 hd
  · simp [hc.2] at hd

/-- What is written for an overload without parameters. -/
theorem render_ofOverload_nil (index : Nat) :
    (Candidate.ofOverload [] index).renderGuard = "        if ((num_params_on_stack == 0) &&\n)\n"
      ∧ (Candidate.ofOverload [] index).renderConjunction = "            if ()\n" := by
  have hzero : toString 0 = "0" := by decide
  constructor
  · unfold Candidate.renderGuard Candidate.ofOverload Text.separated
    simp only [List.zipIdx_nil, List.map_nil, List.length_nil, String.intercalate_nil, hzero,
      String.append_empty]
    rfl
  · rw [Candidate.renderConjunction, Candidate.ofOverload, Text.separated]
    rfl

theorem not_isTest_ofOverload_nil (index : Nat) :
    ¬ IsTest 8 (Candidate.ofOverload [] index).renderGuard
      ∧ ¬ IsTest 12 (Candidate.ofOverload [] index).renderConjunction := by
  obtain ⟨hguard, hconjunction⟩ := render_ofOverload_nil index
  rw [hguard, hconjunction]
  exact ⟨not_isTest "        if ((num_params_on_stack == 0) &&".toList '\n' rfl (by decide),
    not_isTest "            if ".toList '(' rfl (by decide)⟩

theorem complete_ofOverload_iff {o : Overload} {index : Nat} :
    (Candidate.ofOverload o index).Complete ↔ o ≠ [] := by
  constructor
  · rintro h rfl
    exact (not_isTest_ofOverload_nil index).1 h.1
  · intro h
    obtain ⟨hguards, htiebreaks⟩ := ofOverload_ne_nil h index
    exact complete_of_ne_nil hguards htiebreaks

/-! ### Functions that overloads were offered to -/

namespace BoundFunction

/-- The function after one more overload was offered to it; a refused one leaves it alone. -/
def offer (f : BoundFunction) (o : Overload) : BoundFunction :=
  match f.addOverload o with
  | .ok f => f
  | .error _ => f

/-- The function after overloads were offered to it in order. -/
def offerAll (f : BoundFunction) (overloads : List Overload) : BoundFunction := overloads.foldl offer f

/-- Only the first overload has no parameters. -/
def Fronted (f : BoundFunction) : Prop := ∀ x, f.overloads[x]? = some [] → x = 0

theorem fronted_offer {f : BoundFunction} (h : f.Fronted) (o : Overload) : (f.offer o).Fronted := by
  rw [offer, addOverload]
  split
  · next g hg =>
    split at hg
    · cases hg
    · next hcovers =>
      cases hg
      intro x hx
      rcases Nat.lt_or_ge x f.overloads.length with hlt | hge
      · exact h x (by rwa [List.getElem?_append_left hlt] at hx)
      · rw [List.getElem?_append_right hge, List.getElem?_singleton] at hx
        split at hx
        · next hzero =>
          obtain rfl : o = [] := by simpa using hx
          have hempty : f.overloads = [] := by
            by_contra hne
            exact hcovers (by simp [covers, hne])
          simpa [hempty] using hzero
        · cases hx
  · exact h

theorem fronted_offerAll {f : BoundFunction} (h : f.Fronted) (overloads : List Overload) :
    (f.offerAll overloads).Fronted := by
  rw [offerAll]
  induction overloads generalizing f with
  | nil => exact h
  | cons o rest ih => exact ih (fronted_offer h o)

/-- The overloads came one after another, each as it was offered. -/
def Offered (f : BoundFunction) : Prop :=
  ∃ g : BoundFunction, g.overloads = [] ∧ ∃ offered, f = g.offerAll offered

theorem Offered.fronted {f : BoundFunction} (h : f.Offered) : f.Fronted := by
  obtain ⟨g, hg, offered, rfl⟩ := h
  refine fronted_offerAll (fun x hx => ?_) offered
  simp [hg] at hx

theorem Fronted.forall_ne_nil_iff {f : BoundFunction} (h : f.Fronted) :
    (∀ o ∈ f.overloads, o ≠ []) ↔ f.overloads.head? ≠ some [] := by
  rw [List.head?_eq_getElem?]
  constructor
  · intro hall hhead
    exact hall [] (List.mem_of_getElem? hhead) rfl
  · rintro hhead o ho rfl
    obtain ⟨x, hx⟩ := List.mem_iff_getElem?.1 ho
    obtain rfl := h x hx
    exact hhead hx

/-- The candidate at an index is the one of the overload there. -/
theorem getElem?_candidates {f : BoundFunction} {x : Nat} {o : Overload} (h : f.overloads[x]? = some o) :
    f.candidates[x]? = some (.ofOverload o x) := by
  simp [candidates, h]

theorem complete_candidates_iff (f : BoundFunction) :
    (∀ c ∈ f.candidates, c.Complete) ↔ ∀ o ∈ f.overloads, o ≠ [] := by
  constructor
  · intro h o ho
    obtain ⟨x, hx⟩ := List.mem_iff_getElem?.1 ho
    exact complete_ofOverload_iff.1 (h _ (List.mem_of_getElem? (getElem?_candidates hx)))
  · intro h c hc
    obtain ⟨⟨o, x⟩, ho, rfl⟩ := List.mem_map.1 hc
    exact complete_ofOverload_iff.2 (h o (List.fst_mem_of_mem_zipIdx ho))

end BoundFunction

/-! ### The emitted conditions -/

/-- One parenthesised check for each parameter. -/
def Overload.checks (o : Overload) (index : Nat) : List Operand :=
  o.zipIdx.map fun (param, i) => .validated ⟨index, i + 1⟩ (param.type.validate (i + 1 : Nat))

theorem guardTest_ofOverload (o : Overload) (index : Nat) :
    (Candidate.ofOverload o index).guardTest = .stackHolds o.length :: Overload.checks o index := by
  rw [Candidate.guardTest, Candidate.ofOverload, Overload.checks]
  rw [List.cons.injEq]
  refine ⟨rfl, ?_⟩
  refine List.ext_getElem? fun i => ?_
  simp only [List.getElem?_map, List.getElem?_zipIdx, Option.map_map]
  rfl

theorem settledTest_ofOverload (o : Overload) (index : Nat) :
    (Candidate.ofOverload o index).settledTest
      = (List.range o.length).map fun i => Operand.settled (i + 1) := by
  simp [Candidate.settledTest, Candidate.ofOverload]

/-- A candidate is written as its guard and, below it, its condition. -/
theorem exists_render_candidate (c : Candidate) :
    ∃ between after, c.render = c.renderGuard ++ between ++ c.renderConjunction ++ after := by
  rw [Candidate.render]
  refine ⟨Text.line 8 "\x7b"
      ++ String.join (c.tiebreaks.zipIdx.map fun entry => Candidate.renderTiebreak (entry.2 + 1) entry.1),
    Text.lines 12 ["\x7b", s!"    matching_overloads.emplace({c.index});", "\x7d"]
      ++ (Text.line 8 "\x7d" ++ "\n"), ?_⟩
  simp only [String.append_assoc]

/-- The text of an overloaded call has the guard and the condition of each candidate. -/
theorem exists_render_overloaded {candidates : List Candidate} {c : Candidate} (h : c ∈ candidates)
    (name : String) (resultMarks : Option String) (branches : List Branch) :
    ∃ before between after, (CallCode.overloaded name candidates resultMarks branches).render
      = before ++ c.renderGuard ++ between ++ c.renderConjunction ++ after := by
  obtain ⟨front, back, rfl⟩ := List.append_of_mem h
  obtain ⟨between, rest, hc⟩ := exists_render_candidate c
  have hjoin : String.join ((front ++ c :: back).map (·.render))
      = String.join (front.map (·.render)) ++ c.renderGuard ++ between ++ c.renderConjunction
        ++ (rest ++ String.join (back.map (·.render))) := by
    rw [List.map_append, List.map_cons, String.join_append, String.join_cons, hc]
    simp only [String.append_assoc]
  rw [CallCode.render]
  simp only [hjoin]
  refine ⟨Text.lines 8
      ["std::unordered_set<int> matching_overloads\x7b\x7d;", "int num_matching_overloads\x7b\x7d;",
       "auto num_params_on_stack = lua_gettop(lua_state);"] ++ String.join (front.map (·.render)),
    between, ?_, ?_⟩
  rotate_left
  · simp only [String.append_assoc]
    rfl

/-- CORRECT: of a function that overloads were offered to, the conditions are all complete unless the
first overload has no parameters. Each overload with parameters is tested by the number of arguments and
one check a parameter, then by one variable a parameter; for one without, neither text is a test. -/
theorem overload_conditions_complete_iff (f : BoundFunction) (registry : Registry) (withCall : Bool)
    (code : CallCode) (hf : f.Offered) (hmany : 2 ≤ f.overloads.length)
    (hcode : CallCode.of f registry withCall = .ok code) :
    (∃ branches, code = .overloaded f.name f.candidates (NativeCall.marksOf f.result) branches)
      ∧ ((∀ c ∈ f.candidates, c.Complete) ↔ f.overloads.head? ≠ some [])
      ∧ ∀ x o, f.overloads[x]? = some o → ∃ c, f.candidates[x]? = some c
        ∧ (∃ before between after,
          code.render = before ++ c.renderGuard ++ between ++ c.renderConjunction ++ after)
        ∧ (o ≠ [] →
          c.renderGuard = Text.line 8 (testText 8 (.stackHolds o.length :: Overload.checks o x))
            ∧ c.renderConjunction
              = Text.line 12 (testText 12 ((List.range o.length).map fun i => .settled (i + 1))))
        ∧ (o = [] → x = 0 ∧ ¬ IsTest 8 c.renderGuard ∧ ¬ IsTest 12 c.renderConjunction) := by
  obtain ⟨branches, -, rfl⟩ := of_eq_ok_overloaded hmany hcode
  refine ⟨⟨branches, rfl⟩, (f.complete_candidates_iff).trans hf.fronted.forall_ne_nil_iff, ?_⟩
  intro x o ho
  have hc := BoundFunction.getElem?_candidates ho
  refine ⟨_, hc, exists_render_overloaded (List.mem_of_getElem? hc) _ _ _, fun hne => ?_, ?_⟩
  · obtain ⟨hguards, htiebreaks⟩ := ofOverload_ne_nil hne x
    rw [← text_guardTest hguards, ← text_settledTest htiebreaks, guardTest_ofOverload,
      settledTest_ofOverload]
    exact ⟨rfl, rfl⟩
  · rintro rfl
    exact ⟨hf.fronted x ho, not_isTest_ofOverload_nil x⟩

/-- `Enable(bool)`, then `Enable(int)`. -/
def enable : BoundFunction :=
  (BoundFunction.new "Enable" "::Geo::Circle" CxxType.plainVoid).offerAll
    [[⟨"on", .bool {}⟩], [⟨"level", .numeric .int32 {}⟩]]

theorem enable_conditions_complete : enable.Offered ∧ 2 ≤ enable.overloads.length
    ∧ ∃ code, CallCode.of enable {} true = .ok code ∧ ∀ c ∈ enable.candidates, c.Complete := by
  have hoffered : enable.Offered := ⟨BoundFunction.new "Enable" "::Geo::Circle" CxxType.plainVoid, rfl, _, rfl⟩
  have hoverloads : enable.overloads = [[⟨"on", .bool {}⟩], [⟨"level", .numeric .int32 {}⟩]] := rfl
  have hmany : 2 ≤ enable.overloads.length := by rw [hoverloads]; decide
  refine ⟨hoffered, hmany, _, rfl, ?_⟩
  exact (overload_conditions_complete_iff enable {} true _ hoffered hmany rfl).2.1.2 (by simp [hoverloads])

/-- `Reset()`, then `Reset(bool)`: both are taken. -/
def reset : BoundFunction :=
  (BoundFunction.new "Reset" "::Geo::Circle" CxxType.plainVoid).offerAll [[], [⟨"hard", .bool {}⟩]]

/-- The guard of `Reset()` ends in `&&`, and the condition below it is empty. -/
theorem reset_conditions_incomplete : reset.Offered ∧ 2 ≤ reset.overloads.length
    ∧ ∃ code c, CallCode.of reset {} true = .ok code ∧ reset.candidates[0]? = some c
      ∧ c.renderGuard = "        if ((num_params_on_stack == 0) &&\n)\n" ∧ ¬ IsTest 8 c.renderGuard
      ∧ c.renderConjunction = "            if ()\n" ∧ ¬ IsTest 12 c.renderConjunction := by
  have hoverloads : reset.overloads = [[], [⟨"hard", .bool {}⟩]] := rfl
  have hc : reset.candidates[0]? = some (.ofOverload [] 0) :=
    BoundFunction.getElem?_candidates (by rw [hoverloads]; rfl)
  obtain ⟨hguard, hconjunction⟩ := render_ofOverload_nil 0
  obtain ⟨hnoGuard, hnoConjunction⟩ := not_isTest_ofOverload_nil 0
  exact ⟨⟨BoundFunction.new "Reset" "::Geo::Circle" CxxType.plainVoid, rfl, _, rfl⟩,
    by rw [hoverloads]; decide, _, _, rfl, hc, hguard, hnoGuard, hconjunction, hnoConjunction⟩

end LuaGlue
