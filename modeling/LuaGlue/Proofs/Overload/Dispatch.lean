import LuaGlue.Proofs.Overload.Program
import LuaGlue.Proofs.Results
import Mathlib.Data.Finset.Max

/-!
What a call of an overloaded function does.

An overload is *accepted* when it has as many parameters as there are values on the Lua stack and every
check of every slot holds. The collected overloads are exactly the accepted ones (`run_candidates`), so
the verdict sees how many there are, and the arms lead from the one index that is left to the branch of
that overload (`run_branchChain`).

    accepted    none ─▶ no overload        one ─▶ its branch        more ─▶ ambiguous
-/

namespace LuaGlue

/-! ### Accepted overloads -/

/-- Has the overload at an index as many parameters as there are arguments, and does every check of
every slot hold? -/
def LuaCall.accepts (call : LuaCall) (index : Nat) (o : Overload) : Bool :=
  call.stack == o.length
    && (o.zipIdx.all fun (param, i) =>
      call.validates ⟨index, i + 1⟩ (param.type.validate (i + 1 : Nat)))
    && o.zipIdx.all fun (param, i) =>
      call.settles ⟨index, i + 1⟩ (param.type.tiebreak (i + 1 : Nat))

/-- The indices of the accepted overloads. -/
def LuaCall.accepted (call : LuaCall) (f : BoundFunction) : Finset Nat :=
  (Finset.range f.overloads.length).filter fun x => (f.overloads[x]?).any (call.accepts x)

theorem mem_accepted {call : LuaCall} {f : BoundFunction} {x : Nat} :
    x ∈ call.accepted f ↔ ∃ o, f.overloads[x]? = some o ∧ call.accepts x o = true := by
  rw [LuaCall.accepted, Finset.mem_filter, Finset.mem_range]
  constructor
  · rintro ⟨hlt, h⟩
    have hget := List.getElem?_eq_getElem hlt
    rw [hget, Option.any_some] at h
    exact ⟨_, hget, h⟩
  · rintro ⟨o, hget, h⟩
    exact ⟨(List.getElem?_eq_some_iff.1 hget).1, by rw [hget, Option.any_some, h]⟩

/-- The set with the accepted ones of these overloads too. -/
def LuaCall.collect (call : LuaCall) (s : Finset Nat) (overloads : List (Overload × Nat)) : Finset Nat :=
  overloads.foldl (fun s o => if call.accepts o.2 o.1 then insert o.2 s else s) s

theorem mem_collect {call : LuaCall} {s : Finset Nat} {overloads : List (Overload × Nat)} {x : Nat} :
    x ∈ call.collect s overloads ↔ x ∈ s ∨ ∃ o, (o, x) ∈ overloads ∧ call.accepts x o = true := by
  rw [LuaCall.collect]
  induction overloads generalizing s with
  | nil => simp
  | cons head rest ih =>
    obtain ⟨o, y⟩ := head
    rw [List.foldl_cons, ih]
    by_cases hy : call.accepts y o = true
    · simp only [hy, ↓reduceIte, Finset.mem_insert, List.mem_cons, Prod.mk.injEq]
      grind
    · simp only [hy, List.mem_cons, Prod.mk.injEq]
      grind

theorem collect_overloads (call : LuaCall) (f : BoundFunction) :
    call.collect ∅ f.overloads.zipIdx = call.accepted f := by
  ext x
  rw [mem_collect, mem_accepted]
  simp only [Finset.notMem_empty, false_or, List.mem_zipIdx_iff_getElem?]

/-! ### Candidates -/

/-- The guard of a candidate holds when the number of arguments is right and every coarse check
holds. -/
theorem evalTest_guardTest {call : LuaCall} {m : Machine} (c : Candidate)
    (hcounted : m.counted = some call.stack) :
    evalTest call m c.guardTest = some (call.stack == c.arity
      && c.guards.zipIdx.all fun (check, i) => call.validates ⟨c.index, i + 1⟩ check) := by
  rw [Candidate.guardTest, evalTest_eq (List.cons_ne_nil _ _)]
  · simp only [List.all_cons, List.all_map, Operand.eval, hcounted, Option.map_some, Function.comp_def]
    simp
  · intro o ho
    rcases List.mem_cons.1 ho with rfl | ho
    · simp [Operand.eval, hcounted]
    · obtain ⟨⟨check, i⟩, -, rfl⟩ := List.mem_map.1 ho
      rfl

/-- After the finer checks each outcome is kept at its slot. -/
theorem run_settlements (call : LuaCall) (m : Machine) (index start : Nat) (checks : List Tiebreak) :
    ∃ outcomes, Stmt.runAll call m ((checks.zipIdx start).flatMap fun (check, i) =>
        [.settle ⟨index, i + 1⟩ check, .blank]) = .ok { m with outcomes }
      ∧ (∀ slot ≤ start, outcomes slot = m.outcomes slot)
      ∧ ∀ k check, checks[k]? = some check →
        outcomes (start + k + 1) = some (call.settles ⟨index, start + k + 1⟩ check) := by
  induction checks generalizing m start with
  | nil => exact ⟨m.outcomes, rfl, fun _ _ => rfl, by simp⟩
  | cons check rest ih =>
    let m' : Machine := { m with
      outcomes := Function.update m.outcomes (start + 1) (some (call.settles ⟨index, start + 1⟩ check)) }
    obtain ⟨outcomes, hrun, hbelow, hat⟩ := ih m' (start + 1)
    refine ⟨outcomes, hrun, fun slot hslot => ?_, fun k other hk => ?_⟩
    · rw [hbelow slot (by omega)]
      exact Function.update_of_ne (by omega) _ _
    · cases k with
      | zero =>
        obtain rfl : check = other := by simpa using hk
        rw [Nat.add_zero, hbelow (start + 1) (Nat.le_refl _)]
        exact Function.update_self _ _ _
      | succ k =>
        have := hat k other (by simpa using hk)
        rwa [show start + 1 + k + 1 = start + (k + 1) + 1 by omega] at this

/-- The finer checks of a candidate all hold when their variables say so. -/
theorem evalTest_settledTest (call : LuaCall) {m : Machine} (c : Candidate) (hne : c.tiebreaks ≠ [])
    (hat : ∀ k check, c.tiebreaks[k]? = some check →
      m.outcomes (k + 1) = some (call.settles ⟨c.index, k + 1⟩ check)) :
    evalTest call m c.settledTest = some (c.tiebreaks.zipIdx.all fun (check, i) =>
      call.settles ⟨c.index, i + 1⟩ check) := by
  have hget : ∀ i < c.tiebreaks.length, ∃ check, c.tiebreaks[i]? = some check :=
    fun i hi => ⟨_, List.getElem?_eq_getElem hi⟩
  rw [Candidate.settledTest, evalTest_eq]
  · congr 1
    rw [Bool.eq_iff_iff, List.all_map, List.all_eq_true, List.all_eq_true]
    constructor
    · rintro h ⟨check, i⟩ hmem
      have hi := List.mem_zipIdx_iff_getElem?.1 hmem
      have := h i (List.mem_range.2 (List.getElem?_eq_some_iff.1 hi).1)
      simpa [Operand.eval, hat i check hi] using this
    · intro h i hi
      obtain ⟨check, hcheck⟩ := hget i (List.mem_range.1 hi)
      have := h (check, i) (List.mem_zipIdx_iff_getElem?.2 hcheck)
      simpa [Operand.eval, hat i check hcheck] using this
  · simpa using hne
  · intro o ho
    obtain ⟨i, hi, rfl⟩ := List.mem_map.1 ho
    obtain ⟨check, hcheck⟩ := hget i (List.mem_range.1 hi)
    simp [Operand.eval, hat i check hcheck]

/-- Do the number of arguments and all checks of a candidate hold? -/
def LuaCall.passes (call : LuaCall) (c : Candidate) : Bool :=
  call.stack == c.arity
    && (c.guards.zipIdx.all fun (check, i) => call.validates ⟨c.index, i + 1⟩ check)
    && c.tiebreaks.zipIdx.all fun (check, i) => call.settles ⟨c.index, i + 1⟩ check

/-- A candidate collects its index when it passes, and leaves nothing else behind. -/
theorem run_candidate {call : LuaCall} {m : Machine} {s : Finset Nat} (c : Candidate)
    (hne : c.tiebreaks ≠ []) (hcounted : m.counted = some call.stack) (hmatching : m.matching = some s) :
    Stmt.runAll call m c.program
      = .ok { m with matching := some (if call.passes c then insert c.index s else s) } := by
  have hsame : { m with matching := some s } = m := by rw [← hmatching]
  simp only [Candidate.program, Stmt.runAll, Stmt.run, Chain.run, evalTest_guardTest c hcounted]
  rw [LuaCall.passes]
  cases hguard : (call.stack == c.arity
      && c.guards.zipIdx.all fun (check, i) => call.validates ⟨c.index, i + 1⟩ check) with
  | false => simp [hsame]
  | true =>
    obtain ⟨outcomes, hrun, -, hat⟩ := run_settlements call m c.index 0 c.tiebreaks
    have hsettled := evalTest_settledTest call (m := { m with outcomes }) c hne
      fun k check hk => by simpa using hat k check hk
    simp only [runAll_append, Candidate.settlements, hrun, Except.bind, Stmt.runAll, Stmt.run, Chain.run,
      hsettled]
    cases c.tiebreaks.zipIdx.all fun (check, i) => call.settles ⟨c.index, i + 1⟩ check with
    | false => simp [Except.map, Machine.leave, hsame]
    | true => simp [Except.map, Machine.leave, hmatching]

theorem all_zipIdx_map {α β : Type} (l : List α) (g : α × Nat → β) (test : β × Nat → Bool) (start : Nat) :
    (((l.zipIdx start).map g).zipIdx start).all test = (l.zipIdx start).all fun a => test (g a, a.2) := by
  induction l generalizing start with
  | nil => rfl
  | cons a l ih => simp only [List.zipIdx_cons, List.map_cons, List.all_cons, ih]

theorem passes_ofOverload (call : LuaCall) (o : Overload) (index : Nat) :
    call.passes (.ofOverload o index) = call.accepts index o := by
  rw [LuaCall.passes, LuaCall.accepts, Candidate.ofOverload]
  simp only [all_zipIdx_map]

theorem ofOverload_ne_nil {o : Overload} (h : o ≠ []) (index : Nat) :
    (Candidate.ofOverload o index).guards ≠ [] ∧ (Candidate.ofOverload o index).tiebreaks ≠ [] := by
  constructor <;> simpa [Candidate.ofOverload] using h

/-- The tests for all overloads of a function. -/
def BoundFunction.candidates (f : BoundFunction) : List Candidate :=
  f.overloads.zipIdx.map fun (o, i) => .ofOverload o i

/-- The candidates collect the accepted overloads. -/
theorem run_candidates (call : LuaCall) {m : Machine} {s : Finset Nat}
    (overloads : List (Overload × Nat)) (hne : ∀ o ∈ overloads, o.1 ≠ [])
    (hcounted : m.counted = some call.stack) (hmatching : m.matching = some s) :
    Stmt.runAll call m ((overloads.map fun (o, i) => Candidate.ofOverload o i).flatMap Candidate.program)
      = .ok { m with matching := some (call.collect s overloads) } := by
  induction overloads generalizing m s with
  | nil => rw [LuaCall.collect, List.foldl_nil, ← hmatching]; rfl
  | cons head rest ih =>
    obtain ⟨o, i⟩ := head
    have hhead := run_candidate (.ofOverload o i) (ofOverload_ne_nil (hne _ List.mem_cons_self) i).2
      hcounted hmatching
    rw [List.map_cons, List.flatMap_cons, runAll_append, hhead, passes_ofOverload, LuaCall.collect,
      List.foldl_cons]
    exact ih (fun o ho => hne o (List.mem_cons_of_mem _ ho)) hcounted rfl

/-! ### Verdict and branches -/

/-- The verdict raises an error unless exactly one overload was collected, and chooses that one. -/
theorem run_verdict (call : LuaCall) {m : Machine} {s : Finset Nat} (name : String)
    (hmatching : m.matching = some s) :
    (s = ∅ → Stmt.runAll call m (verdict name) = .error (.raised (Messages.noOverload name)))
      ∧ (1 < s.card →
        Stmt.runAll call m (verdict name) = .error (.raised (Messages.ambiguousOverload name)))
      ∧ ∀ x, s = {x} → Stmt.runAll call m (verdict name) = .ok { m with selected := some x } := by
  rw [verdict]
  simp only [Stmt.runAll, Stmt.run, Chain.run, evalTest, Operand.eval, hmatching, Option.map_some]
  refine ⟨?_, ?_, ?_⟩
  · rintro rfl
    simp [Except.map]
  · intro h
    simp [h, Except.map]
  · rintro x rfl
    have hfirst : call.first {x} = x := Finset.mem_singleton.1 (call.first_mem _ (Finset.singleton_nonempty x))
    simp [hmatching, hfirst]

/-- The arms lead to the branch whose index was chosen. -/
theorem run_branchChain (call : LuaCall) {m : Machine} {start k : Nat} {branches : List Branch}
    (hindices : branches.map (·.index) = List.range' start branches.length)
    (hselected : m.selected = some (start + k)) {b : Branch} (hb : branches[k]? = some b) :
    (branchChain branches).run call m
      = .ok { m with performed := m.performed ++ [(b.extractions, b.tail)] } := by
  induction branches generalizing start k with
  | nil => simp at hb
  | cons head rest ih =>
    rw [List.map_cons, List.length_cons, List.range'_succ, List.cons.injEq] at hindices
    obtain ⟨hhead, hrest⟩ := hindices
    have hchosen : evalTest call m [.chosen head.index] = some (start + k == start) := by
      simp [evalTest, Operand.eval, hselected, hhead]
    rw [branchChain, Chain.run, hchosen]
    cases k with
    | zero =>
      obtain rfl : head = b := by simpa using hb
      simp [Stmt.runAll, Stmt.run, Except.map, Machine.leave]
    | succ k =>
      have hne : (start + (k + 1) == start) = false := by simp
      have hshift : start + (k + 1) = start + 1 + k := by omega
      rw [hne]
      exact ih hrest (hshift ▸ hselected) (by simpa using hb)

/-- A branch reads the arguments of an overload and makes its call. -/
structure Branch.Serves (f : BoundFunction) (registry : Registry) (b : Branch) (o : Overload) : Prop where
  reads : Extraction.ofOverload .branch registry o = .ok b.extractions
  calls : ∃ dropped, b.tail = some ⟨.ofOverload f o, dropped⟩

theorem Branch.exists_serves {f : BoundFunction} {registry : Registry} {branches : List Branch}
    {overloads : List Overload} (h : List.Forall₂ (Branch.Serves f registry) branches overloads) {x : Nat}
    {o : Overload} (ho : overloads[x]? = some o) : ∃ b, branches[x]? = some b ∧ b.Serves f registry o :=
  exists_getElem?_of_forall₂ h.flip ho

theorem branchesFrom_eq_ok {f : BoundFunction} {registry : Registry} {index : Nat} {saved : List Nat}
    {overloads : List Overload} {branches : List Branch}
    (h : CallCode.branchesFrom f registry true index saved overloads = .ok branches) :
    branches.map (·.index) = List.range' index branches.length
      ∧ List.Forall₂ (Branch.Serves f registry) branches overloads := by
  induction overloads generalizing index saved branches with
  | nil =>
    rw [CallCode.branchesFrom, Except.ok.injEq] at h
    subst h
    exact ⟨rfl, .nil⟩
  | cons o rest ih =>
    rw [CallCode.branchesFrom] at h
    cases hreads : Extraction.ofOverload .branch registry o with
    | error e => rw [hreads] at h; cases h
    | ok extractions =>
      rw [hreads] at h
      simp only [bind, Except.bind, ↓reduceIte] at h
      split at h
      · cases h
      · next later hlater =>
        obtain ⟨hindices, hserves⟩ := ih hlater
        cases h
        refine ⟨?_, .cons ⟨hreads, _, rfl⟩ hserves⟩
        rw [List.map_cons, List.length_cons, List.range'_succ, hindices]

theorem of_eq_ok_overloaded {f : BoundFunction} {registry : Registry} {withCall : Bool} {code : CallCode}
    (hmany : 2 ≤ f.overloads.length) (h : CallCode.of f registry withCall = .ok code) :
    ∃ branches, CallCode.branchesFrom f registry withCall 0 [] f.overloads = .ok branches
      ∧ code = .overloaded f.name f.candidates (NativeCall.marksOf f.result) branches := by
  obtain ⟨o, _, hone, -⟩ | ⟨branches, -, hbranches, rfl⟩ := CallCode.of_cases h
  · simp [hone] at hmany
  · exact ⟨branches, hbranches, rfl⟩

/-! ### The whole call -/

/-- The call of a function with several overloads, each with parameters, is written as its statements
are. -/
theorem text_of_overloaded {f : BoundFunction} {registry : Registry} {code : CallCode}
    (hmany : 2 ≤ f.overloads.length) (hparams : ∀ o ∈ f.overloads, o ≠ [])
    (hcode : CallCode.of f registry true = .ok code) : Stmt.textAll 8 code.program = code.render := by
  obtain ⟨branches, hbranches, rfl⟩ := of_eq_ok_overloaded hmany hcode
  refine textAll_program (fun c hc => ?_) (branchesFrom_eq_ok hbranches).1
  obtain ⟨⟨o, i⟩, ho, rfl⟩ := List.mem_map.1 hc
  exact ofOverload_ne_nil (hparams o (List.fst_mem_of_mem_zipIdx ho)) i

/-- The run up to the verdict collects the accepted overloads. -/
theorem run_program {f : BoundFunction} {branches : List Branch} (call : LuaCall)
    (hparams : ∀ o ∈ f.overloads, o ≠ []) :
    Stmt.runAll call {} (CallCode.program
        (.overloaded f.name f.candidates (NativeCall.marksOf f.result) branches))
      = (Stmt.runAll call { counted := some call.stack, matching := some (call.accepted f) }
          (verdict f.name)).bind fun m => (branchChain branches).run call m := by
  have hcandidates := run_candidates call
    (m := { counted := some call.stack, matching := some ∅ }) f.overloads.zipIdx
    (fun o ho => hparams o.1 (List.fst_mem_of_mem_zipIdx ho)) rfl rfl
  rw [collect_overloads] at hcandidates
  simp only [CallCode.program, runAll_append, Stmt.runAll, Stmt.run, Except.bind,
    BoundFunction.candidates, hcandidates]
  congr 1
  funext m
  cases (branchChain branches).run call m with
  | ok m' => rfl
  | error halt => rfl

theorem uncaughtResolution_ne (name : String) : Messages.noOverload name ≠ Messages.uncaughtResolution
    ∧ Messages.ambiguousOverload name ≠ Messages.uncaughtResolution := by
  unfold Messages.noOverload Messages.ambiguousOverload Messages.uncaughtResolution
  constructor <;>
  · intro h
    have := congrArg (fun s => s.toList.head?) h
    simp [toString, String.toList_append] at this

/-- CORRECT: the code that is written for a function with several overloads, each with parameters,
raises an error when none or several of them are accepted, and otherwise reads the arguments of the one
that is and makes its call. The last arm is never taken. -/
theorem overload_dispatch_exact (f : BoundFunction) (registry : Registry) (code : CallCode)
    (hmany : 2 ≤ f.overloads.length) (hparams : ∀ o ∈ f.overloads, o ≠ [])
    (hcode : CallCode.of f registry true = .ok code) (call : LuaCall) :
    Stmt.textAll 8 code.program = code.render
      ∧ (call.accepted f = ∅ →
          Stmt.runAll call {} code.program = .error (.raised (Messages.noOverload f.name)))
      ∧ (2 ≤ (call.accepted f).card →
          Stmt.runAll call {} code.program = .error (.raised (Messages.ambiguousOverload f.name)))
      ∧ (∀ x o, call.accepted f = {x} → f.overloads[x]? = some o →
          ∃ m extractions dropped, Stmt.runAll call {} code.program = .ok m
            ∧ Extraction.ofOverload .branch registry o = .ok extractions
            ∧ m.performed = [(extractions, some ⟨.ofOverload f o, dropped⟩)])
      ∧ Stmt.runAll call {} code.program ≠ .error (.raised Messages.uncaughtResolution) := by
  refine ⟨text_of_overloaded hmany hparams hcode, ?_⟩
  obtain ⟨branches, hbranches, rfl⟩ := of_eq_ok_overloaded hmany hcode
  obtain ⟨hindices, hserves⟩ := branchesFrom_eq_ok hbranches
  obtain ⟨hnone, hseveral, hone⟩ := run_verdict call (s := call.accepted f)
    (m := { counted := some call.stack, matching := some (call.accepted f) }) f.name rfl
  rw [run_program call hparams]
  have hbranch : ∀ x o, call.accepted f = {x} → f.overloads[x]? = some o → ∃ m extractions dropped,
      ((Stmt.runAll call { counted := some call.stack, matching := some (call.accepted f) }
        (verdict f.name)).bind fun m => (branchChain branches).run call m) = .ok m
        ∧ Extraction.ofOverload .branch registry o = .ok extractions
        ∧ m.performed = [(extractions, some ⟨.ofOverload f o, dropped⟩)] := by
    intro x o hx ho
    obtain ⟨b, hb, hreads, dropped, htail⟩ := Branch.exists_serves hserves ho
    have hchain := run_branchChain call (k := x)
      (m := { counted := some call.stack, matching := some (call.accepted f), selected := some x })
      hindices (congrArg some (Nat.zero_add x).symm) hb
    rw [hone x hx, Except.bind, hchain]
    exact ⟨_, b.extractions, dropped, rfl, hreads, by rw [htail]; rfl⟩
  refine ⟨fun h => ?_, fun h => ?_, hbranch, ?_⟩
  · rw [hnone h]; rfl
  · rw [hseveral h]; rfl
  -- however many overloads are accepted, one of the three outcomes above is the one
  · obtain ⟨hnoOverload, hambiguous⟩ := uncaughtResolution_ne f.name
    rcases Nat.lt_trichotomy (call.accepted f).card 1 with h | h | h
    · rw [hnone (Finset.card_eq_zero.1 (by omega))]
      simpa [Except.bind] using hnoOverload
    · obtain ⟨x, hx⟩ := Finset.card_eq_one.1 h
      obtain ⟨o, ho, -⟩ := mem_accepted.1 (hx ▸ Finset.mem_singleton_self x : x ∈ call.accepted f)
      obtain ⟨m, _, _, hrun, -, -⟩ := hbranch x o hx ho
      rw [hrun]
      simp
    · rw [hseveral h]
      simpa [Except.bind] using hambiguous

/-- `Scale(int)` and `Scale(float)`: every number fits both. -/
def scale : BoundFunction :=
  { BoundFunction.new "Scale" "::Geo::Circle" CxxType.plainVoid with
    overloads := [[⟨"factor", .numeric .int32 {}⟩], [⟨"factor", .numeric .float {}⟩]] }

/-- A call with one argument that passes every check. -/
def fittingCall : LuaCall where
  stack := 1
  validates _ _ := true
  settles _ _ := true
  first s := if h : s.Nonempty then s.min' h else 0
  first_mem s h := by simpa [h] using s.min'_mem h

theorem scale_call_ambiguous : ∃ code, 2 ≤ scale.overloads.length ∧ (∀ o ∈ scale.overloads, o ≠ [])
    ∧ CallCode.of scale {} true = .ok code ∧ fittingCall.accepted scale = {0, 1}
    ∧ Stmt.runAll fittingCall {} code.program
        = .error (.raised (Messages.ambiguousOverload "Scale")) := by
  have hparams : ∀ o ∈ scale.overloads, o ≠ [] := by simp [scale]
  have haccepted : fittingCall.accepted scale = {0, 1} := by decide
  refine ⟨_, by decide, hparams, rfl, haccepted, ?_⟩
  exact (overload_dispatch_exact scale {} _ (by decide) hparams rfl fittingCall).2.2.1
    (by rw [haccepted]; decide)

end LuaGlue
