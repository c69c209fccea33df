import LuaGlue.Proofs.Isolation.Beside

/-!
Whole runs side by side.

Every declaration that both runs meet, and every step at the end up to the survey, leaves them beside each
other and fails in both or in none (`Beside.registerAll`, `Beside.assembled`).
-/

namespace LuaGlue.Selection

open Registry

section Steps

variable {hidden : List Place} {state : Option String} {quiet : Prop} {s s' : Selection}

/-! ### Functions -/

/-- What a native wrapper makes of a place: it is taken unless something is there. -/
def standInFor (g : BoundFunction) (old : Option BoundFunction) : Option BoundFunction :=
  if old.isSome then none else some g

theorem addCustomName_eq_fill (r : Registry) (f : DeclaredFunction) (request : FunctionRequest)
    (name : String × Nat) :
    ({ r with functions := addCustomName f request r.functions name } : Registry)
      = r.fill (.free (Scope.qualify request.scope name.1))
        (standInFor (newCustomFunction f request name.2 name.1)) := by
  rw [addCustomName, NameMap.contains, Registry.fill, bound?, standInFor]
  cases r.functions.get? (Scope.qualify request.scope name.1) <;> rfl

theorem Beside.addCustomFunction (h : Beside hidden state quiet s s') (f : DeclaredFunction)
    (request : FunctionRequest) :
    Beside hidden state quiet (s.addCustomFunction f request) (s'.addCustomFunction f request) := by
  have hnames : ∀ (names : List (String × Nat)) {s s' : Selection}, Beside hidden state quiet s s' →
      Beside hidden state quiet
        (s.withRegistry { s.registry with functions := names.foldl (addCustomName f request) s.registry.functions })
        (s'.withRegistry
          { s'.registry with functions := names.foldl (addCustomName f request) s'.registry.functions }) := by
    intro names
    induction names with
    | nil => exact fun h => h
    | cons name rest ih =>
      intro s s' h
      have hupdate : standInFor (newCustomFunction f request name.2 name.1) none ≠ none := nofun
      have hfirst := h.fill (.free (Scope.qualify request.scope name.1)) hupdate
      rw [← addCustomName_eq_fill, ← addCustomName_eq_fill] at hfirst
      exact ih hfirst
  exact (hnames _ h).bindIn request.state

theorem Beside.registerFunction (h : Beside hidden state quiet s s') (f : DeclaredFunction) :
    Beside hidden state quiet (s.registerFunction f) (s'.registerFunction f) := by
  unfold Selection.registerFunction
  simp only [h.requests]
  split
  · next request _ =>
    refine h.replan rfl rfl rfl rfl ?_
    rw [h.metamethods]
    exact congrArg (fun q : Selection => { q with
      requests := s'.requests
      metamethods := s'.metamethods ++ [Pending.mk request f.qualified f.source] }) h.plan
  · split
    · next request _ =>
      refine h.replan rfl rfl rfl rfl ?_
      rw [h.redirectors]
      exact congrArg (fun q : Selection => { q with
        requests := s'.requests
        redirectors := s'.redirectors ++ [Pending.mk request f.qualified f.source] }) h.plan
    · split
      · exact h.addCustomFunction f _
      · split
        · exact h.addFunction f _
        · split
          · exact h.addFunction f _
          · exact h.note _ _

/-! ### Classes and enums -/

theorem Beside.placeClass (h : Beside hidden state quiet s s') (c : DeclaredClass) :
    Beside hidden state quiet (s.placeClass c).1 (s'.placeClass c).1 ∧ (s.placeClass c).2 = (s'.placeClass c).2 := by
  have hleft : Beside hidden state quiet { s with current := none } { s' with current := none } :=
    h.replan rfl rfl rfl rfl (congrArg (fun q : Selection => { q with current := none }) h.plan)
  have htarget : ({ s with current := none } : Selection).classTarget? c
      = ({ s' with current := none } : Selection).classTarget? c := by
    rw [classTarget?, classTarget?]
    simp only [h.requests]
  rw [Selection.placeClass, Selection.placeClass]
  simp only [htarget]
  cases ({ s' with current := none } : Selection).classTarget? c with
  | none =>
    obtain ⟨hthin, hid⟩ := hleft.framed (framed_addThinClass c.name c.scope c.source)
    exact ⟨hthin.note _ _, congrArg some hid⟩
  | some target =>
    obtain ⟨name, luaScope⟩ := target
    obtain ⟨hclass, hid⟩ := hleft.framed (framed_addClass c.name c.scope c.source name)
    simp only at hclass hid ⊢
    cases hadd : s.registry.addClass c.name c.scope c.source name with
    | error reason =>
      cases hadd' : s'.registry.addClass c.name c.scope c.source name with
      | error reason' => exact ⟨hleft.skip _ _, rfl⟩
      | ok found' =>
        rw [hadd, hadd'] at hid
        cases hid
    | ok found =>
      cases hadd' : s'.registry.addClass c.name c.scope c.source name with
      | error reason' =>
        rw [hadd, hadd'] at hid
        cases hid
      | ok found' =>
        rw [hadd, hadd'] at hid hclass
        obtain ⟨r, id⟩ := found
        obtain ⟨r', id'⟩ := found'
        obtain rfl : id = id' := Option.some.inj hid
        have hdescribed := (hclass.framed (framed_describe id c luaScope)).1
        have hbound := (hdescribed.note (.exposingClass c.qualified name c.line)
          (.exposingClass c.qualified name c.line)).bindIn name
        refine ⟨hbound.replan rfl rfl rfl rfl ?_, rfl⟩
        simp only [h.exposed]
        exact congrArg (fun q : Selection => { q with exposed := s'.exposed ++ [id], current := some id }) hbound.plan

theorem Beside.registerClass (h : Beside hidden state quiet s s') (c : DeclaredClass) :
    Beside hidden state quiet (s.registerClass c).1 (s'.registerClass c).1
      ∧ (s.registerClass c).2 = (s'.registerClass c).2 := by
  obtain ⟨hplaced, hid⟩ := h.placeClass c
  rw [Selection.registerClass, Selection.registerClass]
  cases hleft : s.placeClass c with
  | mk t id =>
    cases hright : s'.placeClass c with
    | mk t' id' =>
      rw [hleft, hright] at hplaced hid
      obtain rfl : id = id' := hid
      cases id with
      | none => exact ⟨hplaced, rfl⟩
      | some id =>
        obtain ⟨hbases, habort⟩ := hplaced.framed (framed_addBasesNamed id c.bases)
        simp only at hbases habort ⊢
        cases hadd : addBasesNamed t.registry id c.bases with
        | mk r abort =>
          cases hadd' : addBasesNamed t'.registry id c.bases with
          | mk r' abort' =>
            rw [hadd, hadd'] at hbases habort
            obtain rfl : abort = abort' := habort
            cases abort with
            | some abort => exact ⟨hbases, rfl⟩
            | none => exact ⟨(hbases.framed (framed_nestClass c.scope id)).1, rfl⟩

theorem Beside.registerEnum (h : Beside hidden state quiet s s') (e : DeclaredEnum) :
    Beside hidden state quiet (s.registerEnum e) (s'.registerEnum e) := by
  have htarget : s.enumTarget? e = s'.enumTarget? e := by rw [enumTarget?, enumTarget?, h.requests]
  rw [Selection.registerEnum, Selection.registerEnum, htarget]
  cases s'.enumTarget? e with
  | none => exact h.note _ _
  | some target =>
    obtain ⟨name, scope⟩ := target
    obtain ⟨henum, hadded⟩ := h.framed (framed_addEnum { name := e.name, scope, state := name, values := e.values })
    simp only at henum hadded ⊢
    cases hadd : s.registry.addEnum { name := e.name, scope, state := name, values := e.values } with
    | error reason =>
      cases hadd' : s'.registry.addEnum { name := e.name, scope, state := name, values := e.values } with
      | error reason' => exact h.skip _ _
      | ok r' =>
        rw [hadd, hadd'] at hadded
        cases hadded
    | ok r =>
      cases hadd' : s'.registry.addEnum { name := e.name, scope, state := name, values := e.values } with
      | error reason' =>
        rw [hadd, hadd'] at hadded
        cases hadded
      | ok r' =>
        rw [hadd, hadd'] at henum
        exact henum.bindIn name

/-! ### The second pass -/

theorem Beside.register (h : Beside hidden state quiet s s') (d : Declaration) :
    Beside hidden state quiet (s.register d).1 (s'.register d).1 ∧ (s.register d).2 = (s'.register d).2 := by
  cases d with
  | remark => exact ⟨h, rfl⟩
  | record c => exact h.registerClass c
  | function f =>
    rw [Selection.register, Selection.register]
    simp only
    split
    · exact ⟨h.registerMember f, trivial⟩
    · exact ⟨h.registerFunction f, trivial⟩
  | enum e => exact ⟨h.registerEnum e, rfl⟩

theorem Beside.registerAll (h : Beside hidden state quiet s s')
    (stream : List (Except DeclarationError Declaration)) :
    Beside hidden state quiet (s.registerAll stream).1 (s'.registerAll stream).1
      ∧ (s.registerAll stream).2 = (s'.registerAll stream).2 := by
  induction stream generalizing s s' with
  | nil => exact ⟨h, rfl⟩
  | cons item rest ih =>
    cases item with
    | error e => exact ⟨h, rfl⟩
    | ok d =>
      obtain ⟨hfirst, hcause⟩ := h.register d
      rw [Selection.registerAll, Selection.registerAll]
      cases hleft : s.register d with
      | mk t cause =>
        cases hright : s'.register d with
        | mk t' cause' =>
          rw [hleft, hright] at hfirst hcause
          obtain rfl : cause = cause' := hcause
          cases cause with
          | none => exact ih hfirst
          | some cause => exact ⟨hfirst, rfl⟩

/-! ### Up to the survey -/

theorem Beside.addRequestedBases (h : Beside hidden state quiet s s') (bases : List (String × String)) :
    Beside hidden state quiet (s.addRequestedBases bases).1 (s'.addRequestedBases bases).1
      ∧ (s.addRequestedBases bases).2 = (s'.addRequestedBases bases).2 := by
  induction bases generalizing s s' with
  | nil => exact ⟨h, rfl⟩
  | cons edge rest ih =>
    obtain ⟨derived, base⟩ := edge
    have hfirst : Beside hidden state quiet (s.addRequestedBase derived base).1 (s'.addRequestedBase derived base).1
        ∧ (s.addRequestedBase derived base).2 = (s'.addRequestedBase derived base).2 := by
      rw [addRequestedBase, addRequestedBase]
      cases Scope.splitQualified derived with
      | mk scope name =>
        simp only [classId?]
        rcases find?_of_frame_eq h.frame scope name with ⟨hr, hr'⟩ | ⟨c, c', hr, hr', hframe⟩
        · rw [hr, hr']
          exact ⟨h.note _ _, rfl⟩
        · rw [hr, hr', Option.map_some, Option.map_some, BoundClass.id_of_frame_eq hframe]
          exact h.framed (framed_addBaseNamed c'.id base)
    rw [Selection.addRequestedBases, Selection.addRequestedBases]
    cases hleft : s.addRequestedBase derived base with
    | mk t abort =>
      cases hright : s'.addRequestedBase derived base with
      | mk t' abort' =>
        rw [hleft, hright] at hfirst
        obtain ⟨hbased, habort⟩ := hfirst
        obtain rfl : abort = abort' := habort
        cases abort with
        | none => exact ih hbased
        | some abort => exact ⟨hbased, rfl⟩

theorem Beside.exposedClass? (h : Beside hidden state quiet s s') (qualified : String) :
    (s.exposedClass? qualified = none ∧ s'.exposedClass? qualified = none)
      ∨ ∃ c c', s.exposedClass? qualified = some c ∧ s'.exposedClass? qualified = some c' ∧ c.frame = c'.frame := by
  rw [Selection.exposedClass?, Selection.exposedClass?, h.exposed]
  cases Scope.splitQualified qualified with
  | mk scope name =>
    simp only
    rcases find?_of_frame_eq h.frame scope name with ⟨hr, hr'⟩ | ⟨c, c', hr, hr', hframe⟩
    · exact .inl ⟨by rw [hr]; rfl, by rw [hr']; rfl⟩
    · rw [hr, hr']
      simp only [Option.filter_some, BoundClass.id_of_frame_eq hframe]
      split
      · exact .inr ⟨c, c', rfl, rfl, hframe⟩
      · exact .inl ⟨rfl, rfl⟩

/-- What a redirection makes of a place, whatever is there. -/
def replaceBy (member : BoundFunction) (_ : Option BoundFunction) : Option BoundFunction := some member

/-- A wrapper takes the place of a member. -/
theorem Beside.setMember (h : Beside hidden state quiet s s') {c c' : BoundClass} (hframe : c.frame = c'.frame)
    (kind : MemberKind) (key : String) (member : BoundFunction) :
    Beside hidden state quiet (s.setMember c kind key member) (s'.setMember c' kind key member) := by
  rw [Selection.setMember, Selection.setMember, BoundClass.id_of_frame_eq hframe]
  have hupdate : replaceBy member none ≠ none := nofun
  exact h.fill (.member c'.id kind key) hupdate

theorem wrappedMember_of_frame_eq {c c' : BoundClass} (h : c.frame = c'.frame) (name wrapper source : String) :
    wrappedMember c name wrapper source = wrappedMember c' name wrapper source :=
  @congrArg _ _ c.frame c'.frame (fun d => wrappedMember d name wrapper source) h

theorem Beside.attachRedirector (h : Beside hidden state quiet s s') (p : Pending RedirectorRequest) :
    Beside hidden state quiet (s.attachRedirector p) (s'.attachRedirector p) := by
  rw [Selection.attachRedirector, Selection.attachRedirector]
  simp only
  rcases h.exposedClass? p.request.className with ⟨hr, hr'⟩ | ⟨c, c', hr, hr', hframe⟩
  · rw [hr, hr']
    exact h.note _ _
  · rw [hr, hr']
    simp only
    rw [wrappedMember_of_frame_eq hframe]
    exact h.setMember hframe _ _ _

theorem Beside.attachMetamethod (h : Beside hidden state quiet s s') (p : Pending MetamethodRequest) :
    Beside hidden state quiet (s.attachMetamethod p) (s'.attachMetamethod p) := by
  rw [Selection.attachMetamethod, Selection.attachMetamethod]
  simp only
  split
  · exact h.note _ _
  · rcases h.exposedClass? p.request.className with ⟨hr, hr'⟩ | ⟨c, c', hr, hr', hframe⟩
    · rw [hr, hr']
      exact h.note _ _
    · rw [hr, hr']
      simp only
      rw [wrappedMember_of_frame_eq hframe]
      split
      · exact h.setMember hframe _ _ _
      · exact ((h.setMember hframe _ _ _).framed (framed_includeHeader p.source)).1

theorem Beside.foldl {α : Type} {step : Selection → α → Selection}
    (hstep : ∀ {s s'} a, Beside hidden state quiet s s' → Beside hidden state quiet (step s a) (step s' a))
    (h : Beside hidden state quiet s s') (l : List α) :
    Beside hidden state quiet (l.foldl step s) (l.foldl step s') := by
  induction l generalizing s s' with
  | nil => exact h
  | cons a l ih => exact ih (hstep a h)

/-- The state right before functions that name missing classes are dropped. -/
def assembled (s : Selection) : Selection :=
  let based := (s.addRequestedBases s.requests.bases).1
  let redirected := based.redirectors.foldl Selection.attachRedirector based
  redirected.metamethods.foldl Selection.attachMetamethod redirected

/-- What holds once the bases are linked and is kept by each native wrapper holds of all that is assembled. -/
theorem keeps_assembled {P : Selection → Prop} (hredirector : ∀ s p, P s → P (s.attachRedirector p))
    (hmetamethod : ∀ s p, P s → P (s.attachMetamethod p)) {s : Selection}
    (hbases : P (s.addRequestedBases s.requests.bases).1) : P s.assembled := by
  have hredirected := List.foldlRecOn (motive := P) (s.addRequestedBases s.requests.bases).1.redirectors
    Selection.attachRedirector hbases fun t ht p _ => hredirector t p ht
  exact List.foldlRecOn (motive := P) _ Selection.attachMetamethod hredirected fun t ht p _ => hmetamethod t p ht

theorem Beside.assembled (h : Beside hidden state quiet s s') :
    Beside hidden state quiet s.assembled s'.assembled
      ∧ (s.addRequestedBases s.requests.bases).2 = (s'.addRequestedBases s'.requests.bases).2 := by
  obtain ⟨hbased, habort⟩ := h.addRequestedBases s.requests.bases
  have hrequests := h.requests
  rw [hrequests] at hbased habort ⊢
  refine ⟨?_, habort⟩
  rw [Selection.assembled, Selection.assembled, hrequests]
  generalize (s.addRequestedBases s'.requests.bases).1 = t at hbased
  generalize (s'.addRequestedBases s'.requests.bases).1 = t' at hbased
  have hredirected := Beside.foldl (fun p h => h.attachRedirector p) hbased t.redirectors
  rw [hbased.redirectors] at hredirected ⊢
  generalize t'.redirectors.foldl Selection.attachRedirector t = u at hredirected
  generalize t'.redirectors.foldl Selection.attachRedirector t' = u' at hredirected
  rw [hredirected.metamethods]
  exact Beside.foldl (fun p h => h.attachMetamethod p) hredirected u'.metamethods

end Steps

end LuaGlue.Selection
