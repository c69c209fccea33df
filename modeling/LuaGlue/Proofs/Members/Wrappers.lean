import LuaGlue.Proofs.Functions.Wrapped
import LuaGlue.Proofs.Members.MemberMap

/-!
How often the wrapper of a member is defined.

The instance functions and the static functions of a class are kept apart, each under its own name, but their wrappers
are named alike: by the tag of the class and the name of the function. So a name has one wrapper for each of the two
collections that it is in, and the entries that lead to it cannot tell which one they get:

    functions   Start, Reset        _Timer_member_function_wrapper_Start
                                    _Timer_member_function_wrapper_Reset   ◀── member map
    statics     Reset, Now          _Timer_member_function_wrapper_Reset   ◀── class table
                                    _Timer_member_function_wrapper_Now
-/

namespace LuaGlue

/-! ### Functions of one name -/

/-- Where keys are names, the values of a name are the one under it. -/
theorem filter_values {functions : Functions} (hkeys : ∀ entry ∈ functions.entries, entry.2.name = entry.1)
    (name : String) : functions.values.filter (fun f => f.name == name) = (functions.get? name).toList := by
  have hone : functions.entries.filter (fun entry => entry.2.name == name)
      = ((functions.get? name).map fun f => (name, f)).toList := by
    refine NameMap.eq_of_mem_iff (functions.ordered.filter _) ?_ fun entry => ?_
    · cases functions.get? name with
      | none => exact List.Pairwise.nil
      | some f => exact List.pairwise_singleton _ _
    · rw [List.mem_filter, Option.mem_toList, Option.map_eq_some_iff, beq_iff_eq]
      constructor
      · rintro ⟨hentry, rfl⟩
        rw [hkeys entry hentry]
        exact ⟨entry.2, NameMap.mem_entries_iff.1 hentry, rfl⟩
      · rintro ⟨f, hf, rfl⟩
        have hentry := NameMap.mem_entries_of_get? hf
        exact ⟨hentry, hkeys _ hentry⟩
  rw [NameMap.values, List.filter_map]
  change (functions.entries.filter fun entry => entry.2.name == name).map Prod.snd = _
  rw [hone]
  cases functions.get? name <;> rfl

namespace Members

/-- Does this name belong to an instance function that gets a wrapper, and to a static function that gets one? -/
def hasTwins (c : BoundClass) (name : String) : Bool :=
  !isOperatorName name && ((c.functions.get? name).any fun f => !f.isRedirector)
    && (c.statics.get? name).any fun f => !f.isRedirector

/-- Is this symbol defined by one of the wrappers only, and is that the wrapper of this function? -/
def DefinedFor (r : Registry) (wrappers : List WrapperFunction) (symbol : String) (f : BoundFunction) : Prop :=
  ∃ w, (wrappers.filter fun w => w.name == symbol) = [w] ∧ WrapperFunction.of symbol f r = .ok w

section Class

variable {r : Registry} {c : BoundClass}

/-- The functions of a name that get a wrapper: the instance function and the static function. -/
theorem filter_wrapped (h : c.Owning) (name : String) : (wrapped c).filter (fun f => f.name == name)
    = ((c.functions.get? name).filter fun f => !f.isRedirector && !isOperatorName f.name).toList
      ++ ((c.statics.get? name).filter fun f => !f.isRedirector).toList := by
  have hside : ∀ (functions : Functions) (keep : BoundFunction → Bool),
      (∀ entry ∈ functions.entries, entry.2.OwnedBy c.id entry.1) →
      (functions.values.filter keep).filter (fun f => f.name == name) = ((functions.get? name).filter keep).toList := by
    intro functions keep howned
    rw [List.filter_comm, filter_values (fun entry hentry => (howned entry hentry).name)]
    cases functions.get? name with
    | none => rfl
    | some f => cases hkeep : keep f <;> simp [Option.filter, hkeep]
  rw [wrapped, List.filter_append, hside c.functions _ (h .function), hside c.statics _ (h .static)]

/-- A name has two wrappers exactly when it has twins. -/
theorem length_filter_wrapped_le_one_iff (h : c.Owning) (name : String) :
    ((wrapped c).filter fun f => f.name == name).length ≤ 1 ↔ hasTwins c name = false := by
  have hside : ∀ (found : Option BoundFunction) (keep : BoundFunction → Bool),
      (found.filter keep).toList.length = if found.any keep then 1 else 0 := by
    intro found keep
    cases found with
    | none => rfl
    | some f => cases hkeep : keep f <;> simp [Option.filter, hkeep]
  have hfunction : ((c.functions.get? name).any fun f => !f.isRedirector && !isOperatorName f.name)
      = (!isOperatorName name && (c.functions.get? name).any fun f => !f.isRedirector) := by
    cases hfound : c.functions.get? name with
    | none => simp
    | some f =>
      have hname : f.name = name := (h .function _ (NameMap.mem_entries_of_get? hfound)).name
      simp [hname, Bool.and_comm]
  have hboth : ∀ first second : Bool,
      (if first then 1 else 0) + (if second then 1 else 0) ≤ 1 ↔ (first && second) = false := by decide
  rw [filter_wrapped h, List.length_append, hside, hside, hfunction, hboth, hasTwins]

/-! ### Wrappers of one name -/

/-- The wrapper of a function of the class, with the class spelled out. -/
theorem wrapperName_of_mem (h : r.Owning) (hc : c ∈ r.classes) {f : BoundFunction} (hf : f ∈ wrapped c)
    (d : BoundClass) : wrapperName r d f = s!"{c.tag}_member_function_wrapper_{f.name}" := by
  obtain ⟨-, kind, -, hmem⟩ := mem_wrapped hf
  obtain ⟨key, hkey⟩ := NameMap.mem_values.1 hmem
  have howner : f.owner = some c.id := (h.classes c hc kind _ hkey).owner
  have hclass : r.class? c.id = some c := h.rooted.placed.getElem? hc
  rw [wrapperName, howner, Option.bind_some, hclass, Option.getD_some]

/-- Whatever map lists it, a function that gets a wrapper is mapped to this name. -/
theorem target_of_mem (h : r.Owning) (hc : c ∈ r.classes) {f : BoundFunction} (hf : f ∈ wrapped c) (d : BoundClass) :
    target r d f = wrapperName r c f := by
  have hdirect := (mem_wrapped hf).1
  rw [wrapperName_of_mem h hc hf c, ← wrapperName_of_mem h hc hf d, target]
  cases f.wrapperName <;> simp [hdirect]

/-- Two functions of the class have wrappers of one name exactly when they have one name themselves. -/
theorem wrapperName_eq_iff (h : r.Owning) (hc : c ∈ r.classes) {f g : BoundFunction} (hf : f ∈ wrapped c)
    (hg : g ∈ wrapped c) : wrapperName r c g = wrapperName r c f ↔ g.name = f.name := by
  rw [wrapperName_of_mem h hc hf, wrapperName_of_mem h hc hg]
  exact String.append_right_inj _

/-- The wrappers of a name are those of the functions of a name. -/
theorem wrappers_filter (h : r.Owning) (hc : c ∈ r.classes) {found : List WrapperFunction}
    (hfound : wrappers r c = .ok found) {f : BoundFunction} (hf : f ∈ wrapped c) :
    ((wrapped c).filter fun g => g.name == f.name).mapM (fun g => WrapperFunction.of (wrapperName r c g) g r)
      = .ok (found.filter fun w => w.name == wrapperName r c f) := by
  have hfilter := filter_mapM_ok (fun g : BoundFunction => wrapperName r c g == wrapperName r c f)
    (fun w : WrapperFunction => w.name == wrapperName r c f)
    (fun g w hw => by rw [(WrapperFunction.of_eq_ok hw).1]) hfound
  have hsame : ∀ g ∈ wrapped c, (wrapperName r c g == wrapperName r c f) = (g.name == f.name) := fun g hg =>
    Bool.eq_iff_iff.2 (by simpa only [beq_iff_eq] using wrapperName_eq_iff h hc hf hg)
  rwa [List.filter_congr hsame] at hfilter

/-- A symbol is defined once, and for this function, exactly when no other function of the class has its name. -/
theorem definedFor_iff (h : r.Owning) (hc : c ∈ r.classes) {found : List WrapperFunction}
    (hfound : wrappers r c = .ok found) {f : BoundFunction} (hf : f ∈ wrapped c) :
    DefinedFor r found (wrapperName r c f) f ↔ ((wrapped c).filter fun g => g.name == f.name).length ≤ 1 := by
  have hmapped := wrappers_filter h hc hfound hf
  have hmem : f ∈ (wrapped c).filter fun g => g.name == f.name := List.mem_filter.2 ⟨hf, beq_self_eq_true _⟩
  constructor
  · rintro ⟨w, hw, -⟩
    rw [hw] at hmapped
    obtain ⟨g, hg, -⟩ := mapM_eq_singleton hmapped
    rw [hg, List.length_singleton]
  · intro hlength
    obtain ⟨g, hg⟩ := List.length_eq_one_iff.1 (Nat.le_antisymm hlength (List.length_pos_of_mem hmem))
    rw [hg] at hmem hmapped
    obtain rfl := List.mem_singleton.1 hmem
    obtain ⟨w, rest, hof, hrest, hw⟩ := mapM_cons_eq_ok.1 hmapped
    cases hrest
    exact ⟨w, hw, hof⟩

/-- No symbol is defined twice exactly when no name of a wrapped function occurs twice. -/
theorem nodup_names_iff (h : r.Owning) (hc : c ∈ r.classes) {found : List WrapperFunction}
    (hfound : wrappers r c = .ok found) : (found.map (·.name)).Nodup
      ↔ ∀ name, ((wrapped c).filter fun f => f.name == name).length ≤ 1 := by
  have hnames : (wrapped c).map (wrapperName r c) = found.map (·.name) := by
    have hpairs : List.Forall₂ (· = ·) ((wrapped c).map (wrapperName r c)) (found.map (·.name)) := by
      rw [List.forall₂_map_left_iff, List.forall₂_map_right_iff]
      exact (forall₂_of_mapM_ok hfound).imp fun f w hw => (WrapperFunction.of_eq_ok hw).1.symm
    rwa [List.forall₂_eq_eq_eq] at hpairs
  have hspelled : (wrapped c).map (wrapperName r c)
      = ((wrapped c).map (·.name)).map (s!"{c.tag}_member_function_wrapper_" ++ ·) := by
    rw [List.map_map]
    exact List.map_congr_left fun f hf => wrapperName_of_mem h hc hf c
  rw [← hnames, hspelled, List.nodup_map_iff fun _ _ => (String.append_right_inj _).1, List.nodup_iff_count_le_one]
  refine forall_congr' fun name => ?_
  rw [List.count, List.countP_map, List.countP_eq_length_filter]
  rfl

end Class

/-- CORRECT: in every registry that can be reached, the wrappers of a class have different names if and only if no name
has twins there. A function that gets a wrapper is mapped to a symbol that is defined once, for this very function, by
whichever class the map is, if and only if its own name has no twins. -/
theorem member_wrappers_defined_once_iff {r : Registry} (h : r.Reachable) {c : BoundClass} (hc : c ∈ r.classes)
    {found : List WrapperFunction} (hfound : wrappers r c = .ok found) :
    ((found.map (·.name)).Nodup ↔ ∀ name, hasTwins c name = false)
      ∧ ∀ f ∈ wrapped c, ∀ d, DefinedFor r found (target r d f) f ↔ hasTwins c f.name = false := by
  have howning := h.owning
  have hclass := howning.classes c hc
  refine ⟨?_, fun f hf d => ?_⟩
  · rw [nodup_names_iff howning hc hfound]
    exact forall_congr' fun name => length_filter_wrapped_le_one_iff hclass name
  · rw [target_of_mem howning hc hf, definedFor_iff howning hc hfound hf, length_filter_wrapped_le_one_iff hclass]

/-- A file with one exposed class, whose methods are written like this. -/
def timerSource (methods : String) : DeclarationSource where
  path := "timer.toml"
  text := some ("source='timer.hpp'\n[[class]]\nname='Timer'\ncomment='CUSTOM_ATTRIBUTE[Lua(Main)]'" ++ methods)

/-- What the run over this file leaves. -/
def timers (methods : String) : Registry := (({} : Registry).select [timerSource methods]).registry

/-- Does the run succeed with an exposed class whose wrappers have these names? -/
def wrapsAs (methods : String) (names : List String) : Bool :=
  (({} : Registry).select [timerSource methods]).outcome.isOk && (timers methods).classes.any fun c => c.isExposed
    && (wrappers (timers methods) c).toOption.any fun found => found.map (·.name) == names

theorem exists_of_wrapsAs {methods : String} {names : List String} (h : wrapsAs methods names = true) :
    (({} : Registry).select [timerSource methods]).outcome.isOk = true ∧ ∃ c ∈ (timers methods).classes,
      c.isExposed = true ∧ ∃ found, wrappers (timers methods) c = .ok found ∧ found.map (·.name) = names := by
  obtain ⟨hok, hany⟩ := Bool.and_eq_true_iff.1 h
  obtain ⟨c, hc, hclass⟩ := List.any_eq_true.1 hany
  obtain ⟨hexposed, hwrappers⟩ := Bool.and_eq_true_iff.1 hclass
  obtain ⟨found, hfound, hnames⟩ := exists_ok_of_any hwrappers
  exact ⟨hok, c, hc, hexposed, found, hfound, beq_iff_eq.1 hnames⟩

/-- An instance function, and a static function under another name. -/
def startAndNow : String :=
  "\n[[class.method]]\nname='Start'\n[[class.method]]\nname='Now'\nstatic=true\nreturns='int'"

/-- Both are defined once, each for the function that is mapped to it. -/
theorem start_and_now_defined_once :
    (({} : Registry).select [timerSource startAndNow]).outcome.isOk = true
      ∧ ∃ c ∈ (timers startAndNow).classes, c.isExposed = true ∧ ∃ found, wrappers (timers startAndNow) c = .ok found
        ∧ found.map (·.name) = ["_Timer_member_function_wrapper_Start", "_Timer_member_function_wrapper_Now"]
        ∧ (∀ name, hasTwins c name = false)
        ∧ ∀ f ∈ wrapped c, DefinedFor (timers startAndNow) found (target (timers startAndNow) c f) f := by
  have hwraps : wrapsAs startAndNow
      ["_Timer_member_function_wrapper_Start", "_Timer_member_function_wrapper_Now"] = true := by decide +kernel
  obtain ⟨hok, c, hc, hexposed, found, hfound, hnames⟩ := exists_of_wrapsAs hwraps
  obtain ⟨hnodup, hdefined⟩ := member_wrappers_defined_once_iff (Registry.reachable_selected {} ∅ _) hc hfound
  have htwins := hnodup.1 (by rw [hnames]; decide)
  exact ⟨hok, c, hc, hexposed, found, hfound, hnames, htwins, fun f hf => (hdefined f hf c).2 (htwins f.name)⟩

/-- An instance function, and a static function under the same name. -/
def resetTwice : String :=
  "\n[[class.method]]\nname='Reset'\n[[class.method]]\nname='Reset'\nstatic=true\nparams=[['to','int']]"

/-- Both wrappers have one name. -/
theorem reset_defined_twice :
    (({} : Registry).select [timerSource resetTwice]).outcome.isOk = true
      ∧ ∃ c ∈ (timers resetTwice).classes, c.isExposed = true ∧ ∃ found, wrappers (timers resetTwice) c = .ok found
        ∧ found.map (·.name) = ["_Timer_member_function_wrapper_Reset", "_Timer_member_function_wrapper_Reset"]
        ∧ ¬ (found.map (·.name)).Nodup := by
  have hwraps : wrapsAs resetTwice
      ["_Timer_member_function_wrapper_Reset", "_Timer_member_function_wrapper_Reset"] = true := by decide +kernel
  obtain ⟨hok, c, hc, hexposed, found, hfound, hnames⟩ := exists_of_wrapsAs hwraps
  exact ⟨hok, c, hc, hexposed, found, hfound, hnames, by rw [hnames]; decide⟩

end Members

end LuaGlue
