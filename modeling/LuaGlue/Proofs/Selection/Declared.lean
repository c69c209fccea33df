import LuaGlue.Proofs.Attachment.Attached
import LuaGlue.Proofs.Selection.ClassFacts

/-!
The facts about classes that a run comes to.

The second pass adds the facts of every class declaration that is not refused (`adds_registerAll`), the end of a run the
requested bases, and thin classes that have neither a state nor bases. So a class is bound after a run if a declaration
of its name is, and it has the bases that its declarations and the requests name.

    second pass    class Mesh : Shape      bound Mesh Main    linked Mesh Shape
    requests       LuaAddBaseToClass       linked Mesh Node
    survey         a forward class         named Light
-/

namespace LuaGlue

open Registry

/-- What a declaration of a class adds that is not refused, bound in a state or not. -/
def DeclaredClass.Facts (c : DeclaredClass) (state : Option String) (x : ClassFact) : Prop :=
  x = .named c.qualified ∨ (∃ s, state = some s ∧ x = .bound c.qualified s) ∨ BaseFacts c.qualified c.bases x

namespace Selection

variable {s : Selection}

/-! ### Classes -/

/-- A class that is not refused is there afterwards, under the id that it gets. -/
theorem adds_placeClass (h : s.registry.Rooted) {c : DeclaredClass} (hadmitted : ¬ s.Refuses c) :
    ∃ t id, s.placeClass c = (t, some id) ∧ t.registry.Rooted ∧ t.registry.Calls id c.qualified
      ∧ Adds (fun x => x = .named c.qualified
          ∨ ∃ state, (s.classTarget? c).map Prod.fst = some state ∧ x = .bound c.qualified state)
        s.registry t.registry := by
  have hrooted := (changes_placeClass s c).keeps Rooted.change h
  have hsame : ({ s with current := none } : Selection).classTarget? c = s.classTarget? c := rfl
  rw [placeClass] at hrooted ⊢
  simp only [hsame] at hrooted ⊢
  cases htarget : s.classTarget? c with
  | none =>
    rw [htarget] at hrooted
    refine ⟨_, _, rfl, hrooted, calls_addThinClass h.placed c.name c.scope c.source, ?_⟩
    exact (adds_addThinClass h c.name c.scope c.source).congr fun x => by simp [DeclaredClass.qualified]
  | some target =>
    obtain ⟨state, luaScope⟩ := target
    rw [htarget] at hrooted
    simp only at hrooted ⊢
    cases hadd : s.registry.addClass c.name c.scope c.source state with
    | error reason =>
      refine absurd ⟨?_, ?_⟩ hadmitted
      · rw [htarget]
        rfl
      · unfold addClass at hadd
        split at hadd
        · cases hadd
        · next found hfind =>
          split at hadd
          · next hexposed => exact ⟨found, hfind, hexposed⟩
          · cases hadd
    | ok result =>
      obtain ⟨registry, id⟩ := result
      rw [hadd] at hrooted
      have hplaced := (Change.expose hadd).once.keeps Rooted.change h |>.placed
      have hface := sameFace_describe c luaScope
      refine ⟨_, _, rfl, hrooted, (calls_addClass h.placed hadd).modifyClass id hface, ?_⟩
      refine ((adds_addClass h hadd).followed (adds_modifyClass hplaced id hface fun _ => rfl)).congr fun x => ?_
      simp [DeclaredClass.qualified]

/-- A class that is not refused adds its facts, unless one of its bases closes a cycle. -/
theorem adds_registerClass (h : s.registry.Rooted) {c : DeclaredClass} (hadmitted : ¬ s.Refuses c)
    (hends : (s.registerClass c).2 = none) :
    Adds (c.Facts ((s.classTarget? c).map Prod.fst)) s.registry (s.registerClass c).1.registry := by
  obtain ⟨t, id, hplace, hrooted, hcalls, hadds⟩ := adds_placeClass h hadmitted
  rw [registerClass, hplace] at hends ⊢
  simp only at hends ⊢
  have hbases : (addBasesNamed t.registry id c.bases).2 = none → _ := adds_addBasesNamed hrooted hcalls
  have hbased := (changes_addBasesNamed t.registry id c.bases).keeps Rooted.change hrooted
  split at hends
  · cases hends
  · next registry heq =>
    rw [heq] at hbases hbased
    refine ((hadds.trans (hbases rfl)).followed (adds_nestClass hbased.placed c.scope id)).congr fun x => ?_
    rw [DeclaredClass.Facts, or_assoc]

/-! ### Members, functions and enums -/

/-- Members leave classes as they are. -/
theorem adds_registerMember (h : s.registry.Placed) (f : DeclaredFunction) :
    Adds (fun _ => False) s.registry (s.registerMember f).registry := by
  rw [registerMember]
  split
  · exact .refl _
  · next id _ =>
    split
    · exact adds_modifyClass h id sameFace_makeDefault fun _ => rfl
    · split
      · exact .refl _
      · split
        · exact .refl _
        · rw [withSignature]
          split
          · exact .refl _
          · next o result _ =>
            rw [addMember]
            split
            · exact .refl _
            · next c _ =>
              simp only
              split
              · next m _ =>
                rw [(wrapAll_spec _ o result).1.registry.rest]
                have hface := sameFace_withMembers (kindOf f) fun _ => (c.members (kindOf f)).insert f.name m
                refine (adds_modifyClass h id hface fun d => ?_).followed (adds_of_classes_eq rfl)
                cases kindOf f <;> rfl
              · exact .refl _

/-- What a declaration adds. -/
theorem adds_register (h : s.registry.Rooted) {d : Declaration} (hends : (s.register d).2 = none) :
    Adds (fun x => ∃ c, d = .record c ∧ ¬ s.Refuses c ∧ c.Facts ((s.classTarget? c).map Prod.fst) x)
      s.registry (s.register d).1.registry := by
  have hnone : (∀ c, d = .record c → s.Refuses c) → ∀ x, False
      ↔ ∃ c, d = .record c ∧ ¬ s.Refuses c ∧ c.Facts ((s.classTarget? c).map Prod.fst) x :=
    fun hrefused x => by
      refine ⟨False.elim, ?_⟩
      rintro ⟨c, hc, hadmitted, -⟩
      exact hadmitted (hrefused c hc)
  cases d with
  | remark => exact (Adds.refl _).congr (hnone fun c hc => by cases hc)
  | record c =>
    by_cases hrefused : s.Refuses c
    · obtain ⟨notices, heq⟩ := register_of_refuses hrefused
      rw [heq]
      refine (adds_of_classes_eq rfl).congr (hnone fun other hother => ?_)
      cases hother
      exact hrefused
    · refine (adds_registerClass h hrefused hends).congr fun x => ?_
      simp [hrefused]
  | function f =>
    rw [register]
    simp only
    split
    · exact (adds_registerMember h.placed f).congr (hnone fun c hc => by cases hc)
    · obtain ⟨functions, signatures, redirectors, metamethods, states, skipped, notices, heq⟩ :=
        registerFunction_rest s f
      rw [heq]
      exact (adds_of_classes_eq rfl).congr (hnone fun c hc => by cases hc)
  | enum e =>
    refine (adds_of_classes_eq ?_).congr (hnone fun c hc => by cases hc)
    rw [register, registerEnum]
    split
    · rfl
    · split
      · next hadd =>
        obtain ⟨-, rfl⟩ := addEnum_ok hadd
        rfl
      · rfl

/-! ### The second pass -/

/-- Is a declaration of this class met and not refused? -/
def Admits (s : Selection) (stream : List (Except DeclarationError Declaration)) (c : DeclaredClass) : Prop :=
  ∃ pre post, stream = pre ++ .ok (.record c) :: post ∧ ¬ (s.registerAll pre).1.Refuses c

/-- Does a declaration that is not refused add this fact? -/
def Declares (s : Selection) (stream : List (Except DeclarationError Declaration)) (x : ClassFact) : Prop :=
  ∃ c, s.Admits stream c ∧ c.Facts ((s.classTarget? c).map Prod.fst) x

theorem declares_bound_iff {stream : List (Except DeclarationError Declaration)} {name state : String} :
    s.Declares stream (.bound name state)
      ↔ ∃ c, s.Admits stream c ∧ c.qualified = name ∧ (s.classTarget? c).map Prod.fst = some state := by
  refine exists_congr fun c => and_congr_right fun _ => ?_
  simp only [DeclaredClass.Facts, BaseFacts, reduceCtorEq, false_or, or_self, and_false, exists_false, or_false,
    ClassFact.bound.injEq]
  constructor
  · rintro ⟨_, htarget, rfl, rfl⟩
    exact ⟨rfl, htarget⟩
  · rintro ⟨rfl, htarget⟩
    exact ⟨state, htarget, rfl, rfl⟩

theorem declares_linked_iff {stream : List (Except DeclarationError Declaration)} {name base : String} :
    s.Declares stream (.linked name base)
      ↔ ∃ c, s.Admits stream c ∧ c.qualified = name ∧ ∃ text ∈ c.bases, Scope.canonical text = base := by
  refine exists_congr fun c => and_congr_right fun _ => ?_
  simp only [DeclaredClass.Facts, BaseFacts, reduceCtorEq, false_or, and_false, exists_false, ClassFact.linked.injEq]
  constructor
  · rintro ⟨text, htext, rfl, rfl⟩
    exact ⟨rfl, text, htext, rfl⟩
  · rintro ⟨rfl, text, htext, rfl⟩
    exact ⟨text, htext, rfl, rfl⟩

section Admits

variable {stream : List (Except DeclarationError Declaration)} {c : DeclaredClass}

theorem classTarget?_of_learned {t : Selection} (h : Learned s t) (c : DeclaredClass) :
    t.classTarget? c = s.classTarget? c := by
  rw [classTarget?, classTarget?, h.requests]

theorem Admits.mem (h : s.Admits stream c) : .ok (.record c) ∈ stream := by
  obtain ⟨pre, post, rfl, -⟩ := h
  exact List.mem_append_right _ List.mem_cons_self

theorem Admits.append (h : s.Admits stream c) (more : List (Except DeclarationError Declaration)) :
    s.Admits (stream ++ more) c := by
  obtain ⟨pre, post, rfl, hadmitted⟩ := h
  exact ⟨pre, post ++ more, by simp, hadmitted⟩

/-- The first declaration, or one that comes after it. -/
theorem admits_cons_iff {t : Selection} {d : Declaration} (hfirst : s.register d = (t, none)) :
    s.Admits (.ok d :: stream) c ↔ d = .record c ∧ ¬ s.Refuses c ∨ t.Admits stream c := by
  have hstep : ∀ pre, s.registerAll (.ok d :: pre) = t.registerAll pre := fun pre => by rw [registerAll, hfirst]
  constructor
  · rintro ⟨pre, post, hstream, hadmitted⟩
    cases pre with
    | nil =>
      cases hstream
      exact .inl ⟨rfl, hadmitted⟩
    | cons first pre =>
      cases hstream
      rw [hstep] at hadmitted
      exact .inr ⟨pre, post, rfl, hadmitted⟩
  · rintro (⟨rfl, hadmitted⟩ | ⟨pre, post, rfl, hadmitted⟩)
    · exact ⟨[], stream, rfl, hadmitted⟩
    · exact ⟨.ok d :: pre, post, rfl, by rwa [hstep]⟩

/-- The facts after the second pass are those of the class declarations that it does not refuse. -/
theorem adds_registerAll (h : s.registry.Rooted) (hends : (s.registerAll stream).2 = none) :
    Adds (s.Declares stream) s.registry (s.registerAll stream).1.registry := by
  induction stream generalizing s with
  | nil => exact (Adds.refl _).congr fun x => by simp [Declares, Admits]
  | cons item rest ih =>
    cases item with
    | error e => cases hends
    | ok d =>
      have hfirst : (s.register d).2 = none → _ := adds_register h
      have hrooted := (changes_register s d).keeps Rooted.change h
      have hlearned := learned_register s d
      rw [registerAll] at hends ⊢
      split at hends
      · next t heq =>
        rw [heq] at hfirst hrooted hlearned
        refine ((hfirst rfl).trans (ih hrooted hends)).congr fun x => ?_
        simp only [Declares, admits_cons_iff heq, classTarget?_of_learned hlearned, or_and_right, exists_or, and_assoc]
      · cases hends

/-- A second pass that comes to its end gets past every place of the sequence. -/
theorem ends_of_registerAll_append {more : List (Except DeclarationError Declaration)}
    (h : (s.registerAll (stream ++ more)).2 = none) : (s.registerAll stream).2 = none := by
  rw [registerAll_append] at h
  split at h
  · next heq => rw [heq]
  · exact h

/-- Where a class is declared, a declaration of its name is not refused, and if it is to be bound in a state, then one
that is so too. -/
theorem exists_admits (h : s.registry.Rooted) (hnone : s.registry.classes = [])
    (hends : (s.registerAll stream).2 = none) (hc : .ok (.record c) ∈ stream) :
    ∃ d, s.Admits stream d ∧ d.qualified = c.qualified
      ∧ ((s.classTarget? c).isSome = true → (s.classTarget? d).isSome = true) := by
  obtain ⟨pre, post, rfl⟩ := List.append_of_mem hc
  by_cases hrefused : (s.registerAll pre).1.Refuses c
  · obtain ⟨-, found, hfind, hexposed⟩ := hrefused
    obtain ⟨state, hstate⟩ := Option.isSome_iff_exists.1 hexposed
    have hshown : (s.registerAll pre).1.registry.Shows (.bound c.qualified state) :=
      ⟨found, mem_of_find? hfind, qualified_of_find? hfind, hstate⟩
    rw [adds_registerAll h (ends_of_registerAll_append hends)] at hshown
    rcases hshown with hbefore | hdeclares
    · simp [Shows, hnone] at hbefore
    · obtain ⟨d, hadmitted, hname, htarget⟩ := declares_bound_iff.1 hdeclares
      have hsome := Option.isSome_of_eq_some htarget
      rw [Option.isSome_map] at hsome
      exact ⟨d, hadmitted.append _, hname, fun _ => hsome⟩
  · exact ⟨c, ⟨pre, post, rfl, hrefused⟩, rfl, id⟩

end Admits

/-! ### The end -/

/-- A requested base is linked if its class is there. -/
theorem adds_addRequestedBase (h : s.registry.Rooted) {derived base : String}
    (hends : (s.addRequestedBase derived base).2 = none) :
    Adds (fun x => s.registry.Shows (.named (Scope.canonical derived)) ∧ BaseFacts (Scope.canonical derived) [base] x)
      s.registry (s.addRequestedBase derived base).1.registry := by
  have hnamed : s.registry.Shows (.named (Scope.canonical derived))
      ↔ ∃ id, s.registry.classId? (Scope.splitQualified derived).1 (Scope.splitQualified derived).2 = some id :=
    shows_named_iff
  rw [addRequestedBase] at hends ⊢
  simp only at hends ⊢
  cases hfind : s.registry.classId? (Scope.splitQualified derived).1 (Scope.splitQualified derived).2 with
  | none =>
    refine (Adds.refl _).congr fun x => (iff_false_intro fun hnew => ?_).symm
    obtain ⟨id, hid⟩ := hnamed.1 hnew.1
    rw [hfind] at hid
    cases hid
  | some id =>
    rw [hfind] at hends
    obtain ⟨c, hc, rfl⟩ := Option.map_eq_some_iff.1 hfind
    have hcalls : s.registry.Calls c.id (Scope.canonical derived) := calls_of_find? h.placed hc
    exact (adds_addBaseNamed h hcalls hends).congr fun x => (and_iff_right (hnamed.2 ⟨c.id, hfind⟩)).symm

/-- A requested base that is there is refused only where it closes a cycle. -/
theorem ends_addRequestedBase_iff {derived base : String} {id baseId : ClassId}
    (hderived : s.registry.classId? (Scope.splitQualified derived).1 (Scope.splitQualified derived).2 = some id)
    (hbase : s.registry.classId? (Scope.splitQualified base).1 (Scope.splitQualified base).2 = some baseId) :
    (s.addRequestedBase derived base).2 = none ↔ s.registry.closesCycle id baseId = false := by
  obtain ⟨c, hfind, rfl⟩ := Option.map_eq_some_iff.1 hbase
  have hthin : s.registry.addThinClass (Scope.splitQualified base).2 (Scope.splitQualified base).1 ""
      = (s.registry, c.id) := by
    rw [addThinClass, hfind]
  rw [addRequestedBase]
  simp only [hderived, addBaseNamed, hthin, addBase]
  cases s.registry.closesCycle id c.id <;> simp

/-- A class that is there gets the bases that are requested for it, and no class gets a state. -/
theorem shows_addRequestedBases (h : s.registry.Rooted) {bases : List (String × String)}
    (hends : (s.addRequestedBases bases).2 = none) :
    (∀ name state, (s.addRequestedBases bases).1.registry.Shows (.bound name state)
        ↔ s.registry.Shows (.bound name state))
      ∧ ∀ name, s.registry.Shows (.named name) → (s.addRequestedBases bases).1.registry.Shows (.named name)
        ∧ ∀ base, (s.addRequestedBases bases).1.registry.Shows (.linked name base)
          ↔ s.registry.Shows (.linked name base)
            ∨ ∃ pair ∈ bases, Scope.canonical pair.1 = name ∧ Scope.canonical pair.2 = base := by
  induction bases generalizing s with
  | nil => exact ⟨fun _ _ => Iff.rfl, fun _ hnamed => ⟨hnamed, fun _ => by simp [addRequestedBases]⟩⟩
  | cons pair rest ih =>
    obtain ⟨derived, base⟩ := pair
    have hfirst : (s.addRequestedBase derived base).2 = none → _ := adds_addRequestedBase h
    have hrooted := (changes_addRequestedBase s derived base).keeps Rooted.change h
    rw [addRequestedBases] at hends ⊢
    generalize s.addRequestedBase derived base = result at hends hfirst hrooted ⊢
    obtain ⟨t, stop⟩ := result
    cases stop with
    | some cause => cases hends
    | none =>
      have hadds := hfirst rfl
      obtain ⟨hbound, hlinked⟩ := ih hrooted hends
      refine ⟨fun name state => (hbound name state).trans ?_, fun name hnamed => ?_⟩
      · rw [hadds]
        exact or_iff_left fun hnew => by simp [BaseFacts] at hnew
      · obtain ⟨hnext, hlinks⟩ := hlinked name ((hadds _).2 (.inl hnamed))
        refine ⟨hnext, fun other => ?_⟩
        have hnew : s.registry.Shows (.named (Scope.canonical derived))
              ∧ BaseFacts (Scope.canonical derived) [base] (.linked name other)
            ↔ Scope.canonical derived = name ∧ Scope.canonical base = other := by
          simp only [BaseFacts, List.mem_singleton, exists_eq_left, reduceCtorEq, false_or, ClassFact.linked.injEq]
          constructor
          · rintro ⟨-, rfl, rfl⟩
            exact ⟨rfl, rfl⟩
          · rintro ⟨rfl, rfl⟩
            exact ⟨hnamed, rfl, rfl⟩
        rw [hlinks, (hadds _).trans (or_congr_right hnew), List.exists_mem_cons_iff, or_assoc]

theorem addsThin_assembled (s : Selection) (h : s.registry.Rooted) :
    AddsThin (s.addRequestedBases s.requests.bases).1.registry s.assembled.registry := by
  have hplaced := ((changes_addRequestedBases s s.requests.bases).keeps Rooted.change h).placed
  exact (adds_of_bare_eq (attached_assembled hplaced).bare).addsThin fun _ => False.elim

/-- Settling makes classes thin that are named without being declared. -/
theorem addsThin_settled (s : Selection) (h : s.registry.Rooted) : AddsThin s.registry s.settled := by
  have hsame : ∀ {r r' : Registry}, r'.classes = r.classes → AddsThin r r' := fun heq =>
    (adds_of_classes_eq heq).addsThin fun _ => False.elim
  refine (keeps_settled (P := fun r => r.Rooted ∧ AddsThin s.registry r) (fun hr heq => ?_) (fun r name scope hr => ?_)
    (fun r id kind keys hr => ?_) ⟨h, hsame rfl⟩).2
  · exact ⟨hr.1.of_classes_eq heq, hr.2.trans (hsame heq)⟩
  · refine ⟨hr.1.addThinClass name scope "", hr.2.trans ((adds_addThinClass hr.1 name scope "").addsThin ?_)⟩
    exact fun x heq => ⟨_, heq⟩
  · have hface := sameFace_withMembers kind fun c => keys.foldl NameMap.erase (c.members kind)
    have hdropped : Adds (fun _ => False) r _ := adds_modifyClass hr.1.placed id hface fun c => by cases kind <;> rfl
    exact ⟨hr.1.modifyClass id hface.id hface.bases, hr.2.trans (hdropped.addsThin fun _ => False.elim)⟩

/-! ### Whole runs -/

/-- A run succeeds if both passes come to their ends and no requested base closes a cycle. -/
theorem ends_runAll_iff {registry : Registry} {stream : List (Except DeclarationError Declaration)} :
    let learned := (start registry).learnAll stream
    let registered := learned.1.registerAll stream
    ((start registry).runAll stream).2 = none
      ↔ learned.2 = none ∧ registered.2 = none
        ∧ (registered.1.addRequestedBases registered.1.requests.bases).2 = none := by
  intro learned registered
  rw [runAll]
  simp only [registered, learned]
  generalize (start registry).learnAll stream = learned
  obtain ⟨s, stop⟩ := learned
  cases stop with
  | some e => simp
  | none =>
    simp only [true_and]
    generalize s.registerAll stream = registered
    obtain ⟨t, stop⟩ := registered
    cases stop with
    | some e => simp
    | none =>
      rcases t.finish_cases with ⟨cause, hstop, hfinish⟩ | ⟨hends, u, hfinish, -⟩
      · simp [hstop, hfinish]
      · simp [hends, hfinish]

section Run

variable {patches : Patches} {headers : NameSet} {stream : List (Except DeclarationError Declaration)}

/-- The second pass begins without classes. -/
theorem classes_learnAll : ((start { patches, headers }).learnAll stream).1.registry.classes = [] := by
  obtain ⟨templates, known, requests, notices, heq⟩ := learnAll_rest (start { patches, headers }) stream
  rw [heq]
  rfl

theorem rooted_learnAll : ((start { patches, headers }).learnAll stream).1.registry.Rooted :=
  ((Sound.start patches headers).keeps (keeps_learnAll _ stream)).registry.regular.rooted

/-- The classes that are bound after a run, and the bases of those that are declared. -/
theorem shows_of_run {t : Selection} (h : (start { patches, headers }).runAll stream = (t, none)) :
    let learned := ((start { patches, headers }).learnAll stream).1
    (∀ name state, t.registry.Shows (.bound name state) ↔ learned.Declares stream (.bound name state))
      ∧ ∀ name, learned.Declares stream (.named name) → t.registry.Shows (.named name)
        ∧ ∀ base, t.registry.Shows (.linked name base) ↔ learned.Declares stream (.linked name base)
          ∨ ∃ pair ∈ learned.requests.bases, Scope.canonical pair.1 = name ∧ Scope.canonical pair.2 = base := by
  intro learned
  obtain ⟨-, hregisters, hsettled⟩ := passes_of_run h
  have hnone : ∀ x, ¬ learned.registry.Shows x := by
    intro x
    cases x <;> simp [Shows, learned, classes_learnAll]
  have hadds : ∀ x, (learned.registerAll stream).1.registry.Shows x ↔ learned.Declares stream x := fun x =>
    (adds_registerAll rooted_learnAll hregisters x).trans (or_iff_right (hnone x))
  have hrooted : (learned.registerAll stream).1.registry.Rooted :=
    (changes_registerAll learned stream).keeps Rooted.change rooted_learnAll
  obtain ⟨hbound, hlinked⟩ := shows_addRequestedBases hrooted (ends_runAll_iff.1 (congrArg Prod.snd h)).2.2
  -- native wrappers and the survey come after the bases, and name neither states nor bases
  have hsettles := addsThin_settled _ ((changes_assembled _).keeps Rooted.change hrooted)
  have hthin : AddsThin _ t.registry := (addsThin_assembled _ hrooted).trans (hsettled ▸ hsettles)
  refine ⟨fun name state => ?_, fun name hnamed => ?_⟩
  · rw [hthin.bound, hbound, hadds]
  · obtain ⟨hshown, hlinks⟩ := hlinked name ((hadds _).2 hnamed)
    refine ⟨hthin.named hshown, fun base => ?_⟩
    rw [hthin.linked, hlinks, hadds, (learned_registerAll learned stream).requests]

end Run

end Selection

end LuaGlue
