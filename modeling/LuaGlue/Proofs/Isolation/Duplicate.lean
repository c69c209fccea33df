import LuaGlue.Proofs.Isolation.Steady
import LuaGlue.Proofs.Selection.Runs
import LuaGlue.Proofs.Selection.Unmoved

/-!
A class that is declared once more.

The second declaration of an exposed class is refused: no class is current after it, so its members go nowhere, and
its bases are not looked at. The first pass has met the name before. So the run is the run without the declaration
and its members (`refused_class_ignored`), but for one more thing that is skipped and for the notices.

    .. class A · A's members · .. · class A · A's members · f · class B ..
    .. class A · A's members · .. ·                         f · class B ..
-/

namespace LuaGlue

open Selection

/-! ### The members behind a class -/

section Members

/-- The members that stand before the first class of the sequence. -/
def leadingMembers : List (Except DeclarationError Declaration) → List DeclaredFunction
  | [] | .ok (.record _) :: _ => []
  | .ok (.function f) :: rest => if f.owner.isSome then f :: leadingMembers rest else leadingMembers rest
  | _ :: rest => leadingMembers rest

/-- The sequence without the members that stand before its first class. -/
def withoutMembers : List (Except DeclarationError Declaration) → List (Except DeclarationError Declaration)
  | [] => []
  | .ok (.record c) :: rest => .ok (.record c) :: rest
  | .ok (.function f) :: rest => if f.owner.isSome then withoutMembers rest else .ok (.function f) :: withoutMembers rest
  | item :: rest => item :: withoutMembers rest

/-- In a sequence in order, the members behind a class are its own. -/
theorem owner_of_mem_leadingMembers {owner : Option (String × String)}
    {stream : List (Except DeclarationError Declaration)} (horder : DeclarationSource.InOrder owner stream)
    {f : DeclaredFunction} (hf : f ∈ leadingMembers stream) : f.owner = owner := by
  induction stream with
  | nil => cases hf
  | cons item rest ih =>
    cases item with
    | error e => exact ih horder hf
    | ok d =>
      cases d with
      | record c => cases hf
      | remark comment => exact ih horder.2 hf
      | enum e => exact ih horder.2 hf
      | function g =>
        rw [leadingMembers] at hf
        split at hf
        · next howner =>
          rcases List.mem_cons.1 hf with rfl | hrest
          · obtain ⟨o, ho⟩ := Option.isSome_iff_exists.1 howner
            exact ho.trans (horder.1 o ho).1.symm
          · exact ih horder.2 hrest
        · exact ih horder.2 hf

theorem inOrder_of_append {owner : Option (String × String)} {pre post : List (Except DeclarationError Declaration)}
    (h : DeclarationSource.InOrder owner (pre ++ post)) : ∃ owner, DeclarationSource.InOrder owner post := by
  induction pre generalizing owner with
  | nil => exact ⟨owner, h⟩
  | cons item rest ih =>
    cases item with
    | error e => exact ih h
    | ok d => exact ih h.2

theorem withoutMembers_append_members {members : List DeclaredFunction} (h : ∀ f ∈ members, f.owner.isSome = true)
    (rest : List (Except DeclarationError Declaration)) :
    withoutMembers (members.map (fun f => .ok (.function f)) ++ rest) = withoutMembers rest := by
  induction members with
  | nil => rfl
  | cons f members ih =>
    rw [List.map_cons, List.cons_append, withoutMembers, if_pos (h f List.mem_cons_self)]
    exact ih fun g hg => h g (List.mem_cons_of_mem _ hg)

/-- Where no class has been declared, no members stand before the first one. -/
theorem withoutMembers_of_inOrder {stream : List (Except DeclarationError Declaration)}
    (horder : DeclarationSource.InOrder none stream) : withoutMembers stream = stream := by
  induction stream with
  | nil => rfl
  | cons item rest ih =>
    cases item with
    | error e => exact congrArg _ (ih horder)
    | ok d =>
      cases d with
      | record c => rfl
      | remark comment => exact congrArg _ (ih horder.2)
      | enum e => exact congrArg _ (ih horder.2)
      | function f =>
        have hfree : ¬ f.owner.isSome = true := by
          intro howner
          obtain ⟨o, ho⟩ := Option.isSome_iff_exists.1 howner
          cases (horder.1 o ho).1
        rw [withoutMembers, if_neg hfree, ih horder.2]

/-- The declarations of a file, cut before one of its classes. -/
theorem declarations_split (document : DeclarationDocument) {front back : List ClassEntry}
    (h : document.classes = front ++ back) :
    document.declarations = document.remarks.map .remark
      ++ front.flatMap (DeclarationDocument.classDeclarations document.source)
      ++ ({ document with remarks := [], classes := back } : DeclarationDocument).declarations := by
  simp [DeclarationDocument.declarations, h]

/-- A file that lists one class less makes the sequence without this class and the members behind it. -/
theorem stream_without_entry (before after : List DeclarationSource) {source shorter : DeclarationSource}
    {text shorterText : String} {document : DeclarationDocument} {front back : List ClassEntry} {entry : ClassEntry}
    (htext : source.text = some text) (hparse : DeclarationDocument.parse? text = some document)
    (hclasses : document.classes = front ++ entry :: back) (hshorter : shorter.text = some shorterText)
    (hparse' : DeclarationDocument.parse? shorterText = some { document with classes := front ++ back }) :
    ∃ pre post d, DeclarationSource.stream (before ++ source :: after) = pre ++ .ok (.record d) :: post
      ∧ d.scope = Scope.normalize entry.scope ∧ d.name = entry.name
      ∧ DeclarationSource.stream (before ++ shorter :: after) = pre ++ withoutMembers post := by
  let later : DeclarationDocument := { document with remarks := [], classes := back }
  let tail := later.declarations.map .ok ++ DeclarationSource.stream after
  let earlier : List Declaration :=
    document.remarks.map .remark ++ front.flatMap (DeclarationDocument.classDeclarations document.source)
  have hfree : ∀ f ∈ document.functions, f.owner = none := DeclarationSource.owner_of_mem_functions hparse
  have htail : DeclarationSource.InOrder none tail :=
    DeclarationSource.inOrder_append (DeclarationSource.inOrder_declarations (d := later) hfree none)
      fun owner => DeclarationSource.inOrder_stream after owner
  have hcut : ∀ (c : DeclarationSource) (t : String) (file : DeclarationDocument), c.text = some t →
      DeclarationDocument.parse? t = some file →
      DeclarationSource.stream (before ++ c :: after)
        = DeclarationSource.stream before ++ (file.declarations.map .ok ++ DeclarationSource.stream after) := by
    intro c t file ht hfile
    simp [DeclarationSource.stream, DeclarationSource.items, DeclarationSource.load, ht, hfile]
  obtain ⟨d, members, hentry, hscope, hname, howners⟩ := DeclarationSource.exists_members_of_entry document.source entry
  have hmembers : ∀ f ∈ members, f.owner.isSome = true := fun f hf => by rw [(howners f hf).1, Option.isSome_some]
  refine ⟨DeclarationSource.stream before ++ earlier.map .ok, members.map (fun f => .ok (.function f)) ++ tail, d, ?_,
    hscope, hname, ?_⟩
  · rw [hcut source text document htext hparse, declarations_split document hclasses]
    simp [later, tail, earlier, DeclarationDocument.declarations, hentry]
  · rw [withoutMembers_append_members hmembers, withoutMembers_of_inOrder htail,
      hcut shorter shorterText _ hshorter hparse', declarations_split _ rfl]
    simp [later, tail, earlier]

end Members

namespace Selection

open Registry

/-! ### The first pass -/

theorem learnAll_append (s : Selection) {pre : List (Except DeclarationError Declaration)}
    (post : List (Except DeclarationError Declaration)) (h : (s.learnAll pre).2 = none) :
    s.learnAll (pre ++ post) = (s.learnAll pre).1.learnAll post := by
  induction pre generalizing s with
  | nil => rfl
  | cons item rest ih =>
    cases item with
    | error e => cases h
    | ok d => exact ih (s.learn d) h

/-- The first pass learns nothing from members without requests. -/
theorem learnAll_withoutMembers (s : Selection) {stream : List (Except DeclarationError Declaration)}
    (h : ∀ f ∈ leadingMembers stream, (Annotations.parse f.comment).get? "LuaStateTypes" = none) :
    s.learnAll stream = s.learnAll (withoutMembers stream) := by
  induction stream generalizing s with
  | nil => rfl
  | cons item rest ih =>
    cases item with
    | error e => rfl
    | ok d =>
      cases d with
      | record c => rfl
      | remark comment => exact ih (s.learn (.remark comment)) h
      | enum e => exact ih (s.learn (.enum e)) h
      | function f =>
        rw [leadingMembers] at h
        rw [withoutMembers]
        split at h
        · next howner =>
          rw [if_pos howner, learnAll, learn_of_unasked s (h f List.mem_cons_self)]
          exact ih s fun g hg => h g (List.mem_cons_of_mem _ hg)
        · next howner =>
          rw [if_neg howner]
          exact ih (s.learn (.function f)) h

/-- A name that is known stays known. -/
theorem contains_classes_learnName {known : KnownNames} {name : String} (h : known.classes.contains name = true)
    (d : Declaration) : (learnName known d).classes.contains name = true := by
  cases d with
  | record c =>
    change (known.classes.insert _).contains name = true
    rw [NameSet.contains_insert, h, Bool.or_true]
  | remark | function | enum => exact h

/-- The first pass knows the name of each class that it has met. -/
theorem contains_classes_learnAll (s : Selection) {stream : List (Except DeclarationError Declaration)}
    (h : (s.learnAll stream).2 = none) {name : String}
    (hname : s.known.classes.contains name = true ∨ ∃ c, .ok (.record c) ∈ stream ∧ c.qualified = name) :
    (s.learnAll stream).1.known.classes.contains name = true := by
  induction stream generalizing s with
  | nil => exact hname.elim id fun ⟨c, hc, _⟩ => absurd hc List.not_mem_nil
  | cons item rest ih =>
    cases item with
    | error e => cases h
    | ok d =>
      refine ih (s.learn d) h ?_
      rw [known_learn]
      obtain hknown | ⟨c, hc, hqualified⟩ := hname
      · exact .inl (contains_classes_learnName hknown d)
      · rcases List.mem_cons.1 hc with heq | hrest
        · cases heq
          refine .inl ?_
          change (s.known.classes.insert (Scope.qualify c.scope c.name)).contains name = true
          rw [NameSet.contains_insert, ← hqualified]
          simp [DeclaredClass.qualified]
        · exact .inr ⟨c, hrest, hqualified⟩

/-- The first pass learns nothing from a class without a request whose name it knows. -/
theorem learn_of_known (s : Selection) {c : DeclaredClass} (hknown : s.known.classes.contains c.qualified = true)
    (h : (Annotations.parse c.comment).get? "LuaStateTypes" = none) : s.learn (.record c) = s := by
  have hname : learnName s.known (.record c) = s.known := by
    have hclasses : s.known.classes.insert c.qualified = s.known.classes := by
      refine NameSet.ext_contains fun name => ?_
      rw [NameSet.contains_insert, Bool.or_eq_true, or_iff_right_of_imp]
      intro heq
      rwa [of_decide_eq_true heq]
    exact congrArg (fun classes => ({ s.known with classes } : KnownNames)) hclasses
  rw [learn, hname]
  exact heed_of_unasked s h

/-! ### The second pass -/

/-- Is the class one that is left out, because an exposed class has its name? -/
def Refuses (s : Selection) (d : DeclaredClass) : Prop :=
  (s.classTarget? d).isSome = true ∧ ∃ c, s.registry.find? d.scope d.name = some c ∧ c.isExposed = true

/-- A class that is refused leaves no class current. -/
theorem register_of_refuses {s : Selection} {d : DeclaredClass} (h : s.Refuses d) :
    ∃ notices, s.register (.record d) = (s.recount none 1 notices, none) := by
  obtain ⟨hasked, c, hfind, hexposed⟩ := h
  obtain ⟨target, htarget⟩ := Option.isSome_iff_exists.1 hasked
  have hadd : s.registry.addClass d.name d.scope d.source target.1 = .error (.duplicateClass c.qualified c.id) := by
    rw [addClass, hfind]
    simp only
    rw [if_pos hexposed]
  have hsame : ({ s with current := none } : Selection).classTarget? d = some target := htarget
  refine ⟨s.notices ++ [s.refusal d (.duplicateClass c.qualified c.id)], ?_⟩
  rw [register, registerClass, placeClass]
  simp only [hsame, hadd]
  rw [recount, Nat.add_comm 1]
  rfl

/-- From a class on it does not matter which class was current before it. -/
theorem registerAll_record_recount (s : Selection) (c : DeclaredClass)
    (rest : List (Except DeclarationError Declaration)) (current : Option ClassId) (more : Nat) (notices : List Notice) :
    ∃ current' notices', (s.recount current more notices).registerAll (.ok (.record c) :: rest)
      = ((s.registerAll (.ok (.record c) :: rest)).1.recount current' more notices',
        (s.registerAll (.ok (.record c) :: rest)).2) := by
  obtain ⟨middle, hfirst⟩ := registerClass_recount s c current more notices
  rw [registerAll, registerAll, register, register, hfirst]
  cases s.registerClass c with
  | mk t cause =>
    cases cause with
    | none =>
      obtain ⟨last, hlast⟩ := registerAll_recount t rest more middle
      exact ⟨_, last, hlast⟩
    | some cause => exact ⟨_, middle, rfl⟩

/-- Where no class is current, a member is only noted. -/
theorem register_member_of_none (s : Selection) {f : DeclaredFunction} (howner : f.owner.isSome = true) (more : Nat)
    (notices : List Notice) :
    (s.recount none more notices).register (.function f)
      = (s.recount none more (notices ++ [.unexposedMember f.qualified]), none) := by
  have hcurrent : (s.recount none more notices).current = none := rfl
  rw [register, if_pos howner, registerMember, hcurrent]
  rfl

/-- Where no class is current, the members before the next class change nothing but the notices. -/
theorem registerAll_withoutMembers (s : Selection) (stream : List (Except DeclarationError Declaration)) (more : Nat)
    (notices : List Notice) :
    ∃ current notices', (s.recount none more notices).registerAll stream
      = ((s.registerAll (withoutMembers stream)).1.recount current more notices',
        (s.registerAll (withoutMembers stream)).2) := by
  induction stream generalizing s notices with
  | nil => exact ⟨none, notices, rfl⟩
  | cons item rest ih =>
    -- a declaration that is no class leaves no class current, so the rest is as before
    have hother : ∀ d : Declaration, (∀ c, d ≠ .record c) → (∀ f, d = .function f → f.owner.isSome = false) →
        withoutMembers (.ok d :: rest) = .ok d :: withoutMembers rest →
        ∃ current notices', (s.recount none more notices).registerAll (.ok d :: rest)
          = ((s.registerAll (withoutMembers (.ok d :: rest))).1.recount current more notices',
            (s.registerAll (withoutMembers (.ok d :: rest))).2) := by
      intro d hrecord hfree hkept
      obtain ⟨current, middle, hfirst, -, hsame⟩ := register_recount_of_free s hfree none more notices
      obtain ⟨rfl, -⟩ := hsame hrecord
      rw [hkept, registerAll, registerAll, hfirst]
      cases s.register d with
      | mk t cause =>
        cases cause with
        | none => exact ih t middle
        | some cause => exact ⟨none, middle, rfl⟩
    cases item with
    | error e => exact ⟨none, notices, rfl⟩
    | ok d =>
      cases d with
      | remark comment => exact hother _ (fun _ h => by cases h) (fun _ h => by cases h) rfl
      | enum e => exact hother _ (fun _ h => by cases h) (fun _ h => by cases h) rfl
      | record c => exact registerAll_record_recount s c rest none more notices
      | function f =>
        by_cases howner : f.owner.isSome = true
        · rw [withoutMembers, if_pos howner, registerAll, register_member_of_none s howner]
          exact ih s _
        · have hfree : f.owner.isSome = false := Bool.eq_false_iff.2 howner
          refine hother _ (fun _ h => by cases h) (fun g hg => ?_) (by rw [withoutMembers, if_neg howner])
          cases hg
          exact hfree

/-! ### Classes that are exposed -/

/-- Is a class of this name declared in the sequence? -/
def DeclaresClass (stream : List (Except DeclarationError Declaration)) (name : String) : Prop :=
  ∃ d, .ok (.record d) ∈ stream ∧ d.qualified = name

/-- Is every exposed class one that is declared in the sequence? -/
def Announced (stream : List (Except DeclarationError Declaration)) (r : Registry) : Prop :=
  ∀ id c, r.class? id = some c → c.isExposed = true → DeclaresClass stream c.qualified

variable {stream : List (Except DeclarationError Declaration)} {s : Selection}

theorem Announced.unmoved {r r' : Registry} (h : Announced stream r) (hunmoved : Unmoved (DeclaresClass stream) r r') :
    Announced stream r' := by
  intro id d hd hexposed
  obtain ⟨-, hshown⟩ | ⟨c, hc, hsame, hshown⟩ := hunmoved id d hd
  · exact hshown hexposed
  · refine (hshown hexposed).elim (fun hold => ?_) fun hnew => hnew
    rw [hsame.qualified]
    exact h id c hc hold

/-- Members leave the name and the state of their class. -/
theorem Announced.modifyClass {r : Registry} (h : Announced stream r) (id : ClassId) {f : BoundClass → BoundClass}
    (hqualified : ∀ c, (f c).qualified = c.qualified) (hexposed : ∀ c, (f c).isExposed = c.isExposed) :
    Announced stream (r.modifyClass id f) := by
  intro other d hd hshown
  obtain ⟨c, hc, rfl⟩ := getElem?_modifyClass hd
  split at hshown
  · rw [hexposed] at hshown
    rw [if_pos ‹_›, hqualified]
    exact h other c hc hshown
  · rw [if_neg ‹_›]
    exact h other c hc hshown

theorem announced_registerMember (h : Announced stream s.registry) (f : DeclaredFunction) :
    Announced stream (s.registerMember f).registry := by
  rw [registerMember]
  split
  · exact h
  · next id _ =>
    split
    · exact h.modifyClass id (fun _ => rfl) fun _ => rfl
    · split
      · exact h
      · split
        · exact h
        · rw [withSignature]
          split
          · exact h
          · next o result _ =>
            rw [addMember]
            split
            · exact h
            · next c _ =>
              simp only
              split
              · next m _ =>
                rw [(wrapAll_spec _ o result).1.registry.rest]
                have hface := sameFace_withMembers (kindOf f) fun _ => (c.members (kindOf f)).insert f.name m
                exact h.modifyClass id hface.qualified fun d => isExposed_withMembers d _ _
              · exact h

/-- A class comes to be exposed only when one of its name is declared. -/
theorem announced_register (h : Announced stream s.registry) (hplaced : s.registry.Placed) {d : Declaration}
    (hd : .ok d ∈ stream) : Announced stream (s.register d).1.registry := by
  cases d with
  | remark => exact h
  | record c => exact h.unmoved (unmoved_registerClass hplaced ⟨c, hd, rfl⟩)
  | function f =>
    rw [register]
    simp only
    split
    · exact announced_registerMember h f
    · exact h.unmoved (unmoved_registerFunction s f)
  | enum e => exact h.unmoved (unmoved_registerEnum s e)

theorem announced_registerAll (hstocked : s.registry.Stocked) (h : Announced stream s.registry)
    {part : List (Except DeclarationError Declaration)} (hpart : part ⊆ stream) :
    Announced stream (s.registerAll part).1.registry := by
  induction part generalizing s with
  | nil => exact h
  | cons item rest ih =>
    cases item with
    | error e => exact h
    | ok d =>
      have hfirst := announced_register h hstocked.placed (hpart List.mem_cons_self)
      have hnext := hstocked.changes (changes_register s d)
      rw [registerAll]
      split
      · next heq =>
        rw [heq] at hfirst hnext
        exact ih hnext hfirst fun other hother => hpart (List.mem_cons_of_mem _ hother)
      · next heq =>
        rw [heq] at hfirst
        exact hfirst

/-- A class that the second pass has exposed is one that it has met. -/
theorem announced_registered (patches : Patches) (headers : NameSet)
    (whole met : List (Except DeclarationError Declaration)) :
    Announced met (((start { patches, headers }).learnAll whole).1.registerAll met).1.registry := by
  have hstart : Changes { patches, headers } (start { patches, headers }).registry := changes_includeAll _ _
  have hstocked := (Registry.Stocked.empty patches headers).changes
    (hstart.trans (changes_learnAll (start { patches, headers }) whole))
  have hnone : ((start { patches, headers }).learnAll whole).1.registry.classes = [] := by
    obtain ⟨templates, known, requests, notices, heq⟩ := learnAll_rest (start { patches, headers }) whole
    rw [heq]
    rfl
  have hannounced : Announced met ((start { patches, headers }).learnAll whole).1.registry :=
    fun id c hc => by simp [class?, hnone] at hc
  exact announced_registerAll hstocked hannounced (List.Subset.refl _)

/-- The class that stands in the way of a refused one has been declared before it. -/
theorem declaresClass_of_refuses (patches : Patches) (headers : NameSet)
    {whole pre : List (Except DeclarationError Declaration)} {d : DeclaredClass}
    (h : (((start { patches, headers }).learnAll whole).1.registerAll pre).1.Refuses d) :
    DeclaresClass pre d.qualified := by
  obtain ⟨-, c, hfind, hexposed⟩ := h
  obtain ⟨id, hid⟩ := List.mem_iff_getElem?.1 (mem_of_find? hfind)
  obtain ⟨k, hk, hname⟩ := announced_registered patches headers whole pre id c hid hexposed
  exact ⟨k, hk, hname.trans (qualified_of_find? hfind)⟩

/-! ### Whole runs -/

/-- The first pass goes over a refused class as if it were not there. -/
theorem learnAll_without_class {pre post : List (Except DeclarationError Declaration)} {d : DeclaredClass}
    (hknown : DeclaresClass pre d.qualified)
    (hunasked : (Annotations.parse d.comment).get? "LuaStateTypes" = none)
    (hmembers : ∀ f ∈ leadingMembers post, (Annotations.parse f.comment).get? "LuaStateTypes" = none)
    (hpre : (s.learnAll pre).2 = none) :
    s.learnAll (pre ++ .ok (.record d) :: post) = s.learnAll (pre ++ withoutMembers post) := by
  rw [learnAll_append s _ hpre, learnAll_append s _ hpre, learnAll,
    learn_of_known _ (contains_classes_learnAll s hpre (.inr hknown)) hunasked]
  exact learnAll_withoutMembers _ hmembers

theorem ends_of_learnAll_append {pre post : List (Except DeclarationError Declaration)}
    (h : (s.learnAll (pre ++ post)).2 = none) : (s.learnAll pre).2 = none := by
  induction pre generalizing s with
  | nil => rfl
  | cons item rest ih =>
    cases item with
    | error e => cases h
    | ok d => exact ih h

theorem ends_of_runAll (h : (s.runAll stream).2 = none) : (s.learnAll stream).2 = none := by
  rw [runAll] at h
  split at h
  · cases h
  · next heq => rw [heq]

/-- The run with a refused class and its members ends as the run without them, but for what it has counted and
noted. -/
theorem runAll_without_class {pre post : List (Except DeclarationError Declaration)} {d : DeclaredClass}
    (hlearned : s.learnAll (pre ++ .ok (.record d) :: post) = s.learnAll (pre ++ withoutMembers post))
    (hrefuses : ((s.learnAll (pre ++ .ok (.record d) :: post)).1.registerAll pre).1.Refuses d)
    (hends : (s.runAll (pre ++ .ok (.record d) :: post)).2 = none) :
    (s.runAll (pre ++ withoutMembers post)).2 = none
      ∧ ∃ current notices, (s.runAll (pre ++ .ok (.record d) :: post)).1
        = (s.runAll (pre ++ withoutMembers post)).1.recount current 1 notices := by
  rw [hlearned] at hrefuses
  rw [runAll, hlearned] at hends
  rw [runAll, runAll, hlearned]
  cases hlearn : s.learnAll (pre ++ withoutMembers post) with
  | mk learned stop =>
    rw [hlearn] at hrefuses hends
    cases stop with
    | some e => cases hends
    | none =>
      simp only [registerAll_append] at hends ⊢
      cases hpre : learned.registerAll pre with
      | mk met stop =>
        rw [hpre] at hrefuses hends
        cases stop with
        | some e => cases hends
        | none =>
          obtain ⟨refusal, hrefused⟩ := register_of_refuses hrefuses
          obtain ⟨current, registered, hrest⟩ := registerAll_withoutMembers met post 1 refusal
          simp only [registerAll, hrefused, hrest] at hends ⊢
          cases hregistered : met.registerAll (withoutMembers post) with
          | mk t stop =>
            rw [hregistered] at hends
            cases stop with
            | some e => cases hends
            | none =>
              obtain ⟨notices, hfinish⟩ := finish_recount t current 1 registered
              simp only [hfinish] at hends ⊢
              cases hfinished : t.finish with
              | mk finished abort =>
                rw [hfinished] at hends
                cases abort with
                | some abort => cases hends
                | none => exact ⟨rfl, current, notices, rfl⟩

end Selection

/-- CORRECT: a class that is declared once more, and that asks for nothing by `LuaStateTypes` and neither do its
members, has no effect. The run without it and without its members succeeds too and comes to the same registry, and
it counts one thing less that is left out. What is left out with the class are its own constructors and methods, in
a sequence in order, which is what files make. -/
theorem refused_class_ignored (patches : Patches) (headers : NameSet)
    (pre post : List (Except DeclarationError Declaration)) (d : DeclaredClass)
    (hends : ((start { patches, headers }).runAll (pre ++ .ok (.record d) :: post)).2 = none)
    (hrefused : (((start { patches, headers }).learnAll (pre ++ .ok (.record d) :: post)).1.registerAll pre).1.Refuses d)
    (hunasked : ∀ comment ∈ d.comment :: (leadingMembers post).map (·.comment),
      (Annotations.parse comment).get? "LuaStateTypes" = none) :
    let whole := (start { patches, headers }).runAll (pre ++ .ok (.record d) :: post)
    let rest := (start { patches, headers }).runAll (pre ++ withoutMembers post)
    rest.2 = none
      ∧ whole.1.registry = rest.1.registry
      ∧ whole.1.summary = { rest.1.summary with skipped := rest.1.summary.skipped + 1 }
      ∧ (DeclarationSource.InOrder none (pre ++ .ok (.record d) :: post) →
        ∀ f ∈ leadingMembers post, f.owner = some (d.scope, d.name)) := by
  intro whole rest
  have hknown := declaresClass_of_refuses patches headers hrefused
  have hclass := hunasked d.comment List.mem_cons_self
  have hmembers : ∀ f ∈ leadingMembers post, (Annotations.parse f.comment).get? "LuaStateTypes" = none :=
    fun f hf => hunasked f.comment (List.mem_cons_of_mem _ (List.mem_map.2 ⟨f, hf, rfl⟩))
  have hlearned := learnAll_without_class hknown hclass hmembers (ends_of_learnAll_append (ends_of_runAll hends))
  obtain ⟨hend, current, notices, heq⟩ := runAll_without_class hlearned hrefused hends
  refine ⟨hend, ?_, ?_, fun horder f hf => ?_⟩
  · change whole.1 = rest.1.recount current 1 notices at heq
    rw [heq]
    rfl
  · change whole.1 = rest.1.recount current 1 notices at heq
    rw [heq, Nat.add_comm]
    rfl
  · obtain ⟨owner, hbehind⟩ := inOrder_of_append horder
    exact owner_of_mem_leadingMembers hbehind.2 hf

/-- A class `Card` of the header `card.hpp` that asks to be bound in the state `Main`. -/
def cardClass (bases : List String) : DeclaredClass where
  name := "Card"
  scope := ""
  source := "card.hpp"
  line := none
  comment := "CUSTOM_ATTRIBUTE[Lua(Main)]"
  bases
  hasDefaultConstructor := !bases.isEmpty

/-- A method of `Card` without parameters. -/
def cardMethod (name : String) : DeclaredFunction where
  name
  scope := "::Card"
  params := []
  returns := "int"
  isStatic := false
  comment := ""
  owner := some ("", "Card")
  isConstructor := false
  source := "card.hpp"

/-- A free function that takes a `Card`. -/
def dealCard : DeclaredFunction where
  name := "Deal"
  scope := ""
  params := [⟨"card", "Card*"⟩]
  returns := "void"
  isStatic := false
  comment := "CUSTOM_ATTRIBUTE[Lua(Main)]"
  owner := none
  isConstructor := false
  source := "card.hpp"

/-- The second `Card` derives from `Deck` and has another method; neither gets into the registry. -/
theorem second_card_ignored :
    let first : List (Except DeclarationError Declaration) :=
      [.ok (.record (cardClass [])), .ok (.function (cardMethod "Flip"))]
    let whole := (start {}).runAll
      (first ++ .ok (.record (cardClass ["::Deck"])) :: [.ok (.function (cardMethod "Shuffle")), .ok (.function dealCard)])
    let rest := (start {}).runAll (first ++ [.ok (.function dealCard)])
    whole.2 = none ∧ whole.1.registry = rest.1.registry ∧ whole.1.skipped = 1 ∧ rest.1.skipped = 0
      ∧ rest.1.registry.classes.map (fun c => (c.qualified, c.functions.keys)) = [("::Card", ["Flip"])] := by
  intro first whole rest
  have hruns : whole.2 = none ∧ whole.1.skipped = 1 ∧ rest.1.skipped = 0
      ∧ rest.1.registry.classes.map (fun c => (c.qualified, c.functions.keys)) = [("::Card", ["Flip"])] := by
    decide +kernel
  obtain ⟨hends, hskipped, hnone, hclasses⟩ := hruns
  have hrefused : (((start {}).learnAll (first ++ .ok (.record (cardClass ["::Deck"])) ::
      [.ok (.function (cardMethod "Shuffle")), .ok (.function dealCard)])).1.registerAll first).1.Refuses
        (cardClass ["::Deck"]) := by
    refine ⟨by decide +kernel, (Option.any_eq_true ..).1 ?_⟩
    decide +kernel
  have hsame := refused_class_ignored {} ∅ first [.ok (.function (cardMethod "Shuffle")), .ok (.function dealCard)]
    (cardClass ["::Deck"]) hends hrefused (by decide +kernel)
  exact ⟨hends, hsame.2.1, hskipped, hnone, hclasses⟩

end LuaGlue
