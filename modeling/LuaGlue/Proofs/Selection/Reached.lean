import LuaGlue.Proofs.Attachment.Lost
import LuaGlue.Proofs.Selection.Asked
import LuaGlue.Proofs.Selection.Declared
import LuaGlue.Proofs.Selection.Enrolled
import LuaGlue.Proofs.Selection.Reordered

/-!
Classes that are reached by their names.

A file lists a class under a scope and a name. Other classes name it as a base, and comments ask for something that is
about it, each with one text. All of them come to one key, the text of the qualified name, however loosely they are
spelled. So what the run makes of a class is what is said of it anywhere, in any spelling, and nothing that is said of
another class (`QualifiedName.Reached`).

    [[class]]  name Mesh  scope Gfx::::Draw         ──┐
    LuaLate(Class, Gfx::Draw::::Mesh)                 ├──▶  ::Gfx::Draw::Mesh  ──▶  one class
    LuaAddBaseToClass(::Gfx::Draw::Mesh, ::::Node)  ──┘
-/

namespace LuaGlue

open Registry Selection

/-! ### Declared classes -/

namespace QualifiedName

/-- Does one of the files list a class of this name, whatever its scope is spelled like? -/
def IsDeclared (q : QualifiedName) (sources : List DeclarationSource) : Prop :=
  ∃ source ∈ sources, ∃ text document, source.text = some text ∧ DeclarationDocument.parse? text = some document
    ∧ ∃ entry ∈ document.classes, Scope.Spells q.segments entry.scope ∧ entry.name = q.name

variable {q : QualifiedName} {sources : List DeclarationSource}

/-- The class of an entry has the text of a qualified name if the entry spells it. -/
theorem qualified_entry_iff {source : String} {entry : ClassEntry} {d : DeclaredClass}
    (hplain : Scope.IsPlain entry.name) (h : .record d ∈ DeclarationDocument.classDeclarations source entry) :
    d.qualified = q.text ↔ Scope.Spells q.segments entry.scope ∧ entry.name = q.name := by
  obtain ⟨hscope, hname⟩ := DeclarationSource.scope_of_mem_classDeclarations h
  have hlegible := Scope.Legible.of_isPlain (Scope.isNormal_normalize entry.scope) hplain
  rw [DeclaredClass.qualified, hscope, hname, qualify_eq_text_iff hlegible, ← Scope.normalize_eq_iff q.segmented]
  rfl

/-- A class of the sequence has the text of a qualified name if it has its scope and its name. -/
theorem qualified_eq_iff (hplain : PlainNames (DeclarationSource.stream sources)) {d : DeclaredClass}
    (hd : .ok (.record d) ∈ DeclarationSource.stream sources) :
    d.qualified = q.text ↔ d.scope = q.scope ∧ d.name = q.name := by
  obtain ⟨source, -, text, document, -, -, hdeclared⟩ := DeclarationSource.mem_stream_iff.1 hd
  obtain ⟨entry, -, hentry⟩ := DeclarationSource.mem_declarations_record_iff.1 hdeclared
  obtain ⟨hscope, -⟩ := DeclarationSource.scope_of_mem_classDeclarations hentry
  refine qualify_eq_text_iff (.of_isPlain ?_ (hplain d hd))
  rw [hscope]
  exact Scope.isNormal_normalize entry.scope

/-- The files list a class if its text is the name of a class of the sequence. -/
theorem declaresClass_iff (hplain : PlainNames (DeclarationSource.stream sources)) :
    DeclaresClass (DeclarationSource.stream sources) q.text ↔ q.IsDeclared sources := by
  constructor
  · rintro ⟨d, hd, hqualified⟩
    have hname : d.name = q.name := ((qualified_eq_iff hplain hd).1 hqualified).2
    obtain ⟨source, hsource, text, document, htext, hparse, hdeclared⟩ := DeclarationSource.mem_stream_iff.1 hd
    obtain ⟨entry, hentry, hmem⟩ := DeclarationSource.mem_declarations_record_iff.1 hdeclared
    have hentryName := (DeclarationSource.scope_of_mem_classDeclarations hmem).2
    have hentryPlain : Scope.IsPlain entry.name := by
      rw [← hentryName, hname]
      exact q.named.2
    exact ⟨source, hsource, text, document, htext, hparse, entry, hentry,
      (qualified_entry_iff hentryPlain hmem).1 hqualified⟩
  · rintro ⟨source, hsource, text, document, htext, hparse, entry, hentry, hspells, hname⟩
    obtain ⟨d, members, hlist, -, -, -⟩ := DeclarationSource.exists_members_of_entry document.source entry
    have hmem : .record d ∈ DeclarationDocument.classDeclarations document.source entry := by
      rw [hlist]
      exact List.mem_cons_self
    have hdeclared := DeclarationSource.mem_declarations_record_iff.2 ⟨entry, hentry, hmem⟩
    have hplain : Scope.IsPlain entry.name := hname ▸ q.named.2
    exact ⟨d, DeclarationSource.mem_stream_iff.2 ⟨source, hsource, text, document, htext, hparse, hdeclared⟩,
      (qualified_entry_iff hplain hmem).2 ⟨hspells, hname⟩⟩

end QualifiedName

/-- The names after a sequence are those before it and those of its classes. -/
theorem Selection.contains_classes_learnNames_iff {known : KnownNames}
    {stream : List (Except DeclarationError Declaration)} {name : String} :
    (learnNames known stream).classes.contains name = true
      ↔ known.classes.contains name = true ∨ DeclaresClass stream name := by
  induction stream generalizing known with
  | nil => simp [learnNames, DeclaresClass]
  | cons item rest ih =>
    have hrest : DeclaresClass (item :: rest) name
        ↔ (∃ d, item = .ok (.record d) ∧ d.qualified = name) ∨ DeclaresClass rest name := by
      simp only [DeclaresClass, List.mem_cons, or_and_right, exists_or, eq_comm]
    rw [hrest, ← or_assoc]
    refine Iff.trans ih (or_congr_left ?_)
    cases item with
    | error e => simp [Except.toOption]
    | ok d =>
      cases d with
      | record d =>
        change (known.classes.insert d.qualified).contains name = true ↔ _
        rw [NameSet.contains_insert, Bool.or_eq_true, beq_iff_eq, or_comm]
        refine or_congr_right ⟨fun heq => ⟨d, rfl, heq.symm⟩, ?_⟩
        rintro ⟨other, heq, rfl⟩
        cases heq
        rfl
      | remark | function | enum => simp [Except.toOption, learnName, KnownNames.addEnum]

/-! ### Requests for native wrappers -/

/-- Is the attachment asked for with a spelling of this class, and its wrapper declared and left to it? -/
structure Attachment.Reaches (a : Attachment) (q : QualifiedName) (learned : Selection)
    (stream : List (Except DeclarationError Declaration)) : Prop where
  asked : ∃ item ∈ stream, a.IsAsked item q
  kept : learned.requests.attachment? a.wrapper = some a
  declared : ∃ w, .ok (.function w) ∈ stream ∧ w.owner = none ∧ w.qualified = a.wrapper
  known : a.isMetamethod = true → a.name ∈ metamethodNames

/-- The attachments that reach a class are those that wait for it. -/
theorem Attachment.reaches_iff {registry : Registry} {stream : List (Except DeclarationError Declaration)}
    (hlearns : ((start registry).learnAll stream).2 = none)
    (hends : (((start registry).learnAll stream).1.registerAll stream).2 = none) {a : Attachment} {q : QualifiedName} :
    a.Reaches q ((start registry).learnAll stream).1 stream
      ↔ a ∈ (((start registry).learnAll stream).1.registerAll stream).1.waiting ∧ Scope.canonical a.className = q.text
        ∧ (a.isMetamethod = true → a.name ∈ metamethodNames) := by
  constructor
  · rintro ⟨⟨item, -, hasked⟩, hkept, hdeclared, hknown⟩
    exact ⟨(mem_waiting_run_iff hends).2 ⟨hkept, hdeclared⟩, (Attachment.isAsked_iff.1 hasked).2, hknown⟩
  · rintro ⟨hwaits, hclass, hknown⟩
    obtain ⟨item, hitem, hread⟩ := List.mem_filterMap.1 (mem_attachments_of_waiting hlearns hends hwaits)
    obtain ⟨hkept, hdeclared⟩ := (mem_waiting_run_iff hends).1 hwaits
    exact ⟨⟨item, hitem, Attachment.isAsked_iff.2 ⟨hread, hclass⟩⟩, hkept, hdeclared, hknown⟩

/-! ### One class -/

namespace QualifiedName

/-- Is this the class of a qualified name, with all that is said of it in any spelling? -/
structure Reached (q : QualifiedName) (learned : Selection) (stream : List (Except DeclarationError Declaration))
    (r : Registry) (c : BoundClass) : Prop where
  scope : c.scope = q.scope
  name : c.name = q.name
  /-- It is found by every spelling, and no other class has its key. -/
  found : ∀ text, q.IsSpelled text → r.find? (Scope.splitQualified text).1 (Scope.splitQualified text).2 = some c
  only : ∀ d ∈ r.classes, d.qualified = q.text → d = c
  /-- It is bound in the state that the last request for it names, -/
  asked : ∀ request, q.LastAsked stream request → c.state = some request.state
  /-- and if there is none, in the one that its own declaration names. -/
  unasked : (∀ request, ¬ q.LastAsked stream request) → ∀ state, c.state = some state
    ↔ ∃ d, learned.Admits stream d ∧ d.scope = q.scope ∧ d.name = q.name ∧ inlineState? d.comment = some state
  /-- Its bases are the classes that its declarations and requests name as such. -/
  bases : ∀ (q' : QualifiedName) (d : BoundClass), r.find? q'.scope q'.name = some d → (d.id ∈ c.bases
    ↔ (∃ e, learned.Admits stream e ∧ e.scope = q.scope ∧ e.name = q.name ∧ ∃ base ∈ e.bases, q'.IsSpelled base)
      ∨ ∃ item ∈ stream, ∃ derived parent, (Request.base derived parent).IsAsked item [q, q'])
  /-- The native wrappers in it are those that are asked for at it. -/
  wrapped : ∀ kind name f, (c.members kind).get? name = some f → f.wrapperName ≠ none →
    c.isExposed = true ∧ ∃ a, Attachment.Reaches a q learned stream ∧ a.kind = kind ∧ a.name = name ∧ a.IsServedBy f
  wraps : ∀ a, Attachment.Reaches a q learned stream → c.isExposed = true →
    ∃ f, (c.members a.kind).get? a.name = some f ∧ f.wrapperName ≠ none

section Run

variable {patches : Patches} {headers : NameSet} {sources : List DeclarationSource} {t : Selection}
  {q q' : QualifiedName} {c d : BoundClass}
  (hrun : (start { patches, headers }).runAll (DeclarationSource.stream sources) = (t, none))

include hrun

/-- The native wrappers in an exposed class are those that are asked for at it. -/
theorem wrappers_of_run (hexposes : t.registry.Exposes q.text c) :
    let learned := ((start { patches, headers }).learnAll (DeclarationSource.stream sources)).1
    (∀ kind name f, (c.members kind).get? name = some f → f.wrapperName ≠ none →
        ∃ a, Attachment.Reaches a q learned (DeclarationSource.stream sources) ∧ a.kind = kind ∧ a.name = name
          ∧ a.IsServedBy f)
      ∧ ∀ a, Attachment.Reaches a q learned (DeclarationSource.stream sources) →
        ∃ f, (c.members a.kind).get? a.name = some f ∧ f.wrapperName ≠ none := by
  intro learned
  obtain ⟨hlearns, hregisters, hsettled⟩ := passes_of_run hrun
  have horder := DeclarationSource.inOrder_stream sources none
  obtain ⟨owner, htidy⟩ := (Tidy.learnAll patches headers (DeclarationSource.stream sources)).registerAll horder
  rw [hsettled] at hexposes
  have hnames : ∀ a : Attachment, a.Names c a.name ↔ Scope.canonical a.className = q.text := fun a => by
    rw [Attachment.Names, hexposes.named]
    exact and_iff_left rfl
  refine ⟨fun kind name f hf hwrapped => ?_, fun a ha => ?_⟩
  · obtain ⟨a, hwaits, ⟨⟨hclass, rfl⟩, rfl, hknown⟩, hserved⟩ :=
      exists_waiting_of_wrapped htidy.registry hexposes hf hwrapped
    have hreaches := (Attachment.reaches_iff hlearns hregisters).2 ⟨hwaits, (hnames a).1 ⟨hclass, rfl⟩, hknown⟩
    exact ⟨a, hreaches, rfl, rfl, hserved⟩
  · obtain ⟨hwaits, hclass, hknown⟩ := (Attachment.reaches_iff hlearns hregisters).1 ha
    exact exists_wrapped_of_waiting htidy.registry hexposes hwaits ((hnames a).2 hclass) hknown

variable (hplain : PlainNames (DeclarationSource.stream sources))

include hplain

/-- A class of a name that is declared is there after the run. -/
theorem exists_class_of_run (hdeclared : q.IsDeclared sources) :
    let learned := ((start { patches, headers }).learnAll (DeclarationSource.stream sources)).1
    learned.Declares (DeclarationSource.stream sources) (.named q.text)
      ∧ ∃ c ∈ t.registry.classes, c.qualified = q.text := by
  intro learned
  obtain ⟨e, he, hqualified⟩ := (declaresClass_iff hplain).2 hdeclared
  obtain ⟨e', hadmitted, hsame, -⟩ := exists_admits rooted_learnAll classes_learnAll (passes_of_run hrun).2.1 he
  have hnamed : learned.Declares (DeclarationSource.stream sources) (.named q.text) :=
    ⟨e', hadmitted, .inl (by rw [hsame, hqualified])⟩
  exact ⟨hnamed, ((shows_of_run hrun).2 q.text hnamed).1⟩

/-- The last request for a class, in whatever spelling, says what state it is bound in. -/
theorem state_of_lastAsked (hdeclared : q.IsDeclared sources) (hnamed : t.registry.Named)
    (hc : c ∈ t.registry.classes) (hname : c.qualified = q.text) {request : TypeRequest}
    (hasked : q.LastAsked (DeclarationSource.stream sources) request) : c.state = some request.state := by
  obtain ⟨hlearns, hregisters, -⟩ := passes_of_run hrun
  obtain ⟨e, he, hqualified⟩ := (declaresClass_iff hplain).2 hdeclared
  obtain ⟨e', hadmitted, hsame, -⟩ := exists_admits rooted_learnAll classes_learnAll hregisters he
  rw [← hnamed.shows_bound_iff hc, hname, (shows_of_run hrun).1, declares_bound_iff]
  refine ⟨e', hadmitted, hsame.trans hqualified, ?_⟩
  rw [classTarget?, hsame, hqualified, (get?_classes_learnAll_iff hlearns).2 hasked]
  rfl

/-- A class that no request is about is bound in the state that its own declaration names. -/
theorem state_iff_of_unasked (hnamed : t.registry.Named) (hc : c ∈ t.registry.classes) (hname : c.qualified = q.text)
    (hunasked : ∀ request, ¬ q.LastAsked (DeclarationSource.stream sources) request) {state : String} :
    let learned := ((start { patches, headers }).learnAll (DeclarationSource.stream sources)).1
    c.state = some state ↔ ∃ d, learned.Admits (DeclarationSource.stream sources) d
      ∧ d.scope = q.scope ∧ d.name = q.name ∧ inlineState? d.comment = some state := by
  intro learned
  obtain ⟨hlearns, -, -⟩ := passes_of_run hrun
  have hnone : learned.requests.classes.get? q.text = none := by
    refine Option.eq_none_iff_forall_ne_some.2 fun request hget => ?_
    exact hunasked request ((get?_classes_learnAll_iff hlearns).1 hget)
  rw [← hnamed.shows_bound_iff hc, hname, (shows_of_run hrun).1, declares_bound_iff]
  refine exists_congr fun e => and_congr_right fun hadmitted => ?_
  rw [← and_assoc, ← qualified_eq_iff hplain hadmitted.mem]
  refine and_congr_right fun hqualified => ?_
  rw [classTarget?, hqualified, hnone]
  cases inlineState? e.comment <;> rfl

/-- The bases of a declared class are those that its declarations and requests name. -/
theorem mem_bases_iff (hdeclared : q.IsDeclared sources) (hnamed : t.registry.Named) (hc : c ∈ t.registry.classes)
    (hname : c.qualified = q.text) (hd : d ∈ t.registry.classes) (hname' : d.qualified = q'.text) :
    let learned := ((start { patches, headers }).learnAll (DeclarationSource.stream sources)).1
    d.id ∈ c.bases
      ↔ (∃ e, learned.Admits (DeclarationSource.stream sources) e ∧ e.scope = q.scope ∧ e.name = q.name
          ∧ ∃ base ∈ e.bases, q'.IsSpelled base)
        ∨ ∃ item ∈ DeclarationSource.stream sources, ∃ derived parent,
          (Request.base derived parent).IsAsked item [q, q'] := by
  intro learned
  obtain ⟨hlearns, -, -⟩ := passes_of_run hrun
  have hlinks := ((shows_of_run hrun).2 q.text (exists_class_of_run hrun hplain hdeclared).1).2 q'.text
  rw [← hnamed.shows_linked_iff hc hd, hname, hname', hlinks, exists_base_learnAll_iff hlearns, declares_linked_iff]
  refine or_congr_left (exists_congr fun e => and_congr_right fun hadmitted => ?_)
  rw [← and_assoc, ← qualified_eq_iff hplain hadmitted.mem]
  exact and_congr_right fun _ => exists_congr fun base => and_congr_right fun _ => canonical_eq_iff

/-- A declared class is reached by its name. -/
theorem exists_reached (hdeclared : q.IsDeclared sources) (hregular : t.registry.Regular)
    (hhidden : ∀ c ∈ t.registry.classes, c.isExposed = false → ∀ kind, c.members kind = ∅) :
    let learned := ((start { patches, headers }).learnAll (DeclarationSource.stream sources)).1
    ∃ c ∈ t.registry.classes, q.Reached learned (DeclarationSource.stream sources) t.registry c := by
  intro learned
  obtain ⟨-, c, hc, hname⟩ := exists_class_of_run hrun hplain hdeclared
  obtain ⟨hcscope, hcname⟩ := (qualify_eq_text_iff (hregular.named.legible c hc)).1 hname
  have hfound : ∀ text, q.IsSpelled text →
      t.registry.find? (Scope.splitQualified text).1 (Scope.splitQualified text).2 = some c := by
    intro text hspelled
    rw [splitQualified_eq_iff.2 hspelled, ← hcscope, ← hcname]
    exact hregular.find?_eq hc
  have hwrappers := fun hexposed : c.isExposed = true =>
    wrappers_of_run hrun (q := q) ⟨hfound q.text q.isSpelled_text, hname, hexposed⟩
  refine ⟨c, hc, hcscope, hcname, hfound, ?_, ?_, ?_, ?_, ?_, ?_⟩
  · exact fun d hd hsame => hregular.named.eq_of_qualified_eq hd hc (hsame.trans hname.symm)
  · exact fun request hasked => state_of_lastAsked hrun hplain hdeclared hregular.named hc hname hasked
  · exact fun hunasked state => state_iff_of_unasked hrun hplain hregular.named hc hname hunasked
  · intro q' d hfind
    have hname' : d.qualified = q'.text := (qualified_of_find? hfind).trans q'.qualify_eq
    exact mem_bases_iff hrun hplain hdeclared hregular.named hc hname (mem_of_find? hfind) hname'
  · intro kind name f hf hwrapped
    cases hexposed : c.isExposed with
    | true => exact ⟨rfl, (hwrappers hexposed).1 kind name f hf hwrapped⟩
    | false =>
      rw [hhidden c hc hexposed, NameMap.get?_empty] at hf
      cases hf
  · exact fun a ha hexposed => (hwrappers hexposed).2 a ha

end Run

/-! ### One key -/

/-- Is the name read from its spellings, and from no other text? -/
structure HasOneText (q : QualifiedName) : Prop where
  canonical : ∀ text, Scope.canonical text = q.text ↔ q.IsSpelled text
  split : ∀ text, Scope.splitQualified text = (q.scope, q.name) ↔ q.IsSpelled text
  normalize : ∀ text, Scope.normalize text = q.scope ↔ Scope.Spells q.segments text
  canonicalTwice : ∀ text, q.IsSpelled text → Scope.canonical (Scope.canonical text) = Scope.canonical text
  normalizeTwice : ∀ text, Scope.normalize (Scope.normalize text) = Scope.normalize text
  distinct : ∀ q' : QualifiedName, q.text = q'.text → q = q'

/-- Is the text what declarations, names that are known and requests have for the name, and for no other? -/
structure IsKey (q : QualifiedName) (learned : Selection) (sources : List DeclarationSource) : Prop where
  declared : ∀ source entry d, Scope.IsPlain entry.name →
    .record d ∈ DeclarationDocument.classDeclarations source entry →
    (d.qualified = q.text ↔ Scope.Spells q.segments entry.scope ∧ entry.name = q.name)
  known : learned.known.classes.contains q.text = true ↔ q.IsDeclared sources
  requested : ∀ table, q.text ∈ learned.requests.keys table
    ↔ ∃ item ∈ DeclarationSource.stream sources, Request.IsKeyed item table q

theorem hasOneText (q : QualifiedName) : q.HasOneText := by
  refine ⟨fun _ => canonical_eq_iff, fun _ => splitQualified_eq_iff, fun _ => Scope.normalize_eq_iff q.segmented,
    fun text hspelled => ?_, Scope.isNormal_normalize, fun _ => eq_of_text_eq⟩
  have htext : Scope.canonical text = q.text := canonical_eq_iff.2 hspelled
  rw [htext]
  exact canonical_eq_iff.2 q.isSpelled_text

theorem isKey_learnAll {patches : Patches} {headers : NameSet} {sources : List DeclarationSource}
    (q : QualifiedName) (hplain : PlainNames (DeclarationSource.stream sources))
    (hlearns : ((start { patches, headers }).learnAll (DeclarationSource.stream sources)).2 = none) :
    q.IsKey ((start { patches, headers }).learnAll (DeclarationSource.stream sources)).1 sources := by
  refine ⟨fun _ _ _ => qualified_entry_iff, ?_, fun _ => mem_keys_learnAll_iff hlearns⟩
  rw [(readings_learnAll hlearns).1, contains_classes_learnNames_iff, declaresClass_iff hplain]
  exact or_iff_right nofun

end QualifiedName

/-- CORRECT: a text that spells a qualified name, with separators in front, between and behind its segments as it may
be, and no other text, has its one text as canonical form and is split into its scope and its name; different names
have different texts. This text is the key that the class of an entry, the names that are known and each table of
requests have for the name. And a run that succeeds over classes with names without colons makes of a class that is
declared what the declarations, bases and requests say that spell its name, and nothing that they say of another one. -/
theorem qualified_names_agree (q : QualifiedName) :
    q.HasOneText ∧ ∀ (patches : Patches) (headers : NameSet) (sources : List DeclarationSource),
      let stream := DeclarationSource.stream sources
      let learned := ((start { patches, headers }).learnAll stream).1
      PlainNames stream →
        (((start { patches, headers }).learnAll stream).2 = none → q.IsKey learned sources)
          ∧ ∀ summary, (({ patches, headers } : Registry).select sources).outcome = .ok summary → q.IsDeclared sources →
            ∃ c ∈ (({ patches, headers } : Registry).select sources).registry.classes,
              q.Reached learned stream (({ patches, headers } : Registry).select sources).registry c := by
  refine ⟨q.hasOneText, ?_⟩
  intro patches headers sources stream learned hplain
  refine ⟨fun hlearns => q.isKey_learnAll hplain hlearns, fun summary hselected hdeclared => ?_⟩
  have hregular := (finished_of_run hplain hselected).sound.regular
  obtain ⟨t, hrun, hregistry⟩ := exists_run_of_select hselected
  have henrolled := enrolled_settled (enrolled_complete patches headers hplain)
  rw [← (passes_of_run hrun).2.2] at henrolled
  rw [hregistry] at hregular ⊢
  exact QualifiedName.exists_reached hrun hplain hdeclared hregular fun c hc =>
    (henrolled c.id c (hregular.class?_eq hc)).hidden

/-- The class `Sail` in the scope `::Boat::Rig`. -/
def sailName : QualifiedName where
  segments := ["Boat", "Rig"]
  name := "Sail"
  segmented := by decide
  named := by decide

/-- The global class `Hook`. -/
def hookName : QualifiedName where
  segments := []
  name := "Hook"
  segmented := by decide
  named := by decide

/-- Files that spell the names of these classes in several ways. -/
def boatSources : List DeclarationSource :=
  [⟨"sail.toml", some "source='sail.hpp'\n[[class]]\nname='Sail'\nscope='Boat::::Rig'\ncomment='CUSTOM_ATTRIBUTE[LuaStateTypes(Main) LuaLate(Class, Boat::Rig::::Sail)]'"⟩,
    ⟨"hook.toml", some "source='hook.hpp'\n[[class]]\nname='Hook'\ncomment='CUSTOM_ATTRIBUTE[LuaStateTypes(Main) LuaAddBaseToClass(::Boat::::Rig::Sail, ::::Hook)]'"⟩,
    ⟨"area.toml", some "source='area.hpp'\n[[function]]\nname='area'\ncomment='CUSTOM_ATTRIBUTE[LuaStateTypes(Main) LuaAddMetamethod(Boat::Rig::Sail, __len, area)]'"⟩]

/-- What they declare. -/
def boatStream : List (Except DeclarationError Declaration) :=
  [.ok (.record ⟨"Sail", "::Boat::Rig", "sail.hpp", none,
      "CUSTOM_ATTRIBUTE[LuaStateTypes(Main) LuaLate(Class, Boat::Rig::::Sail)]", [], false⟩),
    .ok (.record ⟨"Hook", "", "hook.hpp", none,
      "CUSTOM_ATTRIBUTE[LuaStateTypes(Main) LuaAddBaseToClass(::Boat::::Rig::Sail, ::::Hook)]", [], false⟩),
    .ok (.function { plainFunction "area" with
      comment := "CUSTOM_ATTRIBUTE[LuaStateTypes(Main) LuaAddMetamethod(Boat::Rig::Sail, __len, area)]"
      source := "area.hpp" })]

theorem stream_boatSources : DeclarationSource.stream boatSources = boatStream := by
  decide +kernel

/-- `Sail` is exposed, with `Hook` as a base and a native wrapper as its length. -/
theorem sail_reached : ∃ summary c d, (Registry.select {} boatSources).outcome = .ok summary
    ∧ c ∈ (Registry.select {} boatSources).registry.classes ∧ c.scope = "::Boat::Rig" ∧ c.name = "Sail"
    ∧ c.state = some "Main"
    ∧ d ∈ (Registry.select {} boatSources).registry.classes ∧ d.scope = "" ∧ d.name = "Hook" ∧ d.id ∈ c.bases
    ∧ ∃ f, c.metamethods.get? "__len" = some f ∧ f.wrapperName ≠ none := by
  have hpasses : let learned := (start {}).learnAll (DeclarationSource.stream boatSources)
      let registered := learned.1.registerAll (DeclarationSource.stream boatSources)
      learned.2 = none ∧ registered.2 = none ∧ PlainNames (DeclarationSource.stream boatSources)
      ∧ learned.1.known.classes.contains sailName.text = true ∧ learned.1.known.classes.contains hookName.text = true
      ∧ learned.1.requests.classes.get? sailName.text = some ⟨"Main", none⟩
      ∧ learned.1.requests.bases = [(sailName.text, hookName.text)]
      ∧ ⟨"::area", sailName.text, .metamethod, "__len"⟩ ∈ registered.1.waiting
      ∧ (registered.1.registry.classId? (Scope.splitQualified sailName.text).1 (Scope.splitQualified sailName.text).2
          = some 0)
      ∧ (registered.1.registry.classId? (Scope.splitQualified hookName.text).1 (Scope.splitQualified hookName.text).2
          = some 1)
      ∧ registered.1.registry.bases 1 = [] := by
    rw [stream_boatSources]
    decide +kernel
  obtain ⟨hlearns, hregisters, hplain, hsail, hhook, hstate, hbases, hwaits, hsailId, hhookId, hnone⟩ := hpasses
  have hends : ((start {}).runAll (DeclarationSource.stream boatSources)).2 = none := by
    refine ends_runAll_iff.2 ⟨hlearns, hregisters, ?_⟩
    have hlink := (ends_addRequestedBase_iff hsailId hhookId).2 (by simp [closesCycle, flattenedBases, hnone, walk])
    rw [(learned_registerAll _ _).requests, hbases, addRequestedBases]
    split
    · rfl
    · exact hlink
  have hrun := eq_of_ends hends
  obtain ⟨summary, hselected⟩ : ∃ summary, (Registry.select {} boatSources).outcome = .ok summary := by
    rw [Registry.select, hrun]
    exact ⟨_, rfl⟩
  obtain ⟨hkey, hreach⟩ := (qualified_names_agree sailName).2 {} ∅ boatSources hplain
  obtain ⟨hkey', hreach'⟩ := (qualified_names_agree hookName).2 {} ∅ boatSources hplain
  obtain ⟨c, hc, hsailed⟩ := hreach summary hselected ((hkey hlearns).known.1 hsail)
  obtain ⟨d, hd, hhooked⟩ := hreach' summary hselected ((hkey' hlearns).known.1 hhook)
  have hexposed : c.state = some "Main" := hsailed.asked _ ((get?_classes_learnAll_iff hlearns).1 hstate)
  have hfind := hhooked.found hookName.text hookName.isSpelled_text
  rw [QualifiedName.splitQualified_eq_iff.2 hookName.isSpelled_text] at hfind
  have hlinked : d.id ∈ c.bases := (hsailed.bases hookName d hfind).2 (.inr ((exists_base_learnAll_iff hlearns).1
    ⟨_, hbases ▸ List.mem_cons_self, by decide, by decide⟩))
  have hlength := hsailed.wraps _ ((Attachment.reaches_iff hlearns hregisters).2 ⟨hwaits, by decide, by decide⟩)
    (Option.isSome_of_eq_some hexposed)
  exact ⟨summary, c, d, hselected, hc, hsailed.scope, hsailed.name, hexposed, hd, hhooked.scope, hhooked.name, hlinked,
    hlength⟩

end LuaGlue
