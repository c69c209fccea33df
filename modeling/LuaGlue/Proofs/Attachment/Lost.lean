import LuaGlue.Proofs.Attachment.Attached

/-!
Which requests for attachments are kept.

A comment may ask for what no other comment asks for, at an exposed class and with a wrapper that is declared,
and its attachment is still lost: the tables of the first pass hold one request for a wrapper, and a comment is
read for one kind of request. `attachment_kept_iff` says when it is kept.

    w for C.__add, then w for C.__sub       C.__sub is kept
    w for C.__add, and w for D.f            C.__add is kept, D.f goes on being generated or is missing
    C.__add and D.f in one comment          C.__add is kept
-/

namespace LuaGlue

open Selection

/-! ### What a wrapper is used for -/

namespace Attachment

/-- Is a comment about this attachment? It names a Lua state and the attachment, and makes no late request. -/
structure NamedBy (a : Attachment) (comment : String) : Prop where
  state : (Annotations.parse comment).nameState = true
  notLate : (Annotations.parse comment).get? "LuaLate" = none
  named : (Annotations.parse comment).attachment? a.kind = some a

/-- Does the attachment name a member or a metamethod of this name of the class? -/
def Names (a : Attachment) (c : BoundClass) (name : String) : Prop :=
  Scope.canonical a.className = c.qualified ∧ a.name = name

/-- Do the comments `pre` before an attachment and `post` after it leave its wrapper to it? A later request for
the wrapper displaces an earlier one of the same table, and a metamethod displaces every redirection. -/
structure Undisplaced (a : Attachment) (pre post : List (Except DeclarationError Declaration)) : Prop where
  last : ∀ b ∈ attachments post, b.wrapper = a.wrapper → b.isMetamethod ≠ a.isMetamethod
  first : a.isMetamethod = false → ∀ b ∈ attachments (pre ++ post), b.wrapper = a.wrapper → b.isMetamethod = false

/-- An attachment that is read from a comment is the one of its kind that the comment names. -/
theorem NamedBy.eq_of_read? {a b : Attachment} {d : Declaration} (h : a.NamedBy d.comment)
    (hread : read? (.ok d) = some b) (hkind : b.kind = a.kind) : b = a := by
  obtain ⟨request, hrequest, hb⟩ := Option.bind_eq_some_iff.1 hread
  have hnamed := (Annotations.attachment?_of_read (Annotations.of_read? hrequest) hb).1
  rw [hkind, h.named] at hnamed
  exact (Option.some.inj hnamed).symm

end Attachment

theorem mem_attachments_split {pre post : List (Except DeclarationError Declaration)} {d : Declaration}
    {b : Attachment} (h : b ∈ attachments (pre ++ .ok d :: post)) :
    Attachment.read? (.ok d) = some b ∨ b ∈ attachments (pre ++ post) := by
  rw [attachments_split, List.mem_append, List.mem_append, Option.mem_toList] at h
  rw [attachments, List.filterMap_append, List.mem_append]
  rcases h with (hpre | hread) | hpost
  · exact .inr (.inl hpre)
  · exact .inl hread
  · exact .inr (.inr hpost)

namespace Selection

open Registry

/-- An attachment that no other comment asks for stays in its table if it is read and no later one replaces it. -/
theorem getLast?_kept_iff {pre post : List (Except DeclarationError Declaration)} {d : Declaration} {a : Attachment}
    (hother : a ∉ attachments (pre ++ post)) :
    ((attachments (pre ++ .ok d :: post)).filter (Requests.isKept a.isMetamethod a.wrapper)).getLast? = some a
      ↔ Attachment.read? (.ok d) = some a
        ∧ ∀ b ∈ attachments post, b.wrapper = a.wrapper → b.isMetamethod ≠ a.isMetamethod := by
  have hkept : Requests.isKept a.isMetamethod a.wrapper a = true := Requests.isKept_iff.2 ⟨rfl, rfl⟩
  rw [attachments, List.filterMap_append, List.mem_append, not_or] at hother
  obtain ⟨hpre, hpost⟩ := hother
  rw [attachments_split, List.filter_append, List.getLast?_append]
  constructor
  · intro hlast
    have hnone : (attachments post).filter (Requests.isKept a.isMetamethod a.wrapper) = [] := by
      refine List.getLast?_eq_none_iff.1 (Option.eq_none_iff_forall_ne_some.2 fun b hb => ?_)
      rw [hb, Option.some_or] at hlast
      cases hlast
      exact hpost (List.mem_filter.1 (List.mem_of_getLast? hb)).1
    rw [hnone, List.getLast?_nil, Option.none_or] at hlast
    refine ⟨?_, fun b hb hwrapper hkind => ?_⟩
    · rcases List.mem_append.1 (List.mem_filter.1 (List.mem_of_getLast? hlast)).1 with hfirst | hread
      · exact absurd hfirst hpre
      · exact Option.mem_toList.1 hread
    · exact List.filter_eq_nil_iff.1 hnone b hb (Requests.isKept_iff.2 ⟨hwrapper, hkind⟩)
  · rintro ⟨hread, hlater⟩
    have hnone : (attachments post).filter (Requests.isKept a.isMetamethod a.wrapper) = [] := by
      refine List.filter_eq_nil_iff.2 fun b hb hkeeps => ?_
      obtain ⟨hwrapper, hkind⟩ := Requests.isKept_iff.1 hkeeps
      exact hlater b hb hwrapper hkind
    rw [hnone, hread, List.getLast?_nil, Option.none_or, Option.toList_some, List.filter_append,
      List.filter_cons_of_pos hkept]
    exact List.getLast?_concat

/-- The wrapper of an attachment is used for it if it is read and not displaced. -/
theorem attachment?_learnAll_iff {registry : Registry} {pre post : List (Except DeclarationError Declaration)}
    {d : Declaration} (hends : ((start registry).learnAll (pre ++ .ok d :: post)).2 = none) {a : Attachment}
    (hnamed : a.NamedBy d.comment) (hother : a ∉ attachments (pre ++ post)) :
    ((start registry).learnAll (pre ++ .ok d :: post)).1.requests.attachment? a.wrapper = some a
      ↔ (Annotations.parse d.comment).reads a.kind = true ∧ a.Undisplaced pre post := by
  rw [Requests.attachment?_eq_some_iff, table?_learnAll hends, table?_learnAll hends, getLast?_kept_iff hother,
    Annotations.read?_eq_some_iff hnamed.state hnamed.notLate hnamed.named, and_assoc, List.getLast?_eq_none_iff,
    List.filter_eq_nil_iff]
  refine and_congr_right fun hreads => ?_
  have hread := (Annotations.read?_eq_some_iff hnamed.state hnamed.notLate hnamed.named).2 hreads
  constructor
  · rintro ⟨hlater, hnone⟩
    refine ⟨hlater, fun hmember b hb hwrapper => Bool.eq_false_iff.2 fun hmeta => ?_⟩
    refine hnone hmember b ?_ (Requests.isKept_iff.2 ⟨hwrapper, hmeta⟩)
    rw [attachments_split, List.mem_append, List.mem_append]
    rw [attachments, List.filterMap_append, List.mem_append] at hb
    exact hb.elim (fun hpre => .inl (.inl hpre)) .inr
  · rintro ⟨hlater, hnone⟩
    refine ⟨hlater, fun hmember b hb hkeeps => ?_⟩
    obtain ⟨hwrapper, hmeta⟩ := Requests.isKept_iff.1 hkeeps
    rcases mem_attachments_split hb with hsame | hrest
    · rw [hread] at hsame
      cases hsame
      rw [hmember] at hmeta
      cases hmeta
    · rw [hnone hmember b hrest hwrapper] at hmeta
      cases hmeta

end Selection

/-! ### What is bound for it -/

namespace Registry

/-- Is the class exposed under this qualified name? -/
structure Exposes (r : Registry) (qualified : String) (c : BoundClass) : Prop where
  found : r.find? (Scope.splitQualified qualified).1 (Scope.splitQualified qualified).2 = some c
  named : c.qualified = qualified
  exposed : c.isExposed = true

theorem Exposes.bound?_eq {r : Registry} {qualified : String} {c : BoundClass} (h : r.Exposes qualified c)
    (hplaced : r.Placed) (kind : MemberKind) (name : String) :
    r.bound? (.member c.id kind name) = (c.members kind).get? name := by
  have hclass : r.class? c.id = some c := hplaced.getElem? (mem_of_find? h.found)
  rw [bound?, hclass]
  rfl

end Registry

/-- Is a native wrapper bound for the attachment, and no generated function beside it in its class? -/
structure BoundClass.Attaches (c : BoundClass) (a : Attachment) : Prop where
  served : ∃ f, (c.members a.kind).get? a.name = some f ∧ a.IsServedBy f
  alone : a.isMetamethod = false → ∀ kind f, (c.members kind).get? a.name = some f → f.wrapperName ≠ none

namespace Selection

open Registry

section Assembled

variable {s : Selection} {qualified : String} {c : BoundClass}

/-- A class that is exposed in the end, as it was before native wrappers were attached. -/
theorem exists_unattached (h : s.registry.Tidy s.exposed s.requests)
    (hexposes : s.assembled.settled.Exposes qualified c) :
    ∃ d, (s.addRequestedBases s.requests.bases).1.registry.find? (Scope.splitQualified qualified).1
          (Scope.splitQualified qualified).2 = some d
      ∧ (s.addRequestedBases s.requests.bases).1.registry.class? c.id = some d ∧ c.frame = d.frame := by
  obtain ⟨hbased, -⟩ := tidy_addRequestedBases s h s.requests.bases
  obtain ⟨e, he, hframe⟩ := find?_of_settled hexposes.found hexposes.exposed
  rcases find?_of_bare_eq (attached_assembled hbased.placed).bare (Scope.splitQualified qualified).1
    (Scope.splitQualified qualified).2 with ⟨hnone, -⟩ | ⟨e', d, he', hd, hframe'⟩
  · cases he.symm.trans hnone
  · obtain rfl : e = e' := Option.some.inj (he.symm.trans he')
    refine ⟨d, hd, ?_, hframe.trans hframe'⟩
    rw [BoundClass.id_of_frame_eq (hframe.trans hframe')]
    exact hbased.placed.getElem? (mem_of_find? hd)

/-- It is the one that native wrappers find by its name. -/
theorem exists_exposedClass?_iff (h : s.registry.Tidy s.exposed s.requests)
    (hexposes : s.assembled.settled.Exposes qualified c) {className : String} :
    (∃ d, (s.addRequestedBases s.requests.bases).1.exposedClass? className = some d ∧ d.id = c.id)
      ↔ Scope.canonical className = c.qualified := by
  obtain ⟨hbased, hexposed⟩ := tidy_addRequestedBases s h s.requests.bases
  obtain ⟨d, hd, hplace, hframe⟩ := exists_unattached h hexposes
  have hqualified : c.qualified = d.qualified := @congrArg _ _ c.frame d.frame BoundClass.qualified hframe
  constructor
  · rintro ⟨d', hd', hid⟩
    have hfind := (Option.filter_eq_some_iff.1 hd').1
    have hplace' := hbased.placed.getElem? (mem_of_find? hfind)
    rw [hid] at hplace'
    obtain rfl : d = d' := Option.some.inj (hplace.symm.trans hplace')
    rw [hqualified]
    exact (qualified_of_find? hfind).symm
  · intro hnames
    have hsame : Scope.qualify (Scope.splitQualified className).1 (Scope.splitQualified className).2
        = Scope.qualify (Scope.splitQualified qualified).1 (Scope.splitQualified qualified).2 :=
      Eq.trans hnames (qualified_of_find? hexposes.found)
    have hlisted := (hbased.classes d (mem_of_find? hd)).listed
      ((BoundClass.isExposed_of_frame_eq hframe).symm.trans hexposes.exposed)
    have hfind : (s.addRequestedBases s.requests.bases).1.registry.find? (Scope.splitQualified className).1
        (Scope.splitQualified className).2 = some d := by
      rw [find?, hsame]
      exact hd
    refine ⟨d, Option.filter_eq_some_iff.2 ⟨hfind, ?_⟩, (BoundClass.id_of_frame_eq hframe).symm⟩
    rw [hexposed]
    simpa using hlisted

theorem target?_iff (h : s.registry.Tidy s.exposed s.requests) (hexposes : s.assembled.settled.Exposes qualified c)
    {b : Attachment} {kind : MemberKind} {name : String} :
    (s.addRequestedBases s.requests.bases).1.target? b = some (.member c.id kind name)
      ↔ b.Names c name ∧ b.kind = kind ∧ (b.isMetamethod = true → b.name ∈ metamethodNames) := by
  rw [target?_eq_some_iff, exists_exposedClass?_iff h hexposes, Attachment.Names]
  exact ⟨fun ⟨hnames, hkind, hname, hknown⟩ => ⟨⟨hnames, hname⟩, hkind, hknown⟩,
    fun ⟨⟨hnames, hname⟩, hkind, hknown⟩ => ⟨hnames, hkind, hname, hknown⟩⟩

/-- Native wrappers are in the class since they were attached. -/
theorem get?_of_wrapped_iff (h : s.registry.Tidy s.exposed s.requests)
    (hexposes : s.assembled.settled.Exposes qualified c) {kind : MemberKind} {name : String} {f : BoundFunction}
    (hwrapped : f.wrapperName ≠ none) : (c.members kind).get? name = some f
      ↔ s.assembled.registry.bound? (.member c.id kind name) = some f := by
  obtain ⟨hbased, -⟩ := tidy_addRequestedBases s h s.requests.bases
  have hplaced := hbased.placed.of_bare_eq (attached_assembled (s := s) hbased.placed).bare
  rw [← hexposes.bound?_eq (placed_settled hplaced)]
  exact bound?_settled_of_wrapped hplaced (Option.isSome_iff_ne_none.2 hwrapped)

/-- A native wrapper in the class has waited for its place there. -/
theorem exists_waiting_of_wrapped (h : s.registry.Tidy s.exposed s.requests)
    (hexposes : s.assembled.settled.Exposes qualified c) {kind : MemberKind} {name : String} {f : BoundFunction}
    (hf : (c.members kind).get? name = some f) (hwrapped : f.wrapperName ≠ none) :
    ∃ b ∈ s.waiting, (b.Names c name ∧ b.kind = kind ∧ (b.isMetamethod = true → b.name ∈ metamethodNames))
      ∧ b.IsServedBy f := by
  obtain ⟨hbased, -⟩ := tidy_addRequestedBases s h s.requests.bases
  have hattached := attached_assembled (s := s) hbased.placed
  rw [get?_of_wrapped_iff h hexposes hwrapped] at hf
  by_cases hsome : ∃ b ∈ s.waiting, (s.addRequestedBases s.requests.bases).1.target? b = some (.member c.id kind name)
  · obtain ⟨b, hb, hat, g, hg, hserved⟩ := hattached.reached _ hsome
    obtain rfl : f = g := Option.some.inj (hf.symm.trans hg)
    exact ⟨b, hb, (target?_iff h hexposes).1 hat, hserved⟩
  · -- nothing is attached there, so what is bound is generated
    have hkept := hattached.kept (.member c.id kind name) fun b hb hat => hsome ⟨b, hb, hat⟩
    rw [hf] at hkept
    obtain ⟨d, hd, hmember⟩ := Option.bind_eq_some_iff.1 hkept.symm
    exact absurd ((hbased.classes d (List.mem_of_getElem? hd)).generated _ _ f hmember).1 hwrapped

/-- Where an attachment waits for a place of the class, a native wrapper is there in the end. -/
theorem exists_wrapped_of_waiting (h : s.registry.Tidy s.exposed s.requests)
    (hexposes : s.assembled.settled.Exposes qualified c) {b : Attachment} (hb : b ∈ s.waiting) {name : String}
    (hnames : b.Names c name) (hknown : b.isMetamethod = true → b.name ∈ metamethodNames) :
    ∃ f, (c.members b.kind).get? name = some f ∧ f.wrapperName ≠ none := by
  obtain ⟨hbased, -⟩ := tidy_addRequestedBases s h s.requests.bases
  obtain ⟨_, -, -, f, hf, hserved⟩ := (attached_assembled (s := s) hbased.placed).reached (.member c.id b.kind name)
    ⟨b, hb, (target?_iff h hexposes).2 ⟨hnames, rfl, hknown⟩⟩
  have hwrapped : f.wrapperName ≠ none := Option.ne_none_iff_exists'.2 ⟨_, hserved.1⟩
  exact ⟨f, (get?_of_wrapped_iff h hexposes hwrapped).2 hf, hwrapped⟩

/-- A wrapper is bound for an attachment if it waits, where nothing else that waits has the same target. -/
theorem served_iff (h : s.registry.Tidy s.exposed s.requests) (hexposes : s.assembled.settled.Exposes qualified c)
    {a : Attachment} (hnames : a.Names c a.name) (hknown : a.isMetamethod = true → a.name ∈ metamethodNames)
    (honly : ∀ b ∈ s.waiting, b.Names c a.name → b.kind = a.kind → b = a) :
    (∃ f, (c.members a.kind).get? a.name = some f ∧ a.IsServedBy f) ↔ a ∈ s.waiting := by
  constructor
  · rintro ⟨f, hf, hserved⟩
    have hwrapped : f.wrapperName ≠ none := Option.ne_none_iff_exists'.2 ⟨_, hserved.1⟩
    obtain ⟨b, hb, hat, -⟩ := exists_waiting_of_wrapped h hexposes hf hwrapped
    rw [← honly b hb hat.1 hat.2.1]
    exact hb
  · intro hwaits
    obtain ⟨f, hf, hwrapped⟩ := exists_wrapped_of_waiting h hexposes hwaits hnames hknown
    obtain ⟨b, hb, hat, hserved⟩ := exists_waiting_of_wrapped h hexposes hf hwrapped
    obtain rfl := honly b hb hat.1 hat.2.1
    exact ⟨f, hf, hserved⟩

/-- Where a member is redirected, nothing that is generated is left in its class. -/
theorem alone_of_redirected (h : s.registry.Tidy s.exposed s.requests)
    (hexposes : s.assembled.settled.Exposes qualified c) {name : String}
    (hredirected : s.requests.isRedirected c.qualified name = true) (kind : MemberKind) {f : BoundFunction}
    (hf : (c.members kind).get? name = some f) : f.wrapperName ≠ none := by
  obtain ⟨hbased, -⟩ := tidy_addRequestedBases s h s.requests.bases
  have hattached := attached_assembled (s := s) hbased.placed
  have hplaced := hbased.placed.of_bare_eq hattached.bare
  intro hgenerated
  rw [← hexposes.bound?_eq (placed_settled hplaced), bound?_settled_iff _ hplaced] at hf
  by_cases hsome : ∃ b ∈ s.waiting,
      (s.addRequestedBases s.requests.bases).1.target? b = some (.member c.id kind name)
  · obtain ⟨b, -, -, g, hg, hserved⟩ := hattached.reached _ hsome
    obtain rfl : f = g := Option.some.inj (hf.1.symm.trans hg)
    rw [hserved.1] at hgenerated
    cases hgenerated
  · push Not at hsome
    have hkept := hattached.kept _ hsome
    rw [hf.1] at hkept
    obtain ⟨d, hd, hmember⟩ := Option.bind_eq_some_iff.1 hkept.symm
    obtain ⟨e, -, he, hframe⟩ := exists_unattached h hexposes
    obtain rfl : d = e := Option.some.inj (hd.symm.trans he)
    have hdirect := ((hbased.classes d (List.mem_of_getElem? hd)).generated kind name f hmember).2
    rw [show c.qualified = d.qualified from @congrArg _ _ c.frame d.frame BoundClass.qualified hframe, hdirect]
      at hredirected
    cases hredirected

end Assembled

/-! ### Whole runs -/

/-- What waits in the end is what a declared wrapper is used for. -/
theorem mem_waiting_run_iff {registry : Registry} {stream : List (Except DeclarationError Declaration)}
    (hends : (((start registry).learnAll stream).1.registerAll stream).2 = none) {a : Attachment} :
    a ∈ (((start registry).learnAll stream).1.registerAll stream).1.waiting
      ↔ ((start registry).learnAll stream).1.requests.attachment? a.wrapper = some a
        ∧ ∃ w, .ok (.function w) ∈ stream ∧ w.owner = none ∧ w.qualified = a.wrapper := by
  obtain ⟨templates, known, requests, notices, heq⟩ := learnAll_rest (start registry) stream
  have hnone : ((start registry).learnAll stream).1.waiting = [] := by
    rw [heq]
    rfl
  rw [mem_waiting_registerAll _ hends, hnone, or_iff_right List.not_mem_nil]
  constructor
  · rintro ⟨w, hdeclared, hfree, hused⟩
    have hwrapper := Requests.wrapper_of_attachment? hused
    exact ⟨hwrapper ▸ hused, w, hdeclared, hfree, hwrapper.symm⟩
  · rintro ⟨hused, w, hdeclared, hfree, hwrapper⟩
    rw [← hwrapper] at hused
    exact ⟨w, hdeclared, hfree, hused⟩

/-- A wrapper waits in the end if it is declared and used. -/
theorem mem_waiting_iff {registry : Registry} {stream : List (Except DeclarationError Declaration)}
    (hends : (((start registry).learnAll stream).1.registerAll stream).2 = none) {a : Attachment}
    {w : DeclaredFunction} (hdeclared : .ok (.function w) ∈ stream) (hfree : w.owner = none)
    (hwrapper : w.qualified = a.wrapper) :
    a ∈ (((start registry).learnAll stream).1.registerAll stream).1.waiting
      ↔ ((start registry).learnAll stream).1.requests.attachment? a.wrapper = some a := by
  rw [mem_waiting_run_iff hends]
  exact and_iff_left ⟨w, hdeclared, hfree, hwrapper⟩

/-- What waits has been asked for. -/
theorem mem_attachments_of_waiting {registry : Registry} {stream : List (Except DeclarationError Declaration)}
    (hlearns : ((start registry).learnAll stream).2 = none)
    (hends : (((start registry).learnAll stream).1.registerAll stream).2 = none) {b : Attachment}
    (hb : b ∈ (((start registry).learnAll stream).1.registerAll stream).1.waiting) : b ∈ attachments stream := by
  have htable := (Requests.attachment?_eq_some_iff.1 ((mem_waiting_run_iff hends).1 hb).1).1
  rw [table?_learnAll hlearns] at htable
  exact (List.mem_filter.1 (List.mem_of_getLast? htable)).1

end Selection

open Selection

/-- CORRECT: an attachment that a comment names, at an exposed class, with a wrapper that is declared, and that no
other comment asks for, is there after the run if and only if it is what the comment is read for and its wrapper is
left to it. -/
theorem attachment_kept_iff {patches : Patches} {headers : NameSet} {sources : List DeclarationSource} {s : Selection}
    (hrun : (start { patches, headers }).runAll (DeclarationSource.stream sources) = (s, none))
    {pre post : List (Except DeclarationError Declaration)} {d : Declaration}
    (hstream : DeclarationSource.stream sources = pre ++ .ok d :: post) {a : Attachment}
    (hnamed : a.NamedBy d.comment) (hknown : a.isMetamethod = true → a.name ∈ metamethodNames) {c : BoundClass}
    (hexposes : s.registry.Exposes a.className c) {w : DeclaredFunction}
    (hdeclared : .ok (.function w) ∈ DeclarationSource.stream sources) (hfree : w.owner = none)
    (hwrapper : w.qualified = a.wrapper)
    (hother : ∀ b ∈ attachments (pre ++ post), b.Names c a.name → b.isMetamethod ≠ a.isMetamethod) :
    c.Attaches a ↔ (Annotations.parse d.comment).reads a.kind = true ∧ a.Undisplaced pre post := by
  obtain ⟨hlearns, hends, hsettled⟩ := passes_of_run hrun
  have horder := DeclarationSource.inOrder_stream sources none
  rw [hsettled] at hexposes
  rw [hstream] at hlearns hends hexposes hdeclared horder
  have hnames : a.Names c a.name := by
    refine ⟨?_, rfl⟩
    exact (Registry.qualified_of_find? hexposes.found).symm
  obtain ⟨owner, htidy⟩ := (Tidy.learnAll patches headers (pre ++ .ok d :: post)).registerAll horder
  have honly : ∀ b ∈ (((start { patches, headers }).learnAll (pre ++ .ok d :: post)).1.registerAll
      (pre ++ .ok d :: post)).1.waiting, b.Names c a.name → b.kind = a.kind → b = a := by
    intro b hb hbnames hkind
    rcases mem_attachments_split (mem_attachments_of_waiting hlearns hends hb) with hread | hrest
    · exact hnamed.eq_of_read? hread hkind
    · refine absurd ?_ (hother b hrest hbnames)
      rw [Attachment.isMetamethod, Attachment.isMetamethod, hkind]
  have hserved := (served_iff htidy.registry hexposes hnames hknown honly).trans
    (mem_waiting_iff hends hdeclared hfree hwrapper)
  rw [← attachment?_learnAll_iff hlearns hnamed fun hmem => hother a hmem hnames rfl, ← hserved]
  refine ⟨fun h => h.served, fun h => ⟨h, fun hmember kind f hf => ?_⟩⟩
  refine alone_of_redirected htidy.registry hexposes ?_ kind hf
  rw [(learned_registerAll _ _).requests, hexposes.named]
  exact Requests.isRedirected_of_attachment? (hserved.1 h) hmember

/-- A comment that stands by itself and asks for something in the state `Main`. -/
def mainRemark (request : String) : Except DeclarationError Declaration :=
  .ok (.remark ("CUSTOM_ATTRIBUTE[LuaStateTypes(Main) " ++ request ++ "]"))

/-- The class `Vec`, exposed in the state `Main`. -/
def vecClass : Except DeclarationError Declaration :=
  .ok (.record {
    name := "Vec", scope := "", source := "vec.hpp", line := none, comment := "CUSTOM_ATTRIBUTE[Lua(Main)]"
    bases := [], hasDefaultConstructor := false })

/-- A free function without parameters. -/
def plainFunction (name : String) : DeclaredFunction where
  name := name
  scope := ""
  params := []
  returns := "void"
  isStatic := false
  comment := ""
  owner := none
  isConstructor := false
  source := "vec.hpp"

/-- A file that declares `Vec` with a member `size`, and the native wrapper `len` that is to take its place. -/
def sizedSource : DeclarationSource where
  path := "vec.toml"
  text := some "source='vec.hpp'\n[[annotation]]\ncomment='CUSTOM_ATTRIBUTE[LuaStateTypes(Main) LuaMemberFunctionRedirector(::Vec, size, ::len)]'\n[[class]]\nname='Vec'\ncomment='CUSTOM_ATTRIBUTE[Lua(Main)]'\n[[class.method]]\nname='size'\n[[function]]\nname='len'"

/-- The comment in the file. -/
def sizedComment : String :=
  "CUSTOM_ATTRIBUTE[LuaStateTypes(Main) LuaMemberFunctionRedirector(::Vec, size, ::len)]"

/-- What follows it. -/
def sizedRest : List (Except DeclarationError Declaration) :=
  [vecClass, .ok (.function { plainFunction "size" with scope := "::Vec", owner := some ("", "Vec") }),
    .ok (.function (plainFunction "len"))]

theorem stream_sizedSource : DeclarationSource.stream [sizedSource]
    = [] ++ .ok (.remark sizedComment) :: sizedRest := by
  decide +kernel

theorem len_stands_for_size : ∃ s c, (start {}).runAll (DeclarationSource.stream [sizedSource]) = (s, none)
    ∧ s.registry.Exposes "::Vec" c ∧ c.Attaches ⟨"::len", "::Vec", .function, "size"⟩ := by
  have hends : ((start {}).runAll (DeclarationSource.stream [sizedSource])).2 = none
      ∧ (((start {}).runAll (DeclarationSource.stream [sizedSource])).1.registry.find? "" "Vec").any
        (fun c => c.qualified == "::Vec" && c.isExposed) = true := by
    rw [stream_sizedSource]
    decide +kernel
  obtain ⟨hnone, hfound⟩ := hends
  have hrun := eq_of_ends hnone
  obtain ⟨c, hc, hclass⟩ := (Option.any_eq_true ..).1 hfound
  rw [Bool.and_eq_true, beq_iff_eq] at hclass
  have hexposes : ((start {}).runAll (DeclarationSource.stream [sizedSource])).1.registry.Exposes "::Vec" c :=
    ⟨hc, hclass.1, hclass.2⟩
  have hdeclared : .ok (.function (plainFunction "len")) ∈ DeclarationSource.stream [sizedSource] := by
    rw [stream_sizedSource]
    exact List.mem_cons_of_mem _ (List.mem_cons_of_mem _ (List.mem_cons_of_mem _ List.mem_cons_self))
  have hcomment : (Annotations.parse sizedComment).nameState = true
      ∧ (Annotations.parse sizedComment).get? "LuaLate" = none
      ∧ (Annotations.parse sizedComment).attachment? .function = some ⟨"::len", "::Vec", .function, "size"⟩
      ∧ (Annotations.parse sizedComment).reads .function = true := by
    decide +kernel
  obtain ⟨hstate, hlate, hasked, hreads⟩ := hcomment
  have hnamed : Attachment.NamedBy ⟨"::len", "::Vec", .function, "size"⟩ sizedComment := ⟨hstate, hlate, hasked⟩
  have hrest : attachments sizedRest = [] := by decide +kernel
  have hother : ∀ b ∈ attachments ([] ++ sizedRest), b.Names c "size" → b.isMetamethod ≠ false := by
    rw [List.nil_append, hrest]
    exact nofun
  refine ⟨_, c, hrun, hexposes, (attachment_kept_iff hrun stream_sizedSource hnamed nofun hexposes hdeclared rfl rfl
    hother).2 ⟨hreads, ?_, fun _ => ?_⟩⟩
  · rw [hrest]
    exact nofun
  · rw [List.nil_append, hrest]
    exact nofun

/-- One wrapper is asked for as two metamethods of `Vec`. -/
def combined : List (Except DeclarationError Declaration) :=
  [mainRemark "LuaAddMetamethod(::Vec, __add, ::combine)", mainRemark "LuaAddMetamethod(::Vec, __sub, ::combine)",
    vecClass, .ok (.function (plainFunction "combine"))]

/-- Only the second one is kept. -/
theorem combine_is_no_add : ((start {}).runAll combined).2 = none
    ∧ attachments combined
      = [⟨"::combine", "::Vec", .metamethod, "__add"⟩, ⟨"::combine", "::Vec", .metamethod, "__sub"⟩]
    ∧ ∃ c, ((start {}).runAll combined).1.registry.Exposes "::Vec" c
      ∧ (c.metamethods.get? "__sub").map (·.wrapperName) = some (some "::combine")
      ∧ ¬ c.Attaches ⟨"::combine", "::Vec", .metamethod, "__add"⟩ := by
  have hends : ((start {}).runAll combined).2 = none
      ∧ attachments combined
        = [⟨"::combine", "::Vec", .metamethod, "__add"⟩, ⟨"::combine", "::Vec", .metamethod, "__sub"⟩]
      ∧ (((start {}).runAll combined).1.registry.find? "" "Vec").any (fun c => c.qualified == "::Vec" && c.isExposed
        && (c.metamethods.get? "__add").isNone
        && (c.metamethods.get? "__sub").map (·.wrapperName) == some (some "::combine")) = true := by
    decide +kernel
  obtain ⟨hnone, hattachments, hfound⟩ := hends
  obtain ⟨c, hc, hclass⟩ := (Option.any_eq_true ..).1 hfound
  simp only [Bool.and_eq_true, beq_iff_eq, Option.isNone_iff_eq_none] at hclass
  obtain ⟨⟨⟨hqualified, hexposed⟩, hadd⟩, hsub⟩ := hclass
  refine ⟨hnone, hattachments, c, ⟨hc, hqualified, hexposed⟩, hsub, ?_⟩
  rintro ⟨⟨f, hf, -⟩, -⟩
  exact absurd (hf.symm.trans hadd) nofun

end LuaGlue
