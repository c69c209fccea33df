import LuaGlue.Proofs.Selection.Forward

/-!
The registry at the end of a run.

Settling drops the listed functions from a complete registry and makes every noted class thin. It keeps
the registry sound and each class where it is. What is gained is `exists_class_of_param`: a class that is
a parameter of a generated function is registered, so the code that checks an argument against it has
something to refer to.

    complete ──prune──▶ pruned ──thin class for each noted one──▶ ── headers, states ──▶ settled
-/

namespace LuaGlue

open Selection

/-! ### Dropping -/

namespace Registry

theorem grows_dropMembers (r : Registry) (id : ClassId) (kind : MemberKind) (keys : List String) :
    Grows r (dropMembers id kind keys r) := by
  have hface := sameFace_withMembers kind fun c => keys.foldl NameMap.erase (c.members kind)
  refine ⟨retains_modifyClass r id hface.scope hface.name fun c hc => ?_,
    fun h => ⟨h.regular.modifyClass id hface, ?_, h.keyed⟩⟩
  · rw [isExposed_withMembers]
    exact hc
  · exact h.housed.modifyClass id fun c hc => (h.housed.classes c (List.mem_of_getElem? hc)).eraseAll kind keys

theorem grows_eraseFunctions (r : Registry) (keys : List String) :
    Grows r { r with functions := keys.foldl NameMap.erase r.functions } := by
  refine ⟨retains_of_classes_eq rfl, fun h => ⟨h.regular.of_classes_eq rfl, ⟨h.housed.classes, fun f hf => ?_⟩, h.keyed⟩⟩
  obtain ⟨key, hkey⟩ := NameMap.mem_values.1 hf
  exact h.housed.functions f (NameMap.mem_values.2 ⟨key, (NameMap.mem_entries_eraseAll.1 hkey).1⟩)

theorem grows_prune (r : Registry) (found : Survey) : Grows r (prune r found) :=
  keeps_prune (P := Grows r) (fun q id kind keys h => h.trans (grows_dropMembers q id kind keys)) r found
    (grows_eraseFunctions r found.functions)

/-! ### Noted classes -/

/-- Is the function a free one, or one of the members that are generated from a signature? -/
def Binds (r : Registry) (f : BoundFunction) : Prop :=
  f ∈ r.functions.values ∨ ∃ c ∈ r.exposed, ∃ kind ∈ generatedKinds, f ∈ (c.members kind).values

/-- The types of a function without a native wrapper are legible. -/
theorem Sound.served {r : Registry} (h : r.Sound) {f : BoundFunction} (hbinds : r.Binds f)
    (hdirect : f.wrapperName = none) : f.Served r.signatures := by
  rcases hbinds with hfree | ⟨c, hc, kind, hkind, hf⟩
  · exact h.housed.functions f hfree hdirect
  · have hhouses := (h.housed.classes c (List.mem_filter.1 hc).1).members kind hkind f hf
    refine (hhouses.owned ?_).served
    refine Bool.eq_false_iff.2 fun hredirector => ?_
    have hwrapped := (hhouses.redirected hredirector).1
    rw [hdirect] at hwrapped
    cases hwrapped

theorem Sound.isLegible_of_mem_refs {r : Registry} (h : r.Sound) {f : BoundFunction} (hbinds : r.Binds f)
    (hdirect : f.wrapperName = none) {ref : ClassRef} (href : ref ∈ f.refs) : ref.IsLegible := by
  have hserved := h.served hbinds hdirect
  rcases List.mem_append.1 href with hparam | hresult
  · obtain ⟨t, ht, href⟩ := CxxType.mem_refsOf.1 hparam
    exact hserved.params t ht ref href
  · exact hserved.result ref hresult

/-- A class that is noted can be told from its name. -/
theorem Sound.legible_of_noted {r : Registry} (h : r.Sound) {scope name : String}
    (hnoted : (survey r).met.Notes scope name) : Scope.Legible scope name := by
  obtain ⟨f, ref, hdirect, href, rfl, rfl, hbinds⟩ := exists_of_noted r hnoted
  exact h.isLegible_of_mem_refs hbinds hdirect href

theorem holds_self_addThinClass (r : Registry) (ref : ClassRef) (source : String) :
    (r.addThinClass ref.name ref.scope source).1.holds ref = true := by
  rw [addThinClass]
  split
  · exact holds_iff.2 ⟨_, List.mem_append_right _ List.mem_cons_self, rfl⟩
  · next c hfind =>
    rw [holds, hfind]
    rfl

end Registry

namespace Selection

theorem grows_foldl_addForward (s : Selection) {names : List (String × String)}
    (h : ∀ name ∈ names, Scope.Legible name.1 name.2) :
    Registry.Grows s.registry (names.foldl addForward s).registry := by
  induction names generalizing s with
  | nil => exact .refl _
  | cons name rest ih =>
    have hfirst := Registry.grows_addThinClass s.registry (h name List.mem_cons_self) ""
    exact hfirst.trans (ih (s.addForward name) fun other hother => h other (List.mem_cons_of_mem _ hother))

theorem holds_foldl_addForward (s : Selection) (names : List (String × String)) (ref : ClassRef) :
    (s.registry.holds ref = true → (names.foldl addForward s).registry.holds ref = true)
      ∧ ((ref.scope, ref.name) ∈ names → (names.foldl addForward s).registry.holds ref = true) := by
  induction names generalizing s with
  | nil => exact ⟨id, nofun⟩
  | cons name rest ih =>
    obtain ⟨hheld, hlisted⟩ := ih (s.addForward name)
    refine ⟨fun h => hheld (Registry.holds_addThinClass h name.2 name.1 ""), fun h => ?_⟩
    rcases List.mem_cons.1 h with rfl | hrest
    · exact hheld (Registry.holds_self_addThinClass s.registry ref "")
    · exact hlisted hrest

/-! ### Settling -/

/-- Settling prunes, makes noted classes thin, and then leaves classes and functions alone. -/
theorem settled_eq (s : Selection) : ∃ pruned : Selection, pruned.registry = prune s.registry (survey s.registry)
    ∧ ∃ headers states, s.settled
      = { ((survey s.registry).met.forwardClasses.foldl addForward pruned).registry with headers, states } :=
  ⟨_, rfl, _, _, rfl⟩

theorem grows_settled (s : Selection) (h : s.registry.Sound) : Registry.Grows s.registry s.settled := by
  obtain ⟨pruned, hpruned, headers, states, hsettled⟩ := settled_eq s
  have hfirst : Registry.Grows s.registry pruned.registry := by
    rw [hpruned]
    exact Registry.grows_prune s.registry (survey s.registry)
  have hthin := grows_foldl_addForward pruned fun name hname =>
    h.legible_of_noted (Reached.mem_forwardClasses.1 hname)
  rw [hsettled]
  exact (hfirst.trans hthin).trans (Registry.grows_of_eq rfl rfl rfl)

/-- The registry at the end is sound. -/
theorem sound_settled (s : Selection) (h : s.registry.Sound) : s.settled.Sound := (grows_settled s h).sound h

/-- Every noted class is registered in the end. -/
theorem holds_settled_of_noted (s : Selection) {ref : ClassRef}
    (hnoted : (survey s.registry).met.Notes ref.scope ref.name) : s.settled.holds ref = true := by
  obtain ⟨pruned, -, headers, states, hsettled⟩ := settled_eq s
  rw [hsettled]
  exact (holds_foldl_addForward pruned _ ref).2 (Reached.mem_forwardClasses.2 hnoted)

/-- The functions that are left resolve, up to noted classes. -/
structure ResolvedWithin (s : Selection) : Prop where
  functions : ∀ f ∈ s.settled.functions.values, f.wrapperName = none →
    f.ResolvesWithin s.registry (survey s.registry).met
  members : ∀ c ∈ s.settled.classes, c.isExposed = true → ∀ kind ∈ generatedKinds,
    ∀ f ∈ (c.members kind).values, f.wrapperName = none → f.ResolvesWithin s.registry (survey s.registry).met

theorem resolvedWithin (s : Selection) (hplaced : s.registry.Placed) : s.ResolvedWithin where
  functions := by
    refine keeps_dropUnresolved (P := fun r => ∀ f ∈ r.functions.values, f.wrapperName = none →
      f.ResolvesWithin s.registry (survey s.registry).met) s ?_ (fun _ _ h => h) ?_
    · intro r name scope h
      rw [Registry.addThinClass]
      split <;> exact h
    · intro f hf hdirect
      obtain ⟨key, hkey⟩ := NameMap.mem_values.1 hf
      rw [functions_prune] at hkey
      obtain ⟨hold, hleft⟩ := NameMap.mem_entries_eraseAll.1 hkey
      exact resolvesWithin_of_function s.registry hold hdirect hleft
  members := by
    refine keeps_dropUnresolved (P := fun r => ∀ c ∈ r.classes, c.isExposed = true → ∀ kind ∈ generatedKinds,
      ∀ f ∈ (c.members kind).values, f.wrapperName = none →
        f.ResolvesWithin s.registry (survey s.registry).met) s ?_ (fun _ _ h => h) ?_
    · intro r name scope h c hc hexposed
      unfold Registry.addThinClass at hc
      split at hc
      · rcases Registry.mem_appendClass hc with hold | rfl
        · exact h c hold hexposed
        · cases hexposed
      · exact h c hc hexposed
    · intro c hc hexposed kind hkind f hf hdirect
      obtain ⟨x, hx⟩ := List.mem_iff_getElem?.1 hc
      obtain ⟨key, hkey⟩ := NameMap.mem_values.1 hf
      obtain ⟨whole, hwhole, hwithin⟩ := within_prune hx
      obtain ⟨hold, hleft⟩ := hwithin.members kind _ hkey
      have hmem : whole ∈ s.registry.exposed :=
        List.mem_filter.2 ⟨List.mem_of_getElem? hwhole, hwithin.exposed ▸ hexposed⟩
      refine resolvesWithin_of_member s.registry hmem hkind hold hdirect fun keys hkeys => hleft keys ?_
      rwa [hplaced x whole hwhole] at hkeys

/-- The classes of a function that is left are registered. -/
theorem holds_of_resolvesWithin (s : Selection) (hplaced : s.registry.Placed) {f : BoundFunction}
    (hresolves : f.ResolvesWithin s.registry (survey s.registry).met) {ref : ClassRef} (href : ref ∈ f.refs) :
    s.settled.holds ref = true := by
  rcases hresolves.held_or_noted s.registry href with hheld | hnoted
  · exact (s.survivors hplaced).holds ref hheld
  · exact holds_settled_of_noted s hnoted

/-- A class that is a parameter is registered, under its own scope and name. -/
theorem exists_class_of_param (s : Selection) (h : s.registry.Sound) {f : BoundFunction}
    (hresolves : f.ResolvesWithin s.registry (survey s.registry).met) {ref : ClassRef} {m : Modifiers}
    (hmem : .record ref m ∈ f.paramTypes) (hlegible : ref.IsLegible) :
    ∃ c ∈ s.settled.classes, c.scope = ref.scope ∧ c.name = ref.name := by
  have href : ref ∈ f.refs :=
    List.mem_append_left _ (CxxType.mem_refsOf.2 ⟨.record ref m, hmem, List.mem_singleton.2 rfl⟩)
  obtain ⟨c, hfind⟩ := Option.isSome_iff_exists.1 (s.holds_of_resolvesWithin h.regular.placed hresolves href)
  exact ⟨c, Registry.mem_of_find? hfind, (sound_settled s h).regular.eq_of_find? hlegible hfind⟩

/-- In the end every class that is a parameter of a generated member has a registered class of its tag. -/
theorem exists_tag_of_param (s : Selection) (h : s.registry.Sound) {c : BoundClass} (hc : c ∈ s.settled.classes)
    {kind : MemberKind} (hkind : kind ∈ generatedKinds) {f : BoundFunction} (hf : f ∈ (c.members kind).values)
    (hdirect : f.isRedirector = false) {ref : ClassRef} {m : Modifiers} (hmem : .record ref m ∈ f.paramTypes) :
    ∃ d ∈ s.settled.classes, d.tag = ref.tag := by
  have hhouses := ((sound_settled s h).housed.classes c hc).members kind hkind f hf
  have hown := hhouses.owned hdirect
  have hresolves := (s.resolvedWithin h.regular.placed).members c hc hhouses.exposed kind hkind f hf hown.direct
  have hlegible := CxxType.isLegible_record.1 (hown.served.params _ hmem)
  obtain ⟨d, hd, hscope, hname⟩ := exists_class_of_param s h hresolves hmem hlegible
  exact ⟨d, hd, by rw [BoundClass.tag, ClassRef.tag, hscope, hname]⟩

end Selection

/-- What a run that succeeds leaves in the registry. -/
structure Registry.Finished (r : Registry) : Prop where
  sound : r.Sound
  /-- A class that is a parameter of a generated member has a registered class of its tag. -/
  tagged : ∀ c ∈ r.classes, ∀ kind ∈ generatedKinds, ∀ f ∈ (c.members kind).values, f.isRedirector = false →
    ∀ ref m, .record ref m ∈ f.paramTypes → ∃ d ∈ r.classes, d.tag = ref.tag

theorem Selection.finished_of_run {patches : Patches} {headers : NameSet} {sources : List DeclarationSource}
    (hplain : PlainNames (DeclarationSource.stream sources)) {summary : Summary}
    (h : (({ patches, headers } : Registry).select sources).outcome = .ok summary) :
    (({ patches, headers } : Registry).select sources).registry.Finished := by
  obtain ⟨complete, hsound, hsettled⟩ := run_sound hplain h
  rw [hsettled]
  exact ⟨complete.sound_settled hsound, fun c hc kind hkind f hf hdirect ref m hmem =>
    complete.exists_tag_of_param hsound hc hkind hf hdirect hmem⟩

end LuaGlue
