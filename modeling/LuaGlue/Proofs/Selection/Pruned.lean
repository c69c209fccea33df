import LuaGlue.Proofs.ClassTable
import LuaGlue.Proofs.Selection.Changes

/-!
What is left once functions that name missing classes are dropped.

The survey goes through the generated functions once. A function that it does not list *resolves*: the
walk through its types met no missing class (`resolves_or_listed`). What is dropped is what is listed, so
the functions that are left resolve (`survivors`).

    survey ──▶ keys by class and kind ──▶ prune ──▶ thin classes ──▶ headers and states
-/

namespace LuaGlue

open Selection

/-- The types of the function name no missing class. -/
def Registry.Resolves (r : Registry) (f : BoundFunction) : Prop := ∃ met, (f.reach r met).2 = none

/-! ### The survey -/

theorem mem_keys_add {registry : Registry} {u : Unresolved} {entry : String × BoundFunction} {key : String}
    (h : key ∈ u.keys) : key ∈ (u.add registry entry).keys := by
  obtain ⟨other, f⟩ := entry
  unfold Unresolved.add
  simp only
  split
  · exact h
  · split
    · exact h
    · exact List.mem_append_left _ h

theorem mem_keys_foldl_add {registry : Registry} {entries : List (String × BoundFunction)} {u : Unresolved}
    {key : String} (h : key ∈ u.keys) : key ∈ (entries.foldl (Unresolved.add registry) u).keys := by
  induction entries generalizing u with
  | nil => exact h
  | cons entry rest ih => exact ih (mem_keys_add h)

/-- A generated function resolves, or it is listed. -/
theorem resolves_or_listed {registry : Registry} {functions : Functions} {key : String} {f : BoundFunction}
    (hf : (key, f) ∈ functions.entries) (hgenerated : f.wrapperName = none) (met : Reached) :
    registry.Resolves f ∨ key ∈ (functions.unresolved registry met).keys := by
  rw [Functions.unresolved]
  generalize functions.entries = entries, ({ met } : Unresolved) = u at hf ⊢
  induction entries generalizing u with
  | nil => cases hf
  | cons entry rest ih =>
    rcases List.mem_cons.1 hf with rfl | hrest
    · rw [List.foldl_cons]
      cases hreach : (f.reach registry u.met).2 with
      | none => exact .inl ⟨u.met, hreach⟩
      | some reason =>
        refine .inr (mem_keys_foldl_add ?_)
        have hpair : f.reach registry u.met = ((f.reach registry u.met).1, some reason) :=
          Prod.ext rfl hreach
        rw [Unresolved.add]
        simp only [hgenerated]
        rw [hpair]
        simp
    · exact ih _ hrest

theorem functions_foldl_addMembers (registry : Registry) (found : Survey) (places : List (BoundClass × MemberKind)) :
    (places.foldl (Survey.addMembers registry) found).functions = found.functions := by
  induction places generalizing found with
  | nil => rfl
  | cons place rest ih => exact ih _

theorem functions_survey (registry : Registry) :
    (survey registry).functions = (registry.functions.unresolved registry {}).keys :=
  functions_foldl_addMembers registry _ _

theorem mem_members_foldl {registry : Registry} {found : Survey} {places : List (BoundClass × MemberKind)}
    {drop : ClassId × MemberKind × List String} (h : drop ∈ found.members) :
    drop ∈ (places.foldl (Survey.addMembers registry) found).members := by
  induction places generalizing found with
  | nil => exact h
  | cons place rest ih => exact ih (List.mem_append_left _ h)

/-- Each kind of members of each exposed class is gone through. -/
theorem mem_members_survey {registry : Registry} {c : BoundClass} (hc : c ∈ registry.exposed) {kind : MemberKind}
    (hkind : kind ∈ generatedKinds) :
    ∃ met, (c.id, kind, ((c.members kind).unresolved registry met).keys) ∈ (survey registry).members := by
  have hplace : (c, kind) ∈ registry.exposed.flatMap fun c => generatedKinds.map (c, ·) :=
    List.mem_flatMap.2 ⟨c, hc, List.mem_map.2 ⟨kind, hkind, rfl⟩⟩
  unfold survey
  simp only
  generalize (registry.exposed.flatMap fun c => generatedKinds.map (c, ·)) = places at hplace
  generalize (Survey.mk (registry.functions.unresolved registry {}).met _ _ _) = found
  induction places generalizing found with
  | nil => cases hplace
  | cons place rest ih =>
    rcases List.mem_cons.1 hplace with rfl | hrest
    · rw [List.foldl_cons]
      have hlisted : (c.id, kind, ((c.members kind).unresolved registry found.met).keys)
          ∈ (Survey.addMembers registry found (c, kind)).members :=
        List.mem_append_right _ (List.mem_singleton.2 rfl)
      exact ⟨found.met, mem_members_foldl hlisted⟩
    · exact ih hrest _

/-! ### What is dropped -/

/-- A class with no member that another one has not, and none at the keys of these drops. -/
structure BoundClass.Within (drops : List (ClassId × MemberKind × List String)) (place : ClassId)
    (c whole : BoundClass) : Prop where
  exposed : c.isExposed = whole.isExposed
  members : ∀ kind, ∀ entry ∈ (c.members kind).entries, entry ∈ (whole.members kind).entries
    ∧ ∀ keys, (place, kind, keys) ∈ drops → entry.1 ∉ keys

theorem isExposed_withMembers (c : BoundClass) (kind : MemberKind) (functions : Functions) :
    (c.withMembers kind functions).isExposed = c.isExposed := by
  cases kind <;> rfl

theorem within_dropMembers {r : Registry} {id : ClassId} {kind : MemberKind} {keys : List String} {x : ClassId}
    {c : BoundClass} (hc : (dropMembers id kind keys r).classes[x]? = some c) :
    ∃ whole, r.classes[x]? = some whole ∧ c.Within [(id, kind, keys)] x whole := by
  obtain ⟨whole, hwhole, rfl⟩ := Registry.getElem?_modifyClass hc
  refine ⟨whole, hwhole, ?_, fun other entry hentry => ?_⟩
  · split
    · exact isExposed_withMembers whole kind _
    · rfl
  · split at hentry
    · next hx =>
      rw [BoundClass.members_withMembers] at hentry
      split at hentry
      · next hkind =>
        subst hkind
        obtain ⟨hold, hkey⟩ := NameMap.mem_entries_eraseAll.1 hentry
        refine ⟨hold, fun dropped hdropped => ?_⟩
        cases List.mem_singleton.1 hdropped
        exact hkey
      · next hkind =>
        refine ⟨hentry, fun dropped hdropped => ?_⟩
        cases List.mem_singleton.1 hdropped
        exact absurd rfl hkind
    · next hx =>
      refine ⟨hentry, fun dropped hdropped => ?_⟩
      cases List.mem_singleton.1 hdropped
      exact absurd rfl hx

theorem within_prune {r : Registry} {drops : List (ClassId × MemberKind × List String)} {x : ClassId}
    {c : BoundClass}
    (hc : (drops.foldl (fun r (id, kind, keys) => dropMembers id kind keys r) r).classes[x]? = some c) :
    ∃ whole, r.classes[x]? = some whole ∧ c.Within drops x whole := by
  induction drops generalizing r with
  | nil => exact ⟨c, hc, rfl, fun _ entry hentry => ⟨hentry, fun _ hnone => by cases hnone⟩⟩
  | cons drop rest ih =>
    obtain ⟨id, kind, keys⟩ := drop
    obtain ⟨middle, hmiddle, hrest⟩ := ih hc
    obtain ⟨whole, hwhole, hfirst⟩ := within_dropMembers hmiddle
    refine ⟨whole, hwhole, hrest.exposed.trans hfirst.exposed, fun other entry hentry => ?_⟩
    obtain ⟨hinner, hlater⟩ := hrest.members other entry hentry
    obtain ⟨houter, hnow⟩ := hfirst.members other entry hinner
    refine ⟨houter, fun dropped hdropped => ?_⟩
    rcases List.mem_cons.1 hdropped with heq | hdropped
    · exact hnow dropped (List.mem_singleton.2 heq)
    · exact hlater dropped hdropped

/-- What every drop keeps is kept by all of them. -/
theorem keeps_prune {P : Registry → Prop} (hdrop : ∀ r id kind keys, P r → P (dropMembers id kind keys r))
    (r : Registry) (found : Survey)
    (hr : P { r with functions := found.functions.foldl NameMap.erase r.functions }) : P (prune r found) := by
  rw [prune]
  simp only
  generalize ({ r with functions := found.functions.foldl NameMap.erase r.functions } : Registry) = q at hr ⊢
  induction found.members generalizing q with
  | nil => exact hr
  | cons drop rest ih => exact ih _ (hdrop q drop.1 drop.2.1 drop.2.2 hr)

theorem functions_prune (r : Registry) (found : Survey) :
    (prune r found).functions = found.functions.foldl NameMap.erase r.functions :=
  keeps_prune (P := fun q => q.functions = found.functions.foldl NameMap.erase r.functions)
    (fun _ _ _ _ h => h) r found rfl

theorem signatures_prune (r : Registry) (found : Survey) : (prune r found).signatures = r.signatures :=
  keeps_prune (P := fun q => q.signatures = r.signatures) (fun _ _ _ _ h => h) r found rfl

theorem holds_prune {r : Registry} {ref : ClassRef} (h : r.holds ref = true) (found : Survey) :
    (prune r found).holds ref = true := by
  refine keeps_prune (P := fun q => q.holds ref = true) (fun q id kind keys hq => ?_) r found h
  exact Registry.holds_modifyClass hq id fun c => by cases kind <;> rfl

/-- A free function that is left resolves. -/
theorem resolves_of_mem_functions {r : Registry} {f : BoundFunction}
    (hf : f ∈ (prune r (survey r)).functions.values) (hgenerated : f.wrapperName = none) :
    f ∈ r.functions.values ∧ r.Resolves f := by
  obtain ⟨key, hkey⟩ := NameMap.mem_values.1 hf
  rw [functions_prune, functions_survey] at hkey
  obtain ⟨hold, hleft⟩ := NameMap.mem_entries_eraseAll.1 hkey
  exact ⟨NameMap.mem_values.2 ⟨key, hold⟩, (resolves_or_listed hold hgenerated {}).resolve_right hleft⟩

/-- A member that is left resolves. -/
theorem resolves_of_mem_members {r : Registry} (hplaced : r.Placed) {c : BoundClass}
    (hc : c ∈ (prune r (survey r)).classes) (hexposed : c.isExposed = true) {kind : MemberKind}
    (hkind : kind ∈ generatedKinds) {f : BoundFunction} (hf : f ∈ (c.members kind).values) :
    ∃ whole ∈ r.classes, f ∈ (whole.members kind).values ∧ (f.wrapperName = none → r.Resolves f) := by
  obtain ⟨x, hx⟩ := List.mem_iff_getElem?.1 hc
  obtain ⟨key, hkey⟩ := NameMap.mem_values.1 hf
  obtain ⟨whole, hwhole, hwithin⟩ := within_prune hx
  have hmem : whole ∈ r.classes := List.mem_of_getElem? hwhole
  obtain ⟨hold, hleft⟩ := hwithin.members kind _ hkey
  refine ⟨whole, hmem, NameMap.mem_values.2 ⟨key, hold⟩, fun hgenerated => ?_⟩
  obtain ⟨met, hlisted⟩ := mem_members_survey
    (List.mem_filter.2 ⟨hmem, hwithin.exposed ▸ hexposed⟩ : whole ∈ r.exposed) hkind
  rw [hplaced x whole hwhole] at hlisted
  exact (resolves_or_listed hold hgenerated met).resolve_right (hleft _ hlisted)

/-! ### The end of a run -/

theorem keeps_dropUnresolved {P : Registry → Prop} (s : Selection)
    (hthin : ∀ r name scope, P r → P (r.addThinClass name scope "").1)
    (hheaders : ∀ (r : Registry) headers, P r → P { r with headers })
    (hpruned : P (prune s.registry (survey s.registry))) : P s.dropUnresolved.registry := by
  have hfold : ∀ (names : List (String × String)) (s : Selection), P s.registry →
      P (names.foldl addForward s).registry := by
    intro names s hs
    induction names generalizing s with
    | nil => exact hs
    | cons name rest ih => exact ih _ (hthin _ _ _ hs)
  exact hheaders _ _ (hfold _ _ hpruned)

/-- What depends on classes alone is kept at the end if thin classes and drops keep it. -/
theorem keeps_settled {P : Registry → Prop} (hclasses : ∀ {r r' : Registry}, P r → r'.classes = r.classes → P r')
    (hthin : ∀ r name scope, P r → P (r.addThinClass name scope "").1)
    (hdrop : ∀ r id kind keys, P r → P (dropMembers id kind keys r)) {s : Selection} (h : P s.registry) :
    P s.settled := by
  have hpruned : P (prune s.registry (survey s.registry)) := keeps_prune hdrop s.registry _ (hclasses h rfl)
  exact hclasses (keeps_dropUnresolved s hthin (fun _ _ hr => hclasses hr rfl) hpruned) rfl

/-! ### Runs that may stop early -/

section Keeps

variable {P : Registry → Prop} (hclasses : ∀ {r r' : Registry}, P r → r'.classes = r.classes → P r')
  (hchange : ∀ {r r' : Registry}, Registry.Change r r' → P r → P r')
  (hdrop : ∀ r id kind keys, P r → P (dropMembers id kind keys r))

include hclasses hchange hdrop

/-- The end of a run keeps what registrations and drops keep, also when a requested base aborts it. -/
theorem keeps_finish {s : Selection} (h : P s.registry) : P s.finish.1.registry := by
  cases hfinish : s.finish with
  | mk finished cause =>
    cases cause with
    | none =>
      obtain ⟨complete, hchanges, heq⟩ := changes_finish hfinish
      rw [heq]
      exact keeps_settled hclasses (fun r name scope hr => hchange (.addThin r name scope "") hr) hdrop
        (hchanges.keeps hchange h)
    | some abort =>
      have hbases := changes_addRequestedBases s s.requests.bases
      unfold finish at hfinish
      split at hfinish
      · next hbased =>
        rw [hbased] at hbases
        cases hfinish
        exact hbases.keeps hchange h
      · cases hfinish

/-- A run keeps it, wherever it stops. -/
theorem keeps_runAll {s : Selection} (h : P s.registry) (stream : List (Except DeclarationError Declaration)) :
    P (s.runAll stream).1.registry := by
  have hlearned : P (s.learnAll stream).1.registry := (changes_learnAll s stream).keeps hchange h
  have hregistered := (changes_registerAll (s.learnAll stream).1 stream).keeps hchange hlearned
  unfold runAll
  split
  · next heq => simpa [heq] using hlearned
  · next learned heq =>
    rw [heq] at hregistered
    split
    · next heq => simpa [heq] using hregistered
    · next heq =>
      rw [heq] at hregistered
      have hfinished := keeps_finish hclasses hchange hdrop hregistered
      split
      all_goals
        next heq => simpa [heq] using hfinished

/-- A selection from files keeps it, whether it succeeds or stops. -/
theorem keeps_select {r : Registry} (h : P r) (sources : List DeclarationSource) :
    P (Registry.select r sources).registry := by
  have hstart : P (start r).registry := hclasses h rfl
  have hrun := keeps_runAll hclasses hchange hdrop hstart (DeclarationSource.stream sources)
  rw [Registry.select]
  split
  all_goals
    next heq => simpa [heq] using hrun

end Keeps

/-- What is in a settled registry was in the complete one, and resolves there. -/
structure Selection.Survivors (s : Selection) : Prop where
  signatures : s.settled.signatures = s.registry.signatures
  holds : ∀ ref, s.registry.holds ref = true → s.settled.holds ref = true
  functions : ∀ f ∈ s.settled.functions.values, f.wrapperName = none →
    f ∈ s.registry.functions.values ∧ s.registry.Resolves f
  members : ∀ c ∈ s.settled.classes, c.isExposed = true → ∀ kind ∈ generatedKinds,
    ∀ f ∈ (c.members kind).values, ∃ whole ∈ s.registry.classes, f ∈ (whole.members kind).values
      ∧ (f.wrapperName = none → s.registry.Resolves f)

theorem Selection.survivors (s : Selection) (hplaced : s.registry.Placed) : s.Survivors where
  signatures := by
    refine keeps_dropUnresolved (P := fun r => r.signatures = s.registry.signatures) s ?_ ?_ ?_
    · intro r name scope h
      rw [Registry.addThinClass]
      split <;> exact h
    · exact fun _ _ h => h
    · exact signatures_prune ..
  holds ref h := by
    refine keeps_dropUnresolved (P := fun r => r.holds ref = true) s ?_ ?_ ?_
    · exact fun r name scope h => Registry.holds_addThinClass h name scope ""
    · exact fun _ _ h => h
    · exact holds_prune h _
  functions := by
    refine keeps_dropUnresolved (P := fun r => ∀ f ∈ r.functions.values, f.wrapperName = none →
      f ∈ s.registry.functions.values ∧ s.registry.Resolves f) s ?_ ?_ ?_
    · intro r name scope h
      rw [Registry.addThinClass]
      split <;> exact h
    · exact fun _ _ h => h
    · exact fun f hf hgenerated => resolves_of_mem_functions hf hgenerated
  members := by
    refine keeps_dropUnresolved (P := fun r => ∀ c ∈ r.classes, c.isExposed = true → ∀ kind ∈ generatedKinds,
      ∀ f ∈ (c.members kind).values, ∃ whole ∈ s.registry.classes, f ∈ (whole.members kind).values
        ∧ (f.wrapperName = none → s.registry.Resolves f)) s ?_ ?_ ?_
    · intro r name scope h c hc hexposed
      unfold Registry.addThinClass at hc
      split at hc
      · rcases Registry.mem_appendClass hc with hold | rfl
        · exact h c hold hexposed
        · cases hexposed
      · exact h c hc hexposed
    · exact fun _ _ h => h
    · exact fun c hc hexposed kind hkind f hf => resolves_of_mem_members hplaced hc hexposed hkind hf

end LuaGlue
