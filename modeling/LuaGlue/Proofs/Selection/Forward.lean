import LuaGlue.Proofs.Selection.Runs

/-!
Classes that are named without being declared.

The survey notes each such class where a value of it is only read, and at the end of the run every noted
class is made thin. What is noted was named in a type that was gone through, and stays noted. So a
parameter that is a class finds one in the settled registry, whether it was declared or only named.

    parameter `struct Gone*` ──reach──▶ noted ──▶ end of the survey ──▶ thin class `Gone`
-/

namespace LuaGlue

open Selection

namespace Reached

/-- Has the class been noted? -/
def Notes (met : Reached) (scope name : String) : Prop :=
  ∃ names, met.forward.get? scope = some names ∧ names.contains name = true

theorem mem_forwardClasses {met : Reached} {scope name : String} :
    (scope, name) ∈ met.forwardClasses ↔ met.Notes scope name := by
  unfold forwardClasses Notes
  simp [List.mem_flatMap, NameMap.mem_entries_iff, NameSet.mem_toList]

theorem notes_addForward {met : Reached} {scope name scope' name' : String} :
    (met.addForward scope name).Notes scope' name'
      ↔ (scope' = scope ∧ name' = name) ∨ met.Notes scope' name' := by
  unfold Notes addForward
  simp only [NameMap.alter]
  rw [NameMap.get?_insert]
  split
  · next heq =>
    subst heq
    have hempty : ∀ other, (∅ : NameSet).contains other = false := fun _ => rfl
    cases hold : met.forward.get? scope' with
    | none => simp [NameSet.contains_insert, hempty]
    | some names => simp [NameSet.contains_insert]
  · next hne => simp [hne]

end Reached

/-- What going through types that hold these classes does to what is noted. -/
structure Noting (refs : List ClassRef) (met met' : Reached) : Prop where
  kept : ∀ scope name, met.Notes scope name → met'.Notes scope name
  named : ∀ scope name, met'.Notes scope name →
    met.Notes scope name ∨ ∃ ref ∈ refs, ref.scope = scope ∧ ref.name = name

theorem Noting.refl (refs : List ClassRef) (met : Reached) : Noting refs met met :=
  ⟨fun _ _ h => h, fun _ _ h => .inl h⟩

theorem Noting.trans {refs refs' : List ClassRef} {met met' met'' : Reached} (h : Noting refs met met')
    (h' : Noting refs' met' met'') : Noting (refs ++ refs') met met'' := by
  refine ⟨fun scope name hmet => h'.kept scope name (h.kept scope name hmet), fun scope name hmet => ?_⟩
  rcases h'.named scope name hmet with hmiddle | ⟨ref, href, hsame⟩
  · rcases h.named scope name hmiddle with hold | ⟨ref, href, hsame⟩
    · exact .inl hold
    · exact .inr ⟨ref, List.mem_append_left _ href, hsame⟩
  · exact .inr ⟨ref, List.mem_append_right _ href, hsame⟩

theorem Noting.mono {refs refs' : List ClassRef} {met met' : Reached} (h : Noting refs met met')
    (hsub : ∀ ref ∈ refs, ref ∈ refs') : Noting refs' met met' := by
  refine ⟨h.kept, fun scope name hmet => (h.named scope name hmet).imp_right ?_⟩
  rintro ⟨ref, href, hsame⟩
  exact ⟨ref, hsub ref href, hsame⟩

/-! ### Types -/

section Reach

variable (registry : Registry)

theorem noting_reach_ref (standing : Standing) (ref : ClassRef) (met : Reached) :
    Noting [ref] met (ref.reach registry standing met).1 := by
  unfold ClassRef.reach
  split
  · split
    · exact ⟨fun _ _ h => h, fun _ _ h => .inl h⟩
    · exact .refl _ _
  · split
    · refine ⟨fun scope name h => Reached.notes_addForward.2 (.inr h), fun scope name h => ?_⟩
      rcases Reached.notes_addForward.1 h with ⟨rfl, rfl⟩ | hold
      · exact .inr ⟨ref, List.mem_cons_self, rfl, rfl⟩
      · exact .inl hold
    · exact .refl _ _

mutual

theorem noting_reach (standing : Standing) (met : Reached) :
    ∀ t : CxxType, Noting t.refs met (t.reach registry standing met).1
  | .record ref _ => by
    rw [CxxType.reach]
    exact noting_reach_ref registry standing ref met
  | .function params result _ _ => by
    have hparams := noting_reachAll { standing with onlyRead := false } met params
    rw [CxxType.reach]
    split
    · next met' heq =>
      rw [heq] at hparams
      exact hparams.trans (noting_reach { standing with onlyRead := false } met' result)
    · exact hparams.mono fun ref href => List.mem_append_left _ href
  | .array _ element _ => by
    rw [CxxType.reach]
    exact noting_reach { standing with inArray := true } met element
  | .void _ | .numeric _ _ | .bool _ | .text _ _ | .enum _ _ => by
    rw [CxxType.reach]
    exact .refl _ _

theorem noting_reachAll (standing : Standing) (met : Reached) :
    ∀ ts : List CxxType, Noting (CxxType.refsOf ts) met (reachAll registry standing ts met).1
  | [] => by
    rw [reachAll]
    exact .refl _ _
  | t :: rest => by
    have hfirst := noting_reach standing met t
    rw [reachAll]
    split
    · next met' heq =>
      rw [heq] at hfirst
      exact hfirst.trans (noting_reachAll standing met' rest)
    · exact hfirst.mono fun ref href => List.mem_append_left _ href

end

/-- Every class in the types of a function. -/
def BoundFunction.refs (f : BoundFunction) : List ClassRef := CxxType.refsOf f.paramTypes ++ f.result.refs

theorem noting_reach_function (f : BoundFunction) (met : Reached) : Noting f.refs met (f.reach registry met).1 := by
  have hparams := noting_reachAll registry ⟨true, false⟩ met f.paramTypes
  rw [BoundFunction.reach]
  split
  · next met' heq =>
    rw [heq] at hparams
    exact hparams.trans (noting_reach registry ⟨false, false⟩ met' f.result)
  · exact hparams.mono fun ref href => List.mem_append_left _ href

mutual

/-- A class in a type that resolves is registered, or it is noted. -/
theorem held_or_noted (standing : Standing) (met : Reached) :
    ∀ t : CxxType, (t.reach registry standing met).2 = none → ∀ ref ∈ t.refs,
      registry.holds ref = true ∨ (t.reach registry standing met).1.Notes ref.scope ref.name
  | .record ref _, h, other, hother => by
    rw [CxxType.refs, List.mem_singleton] at hother
    subst hother
    rw [CxxType.reach, ClassRef.reach] at h ⊢
    cases hfind : registry.find? other.scope other.name with
    | some c => exact .inl (by rw [Registry.holds, hfind]; rfl)
    | none =>
      rw [hfind] at h
      simp only at h ⊢
      split at h
      · next hread =>
        rw [if_pos hread]
        exact .inr (Reached.notes_addForward.2 (.inl ⟨rfl, rfl⟩))
      · cases h
  | .function params result _ _, h, ref, href => by
    have hparams := held_or_noted_all { standing with onlyRead := false } met params
    rw [CxxType.reach] at h ⊢
    cases hwalk : reachAll registry { standing with onlyRead := false } params met with
    | mk met' reason =>
      rw [hwalk] at h hparams
      cases reason with
      | some reason => cases h
      | none =>
        rcases List.mem_append.1 href with href | href
        · refine (hparams rfl ref href).imp_right fun hnoted => ?_
          exact (noting_reach registry { standing with onlyRead := false } met' result).kept _ _ hnoted
        · exact held_or_noted { standing with onlyRead := false } met' result h ref href
  | .array _ element _, h, ref, href => by
    rw [CxxType.reach] at h ⊢
    exact held_or_noted { standing with inArray := true } met element h ref href
  | .void _, _, _, href | .numeric _ _, _, _, href | .bool _, _, _, href | .text _ _, _, _, href
  | .enum _ _, _, _, href => by cases href

theorem held_or_noted_all (standing : Standing) (met : Reached) :
    ∀ ts : List CxxType, (reachAll registry standing ts met).2 = none → ∀ ref ∈ CxxType.refsOf ts,
      registry.holds ref = true ∨ (reachAll registry standing ts met).1.Notes ref.scope ref.name
  | [], _, _, href => by cases href
  | t :: rest, h, ref, href => by
    have hfirst := held_or_noted standing met t
    rw [reachAll] at h ⊢
    cases hreach : t.reach registry standing met with
    | mk met' reason =>
      rw [hreach] at h hfirst
      cases reason with
      | some reason => cases h
      | none =>
        rcases List.mem_append.1 href with href | href
        · exact (hfirst rfl ref href).imp_right ((noting_reachAll registry standing met' rest).kept _ _)
        · exact held_or_noted_all standing met' rest h ref href

end

/-- The types of the function name no missing class, and what they note is among what is noted. -/
def BoundFunction.ResolvesWithin (f : BoundFunction) (met : Reached) : Prop :=
  ∃ before, (f.reach registry before).2 = none
    ∧ ∀ scope name, (f.reach registry before).1.Notes scope name → met.Notes scope name

theorem BoundFunction.ResolvesWithin.held_or_noted {f : BoundFunction} {met : Reached}
    (h : f.ResolvesWithin registry met) {ref : ClassRef} (href : ref ∈ f.refs) :
    registry.holds ref = true ∨ met.Notes ref.scope ref.name := by
  obtain ⟨before, hreach, hle⟩ := h
  have hparams := held_or_noted_all registry ⟨true, false⟩ before f.paramTypes
  unfold reach at hreach hle
  cases hwalk : reachAll registry ⟨true, false⟩ f.paramTypes before with
  | mk met' reason =>
    rw [hwalk] at hreach hle hparams
    cases reason with
    | some reason => cases hreach
    | none =>
      rcases List.mem_append.1 href with href | href
      · refine (hparams rfl ref href).imp_right fun hnoted => hle _ _ ?_
        exact (noting_reach registry ⟨false, false⟩ met' f.result).kept _ _ hnoted
      · exact (LuaGlue.held_or_noted registry ⟨false, false⟩ met' f.result hreach ref href).imp_right (hle _ _)

end Reach

/-! ### The survey -/

section Survey

variable (registry : Registry)

/-- The classes in the types that are gone through: those of functions without a native wrapper. -/
def generatedRefs (entries : List (String × BoundFunction)) : List ClassRef :=
  entries.flatMap fun entry => if entry.2.wrapperName.isSome then [] else entry.2.refs

theorem mem_generatedRefs {entries : List (String × BoundFunction)} {ref : ClassRef}
    (h : ref ∈ generatedRefs entries) : ∃ entry ∈ entries, entry.2.wrapperName = none ∧ ref ∈ entry.2.refs := by
  obtain ⟨entry, hentry, href⟩ := List.mem_flatMap.1 h
  split at href
  · cases href
  · next hdirect => exact ⟨entry, hentry, by simpa using hdirect, href⟩

/-- What going through functions does: generated ones that are not listed resolve. -/
structure Surveyed (entries : List (String × BoundFunction)) (u u' : Unresolved) : Prop where
  noting : Noting (generatedRefs entries) u.met u'.met
  listed : ∀ key ∈ u.keys, key ∈ u'.keys
  resolves : ∀ entry ∈ entries, entry.2.wrapperName = none → entry.1 ∉ u'.keys →
    entry.2.ResolvesWithin registry u'.met

theorem surveyed_add (u : Unresolved) (entry : String × BoundFunction) :
    Surveyed registry [entry] u (u.add registry entry) := by
  obtain ⟨key, f⟩ := entry
  rw [Unresolved.add]
  split
  · next hwrapped =>
    refine ⟨.refl _ _, fun _ h => h, fun other hother hdirect => ?_⟩
    rw [List.mem_singleton.1 hother] at hdirect
    rw [hdirect] at hwrapped
    cases hwrapped
  · next hdirect =>
    have hnoting := noting_reach_function registry f u.met
    have hrefs : generatedRefs [(key, f)] = f.refs := by
      simp [generatedRefs, hdirect]
    split
    · next met hreach =>
      rw [hreach] at hnoting
      refine ⟨?_, fun _ h => h, fun other hother _ _ => ?_⟩
      · rw [hrefs]
        exact hnoting
      · rw [List.mem_singleton.1 hother]
        exact ⟨u.met, by rw [hreach], fun scope name h => by rwa [hreach] at h⟩
    · next met reason hreach =>
      rw [hreach] at hnoting
      refine ⟨?_, fun _ h => List.mem_append_left _ h, fun other hother _ hleft => ?_⟩
      · rw [hrefs]
        exact hnoting
      · rw [List.mem_singleton.1 hother] at hleft
        exact absurd (List.mem_append_right _ List.mem_cons_self) hleft

theorem surveyed_foldl (entries : List (String × BoundFunction)) (u : Unresolved) :
    Surveyed registry entries u (entries.foldl (Unresolved.add registry) u) := by
  induction entries generalizing u with
  | nil => exact ⟨.refl _ _, fun _ h => h, fun _ h => by cases h⟩
  | cons entry rest ih =>
    obtain ⟨hnoting, hlisted, hresolves⟩ := surveyed_add registry u entry
    obtain ⟨hnoting', hlisted', hresolves'⟩ := ih (u.add registry entry)
    refine ⟨?_, fun key h => hlisted' key (hlisted key h), fun other hother hdirect hleft => ?_⟩
    · rw [List.foldl_cons]
      have hboth := hnoting.trans hnoting'
      rwa [generatedRefs, generatedRefs, ← List.flatMap_append] at hboth
    · rcases List.mem_cons.1 hother with rfl | hother
      · obtain ⟨before, hreach, hle⟩ := hresolves other List.mem_cons_self hdirect fun h => hleft (hlisted' _ h)
        exact ⟨before, hreach, fun scope name h => hnoting'.kept scope name (hle scope name h)⟩
      · exact hresolves' other hother hdirect hleft

/-- What going through members does. -/
structure SurveyedMembers (places : List (BoundClass × MemberKind)) (found found' : Survey) : Prop where
  functions : found'.functions = found.functions
  noting : Noting (places.flatMap fun place => generatedRefs (place.1.members place.2).entries) found.met found'.met
  listed : ∀ drop ∈ found.members, drop ∈ found'.members
  resolves : ∀ place ∈ places, ∃ keys, (place.1.id, place.2, keys) ∈ found'.members
    ∧ ∀ entry ∈ (place.1.members place.2).entries, entry.2.wrapperName = none → entry.1 ∉ keys →
      entry.2.ResolvesWithin registry found'.met

theorem surveyedMembers_addMembers (found : Survey) (place : BoundClass × MemberKind) :
    SurveyedMembers registry [place] found (Survey.addMembers registry found place) := by
  obtain ⟨c, kind⟩ := place
  obtain ⟨hnoting, -, hresolves⟩ := surveyed_foldl registry (c.members kind).entries { met := found.met }
  refine ⟨rfl, ?_, fun _ h => List.mem_append_left _ h, fun other hother => ?_⟩
  · rw [List.flatMap_singleton]
    exact hnoting
  · rw [List.mem_singleton.1 hother]
    exact ⟨_, List.mem_append_right _ List.mem_cons_self, hresolves⟩

theorem surveyedMembers_foldl (places : List (BoundClass × MemberKind)) (found : Survey) :
    SurveyedMembers registry places found (places.foldl (Survey.addMembers registry) found) := by
  induction places generalizing found with
  | nil => exact ⟨rfl, .refl _ _, fun _ h => h, fun _ h => by cases h⟩
  | cons place rest ih =>
    obtain ⟨-, hnoting, hlisted, hresolves⟩ := surveyedMembers_addMembers registry found place
    obtain ⟨hfunctions, hnoting', hlisted', hresolves'⟩ := ih (Survey.addMembers registry found place)
    refine ⟨hfunctions, ?_, fun drop h => hlisted' drop (hlisted drop h), fun other hother => ?_⟩
    · have hboth := hnoting.trans hnoting'
      rwa [← List.flatMap_append] at hboth
    · rcases List.mem_cons.1 hother with rfl | hother
      · obtain ⟨keys, hkeys, hentries⟩ := hresolves other List.mem_cons_self
        refine ⟨keys, hlisted' _ hkeys, fun entry hentry hdirect hleft => ?_⟩
        obtain ⟨before, hreach, hle⟩ := hentries entry hentry hdirect hleft
        exact ⟨before, hreach, fun scope name h => hnoting'.kept scope name (hle scope name h)⟩
      · exact hresolves' other hother

/-- The kinds of members that are gone through, class by class. -/
def surveyedPlaces : List (BoundClass × MemberKind) :=
  registry.exposed.flatMap fun c => generatedKinds.map (c, ·)

theorem mem_surveyedPlaces {c : BoundClass} {kind : MemberKind} :
    (c, kind) ∈ surveyedPlaces registry ↔ c ∈ registry.exposed ∧ kind ∈ generatedKinds := by
  simp [surveyedPlaces, List.mem_flatMap]

/-- The state of the survey between the free functions and the members. -/
def surveyedFree : Survey :=
  let free := registry.functions.unresolved registry {}
  { met := free.met, notices := free.notices, functions := free.keys }

theorem surveyedMembers_survey :
    SurveyedMembers registry (surveyedPlaces registry) (surveyedFree registry) (survey registry) :=
  surveyedMembers_foldl registry _ _

/-- A free function that is not listed resolves. -/
theorem resolvesWithin_of_function {entry : String × BoundFunction} (h : entry ∈ registry.functions.entries)
    (hdirect : entry.2.wrapperName = none) (hleft : entry.1 ∉ (survey registry).functions) :
    entry.2.ResolvesWithin registry (survey registry).met := by
  obtain ⟨hfunctions, hnoting, -⟩ := surveyedMembers_survey registry
  rw [hfunctions] at hleft
  obtain ⟨before, hreach, hle⟩ :=
    (surveyed_foldl registry registry.functions.entries { met := {} }).resolves entry h hdirect hleft
  exact ⟨before, hreach, fun scope name h => hnoting.kept scope name (hle scope name h)⟩

/-- A member that is not listed resolves. -/
theorem resolvesWithin_of_member {c : BoundClass} (hc : c ∈ registry.exposed) {kind : MemberKind}
    (hkind : kind ∈ generatedKinds) {entry : String × BoundFunction} (h : entry ∈ (c.members kind).entries)
    (hdirect : entry.2.wrapperName = none)
    (hleft : ∀ keys, (c.id, kind, keys) ∈ (survey registry).members → entry.1 ∉ keys) :
    entry.2.ResolvesWithin registry (survey registry).met := by
  obtain ⟨keys, hkeys, hentries⟩ := (surveyedMembers_survey registry).resolves (c, kind)
    ((mem_surveyedPlaces registry).2 ⟨hc, hkind⟩)
  exact hentries entry h hdirect (hleft keys hkeys)

/-- What is noted in the end is a class in the types of a function without a native wrapper. -/
theorem exists_of_noted {scope name : String} (h : (survey registry).met.Notes scope name) :
    ∃ f ref, f.wrapperName = none ∧ ref ∈ f.refs ∧ ref.scope = scope ∧ ref.name = name
      ∧ (f ∈ registry.functions.values
        ∨ ∃ c ∈ registry.exposed, ∃ kind ∈ generatedKinds, f ∈ (c.members kind).values) := by
  rcases (surveyedMembers_survey registry).noting.named scope name h with hfree | ⟨ref, href, hsame⟩
  · rcases (surveyed_foldl registry registry.functions.entries { met := {} }).noting.named scope name hfree with
      ⟨names, hnone, -⟩ | ⟨ref, href, hsame⟩
    · cases hnone
    · obtain ⟨entry, hentry, hdirect, href⟩ := mem_generatedRefs href
      exact ⟨entry.2, ref, hdirect, href, hsame.1, hsame.2, .inl (NameMap.mem_values.2 ⟨entry.1, hentry⟩)⟩
  · obtain ⟨⟨c, kind⟩, hplace, href⟩ := List.mem_flatMap.1 href
    obtain ⟨hc, hkind⟩ := (mem_surveyedPlaces registry).1 hplace
    obtain ⟨entry, hentry, hdirect, href⟩ := mem_generatedRefs href
    exact ⟨entry.2, ref, hdirect, href, hsame.1, hsame.2,
      .inr ⟨c, hc, kind, hkind, NameMap.mem_values.2 ⟨entry.1, hentry⟩⟩⟩

end Survey

end LuaGlue
