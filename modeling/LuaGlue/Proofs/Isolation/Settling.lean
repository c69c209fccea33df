import LuaGlue.Proofs.Isolation.Steps
import LuaGlue.Proofs.Selection.Forward

/-!
What two runs side by side settle to.

The survey decides about each function by the frame alone, so the two runs drop the same functions off the
hidden places (`Beside.bound?_settled`). What the survey notes on its way depends on all functions it goes
through. If the hidden places are vacant in one run and hold only functions that leave no trace in the other
one, both note the same. Then the registries are the same in the end, if the hidden places are vacant there
(`Beside.settled_eq`).
-/

namespace LuaGlue

open Selection

namespace Registry

variable {r r' : Registry}

/-! ### Walks -/

mutual

theorem reach_of_refs_nil (r : Registry) (standing : Standing) (met : Reached) :
    ∀ t : CxxType, t.refs = [] → t.reach r standing met = (met, none)
  | .record _ _, h => by simp [CxxType.refs] at h
  | .function params result _ _, h => by
    rw [CxxType.refs, List.append_eq_nil_iff] at h
    rw [CxxType.reach, reachAll_of_refs_nil r _ met params h.1]
    exact reach_of_refs_nil r _ met result h.2
  | .array _ element _, h => by
    rw [CxxType.reach]
    exact reach_of_refs_nil r _ met element h
  | .void _, _ | .numeric _ _, _ | .bool _, _ | .text _ _, _ | .enum _ _, _ => by rw [CxxType.reach]

theorem reachAll_of_refs_nil (r : Registry) (standing : Standing) (met : Reached) :
    ∀ ts : List CxxType, CxxType.refsOf ts = [] → reachAll r standing ts met = (met, none)
  | [], _ => by rw [reachAll]
  | t :: rest, h => by
    rw [CxxType.refsOf, List.append_eq_nil_iff] at h
    rw [reachAll, reach_of_refs_nil r standing met t h.1]
    exact reachAll_of_refs_nil r standing met rest h.2

end

mutual

/-- A type that leaves no trace: outside arrays a walk through it keeps nothing. -/
theorem reach_of_isTraceless (r : Registry) (onlyRead : Bool) (met : Reached) :
    ∀ t : CxxType, t.isTraceless = true → (t.reach r ⟨onlyRead, false⟩ met).1 = met
  | .record ref _, h => by
    have hplain : ref.forward.isSome = false := by simpa [CxxType.isTraceless] using h
    rw [CxxType.reach, ClassRef.reach]
    split
    · rfl
    · rw [hplain, Bool.and_false]
      rfl
  | .function params result _ _, h => by
    rw [CxxType.isTraceless, Bool.and_eq_true] at h
    have hparams := reachAll_of_areTraceless r false met params h.1
    rw [CxxType.reach]
    split
    · next met' heq =>
      rw [heq] at hparams
      obtain rfl : met' = met := hparams
      exact reach_of_isTraceless r false met' result h.2
    · exact hparams
  | .array _ element _, h => by
    have hrefs : element.refs = [] := by simpa [CxxType.isTraceless] using h
    rw [CxxType.reach, reach_of_refs_nil r _ met element hrefs]
  | .void _, _ | .numeric _ _, _ | .bool _, _ | .text _ _, _ | .enum _ _, _ => by rw [CxxType.reach]

theorem reachAll_of_areTraceless (r : Registry) (onlyRead : Bool) (met : Reached) :
    ∀ ts : List CxxType, CxxType.areTraceless ts = true → (reachAll r ⟨onlyRead, false⟩ ts met).1 = met
  | [], _ => by rw [reachAll]
  | t :: rest, h => by
    rw [CxxType.areTraceless, Bool.and_eq_true] at h
    have hfirst := reach_of_isTraceless r onlyRead met t h.1
    rw [reachAll]
    split
    · next met' heq =>
      rw [heq] at hfirst
      obtain rfl : met' = met := hfirst
      exact reachAll_of_areTraceless r onlyRead met' rest h.2
    · exact hfirst

end

theorem areTraceless_iff {ts : List CxxType} :
    CxxType.areTraceless ts = true ↔ ∀ t ∈ ts, t.isTraceless = true := by
  induction ts with
  | nil => simp [CxxType.areTraceless]
  | cons t rest ih => simp [CxxType.areTraceless, ih]

mutual

/-- A walk depends on the frame alone. -/
theorem reach_congr (h : r.frame = r'.frame) (standing : Standing) (met : Reached) :
    ∀ t : CxxType, t.reach r standing met = t.reach r' standing met
  | .record ref _ => by
    rw [CxxType.reach, CxxType.reach, ClassRef.reach, ClassRef.reach]
    rcases find?_of_frame_eq h ref.scope ref.name with ⟨hr, hr'⟩ | ⟨c, c', hr, hr', hframe⟩
    · rw [hr, hr']
    · rw [hr, hr']
      simp only [BoundClass.source_of_frame_eq hframe]
  | .function params result _ _ => by
    rw [CxxType.reach, CxxType.reach, reachAll_congr h _ met params]
    split
    · next met' _ => exact reach_congr h _ met' result
    · rfl
  | .array _ element _ => by
    rw [CxxType.reach, CxxType.reach]
    exact reach_congr h _ met element
  | .void _ | .numeric _ _ | .bool _ | .text _ _ | .enum _ _ => by rw [CxxType.reach, CxxType.reach]

theorem reachAll_congr (h : r.frame = r'.frame) (standing : Standing) (met : Reached) :
    ∀ ts : List CxxType, reachAll r standing ts met = reachAll r' standing ts met
  | [] => by rw [reachAll, reachAll]
  | t :: rest => by
    rw [reachAll, reachAll, reach_congr h standing met t]
    split
    · next met' _ => exact reachAll_congr h standing met' rest
    · rfl

end

mutual

/-- What is missing does not depend on what was met before. -/
theorem reach_decision (r : Registry) (standing : Standing) (met met' : Reached) :
    ∀ t : CxxType, (t.reach r standing met).2 = (t.reach r standing met').2
  | .record ref _ => by
    rw [CxxType.reach, CxxType.reach, ClassRef.reach, ClassRef.reach]
    split
    · rfl
    · split <;> rfl
  | .function params result _ _ => by
    have hparams := reachAll_decision r { standing with onlyRead := false } met met' params
    rw [CxxType.reach, CxxType.reach]
    cases hleft : reachAll r { standing with onlyRead := false } params met with
    | mk first missing =>
      cases hright : reachAll r { standing with onlyRead := false } params met' with
      | mk first' missing' =>
        rw [hleft, hright] at hparams
        obtain rfl : missing = missing' := hparams
        cases missing with
        | none => exact reach_decision r _ first first' result
        | some reason => rfl
  | .array _ element _ => by
    rw [CxxType.reach, CxxType.reach]
    exact reach_decision r _ met met' element
  | .void _ | .numeric _ _ | .bool _ | .text _ _ | .enum _ _ => by rw [CxxType.reach, CxxType.reach]

theorem reachAll_decision (r : Registry) (standing : Standing) (met met' : Reached) :
    ∀ ts : List CxxType, (reachAll r standing ts met).2 = (reachAll r standing ts met').2
  | [] => by rw [reachAll, reachAll]
  | t :: rest => by
    have hfirst := reach_decision r standing met met' t
    rw [reachAll, reachAll]
    cases hleft : t.reach r standing met with
    | mk first missing =>
      cases hright : t.reach r standing met' with
      | mk first' missing' =>
        rw [hleft, hright] at hfirst
        obtain rfl : missing = missing' := hfirst
        cases missing with
        | none => exact reachAll_decision r standing first first' rest
        | some reason => rfl

end

theorem function_reach_congr (h : r.frame = r'.frame) (f : BoundFunction) (met : Reached) :
    f.reach r met = f.reach r' met := by
  rw [BoundFunction.reach, BoundFunction.reach, reachAll_congr h]
  split
  · rw [reach_congr h]
  · rfl

theorem function_reach_decision (r : Registry) (f : BoundFunction) (met met' : Reached) :
    (f.reach r met).2 = (f.reach r met').2 := by
  have hparams := reachAll_decision r ⟨true, false⟩ met met' f.paramTypes
  rw [BoundFunction.reach, BoundFunction.reach]
  cases hleft : reachAll r ⟨true, false⟩ f.paramTypes met with
  | mk first missing =>
    cases hright : reachAll r ⟨true, false⟩ f.paramTypes met' with
    | mk first' missing' =>
      rw [hleft, hright] at hparams
      obtain rfl : missing = missing' := hparams
      cases missing with
      | none => exact reach_decision r _ first first' f.result
      | some reason => rfl

theorem function_reach_of_isTraceless (r : Registry) {f : BoundFunction} (h : f.IsTraceless) (met : Reached) :
    (f.reach r met).1 = met := by
  have hparams := reachAll_of_areTraceless r true met f.paramTypes (areTraceless_iff.2 h.1)
  rw [BoundFunction.reach]
  split
  · next met' heq =>
    rw [heq] at hparams
    obtain rfl : met' = met := hparams
    exact reach_of_isTraceless r false met' f.result h.2
  · exact hparams

/-! ### What the survey drops -/

/-- Does the function name a missing class? -/
def misses (r : Registry) (f : BoundFunction) : Bool := f.wrapperName.isNone && (f.reach r {}).2.isSome

theorem misses_of_frame_eq (h : r.frame = r'.frame) (f : BoundFunction) : r.misses f = r'.misses f := by
  rw [misses, misses, function_reach_congr h]

/-- The keys of the functions that name missing classes. -/
def missingKeys (r : Registry) (functions : Functions) : List String :=
  (functions.entries.filter fun entry => r.misses entry.2).map Prod.fst

theorem mem_missingKeys {functions : Functions} {key : String} :
    key ∈ r.missingKeys functions ↔ ∃ f, functions.get? key = some f ∧ r.misses f = true := by
  simp only [missingKeys, List.mem_map, List.mem_filter, Prod.exists, exists_and_right, exists_eq_right,
    NameMap.mem_entries_iff]

/-- What the survey has met after one more function. -/
def visit (r : Registry) (met : Reached) (f : BoundFunction) : Reached :=
  if f.wrapperName.isSome then met else (f.reach r met).1

theorem add_eq (r : Registry) (u : Unresolved) (entry : String × BoundFunction) :
    (u.add r entry).met = r.visit u.met entry.2
      ∧ (u.add r entry).keys = u.keys ++ if r.misses entry.2 then [entry.1] else [] := by
  obtain ⟨key, f⟩ := entry
  rw [Unresolved.add, visit, misses]
  cases hwrapper : f.wrapperName with
  | some wrapper => simp
  | none =>
    have hdecision := function_reach_decision r f u.met {}
    simp only [Option.isSome_none, Option.isNone_none, Bool.true_and, if_false, Bool.false_eq_true]
    rw [← hdecision]
    cases hreach : f.reach r u.met with
    | mk met missing => cases missing <;> simp

theorem foldl_add_eq (r : Registry) (entries : List (String × BoundFunction)) (u : Unresolved) :
    (entries.foldl (Unresolved.add r) u).met = (entries.map Prod.snd).foldl r.visit u.met
      ∧ (entries.foldl (Unresolved.add r) u).keys
        = u.keys ++ (entries.filter fun entry => r.misses entry.2).map Prod.fst := by
  induction entries generalizing u with
  | nil => exact ⟨rfl, (List.append_nil _).symm⟩
  | cons entry rest ih =>
    obtain ⟨hmet, hkeys⟩ := add_eq r u entry
    obtain ⟨hmets, hall⟩ := ih (u.add r entry)
    rw [hmet] at hmets
    rw [hkeys] at hall
    refine ⟨hmets, hall.trans ?_⟩
    rw [List.filter_cons]
    cases r.misses entry.2 <;> simp

theorem members_foldl_addMembers (r : Registry) (places : List (BoundClass × MemberKind)) (found : Survey) :
    (places.foldl (Survey.addMembers r) found).members
      = found.members ++ places.map fun place => (place.1.id, place.2, r.missingKeys (place.1.members place.2)) := by
  induction places generalizing found with
  | nil => exact (List.append_nil _).symm
  | cons place rest ih =>
    have hkeys := (foldl_add_eq r (place.1.members place.2).entries { met := found.met }).2
    rw [List.foldl_cons, ih, List.map_cons, ← List.singleton_append, ← List.append_assoc]
    refine congrArg (· ++ _) ?_
    change found.members ++ [(place.1.id, place.2, ((place.1.members place.2).unresolved r found.met).keys)] = _
    rw [Functions.unresolved, hkeys]
    rfl

/-- Every place that the survey drops. -/
def dropped (found : Survey) : List Place :=
  found.functions.map .free ++ found.members.flatMap fun drop => drop.2.2.map (.member drop.1 drop.2.1)

/-- Does the survey go through this place? -/
def surveys (r : Registry) : Place → Bool
  | .free _ => true
  | .member id kind _ => generatedKinds.contains kind && (r.class? id).any (·.isExposed)

theorem surveys_of_frame_eq (h : r.frame = r'.frame) (p : Place) : r.surveys p = r'.surveys p := by
  cases p with
  | free key => rfl
  | member id kind name =>
    rw [surveys, surveys]
    rcases class?_of_frame_eq h id with ⟨hr, hr'⟩ | ⟨c, c', hr, hr', hframe⟩
    · rw [hr, hr']
    · rw [hr, hr', Option.any_some, Option.any_some, BoundClass.isExposed_of_frame_eq hframe]

/-- The survey drops the functions that name missing classes, where it goes. -/
theorem mem_dropped_survey (hplaced : r.Placed) (p : Place) :
    p ∈ dropped (survey r) ↔ r.surveys p = true ∧ ∃ f, r.bound? p = some f ∧ r.misses f = true := by
  have hfunctions : (survey r).functions = r.missingKeys r.functions := by
    rw [functions_survey, Functions.unresolved, (foldl_add_eq r r.functions.entries { met := {} }).2]
    rfl
  have hmembers : (survey r).members
      = (surveyedPlaces r).map fun place => (place.1.id, place.2, r.missingKeys (place.1.members place.2)) :=
    members_foldl_addMembers r (surveyedPlaces r) (surveyedFree r)
  rw [dropped, List.mem_append, hfunctions, hmembers]
  cases p with
  | free key =>
    have hnone : ¬ Place.free key ∈ ((surveyedPlaces r).map fun place =>
        (place.1.id, place.2, r.missingKeys (place.1.members place.2))).flatMap
          fun drop => drop.2.2.map (.member drop.1 drop.2.1) := by
      simp
    rw [or_iff_left hnone, List.mem_map]
    simp only [Place.free.injEq, exists_eq_right, mem_missingKeys, surveys, true_and]
    rfl
  | member id kind name =>
    have hnone : ¬ Place.member id kind name ∈ (r.missingKeys r.functions).map Place.free := by simp
    rw [or_iff_right hnone, List.mem_flatMap]
    constructor
    · rintro ⟨drop, hdrop, hname⟩
      obtain ⟨⟨c, other⟩, hplace, rfl⟩ := List.mem_map.1 hdrop
      obtain ⟨key, hkey, heq⟩ := List.mem_map.1 hname
      cases heq
      obtain ⟨hc, hkind⟩ := (mem_surveyedPlaces r).1 hplace
      obtain ⟨hmem, hexposed⟩ := List.mem_filter.1 hc
      obtain ⟨f, hf, hmisses⟩ := mem_missingKeys.1 hkey
      have hclass : r.class? c.id = some c := hplaced.getElem? hmem
      refine ⟨?_, f, ?_, hmisses⟩
      · rw [surveys, hclass]
        simpa using ⟨hkind, hexposed⟩
      · rw [bound?, hclass]
        exact hf
    · rintro ⟨hsurveys, f, hf, hmisses⟩
      rw [surveys, Bool.and_eq_true] at hsurveys
      obtain ⟨c, hclass, hget⟩ := Option.bind_eq_some_iff.1 hf
      rw [hclass] at hsurveys
      have hid : c.id = id := hplaced id c hclass
      have hexposed : c ∈ r.exposed := List.mem_filter.2 ⟨List.mem_of_getElem? hclass, hsurveys.2⟩
      have hplace : (c, kind) ∈ surveyedPlaces r :=
        (mem_surveyedPlaces r).2 ⟨hexposed, by simpa using hsurveys.1⟩
      refine ⟨_, List.mem_map.2 ⟨(c, kind), hplace, rfl⟩, ?_⟩
      rw [hid]
      exact List.mem_map.2 ⟨name, mem_missingKeys.2 ⟨f, hget, hmisses⟩, rfl⟩

theorem frame_dropMembers (r : Registry) (id : ClassId) (kind : MemberKind) (keys : List String) :
    (dropMembers id kind keys r).frame = r.frame :=
  frame_modifyClass_of_frame_eq r id fun c => c.frame_withMembers kind _

theorem bound?_dropMembers (r : Registry) (id : ClassId) (kind : MemberKind) (keys : List String) (p : Place) :
    (dropMembers id kind keys r).bound? p = if p ∈ keys.map (.member id kind) then none else r.bound? p := by
  cases p with
  | free key =>
    rw [if_neg (by simp)]
    rfl
  | member other kind' name =>
    rw [dropMembers, bound?, bound?, getElem?_modifyClass_eq]
    cases r.class? other with
    | none => simp
    | some c =>
      simp only [Option.map_some, Option.bind_some, List.mem_map, Place.member.injEq]
      by_cases hid : id = other
      · subst hid
        rw [if_pos rfl, BoundClass.members_withMembers]
        by_cases hkind : kind' = kind
        · subst hkind
          simp [NameMap.get?_eraseAll]
        · rw [if_neg hkind, if_neg]
          rintro ⟨_, _, _, heq, _⟩
          exact hkind heq.symm
      · rw [if_neg hid, if_neg]
        rintro ⟨_, _, heq, _⟩
        exact hid heq

theorem ite_mem_append (p : Place) (a b : List Place) (x : Option BoundFunction) :
    (if p ∈ a ++ b then none else x) = if p ∈ b then none else if p ∈ a then none else x := by
  by_cases ha : p ∈ a <;> by_cases hb : p ∈ b <;> simp [ha, hb]

/-- What is left is what is not dropped. -/
theorem bound?_prune (r : Registry) (found : Survey) (p : Place) :
    (prune r found).bound? p = if p ∈ dropped found then none else r.bound? p := by
  have hmembers : ∀ (drops : List (ClassId × MemberKind × List String)) (q : Registry),
      (drops.foldl (fun r drop => dropMembers drop.1 drop.2.1 drop.2.2 r) q).bound? p
        = if p ∈ drops.flatMap (fun drop => drop.2.2.map (.member drop.1 drop.2.1)) then none else q.bound? p := by
    intro drops
    induction drops with
    | nil => exact fun q => (if_neg (by simp)).symm
    | cons drop rest ih =>
      intro q
      rw [List.foldl_cons, ih, bound?_dropMembers, List.flatMap_cons, ite_mem_append]
  have hprune : prune r found = found.members.foldl (fun r drop => dropMembers drop.1 drop.2.1 drop.2.2 r)
      { r with functions := found.functions.foldl NameMap.erase r.functions } := rfl
  rw [hprune, hmembers, dropped, ite_mem_append]
  have hfunctions : ({ r with functions := found.functions.foldl NameMap.erase r.functions } : Registry).bound? p
      = if p ∈ found.functions.map .free then none else r.bound? p := by
    cases p with
    | free key =>
      change (found.functions.foldl NameMap.erase r.functions).get? key = _
      rw [NameMap.get?_eraseAll]
      simp [bound?]
    | member id kind name =>
      rw [if_neg (by simp)]
      rfl
  rw [hfunctions]

theorem frame_prune (r : Registry) (found : Survey) : (prune r found).frame = r.frame :=
  keeps_prune (P := fun q => q.frame = r.frame) (fun q id kind keys h => (frame_dropMembers q id kind keys).trans h)
    r found rfl

/-! ### What the survey meets -/

/-- The functions that the survey goes through, in order. -/
def surveyed (r : Registry) : List (Place × BoundFunction) :=
  r.functions.entries.map (fun entry => (.free entry.1, entry.2))
    ++ (surveyedPlaces r).flatMap fun place =>
      (place.1.members place.2).entries.map fun entry => (.member place.1.id place.2 entry.1, entry.2)

theorem met_survey (r : Registry) : (survey r).met = ((surveyed r).map Prod.snd).foldl r.visit {} := by
  have hmembers : ∀ (places : List (BoundClass × MemberKind)) (found : Survey),
      (places.foldl (Survey.addMembers r) found).met
        = ((places.flatMap fun place => (place.1.members place.2).entries.map fun entry =>
            (Place.member place.1.id place.2 entry.1, entry.2)).map Prod.snd).foldl r.visit found.met := by
    intro places
    induction places with
    | nil => exact fun found => rfl
    | cons place rest ih =>
      intro found
      have hfirst := (foldl_add_eq r (place.1.members place.2).entries { met := found.met }).1
      rw [List.foldl_cons, ih, List.flatMap_cons, List.map_append, List.foldl_append, List.map_map]
      refine congrArg (fun met => List.foldl r.visit met _) ?_
      change ((place.1.members place.2).unresolved r found.met).met = _
      rw [Functions.unresolved, hfirst]
      rfl
  have hfree : (surveyedFree r).met = (r.functions.entries.map Prod.snd).foldl r.visit {} :=
    (foldl_add_eq r r.functions.entries { met := {} }).1
  have hsurvey : (survey r).met = ((surveyedPlaces r).foldl (Survey.addMembers r) (surveyedFree r)).met := rfl
  rw [hsurvey, hmembers, hfree, surveyed, List.map_append, List.foldl_append, List.map_map]
  rfl

theorem entries_filter_eq {m m' : Functions} {keep : String → Bool}
    (h : ∀ key, keep key = true → m.get? key = m'.get? key) :
    (m.entries.filter fun entry => keep entry.1) = m'.entries.filter fun entry => keep entry.1 := by
  refine NameMap.eq_of_mem_iff (List.Pairwise.filter _ m.ordered) (List.Pairwise.filter _ m'.ordered) fun entry => ?_
  obtain ⟨key, f⟩ := entry
  rw [List.mem_filter, List.mem_filter, NameMap.mem_entries_iff, NameMap.mem_entries_iff]
  constructor
  · rintro ⟨hget, hkeep⟩
    exact ⟨(h key hkeep) ▸ hget, hkeep⟩
  · rintro ⟨hget, hkeep⟩
    exact ⟨(h key hkeep).symm ▸ hget, hkeep⟩

/-- Off the hidden places the survey goes through the same functions. -/
theorem surveyed_filter_eq (hframe : r.frame = r'.frame) (hplaced : r.Placed) (hplaced' : r'.Placed)
    {keep : Place → Bool} (hbound : ∀ p, keep p = true → r.bound? p = r'.bound? p) :
    ((surveyed r).filter fun found => keep found.1) = (surveyed r').filter fun found => keep found.1 := by
  have hclasses : ∀ q : Registry, (surveyedPlaces q).flatMap (fun place =>
        ((place.1.members place.2).entries.map fun entry =>
          (Place.member place.1.id place.2 entry.1, entry.2)).filter fun found => keep found.1)
      = (q.classes.map fun c => if c.isExposed then generatedKinds.flatMap fun kind =>
          ((c.members kind).entries.map fun entry => (Place.member c.id kind entry.1, entry.2)).filter
            fun found => keep found.1 else []).flatten := by
    intro q
    rw [surveyedPlaces, exposed, List.flatMap_assoc]
    generalize q.classes = classes
    induction classes with
    | nil => rfl
    | cons c rest ih =>
      rw [List.filter_cons, List.map_cons, List.flatten_cons, ← ih]
      split
      · rw [List.flatMap_cons, List.flatMap_map]
      · rfl
  rw [surveyed, surveyed, List.filter_append, List.filter_append, List.filter_flatMap, List.filter_flatMap,
    hclasses, hclasses]
  congr 1
  · rw [List.filter_map, List.filter_map]
    exact congrArg (List.map _) (entries_filter_eq fun key hkeep => hbound (.free key) hkeep)
  · congr 1
    refine List.ext_getElem? fun id => ?_
    rw [List.getElem?_map, List.getElem?_map]
    rcases class?_of_frame_eq hframe id with ⟨hr, hr'⟩ | ⟨c, c', hr, hr', hsame⟩
    · rw [class?] at hr hr'
      rw [hr, hr']
    · have hid : c.id = id := hplaced id c hr
      have hid' : c'.id = id := hplaced' id c' hr'
      have hexposed := BoundClass.isExposed_of_frame_eq hsame
      rw [class?] at hr hr'
      rw [hr, hr', Option.map_some, Option.map_some, hexposed, hid, hid']
      refine congrArg some ?_
      split
      · refine congrArg (fun g => List.flatMap g generatedKinds) (funext fun kind => ?_)
        rw [List.filter_map, List.filter_map]
        refine congrArg (List.map _) (@entries_filter_eq _ _ (fun name => keep (.member id kind name))
          fun name hkeep => ?_)
        have hplace := hbound (.member id kind name) hkeep
        rw [bound?, bound?, class?, class?, hr, hr'] at hplace
        exact hplace
      · rfl

theorem bound?_of_mem_surveyed (hplaced : r.Placed) {p : Place} {f : BoundFunction} (h : (p, f) ∈ surveyed r) :
    r.bound? p = some f := by
  rcases List.mem_append.1 h with hfree | hmember
  · obtain ⟨entry, hentry, heq⟩ := List.mem_map.1 hfree
    cases heq
    exact NameMap.get?_of_mem_entries hentry
  · obtain ⟨⟨c, kind⟩, hplace, hmember⟩ := List.mem_flatMap.1 hmember
    obtain ⟨entry, hentry, heq⟩ := List.mem_map.1 hmember
    cases heq
    obtain ⟨hmem, -⟩ := List.mem_filter.1 ((mem_surveyedPlaces r).1 hplace).1
    have hclass : r.class? c.id = some c := hplaced.getElem? hmem
    rw [bound?, hclass]
    exact NameMap.get?_of_mem_entries hentry

/-- Functions that leave no trace may be left out. -/
theorem foldl_visit_filter (r : Registry) (keep : Place → Bool) (l : List (Place × BoundFunction))
    (h : ∀ found ∈ l, keep found.1 = false → found.2.IsTraceless) (met : Reached) :
    (l.map Prod.snd).foldl r.visit met = ((l.filter fun found => keep found.1).map Prod.snd).foldl r.visit met := by
  induction l generalizing met with
  | nil => rfl
  | cons found rest ih =>
    have hrest := ih fun other hother => h other (List.mem_cons_of_mem _ hother)
    rw [List.map_cons, List.foldl_cons, List.filter_cons]
    split
    · rw [List.map_cons, List.foldl_cons]
      exact hrest _
    · next hkeep =>
      have htraceless := h found List.mem_cons_self (by simpa using hkeep)
      have hvisit : r.visit met found.2 = met := by
        rw [visit]
        split
        · rfl
        · exact function_reach_of_isTraceless r htraceless met
      rw [hvisit]
      exact hrest met

end Registry

namespace Selection

open Registry

/-! ### Settling -/

theorem registry_foldl_addForward (s : Selection) (names : List (String × String)) :
    (names.foldl addForward s).registry = names.foldl (fun r name => (r.addThinClass name.2 name.1 "").1) s.registry
      ∧ (names.foldl addForward s).states = s.states := by
  induction names generalizing s with
  | nil => exact ⟨rfl, rfl⟩
  | cons name rest ih => exact ih (s.addForward name)

/-- What a pruned registry, what was met and the states make of a run. -/
def settle (pruned : Registry) (met : Reached) (states : NameSet) : Registry :=
  let thin := met.forwardClasses.foldl (fun r name => (r.addThinClass name.2 name.1 "").1) pruned
  { thin with
    headers := thin.headers.insertAll (met.headers.toList.filter fun header => !header.isEmpty)
    states := thin.states.insertAll states.toList }

theorem settled_eq_settle (s : Selection) :
    s.settled = settle (prune s.registry (survey s.registry)) (survey s.registry).met s.states := by
  rw [settled, dropUnresolved]
  simp only [withRegistry, registry_foldl_addForward]
  rfl

theorem bound?_settled (s : Selection) (p : Place) :
    s.settled.bound? p = (prune s.registry (survey s.registry)).bound? p := by
  refine Eq.trans (by cases p <;> rfl) (keeps_dropUnresolved
    (P := fun r => r.bound? p = (prune s.registry (survey s.registry)).bound? p) s
    (fun r name scope hr => ?_) (fun r headers hr => ?_) rfl)
  · exact ((framed_addThinClass name scope "").bound r p).trans hr
  · exact Eq.trans (by cases p <;> rfl) hr

/-- What is bound in the end was bound before, and the survey did not drop it. -/
theorem bound?_settled_iff (s : Selection) (h : s.registry.Placed) {p : Place} {f : BoundFunction} :
    s.settled.bound? p = some f
      ↔ s.registry.bound? p = some f ∧ ¬ (s.registry.surveys p = true ∧ s.registry.misses f = true) := by
  rw [bound?_settled, bound?_prune]
  simp only [mem_dropped_survey h]
  cases hbound : s.registry.bound? p with
  | none => simp
  | some g =>
    simp only [Option.some.injEq, exists_eq_left']
    split
    · next hdropped =>
      refine ⟨nofun, ?_⟩
      rintro ⟨rfl, hkept⟩
      exact absurd hdropped hkept
    · next hkept =>
      rw [Option.some.injEq]
      refine (and_iff_left_of_imp ?_).symm
      rintro rfl
      exact hkept

section Beside

variable {hidden : List Place} {state : Option String} {quiet : Prop} {s s' : Selection}

theorem Beside.bound?_prune_eq (h : Beside hidden state quiet s s') (hplaced : s.registry.Placed)
    (hplaced' : s'.registry.Placed) {p : Place} (hp : s.registry.bound? p = s'.registry.bound? p) :
    (prune s.registry (survey s.registry)).bound? p = (prune s'.registry (survey s'.registry)).bound? p := by
  have hdropped : p ∈ dropped (survey s.registry) ↔ p ∈ dropped (survey s'.registry) := by
    rw [mem_dropped_survey hplaced, mem_dropped_survey hplaced', surveys_of_frame_eq h.frame, hp]
    simp only [misses_of_frame_eq h.frame]
  rw [bound?_prune, bound?_prune, hp]
  simp only [hdropped]

/-- Off the hidden places both runs settle to the same bindings. -/
theorem Beside.bound?_settled (h : Beside hidden state quiet s s') (hplaced : s.registry.Placed)
    (hplaced' : s'.registry.Placed) {p : Place} (hp : p ∉ hidden) : s.settled.bound? p = s'.settled.bound? p := by
  rw [Selection.bound?_settled, Selection.bound?_settled]
  exact h.bound?_prune_eq hplaced hplaced' (h.bound p hp)

/-- Both runs settle to the same registry if one leaves the hidden places vacant and the other one has left them
in the end. -/
theorem Beside.settled_eq (h : Beside hidden state quiet s s') (hquiet : quiet) (hplaced : s.registry.Placed)
    (hplaced' : s'.registry.Placed) (hvacant : s'.registry.Vacant hidden) (hleft : s.settled.Vacant hidden)
    (hstate : ∀ name, state = some name → s'.states.contains name = true) : s.settled = s'.settled := by
  obtain ⟨hsignatures, htraceless, hstates⟩ := h.silent hquiet hvacant
  have hpruned : prune s.registry (survey s.registry) = prune s'.registry (survey s'.registry) := by
    refine Registry.eq_of_frame_eq ?_ (fun p => ?_) ?_
    · rw [frame_prune, frame_prune, h.frame]
    · by_cases hp : p ∈ hidden
      · have hnone := hleft p hp
        rw [Selection.bound?_settled] at hnone
        have hnone' : (prune s'.registry (survey s'.registry)).bound? p = none := by
          rw [bound?_prune, hvacant p hp]
          split <;> rfl
        rw [hnone, hnone']
      · exact h.bound?_prune_eq hplaced hplaced' (h.bound p hp)
    · rw [signatures_prune, signatures_prune, hsignatures]
  have hmet : (survey s.registry).met = (survey s'.registry).met := by
    have hvisit : s.registry.visit = s'.registry.visit := by
      funext met f
      rw [visit, visit, function_reach_congr h.frame]
    have hsame := @surveyed_filter_eq _ _ h.frame hplaced hplaced' (fun p => !decide (p ∈ hidden)) fun p hp =>
      h.bound p (by simpa using hp)
    rw [met_survey, met_survey, ← hvisit,
      foldl_visit_filter s.registry (fun p => !decide (p ∈ hidden)) (surveyed s.registry),
      foldl_visit_filter s.registry (fun p => !decide (p ∈ hidden)) (surveyed s'.registry), hsame]
    · intro found hfound hhidden
      have hbound := bound?_of_mem_surveyed hplaced' (p := found.1) (f := found.2) hfound
      rw [hvacant found.1 (by simpa using hhidden)] at hbound
      cases hbound
    · intro found hfound hhidden
      exact htraceless found.1 (by simpa using hhidden) found.2 (bound?_of_mem_surveyed hplaced hfound)
  have hsets : s.states = s'.states := by
    refine NameSet.ext_contains fun name => (hstates name).trans ?_
    exact ⟨fun hname => hname.elim id (hstate name), .inl⟩
  rw [settled_eq_settle, settled_eq_settle, hpruned, hmet, hsets]

end Beside

end Selection

end LuaGlue
