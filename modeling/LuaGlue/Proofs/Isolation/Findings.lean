import LuaGlue.Proofs.Isolation.Settling
import Mathlib.Data.List.Perm.Basic

/-!
What the survey finds, whatever the order it goes in.

The survey goes through all generated functions and keeps the headers of classes inside arrays, and the
classes that are named without being declared. What it has met in the end is what it meets in each single
function (`has_survey_iff`), and a function that names no missing class is met in each of its types. So a
function that has got more overloads is met in what it was met in before, and in its new types.

    met = ⋃ over functions = ⋃ over functions ⋃ over types
-/

namespace LuaGlue

open Selection

/-- What a walk through types keeps: the header of a class in an array, or an undeclared class. -/
inductive Finding where
  | header (source : String)
  | forward (scope name : String)

namespace Reached

/-- Has this been met? -/
def Has (met : Reached) : Finding → Prop
  | .header source => met.headers.contains source = true
  | .forward scope name => met.Notes scope name

variable {met : Reached} {x : Finding}

theorem not_has_empty : ¬ ({} : Reached).Has x := by
  cases x with
  | header source => exact Bool.false_ne_true
  | forward scope name => rintro ⟨names, hnone, -⟩; cases hnone

theorem has_addHeader {source : String} : (met.addHeader source).Has x ↔ met.Has x ∨ x = .header source := by
  cases x with
  | header other =>
    have hinsert := NameSet.contains_insert met.headers source other
    change (met.headers.insert source).contains other = true ↔ met.headers.contains other = true ∨ _
    rw [hinsert, Bool.or_eq_true, beq_iff_eq, Finding.header.injEq, or_comm]
  | forward scope name => exact (or_iff_left nofun).symm

theorem has_addForward {scope name : String} :
    (met.addForward scope name).Has x ↔ met.Has x ∨ x = .forward scope name := by
  cases x with
  | header source => exact (or_iff_left nofun).symm
  | forward scope' name' => exact notes_addForward.trans (by rw [Finding.forward.injEq, or_comm]; rfl)

/-- The undeclared classes are listed in the order of scopes and names. -/
theorem pairwise_forwardClasses (met : Reached) :
    met.forwardClasses.Pairwise fun a b => a.1 < b.1 ∨ a.1 = b.1 ∧ a.2 < b.2 := by
  rw [forwardClasses, List.pairwise_flatMap]
  refine ⟨fun entry _ => ?_, met.forward.ordered.imp fun {a b} hlt x hx y hy => ?_⟩
  · rw [List.pairwise_map, NameSet.toList, NameMap.keys, List.pairwise_map]
    exact entry.2.ordered.imp fun hlt => .inr ⟨rfl, hlt⟩
  · obtain ⟨_, -, rfl⟩ := List.mem_map.1 hx
    obtain ⟨_, -, rfl⟩ := List.mem_map.1 hy
    exact .inl hlt

/-- Two walks that have noted the same classes list them alike. -/
theorem forwardClasses_eq {met' : Reached} (h : ∀ scope name, met.Notes scope name ↔ met'.Notes scope name) :
    met.forwardClasses = met'.forwardClasses := by
  have hirrefl : ∀ a : String × String, ¬ (a.1 < a.1 ∨ a.1 = a.1 ∧ a.2 < a.2) := fun a hlt =>
    hlt.elim (String.lt_irrefl _) fun hlt => String.lt_irrefl _ hlt.2
  have hnodup : ∀ met : Reached, met.forwardClasses.Nodup := by
    intro met
    refine met.pairwise_forwardClasses.imp ?_
    rintro a b hlt rfl
    exact hirrefl a hlt
  refine List.Perm.eq_of_pairwise (fun a b _ _ hab hba => ?_) met.pairwise_forwardClasses
    met'.pairwise_forwardClasses ((List.perm_ext_iff_of_nodup (hnodup _) (hnodup _)).2 fun a => ?_)
  · rcases hab with hlt | ⟨heq, hlt⟩ <;> rcases hba with hlt' | ⟨heq', hlt'⟩
    · exact absurd (String.lt_trans hlt hlt') (String.lt_irrefl _)
    · exact absurd (heq' ▸ hlt) (String.lt_irrefl _)
    · exact absurd (heq ▸ hlt') (String.lt_irrefl _)
    · exact absurd (String.lt_trans hlt hlt') (String.lt_irrefl _)
  · rw [mem_forwardClasses, mem_forwardClasses, h]

end Reached

namespace Registry

variable {r : Registry} {x : Finding}

/-! ### Walks -/

mutual

/-- What is met does not depend on what was met before. -/
theorem reach_has_iff (r : Registry) (standing : Standing) (met : Reached) : ∀ t : CxxType,
    (t.reach r standing met).1.Has x ↔ met.Has x ∨ (t.reach r standing {}).1.Has x
  | .record ref _ => by
    rw [CxxType.reach, CxxType.reach, ClassRef.reach, ClassRef.reach]
    split
    · split
      · simp [Reached.has_addHeader, Reached.not_has_empty]
      · simp [Reached.not_has_empty]
    · split
      · simp [Reached.has_addForward, Reached.not_has_empty]
      · simp [Reached.not_has_empty]
  | .function params result _ _ => by
    have hparams := reachAll_has_iff r { standing with onlyRead := false } met params
    have hdecision := reachAll_decision r { standing with onlyRead := false } met {} params
    rw [CxxType.reach, CxxType.reach]
    cases hleft : reachAll r { standing with onlyRead := false } params met with
    | mk first missing =>
      cases hright : reachAll r { standing with onlyRead := false } params {} with
      | mk first' missing' =>
        rw [hleft, hright] at hparams hdecision
        obtain rfl : missing = missing' := hdecision
        cases missing with
        | none =>
          simp only
          rw [reach_has_iff r _ first result, reach_has_iff r _ first' result, hparams, or_assoc]
        | some reason => exact hparams
  | .array _ element _ => by
    rw [CxxType.reach, CxxType.reach]
    exact reach_has_iff r _ met element
  | .void _ | .numeric _ _ | .bool _ | .text _ _ | .enum _ _ => by
    rw [CxxType.reach, CxxType.reach]
    exact (or_iff_left Reached.not_has_empty).symm

theorem reachAll_has_iff (r : Registry) (standing : Standing) (met : Reached) : ∀ ts : List CxxType,
    (reachAll r standing ts met).1.Has x ↔ met.Has x ∨ (reachAll r standing ts {}).1.Has x
  | [] => by
    rw [reachAll, reachAll]
    exact (or_iff_left Reached.not_has_empty).symm
  | t :: rest => by
    have hfirst := reach_has_iff r standing met t
    have hdecision := reach_decision r standing met {} t
    rw [reachAll, reachAll]
    cases hleft : t.reach r standing met with
    | mk first missing =>
      cases hright : t.reach r standing {} with
      | mk first' missing' =>
        rw [hleft, hright] at hfirst hdecision
        obtain rfl : missing = missing' := hdecision
        cases missing with
        | none =>
          simp only
          rw [reachAll_has_iff r standing first rest, reachAll_has_iff r standing first' rest, hfirst, or_assoc]
        | some reason => exact hfirst

end

mutual

/-- A walk keeps what its single steps keep. -/
theorem keeps_reach {P : Reached → Prop} (hheader : ∀ met source, P met → P (met.addHeader source))
    (hforward : ∀ met scope name, r.find? scope name = none → P met → P (met.addForward scope name))
    (standing : Standing) {met : Reached} : ∀ t : CxxType, P met → P (t.reach r standing met).1
  | .record ref _, h => by
    rw [CxxType.reach, ClassRef.reach]
    split
    · split
      · exact hheader met _ h
      · exact h
    · next hfind =>
      split
      · exact hforward met _ _ hfind h
      · exact h
  | .function params result _ _, h => by
    have hparams := keeps_reachAll hheader hforward { standing with onlyRead := false } params h
    rw [CxxType.reach]
    split
    · next met' heq =>
      rw [heq] at hparams
      exact keeps_reach hheader hforward _ result hparams
    · exact hparams
  | .array _ element _, h => by
    rw [CxxType.reach]
    exact keeps_reach hheader hforward _ element h
  | .void _, h | .numeric _ _, h | .bool _, h | .text _ _, h | .enum _ _, h => by
    rw [CxxType.reach]
    exact h

theorem keeps_reachAll {P : Reached → Prop} (hheader : ∀ met source, P met → P (met.addHeader source))
    (hforward : ∀ met scope name, r.find? scope name = none → P met → P (met.addForward scope name))
    (standing : Standing) {met : Reached} : ∀ ts : List CxxType, P met → P (reachAll r standing ts met).1
  | [], h => by
    rw [reachAll]
    exact h
  | t :: rest, h => by
    have hfirst := keeps_reach hheader hforward standing t h
    rw [reachAll]
    split
    · next met' heq =>
      rw [heq] at hfirst
      exact keeps_reachAll hheader hforward standing rest hfirst
    · exact hfirst

end

/-- Types in which no class is missing are met one by one. -/
theorem reachAll_eq_none_iff (r : Registry) (standing : Standing) (ts : List CxxType) (met : Reached) :
    (reachAll r standing ts met).2 = none ↔ ∀ t ∈ ts, (t.reach r standing {}).2 = none := by
  induction ts generalizing met with
  | nil => simp [reachAll]
  | cons t rest ih =>
    rw [reachAll, List.forall_mem_cons, ← reach_decision r standing met {} t]
    cases t.reach r standing met with
    | mk first missing =>
      cases missing with
      | none => simp [ih first]
      | some reason => simp

theorem exists_of_reachAll_has {standing : Standing} {ts : List CxxType}
    (h : (reachAll r standing ts {}).1.Has x) : ∃ t ∈ ts, (t.reach r standing {}).1.Has x := by
  induction ts with
  | nil =>
    rw [reachAll] at h
    exact absurd h Reached.not_has_empty
  | cons t rest ih =>
    rw [reachAll] at h
    cases hfirst : t.reach r standing {} with
    | mk first missing =>
      rw [hfirst] at h
      cases missing with
      | none =>
        rcases (reachAll_has_iff r standing first rest).1 h with hhead | hrest
        · exact ⟨t, List.mem_cons_self, by rw [hfirst]; exact hhead⟩
        · obtain ⟨other, hother, hhas⟩ := ih hrest
          exact ⟨other, List.mem_cons_of_mem _ hother, hhas⟩
      | some reason => exact ⟨t, List.mem_cons_self, by rw [hfirst]; exact h⟩

theorem reachAll_has_of_mem {standing : Standing} {ts : List CxxType} (hnone : (reachAll r standing ts {}).2 = none)
    {t : CxxType} (ht : t ∈ ts) (h : (t.reach r standing {}).1.Has x) : (reachAll r standing ts {}).1.Has x := by
  induction ts with
  | nil => cases ht
  | cons other rest ih =>
    have hall := (reachAll_eq_none_iff r standing (other :: rest) {}).1 hnone
    rw [reachAll]
    cases hfirst : other.reach r standing {} with
    | mk first missing =>
      have hmissing : missing = none := by simpa [hfirst] using hall other List.mem_cons_self
      subst hmissing
      refine (reachAll_has_iff r standing first rest).2 ?_
      rcases List.mem_cons.1 ht with rfl | hrest
      · rw [hfirst] at h
        exact .inl h
      · exact .inr (ih ((reachAll_eq_none_iff r standing rest {}).2 fun s hs => hall s (List.mem_cons_of_mem _ hs)) hrest)

end Registry

namespace CxxType

mutual

/-- The classes inside arrays in a type, if it is in an array itself or not. -/
def held (inArray : Bool) : CxxType → List ClassRef
  | .record ref _ => if inArray then [ref] else []
  | .function params result _ _ => heldAll inArray params ++ held inArray result
  | .array _ element _ => held true element
  | .void _ | .numeric _ _ | .bool _ | .text _ _ | .enum _ _ => []

/-- The classes inside arrays in these types. -/
def heldAll (inArray : Bool) : List CxxType → List ClassRef
  | [] => []
  | t :: ts => held inArray t ++ heldAll inArray ts

end

end CxxType

namespace Registry

variable {r : Registry} {x : Finding}

mutual

/-- A header that is met is that of a class inside an array. -/
theorem held_of_reach_has {source : String} (standing : Standing) {met : Reached} : ∀ t : CxxType,
    (t.reach r standing met).1.Has (.header source) → met.Has (.header source)
      ∨ ∃ ref ∈ t.held standing.inArray, ∃ c, r.find? ref.scope ref.name = some c ∧ c.source = source
  | .record ref _, h => by
    rw [CxxType.reach, ClassRef.reach] at h
    split at h
    · next c hfind =>
      split at h
      · next harray =>
        refine (Reached.has_addHeader.1 h).imp_right fun heq => ?_
        cases heq
        exact ⟨ref, by rw [CxxType.held, if_pos harray]; exact List.mem_singleton_self ref, c, hfind, rfl⟩
      · exact .inl h
    · split at h
      · exact .inl ((Reached.has_addForward.1 h).resolve_right nofun)
      · exact .inl h
  | .function params result _ _, h => by
    rw [CxxType.reach] at h
    simp only [CxxType.held, List.mem_append]
    split at h
    · next met' heq =>
      rcases held_of_reach_has _ result h with hparams | ⟨ref, href, hfound⟩
      · have hmet : (reachAll r { standing with onlyRead := false } params met).1.Has (.header source) := by
          rw [heq]
          exact hparams
        refine (held_of_reachAll_has _ params hmet).imp_right ?_
        rintro ⟨ref, href, hfound⟩
        exact ⟨ref, .inl href, hfound⟩
      · exact .inr ⟨ref, .inr href, hfound⟩
    · refine (held_of_reachAll_has _ params h).imp_right ?_
      rintro ⟨ref, href, hfound⟩
      exact ⟨ref, .inl href, hfound⟩
  | .array _ element _, h => by
    rw [CxxType.reach] at h
    exact held_of_reach_has { standing with inArray := true } element h
  | .void _, h | .numeric _ _, h | .bool _, h | .text _ _, h | .enum _ _, h => by
    rw [CxxType.reach] at h
    exact .inl h

theorem held_of_reachAll_has {source : String} (standing : Standing) {met : Reached} : ∀ ts : List CxxType,
    (reachAll r standing ts met).1.Has (.header source) → met.Has (.header source)
      ∨ ∃ ref ∈ CxxType.heldAll standing.inArray ts, ∃ c, r.find? ref.scope ref.name = some c ∧ c.source = source
  | [], h => by
    rw [reachAll] at h
    exact .inl h
  | t :: rest, h => by
    have hfirst : (t.reach r standing met).1.Has (.header source) → _ := held_of_reach_has standing t
    rw [reachAll] at h
    simp only [CxxType.heldAll, List.mem_append]
    split at h
    · next met' heq =>
      rw [heq] at hfirst
      rcases held_of_reachAll_has standing rest h with hmet | ⟨ref, href, hfound⟩
      · refine (hfirst hmet).imp_right ?_
        rintro ⟨ref, href, hfound⟩
        exact ⟨ref, .inl href, hfound⟩
      · exact .inr ⟨ref, .inr href, hfound⟩
    · refine (hfirst h).imp_right ?_
      rintro ⟨ref, href, hfound⟩
      exact ⟨ref, .inl href, hfound⟩

end

/-! ### Functions -/

/-- Does a walk through one of these types keep this, where it stands in a function? -/
def Meets (r : Registry) (types : List CxxType) (x : Finding) : Prop :=
  ∃ t ∈ types, ∃ onlyRead, (t.reach r ⟨onlyRead, false⟩ {}).1.Has x

theorem function_reach_eq_none_iff (f : BoundFunction) (met : Reached) : (f.reach r met).2 = none
    ↔ (∀ t ∈ f.paramTypes, (t.reach r ⟨true, false⟩ {}).2 = none) ∧ (f.result.reach r ⟨false, false⟩ {}).2 = none := by
  rw [← reachAll_eq_none_iff r ⟨true, false⟩ f.paramTypes met, BoundFunction.reach]
  cases reachAll r ⟨true, false⟩ f.paramTypes met with
  | mk first missing =>
    cases missing with
    | none => simp [reach_decision r ⟨false, false⟩ first {} f.result]
    | some reason => simp

theorem function_reach_has_iff (r : Registry) (f : BoundFunction) (met : Reached) :
    (f.reach r met).1.Has x ↔ met.Has x ∨ (f.reach r {}).1.Has x := by
  have hparams := reachAll_has_iff (x := x) r ⟨true, false⟩ met f.paramTypes
  have hdecision := reachAll_decision r ⟨true, false⟩ met {} f.paramTypes
  rw [BoundFunction.reach, BoundFunction.reach]
  cases hleft : reachAll r ⟨true, false⟩ f.paramTypes met with
  | mk first missing =>
    cases hright : reachAll r ⟨true, false⟩ f.paramTypes {} with
    | mk first' missing' =>
      rw [hleft, hright] at hparams hdecision
      obtain rfl : missing = missing' := hdecision
      cases missing with
      | none =>
        simp only
        rw [reach_has_iff r _ first, reach_has_iff r _ first', hparams, or_assoc]
      | some reason => exact hparams

theorem exists_of_function_has {f : BoundFunction} (h : (f.reach r {}).1.Has x) :
    (∃ t ∈ f.paramTypes, (t.reach r ⟨true, false⟩ {}).1.Has x) ∨ (f.result.reach r ⟨false, false⟩ {}).1.Has x := by
  rw [BoundFunction.reach] at h
  cases hparams : reachAll r ⟨true, false⟩ f.paramTypes {} with
  | mk first missing =>
    have hfirst : first.Has x → ∃ t ∈ f.paramTypes, (t.reach r ⟨true, false⟩ {}).1.Has x := fun hx =>
      exists_of_reachAll_has (by rw [hparams]; exact hx)
    rw [hparams] at h
    cases missing with
    | none => exact ((reach_has_iff r _ first f.result).1 h).imp_left hfirst
    | some reason => exact .inl (hfirst h)

theorem function_reach_has {f : BoundFunction} (hnone : (f.reach r {}).2 = none)
    (h : (∃ t ∈ f.paramTypes, (t.reach r ⟨true, false⟩ {}).1.Has x) ∨ (f.result.reach r ⟨false, false⟩ {}).1.Has x) :
    (f.reach r {}).1.Has x := by
  have hall := (function_reach_eq_none_iff f {}).1 hnone
  have hparams := (reachAll_eq_none_iff r ⟨true, false⟩ f.paramTypes {}).2 hall.1
  rw [BoundFunction.reach]
  cases hwalk : reachAll r ⟨true, false⟩ f.paramTypes {} with
  | mk first missing =>
    obtain rfl : missing = none := by simpa [hwalk] using hparams
    refine (reach_has_iff r _ first f.result).2 (h.imp_left ?_)
    rintro ⟨t, ht, hx⟩
    have hfirst := reachAll_has_of_mem hparams ht hx
    rwa [hwalk] at hfirst

theorem misses_eq_false_iff {f : BoundFunction} (hdirect : f.wrapperName = none) :
    r.misses f = false ↔ (f.reach r {}).2 = none := by
  rw [misses, hdirect]
  simp

end Registry

/-! ### Functions with more overloads -/

/-- A function that has got more parameters, of these types, and is the same otherwise. -/
structure BoundFunction.Extends (types : List CxxType) (f g : BoundFunction) : Prop where
  state : g.state = f.state
  wrapperName : g.wrapperName = f.wrapperName
  result : g.result = f.result
  paramTypes : ∃ more, g.paramTypes = f.paramTypes ++ more ∧ ∀ t ∈ more, t ∈ types

namespace BoundFunction.Extends

variable {types : List CxxType} {f g h : BoundFunction} {r : Registry} {x : Finding}

theorem refl (types : List CxxType) (f : BoundFunction) : Extends types f f :=
  ⟨rfl, rfl, rfl, [], (List.append_nil _).symm, nofun⟩

theorem trans (hfg : Extends types f g) (hgh : Extends types g h) : Extends types f h := by
  obtain ⟨more, hmore, htypes⟩ := hfg.paramTypes
  obtain ⟨more', hmore', htypes'⟩ := hgh.paramTypes
  refine ⟨hgh.state.trans hfg.state, hgh.wrapperName.trans hfg.wrapperName, hgh.result.trans hfg.result,
    more ++ more', ?_, fun t ht => (List.mem_append.1 ht).elim (htypes t) (htypes' t)⟩
  rw [hmore', hmore, List.append_assoc]

theorem misses (hext : Extends types f g) (hg : r.misses g = false) : r.misses f = false := by
  obtain ⟨more, hmore, -⟩ := hext.paramTypes
  cases hdirect : f.wrapperName with
  | some wrapper => rw [Registry.misses, hdirect]; rfl
  | none =>
    rw [Registry.misses_eq_false_iff (hext.wrapperName.trans hdirect), Registry.function_reach_eq_none_iff, hmore,
      hext.result] at hg
    rw [Registry.misses_eq_false_iff hdirect, Registry.function_reach_eq_none_iff]
    exact ⟨fun t ht => hg.1 t (List.mem_append_left _ ht), hg.2⟩

/-- What a function was met in stays. -/
theorem visit_has (hext : Extends types f g) (hg : r.misses g = false) (hf : (r.visit {} f).Has x) :
    (r.visit {} g).Has x := by
  obtain ⟨more, hmore, -⟩ := hext.paramTypes
  cases hdirect : f.wrapperName with
  | some wrapper =>
    rw [Registry.visit, hdirect] at hf
    exact absurd hf Reached.not_has_empty
  | none =>
    have hdirect' := hext.wrapperName.trans hdirect
    rw [Registry.visit, hdirect] at hf
    rw [Registry.visit, hdirect']
    refine Registry.function_reach_has ((Registry.misses_eq_false_iff hdirect').1 hg)
      ((Registry.exists_of_function_has hf).imp ?_ ?_)
    · rintro ⟨t, ht, hx⟩
      exact ⟨t, hmore ▸ List.mem_append_left _ ht, hx⟩
    · rw [hext.result]
      exact id

/-- What else it is met in are the new types. -/
theorem visit_has_or (hext : Extends types f g) (hg : r.misses g = false) (h : (r.visit {} g).Has x) :
    (r.visit {} f).Has x ∨ r.Meets types x := by
  obtain ⟨more, hmore, htypes⟩ := hext.paramTypes
  cases hdirect : f.wrapperName with
  | some wrapper =>
    rw [Registry.visit, hext.wrapperName.trans hdirect] at h
    exact absurd h Reached.not_has_empty
  | none =>
    have hnone := (Registry.misses_eq_false_iff hdirect).1 (hext.misses hg)
    rw [Registry.visit, hext.wrapperName.trans hdirect] at h
    rw [Registry.visit, hdirect]
    rcases Registry.exists_of_function_has h with ⟨t, ht, hx⟩ | hx
    · rw [hmore] at ht
      rcases List.mem_append.1 ht with hold | hnew
      · exact .inl (Registry.function_reach_has hnone (.inl ⟨t, hold, hx⟩))
      · exact .inr ⟨t, htypes t hnew, true, hx⟩
    · rw [hext.result] at hx
      exact .inl (Registry.function_reach_has hnone (.inr hx))

end BoundFunction.Extends

namespace Registry

variable {r : Registry} {x : Finding}

/-! ### The survey -/

theorem has_visit_iff (r : Registry) (met : Reached) (f : BoundFunction) :
    (r.visit met f).Has x ↔ met.Has x ∨ (r.visit {} f).Has x := by
  rw [visit, visit]
  split
  · exact (or_iff_left Reached.not_has_empty).symm
  · exact function_reach_has_iff r f met

theorem has_foldl_visit_iff (r : Registry) (functions : List BoundFunction) (met : Reached) :
    (functions.foldl r.visit met).Has x ↔ met.Has x ∨ ∃ f ∈ functions, (r.visit {} f).Has x := by
  induction functions generalizing met with
  | nil => simp
  | cons f rest ih =>
    rw [List.foldl_cons, ih, has_visit_iff, or_assoc]
    simp

/-- The survey goes through what is bound where it goes. -/
theorem mem_surveyed_iff (hplaced : r.Placed) {p : Place} {f : BoundFunction} :
    (p, f) ∈ surveyed r ↔ r.surveys p = true ∧ r.bound? p = some f := by
  constructor
  · intro h
    refine ⟨?_, bound?_of_mem_surveyed hplaced h⟩
    rcases List.mem_append.1 h with hfree | hmember
    · obtain ⟨entry, -, heq⟩ := List.mem_map.1 hfree
      cases heq
      rfl
    · obtain ⟨⟨c, kind⟩, hplace, hmember⟩ := List.mem_flatMap.1 hmember
      obtain ⟨entry, -, heq⟩ := List.mem_map.1 hmember
      cases heq
      obtain ⟨hc, hkind⟩ := (mem_surveyedPlaces r).1 hplace
      obtain ⟨hmem, hexposed⟩ := List.mem_filter.1 hc
      have hclass : r.class? c.id = some c := hplaced.getElem? hmem
      rw [surveys, hclass]
      simpa using ⟨hkind, hexposed⟩
  · rintro ⟨hsurveys, hbound⟩
    cases p with
    | free key =>
      exact List.mem_append_left _ (List.mem_map.2 ⟨(key, f), NameMap.mem_entries_of_get? hbound, rfl⟩)
    | member id kind name =>
      rw [surveys, Bool.and_eq_true] at hsurveys
      obtain ⟨c, hclass, hget⟩ := Option.bind_eq_some_iff.1 hbound
      rw [hclass] at hsurveys
      have hid : c.id = id := hplaced id c hclass
      have hexposed : c ∈ r.exposed := List.mem_filter.2 ⟨List.mem_of_getElem? hclass, hsurveys.2⟩
      refine List.mem_append_right _ (List.mem_flatMap.2 ⟨(c, kind), ?_, ?_⟩)
      · exact (mem_surveyedPlaces r).2 ⟨hexposed, by simpa using hsurveys.1⟩
      · exact List.mem_map.2 ⟨(name, f), NameMap.mem_entries_of_get? hget, by rw [hid]⟩

/-- What the survey has met is what it meets in each single function. -/
theorem has_survey_iff (hplaced : r.Placed) : (survey r).met.Has x
    ↔ ∃ p f, r.surveys p = true ∧ r.bound? p = some f ∧ (r.visit {} f).Has x := by
  rw [met_survey, has_foldl_visit_iff, or_iff_right Reached.not_has_empty]
  constructor
  · rintro ⟨f, hf, hx⟩
    obtain ⟨⟨p, g⟩, hmem, rfl⟩ := List.mem_map.1 hf
    obtain ⟨hsurveys, hbound⟩ := (mem_surveyed_iff hplaced).1 hmem
    exact ⟨p, g, hsurveys, hbound, hx⟩
  · rintro ⟨p, f, hsurveys, hbound, hx⟩
    exact ⟨f, List.mem_map.2 ⟨(p, f), (mem_surveyed_iff hplaced).2 ⟨hsurveys, hbound⟩, rfl⟩, hx⟩

end Registry

end LuaGlue
