import LuaGlue.Proofs.Inheritance.DepthFirst
import LuaGlue.Proofs.Selection.Pruned
import LuaGlue.Proofs.Selection.Regular

/-!
The bases of every registry that can be reached.

A registry is reached from an empty one by registrations, by edges between registered classes, and by whole runs over
declarations, also those that stop early. A registration that links a class names the base, and a class of that name
is registered then; so every base is in range and no class is its own ancestor (`Reachable.rooted`). What is listed
as the bases of a class is therefore the unrestricted walk with each class where it comes first.
-/

namespace LuaGlue

open Relation Selection

namespace Registry

section Rooted

variable {r r' : Registry}

theorem Rooted.addThinClass (h : r.Rooted) (name scope source : String) :
    (r.addThinClass name scope source).1.Rooted := by
  rw [Registry.addThinClass]
  split
  · exact h.appendClass name scope source none
  · exact h

theorem Rooted.change (hchange : Change r r') (h : r.Rooted) : r'.Rooted := by
  cases hchange with
  | mapTemplate => exact h.of_classes_eq rfl
  | wrap =>
    refine h.of_classes_eq ?_
    rw [addSignature]
    split <;> rfl
  | expose hadd =>
    obtain ⟨-, rfl, -⟩ | ⟨c, -, -, rfl, -⟩ := addClass_cases hadd
    · exact h.appendClass ..
    · exact h.modifyClass _ (fun _ => rfl) fun _ => rfl
  | addThin name scope source => exact h.addThinClass name scope source
  | describe id c luaScope => exact h.modifyClass id (fun _ => rfl) fun _ => rfl
  | @derive _ derived base scope name hbase hadd =>
    obtain ⟨c, hfind, rfl⟩ := Option.map_eq_some_iff.1 hbase
    rcases Nat.lt_or_ge derived r.classes.length with hlt | hge
    · exact h.addBase hlt (h.placed.id_lt (mem_of_find? hfind)) hadd
    · obtain ⟨-, rfl⟩ := addBase_ok hadd
      have hsame : (r.classes.modify derived (Registry.derive c.id)) = r.classes := List.modify_eq_self hge
      exact h.of_classes_eq hsame
  | nest scope id =>
    obtain hsame | ⟨outer, hnested⟩ := nestClass_cases r scope id
    · rwa [hsame]
    · rw [hnested]
      exact h.modifyClass _ (sameFace_enclose id).id (sameFace_enclose id).bases
  | makeDefault id => exact h.modifyClass id (fun _ => rfl) fun _ => rfl
  | extendMember => exact h.modifyClass _ (sameFace_withMembers _ _).id (sameFace_withMembers _ _).bases
  | extendFunction => exact h.of_classes_eq rfl
  | bindWrapper => exact h.of_classes_eq rfl
  | enter hadd =>
    obtain ⟨-, rfl⟩ := addEnum_ok hadd
    exact h.of_classes_eq rfl
  | redirect => exact h.modifyClass _ (sameFace_withMembers _ _).id (sameFace_withMembers _ _).bases
  | implement => exact h.modifyClass _ (sameFace_withMembers _ _).id (sameFace_withMembers _ _).bases
  | includeHeader => exact h.of_classes_eq rfl

end Rooted

theorem Rooted.select {r : Registry} (h : r.Rooted) (sources : List DeclarationSource) :
    (Registry.select r sources).registry.Rooted := by
  refine keeps_select (fun hr heq => hr.of_classes_eq heq) Rooted.change (fun r id kind keys hr => ?_) h sources
  exact hr.modifyClass id (sameFace_withMembers kind _).id (sameFace_withMembers kind _).bases

/-- The registries that can be reached: by registrations one by one, by edges between registered classes, and by runs
over declarations, whether they succeed or stop early. -/
inductive Reachable : Registry → Prop where
  | empty (patches : Patches) : Reachable { patches }
  | register {r r' : Registry} (h : Reachable r) (hchange : Change r r') : Reachable r'
  | addBase {r r' : Registry} {derived base : ClassId} (h : Reachable r) (hderived : derived < r.classes.length)
    (hbase : base < r.classes.length) (hadd : r.addBase derived base = .ok r') : Reachable r'
  | select {r : Registry} (h : Reachable r) (sources : List DeclarationSource) :
    Reachable (Registry.select r sources).registry

/-- The registries that can be formed when classes are also edited by hand: an edit may set members, a state or a
header, but names and bases are for registrations only. -/
inductive Formed : Registry → Prop where
  | empty (patches : Patches) : Formed { patches }
  | register {r r' : Registry} (h : Formed r) (hchange : Change r r') : Formed r'
  | addBase {r r' : Registry} {derived base : ClassId} (h : Formed r) (hderived : derived < r.classes.length)
    (hbase : base < r.classes.length) (hadd : r.addBase derived base = .ok r') : Formed r'
  | select {r : Registry} (h : Formed r) (sources : List DeclarationSource) :
    Formed (Registry.select r sources).registry
  | edit {r : Registry} (h : Formed r) (id : ClassId) {f : BoundClass → BoundClass} (hface : SameFace f) :
    Formed (r.modifyClass id f)

theorem Reachable.formed {r : Registry} (h : r.Reachable) : r.Formed := by
  induction h with
  | empty patches => exact .empty patches
  | register _ hchange ih => exact ih.register hchange
  | addBase _ hderived hbase hadd ih => exact ih.addBase hderived hbase hadd
  | select _ sources ih => exact ih.select sources

theorem Formed.rooted {r : Registry} (h : r.Formed) : r.Rooted := by
  induction h with
  | empty patches => exact .empty patches
  | register _ hchange ih => exact ih.change hchange
  | addBase _ hderived hbase hadd ih => exact ih.addBase hderived hbase hadd
  | select _ sources ih => exact ih.select sources
  | edit _ id hface ih => exact ih.modifyClass id hface.id hface.bases

theorem Reachable.rooted {r : Registry} (h : r.Reachable) : r.Rooted := h.formed.rooted

/-- What a run over declarations leaves can be reached, whatever headers it starts with. -/
theorem reachable_selected (patches : Patches) (headers : NameSet) (sources : List DeclarationSource) :
    (({ patches, headers } : Registry).select sources).registry.Reachable := by
  have hall : (∅ : NameSet).insertAll headers.toList = headers := NameSet.ext_contains fun name => by
    rw [NameSet.contains_insertAll, NameSet.mem_toList]
    simp [NameMap.contains]
  have hstart : Reachable { patches, headers := (∅ : NameSet).insertAll headers.toList } :=
    (changes_includeAll { patches } headers.toList).keeps (fun hchange hr => hr.register hchange) (.empty patches)
  rw [hall] at hstart
  exact hstart.select sources

/-- CORRECT: in every registry that can be reached, the unrestricted walk through the bases of a class comes to an end
and has one result, where each direct base in its order is followed by its own whole walk. The bases that are listed
for the class are this walk with each class where it comes first: its proper ancestors, each once. -/
theorem flattenedBases_depth_first {r : Registry} (h : r.Reachable) (id : ClassId) :
    ∃ w, (∀ w', Preorder r.bases (r.bases id) w' ↔ w' = w)
      ∧ r.flattenedBases id = w.eraseDups
      ∧ (r.flattenedBases id).Nodup
      ∧ ∀ other, other ∈ r.flattenedBases id ↔ TransGen r.HasBase id other := by
  have hacyclic : r.Acyclic := h.rooted.acyclic
  have hrange : r.BasesInRange := h.rooted.basesInRange
  obtain ⟨w, hw⟩ := exists_preorder hacyclic hrange (r.bases id)
  have hlisted := flattenedBases_eq hacyclic hrange hw
  refine ⟨w, fun w' => ⟨fun hw' => hw'.unique hw, fun heq => heq ▸ hw⟩, hlisted, (nodup_walk ..).1, fun other => ?_⟩
  rw [hlisted, List.mem_eraseDups, hw.mem_bases_iff]
  rfl

/-- `Leaf` derives from `Left` and `Right`, and both of them from `Root`. -/
def diamond : Registry :=
  let thin (id : ClassId) (name : String) (bases : List ClassId) : BoundClass :=
    { id, name, scope := "", source := "", bases }
  { classes := [thin 0 "Leaf" [1, 2], thin 1 "Left" [3], thin 2 "Right" [3], thin 3 "Root" []] }

theorem reachable_diamond : diamond.Reachable := by
  have hbases := ((Reachable.empty {}).register (.addThin _ "Leaf" "" "")).register (.addThin _ "Left" "" "")
  have hclasses := (hbases.register (.addThin _ "Right" "" "")).register (.addThin _ "Root" "" "")
  have hlink : ∀ {r : Registry} (derived base : ClassId), r.Reachable → derived < base → base < r.classes.length →
      r.bases base = [] → (r.modifyClass derived (derive base)).Reachable := by
    intro r derived base h hlt hbase hnone
    refine h.addBase (Nat.lt_trans hlt hbase) hbase ?_
    simp [addBase, closesCycle, flattenedBases, hnone, walk, Nat.ne_of_lt hlt]
  have hleft := hlink 0 1 hclasses (by decide) (by decide) rfl
  have hright := hlink 0 2 hleft (by decide) (by decide) rfl
  exact hlink 2 3 (hlink 1 3 hright (by decide) (by decide) rfl) (by decide) (by decide) rfl

/-- `Root` is listed before `Right`, where it is met first. -/
theorem diamond_bases : diamond.Reachable ∧ diamond.flattenedBases 0 = [1, 3, 2] := by
  obtain ⟨w, hw, hlisted, -⟩ := flattenedBases_depth_first reachable_diamond 0
  have hroot : Preorder diamond.bases (diamond.bases 3) [] := .nil
  have hleft : Preorder diamond.bases (diamond.bases 1) [3] := hroot.cons .nil
  have hright : Preorder diamond.bases (diamond.bases 2) [3] := hroot.cons .nil
  have hwalk : Preorder diamond.bases (diamond.bases 0) [1, 3, 2, 3] := hleft.cons (hright.cons .nil)
  obtain rfl := (hw _).1 hwalk
  exact ⟨reachable_diamond, hlisted⟩

end Registry

end LuaGlue
