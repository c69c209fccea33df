import LuaGlue.Binding.Inheritance
import Mathlib.Logic.Relation

/-!
What the walk through the bases finds.

A class is an *ancestor* of another one when a path of base edges leads to it. The walk from the bases of
a class lists ancestors only (`reachable_of_mem_walk`). It lists all of them, because what it has met is
closed: the stack is in it, and with a class its bases are (`bases_mem_met`).

    stack ──▶ met      class in met ──▶ its bases in met      so every path from the stack stays in met
-/

namespace LuaGlue

open Relation

/-! ### The walk -/

section Walk

variable {bases : ClassId → List ClassId} {count : Nat}

/-- Every id that is listed lies on a path from the stack. -/
theorem reachable_of_mem_walk {seen stack : List ClassId} {y : ClassId}
    (hy : y ∈ walk bases count seen stack) :
    ∃ x ∈ stack, ReflTransGen (fun d b => b ∈ bases d) x y := by
  induction seen, stack using walk.induct bases count with
  | case1 seen => simp [walk] at hy
  | case2 seen id rest hfresh ih =>
    rw [walk, dif_pos hfresh, List.mem_cons] at hy
    rcases hy with rfl | hy
    · exact ⟨y, List.mem_cons_self, .refl⟩
    · obtain ⟨x, hx, hpath⟩ := ih hy
      rcases List.mem_append.1 hx with hbase | hrest
      · exact ⟨id, List.mem_cons_self, .head hbase hpath⟩
      · exact ⟨x, List.mem_cons_of_mem _ hrest, hpath⟩
  | case3 seen id rest hmet ih =>
    rw [walk, dif_neg hmet] at hy
    obtain ⟨x, hx, hpath⟩ := ih hy
    exact ⟨x, List.mem_cons_of_mem _ hx, hpath⟩

/-- The ids met after a walk: those met before, and those it lists. -/
def met (bases : ClassId → List ClassId) (count : Nat) (seen stack : List ClassId) : List ClassId :=
  seen ++ walk bases count seen stack

theorem mem_met {seen stack : List ClassId} {y : ClassId} :
    y ∈ met bases count seen stack ↔ y ∈ seen ∨ y ∈ walk bases count seen stack := List.mem_append

/-- To meet an id and go on to its bases is to start with the id as met. -/
theorem mem_met_cons {seen rest : List ClassId} {id y : ClassId}
    (hfresh : id < count ∧ seen.contains id = false) :
    y ∈ met bases count seen (id :: rest) ↔ y ∈ met bases count (id :: seen) (bases id ++ rest) := by
  rw [mem_met, mem_met, walk, dif_pos hfresh, List.mem_cons, List.mem_cons]
  rw [← or_assoc, or_comm (a := y ∈ seen)]

/-- The stack is met. -/
theorem stack_mem_met {seen stack : List ClassId} (hstack : ∀ x ∈ stack, x < count)
    (hbases : ∀ i, ∀ b ∈ bases i, b < count) : ∀ x ∈ stack, x ∈ met bases count seen stack := by
  induction seen, stack using walk.induct bases count with
  | case1 seen => intro x hx; cases hx
  | case2 seen id rest hfresh ih =>
    have hpushed : ∀ x ∈ bases id ++ rest, x < count := by
      intro x hx
      rcases List.mem_append.1 hx with hbase | hrest
      · exact hbases id x hbase
      · exact hstack x (List.mem_cons_of_mem _ hrest)
    intro x hx
    rw [mem_met_cons hfresh]
    rcases List.mem_cons.1 hx with rfl | hx
    · exact mem_met.2 (.inl List.mem_cons_self)
    · exact ih hpushed x (List.mem_append_right _ hx)
  | case3 seen id rest hmet ih =>
    intro x hx
    rw [mem_met, walk, dif_neg hmet, ← mem_met]
    rcases List.mem_cons.1 hx with rfl | hx
    · have hin : x < count := hstack x List.mem_cons_self
      exact mem_met.2 (.inl (by simpa [hin] using hmet))
    · exact ih (fun z hz => hstack z (List.mem_cons_of_mem _ hz)) x hx

/-- The bases of a listed id are met. -/
theorem bases_mem_met {seen stack : List ClassId} (hstack : ∀ x ∈ stack, x < count)
    (hbases : ∀ i, ∀ b ∈ bases i, b < count) :
    ∀ z ∈ walk bases count seen stack, ∀ b ∈ bases z, b ∈ met bases count seen stack := by
  induction seen, stack using walk.induct bases count with
  | case1 seen => intro z hz; simp [walk] at hz
  | case2 seen id rest hfresh ih =>
    have hpushed : ∀ x ∈ bases id ++ rest, x < count := by
      intro x hx
      rcases List.mem_append.1 hx with hbase | hrest
      · exact hbases id x hbase
      · exact hstack x (List.mem_cons_of_mem _ hrest)
    intro z hz b hb
    rw [mem_met_cons hfresh]
    rw [walk, dif_pos hfresh, List.mem_cons] at hz
    rcases hz with rfl | hz
    · exact stack_mem_met hpushed hbases b (List.mem_append_left _ hb)
    · exact ih hpushed z hz b hb
  | case3 seen id rest hmet ih =>
    intro z hz b hb
    rw [mem_met, walk, dif_neg hmet, ← mem_met]
    rw [walk, dif_neg hmet] at hz
    exact ih (fun x hx => hstack x (List.mem_cons_of_mem _ hx)) z hz b hb

end Walk

/-! ### Ancestors -/

namespace Registry

/-- The second class is a direct base of the first. -/
def HasBase (r : Registry) (derived base : ClassId) : Prop := base ∈ r.bases derived

/-- A path of base edges leads from the first class to the second. -/
def LeadsTo (r : Registry) : ClassId → ClassId → Prop := ReflTransGen r.HasBase

/-- No class is its own ancestor. -/
def Acyclic (r : Registry) : Prop := ∀ id, ¬ TransGen r.HasBase id id

/-- Every direct base is a class of the registry. -/
def BasesInRange (r : Registry) : Prop := ∀ id, ∀ base ∈ r.bases id, base < r.classes.length

theorem mem_flattenedBases_iff {r : Registry} (h : r.BasesInRange) {id other : ClassId} (hne : other ≠ id) :
    other ∈ r.flattenedBases id ↔ r.LeadsTo id other := by
  rw [flattenedBases]
  constructor
  · intro hmem
    obtain ⟨base, hbase, hpath⟩ := reachable_of_mem_walk hmem
    exact .head hbase hpath
  · intro hpath
    have hmet : other ∈ met r.bases r.classes.length [id] (r.bases id) := by
      induction hpath with
      | refl => exact absurd rfl hne
      | @tail next last _ hedge ih =>
        by_cases hid : next = id
        · exact stack_mem_met (h id) h last (hid ▸ hedge)
        · rcases mem_met.1 (ih hid) with hseen | hlisted
          · exact absurd (List.mem_singleton.1 hseen) hid
          · exact bases_mem_met (h id) h next hlisted last hedge
    rcases mem_met.1 hmet with hseen | hlisted
    · exact absurd (List.mem_singleton.1 hseen) hne
    · exact hlisted

/-- A class leads to itself and to the classes it derives from. -/
theorem leadsTo_iff {r : Registry} (h : r.BasesInRange) {id other : ClassId} :
    (id == other || r.derivesFrom id other) = true ↔ r.LeadsTo id other := by
  by_cases heq : id = other
  · subst heq
    have hself : r.LeadsTo id id := .refl
    simp [hself]
  · rw [← mem_flattenedBases_iff h (Ne.symm heq), derivesFrom]
    simp [heq]

/-- The convertible set of a class has the tags of the classes that lead to it. -/
theorem mem_convertibleTo_iff {r : Registry} (h : r.BasesInRange) {id : ClassId} {tag : String} :
    tag ∈ (r.convertibleTo id).toList ↔ ∃ c ∈ r.classes, c.tag = tag ∧ r.LeadsTo c.id id := by
  rw [convertibleTo, NameSet.mem_toList_ofNames, List.mem_map]
  simp only [List.mem_filter, leadsTo_iff h, and_assoc]
  exact exists_congr fun c => and_congr_right fun _ => and_comm

/-- An edge closes a cycle when a path leads back from the base. -/
theorem closesCycle_iff {r : Registry} (h : r.BasesInRange) {derived base : ClassId} :
    r.closesCycle derived base = true ↔ r.LeadsTo base derived := by
  rw [closesCycle]
  by_cases heq : derived = base
  · subst heq
    have hself : r.LeadsTo derived derived := .refl
    simp [hself]
  · rw [← mem_flattenedBases_iff h heq]
    simp [heq]

end Registry

end LuaGlue
