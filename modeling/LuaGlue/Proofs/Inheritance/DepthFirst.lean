import LuaGlue.Proofs.Inheritance.Cycles
import Mathlib.Data.Fintype.Card
import Mathlib.Data.Fintype.EquivFin

/-!
The order in which bases are listed.

The unrestricted walk goes into a class each time it meets it; `walk` goes into it the first time only:

    class Leaf : Left, Right      Left : Root      Right : Root : Top

    unrestricted   Left Root Top Right Root Top
    walk           Left Root Top Right

What `walk` leaves out has been listed already, because no class is its own ancestor: when a class is met again,
its first visit is over, and everything below it was listed then (`walk_append`).
-/

namespace LuaGlue

open Relation

/-! ### The unrestricted walk -/

/-- The classes met in a walk from the first ids on, where each class is followed by the whole walk through its
bases however often it is met. -/
inductive Preorder (bases : ClassId → List ClassId) : List ClassId → List ClassId → Prop where
  | nil : Preorder bases [] []
  | cons {id : ClassId} {rest below behind : List ClassId} (hbelow : Preorder bases (bases id) below)
    (hbehind : Preorder bases rest behind) : Preorder bases (id :: rest) (id :: (below ++ behind))

section Preorder

variable {bases : ClassId → List ClassId}

theorem Preorder.unique {ids w w' : List ClassId} (h : Preorder bases ids w) (h' : Preorder bases ids w') :
    w = w' := by
  induction h generalizing w' with
  | nil =>
    cases h'
    rfl
  | cons _ _ ihbelow ihbehind =>
    cases h' with
    | cons hbelow hbehind => rw [ihbelow hbelow, ihbehind hbehind]

/-- What is met lies on a path from the first ids. -/
theorem Preorder.mem_iff {ids w : List ClassId} (h : Preorder bases ids w) {x : ClassId} :
    x ∈ w ↔ ∃ id ∈ ids, ReflTransGen (fun d b => b ∈ bases d) id x := by
  induction h with
  | nil => simp
  | @cons id rest below behind _ _ ihbelow ihbehind =>
    rw [List.mem_cons, List.mem_append, ihbelow, ihbehind, List.exists_mem_cons_iff]
    constructor
    · rintro (rfl | ⟨base, hbase, hpath⟩ | hrest)
      · exact .inl .refl
      · exact .inl (.head hbase hpath)
      · exact .inr hrest
    · rintro (hpath | hrest)
      · rcases ReflTransGen.cases_head hpath with rfl | ⟨base, hbase, hpath⟩
        · exact .inl rfl
        · exact .inr (.inl ⟨base, hbase, hpath⟩)
      · exact .inr (.inr hrest)

/-- A walk through the bases of a class finds what derives from nothing else than it. -/
theorem Preorder.mem_bases_iff {id : ClassId} {w : List ClassId} (h : Preorder bases (bases id) w) {x : ClassId} :
    x ∈ w ↔ TransGen (fun d b => b ∈ bases d) id x := by
  rw [h.mem_iff, TransGen.head'_iff]

/-- Two walks one after the other. -/
theorem Preorder.exists_of_forall {ids : List ClassId} (h : ∀ id ∈ ids, ∃ w, Preorder bases (bases id) w) :
    ∃ w, Preorder bases ids w := by
  induction ids with
  | nil => exact ⟨[], .nil⟩
  | cons id rest ih =>
    obtain ⟨below, hbelow⟩ := h id List.mem_cons_self
    obtain ⟨behind, hbehind⟩ := ih fun other hother => h other (List.mem_cons_of_mem _ hother)
    exact ⟨_, .cons hbelow hbehind⟩

/-- Where no class is its own ancestor, the unrestricted walk comes to an end. -/
theorem exists_preorder {count : Nat} (hacyclic : ∀ id, ¬ TransGen (fun d b => b ∈ bases d) id id)
    (hbases : ∀ id, ∀ b ∈ bases id, b < count) (ids : List ClassId) : ∃ w, Preorder bases ids w := by
  let derives (b d : Fin count) : Prop := TransGen (fun d b => b ∈ bases d) d.1 b.1
  have htrans : IsTrans (Fin count) derives := ⟨fun _ _ _ hb hc => hc.trans hb⟩
  have hirrefl : Std.Irrefl derives := ⟨fun id => hacyclic id.1⟩
  have hregistered : ∀ id : Fin count, ∃ w, Preorder bases (bases id.1) w := by
    intro id
    induction id using (Finite.wellFounded_of_trans_of_irrefl derives).induction with
    | _ id ih => exact Preorder.exists_of_forall fun b hb => ih ⟨b, hbases id.1 b hb⟩ (.single hb)
  exact Preorder.exists_of_forall fun id _ =>
    Preorder.exists_of_forall fun b hb => hregistered ⟨b, hbases id b hb⟩

end Preorder

/-! ### Lists without what was met before -/

section Firsts

variable {α : Type} [BEq α] [LawfulBEq α]

theorem removeAll_eq_nil {l seen : List α} (h : ∀ x ∈ l, x ∈ seen) : l.removeAll seen = [] := by
  simpa [List.removeAll, List.filter_eq_nil_iff] using h

/-- What comes first in two lists: of the second only what was not met in the first. -/
theorem eraseDups_removeAll_append (a b seen : List α) : ((a ++ b).removeAll seen).eraseDups
    = (a.removeAll seen).eraseDups ++ (b.removeAll (a ++ seen)).eraseDups := by
  rw [List.removeAll, List.filter_append, List.eraseDups_append]
  congr 2
  simp only [List.removeAll, List.filter_filter]
  refine List.filter_congr fun x _ => ?_
  by_cases hx : x ∈ seen <;> simp [hx]

end Firsts

/-! ### The walk that lists each class once -/

section Walk

variable {bases : ClassId → List ClassId} {count : Nat}

/-- No class is listed twice, and none that was met before. -/
theorem nodup_walk (seen stack : List ClassId) : (walk bases count seen stack).Nodup
    ∧ ∀ x ∈ walk bases count seen stack, x ∉ seen := by
  induction seen, stack using walk.induct bases count with
  | case1 seen => simp [walk]
  | case2 seen id rest hfresh ih =>
    rw [walk, dif_pos hfresh]
    obtain ⟨hnodup, hnew⟩ := ih
    refine ⟨List.nodup_cons.2 ⟨fun hid => hnew id hid List.mem_cons_self, hnodup⟩, fun x hx => ?_⟩
    rcases List.mem_cons.1 hx with rfl | hx
    · simpa using hfresh.2
    · exact fun hseen => hnew x hx (List.mem_cons_of_mem _ hseen)
  | case3 seen id rest hmet ih =>
    rw [walk, dif_neg hmet]
    exact ih

/-- Of the ids met before, only which they are counts. -/
theorem walk_congr {u v : List ClassId} (h : ∀ x, x ∈ u ↔ x ∈ v) (stack : List ClassId) :
    walk bases count u stack = walk bases count v stack := by
  induction u, stack using walk.induct bases count generalizing v with
  | case1 u => simp [walk]
  | case2 u id rest hfresh ih =>
    have hfresh' : id < count ∧ v.contains id = false := by simpa [h id] using hfresh
    rw [walk, dif_pos hfresh, walk, dif_pos hfresh', ih]
    intro x
    rw [List.mem_cons, List.mem_cons, h]
  | case3 u id rest hmet ih =>
    have hmet' : ¬ (id < count ∧ v.contains id = false) := by simpa [h id] using hmet
    rw [walk, dif_neg hmet, walk, dif_neg hmet', ih h]

/-- Is the visit of every class met before over, as far as it comes up again: has everything below it been met? -/
def VisitsOver (bases : ClassId → List ClassId) (seen upcoming : List ClassId) : Prop :=
  ∀ x ∈ seen, x ∈ upcoming → ∀ y, ReflTransGen (fun d b => b ∈ bases d) x y → y ∈ seen

/-- The walk lists what the unrestricted walk meets, each class where it comes first, and goes on behind it. -/
theorem walk_append (hacyclic : ∀ id, ¬ TransGen (fun d b => b ∈ bases d) id id)
    (hbases : ∀ id, ∀ b ∈ bases id, b < count) {ids w : List ClassId} (h : Preorder bases ids w)
    (hids : ∀ id ∈ ids, id < count) {seen : List ClassId} (hover : VisitsOver bases seen w) (stack : List ClassId) :
    walk bases count seen (ids ++ stack)
      = (w.removeAll seen).eraseDups ++ walk bases count (w ++ seen) stack := by
  induction h generalizing seen stack with
  | nil => simp [List.removeAll]
  | @cons id rest below behind hbelow hbehind ihbelow ihbehind =>
    have hbelow_iff : ∀ {x}, x ∈ below ↔ TransGen (fun d b => b ∈ bases d) id x := hbelow.mem_bases_iff
    have hlt : id < count := hids id List.mem_cons_self
    have hrest : ∀ x ∈ rest, x < count := fun x hx => hids x (List.mem_cons_of_mem _ hx)
    by_cases hseen : id ∈ seen
    · -- a class that is met again: its first visit is over, so the walk below it was listed then
      have hmet : ¬ (id < count ∧ seen.contains id = false) := by simp [hseen]
      have hdone : ∀ x ∈ below, x ∈ seen := fun x hx =>
        hover id hseen List.mem_cons_self x (hbelow_iff.1 hx).to_reflTransGen
      have hbehindOver : VisitsOver bases seen behind := fun x hx hup =>
        hover x hx (List.mem_cons_of_mem _ (List.mem_append_right _ hup))
      rw [List.cons_append, walk, dif_neg hmet, ihbehind hrest hbehindOver]
      have hlisted : (id :: (below ++ behind)).removeAll seen = behind.removeAll seen := by
        rw [← List.cons_append, List.removeAll, List.filter_append, ← List.removeAll, ← List.removeAll,
          removeAll_eq_nil, List.nil_append]
        simpa [hseen] using hdone
      rw [hlisted, walk_congr (u := behind ++ seen)]
      intro x
      simp only [List.mem_append, List.cons_append, List.mem_cons]
      constructor
      · rintro (hx | hx)
        · exact .inr (.inl (.inr hx))
        · exact .inr (.inr hx)
      · rintro (rfl | (hx | hx) | hx)
        · exact .inr hseen
        · exact .inr (hdone x hx)
        · exact .inl hx
        · exact .inr hx
    · -- a class that is met for the first time, and does not come up again below itself
      have hfresh : id < count ∧ seen.contains id = false := by simp [hlt, hseen]
      have hself : id ∉ below := fun hx => hacyclic id (hbelow_iff.1 hx)
      have hbelowOver : VisitsOver bases (id :: seen) below := by
        intro x hx hup y hpath
        rcases List.mem_cons.1 hx with rfl | hx
        · exact absurd hup hself
        · exact List.mem_cons_of_mem _ (hover x hx (List.mem_cons_of_mem _ (List.mem_append_left _ hup)) y hpath)
      have hbehindOver : VisitsOver bases (below ++ id :: seen) behind := by
        intro x hx hup y hpath
        have hbelowId : ∀ {z}, ReflTransGen (fun d b => b ∈ bases d) id z → z ∈ below ++ id :: seen := by
          intro z hz
          rcases reflTransGen_iff_eq_or_transGen.1 hz with rfl | hz
          · simp
          · exact List.mem_append_left _ (hbelow_iff.2 hz)
        rcases List.mem_append.1 hx with hx | hx
        · exact hbelowId ((hbelow_iff.1 hx).to_reflTransGen.trans hpath)
        · rcases List.mem_cons.1 hx with rfl | hx
          · exact hbelowId hpath
          · have hy := hover x hx (List.mem_cons_of_mem _ (List.mem_append_right _ hup)) y hpath
            exact List.mem_append_right _ (List.mem_cons_of_mem _ hy)
      rw [List.cons_append, walk, dif_pos hfresh, ihbelow (hbases id) hbelowOver, ihbehind hrest hbehindOver]
      have hlisted : ((id :: (below ++ behind)).removeAll seen).eraseDups
          = id :: ((below.removeAll (id :: seen)).eraseDups
            ++ (behind.removeAll (below ++ id :: seen)).eraseDups) := by
        have hfirst : ([id].removeAll seen).eraseDups = [id] := by simp [List.removeAll, hseen, List.eraseDups_cons]
        rw [← List.singleton_append, eraseDups_removeAll_append, eraseDups_removeAll_append, hfirst]
        rfl
      rw [hlisted, List.cons_append, List.append_assoc, walk_congr (u := behind ++ (below ++ id :: seen))]
      intro x
      simp only [List.mem_append, List.cons_append, List.mem_cons]
      tauto

end Walk

namespace Registry

/-- All bases of a class are what the unrestricted walk through them meets, each where it comes first. -/
theorem flattenedBases_eq {r : Registry} (hacyclic : r.Acyclic) (hrange : r.BasesInRange) {id : ClassId}
    {w : List ClassId} (h : Preorder r.bases (r.bases id) w) : r.flattenedBases id = w.eraseDups := by
  have hself : id ∉ w := fun hid => hacyclic id (h.mem_bases_iff.1 hid)
  have hover : VisitsOver r.bases [id] w := by
    intro x hx hup
    obtain rfl := List.mem_singleton.1 hx
    exact absurd hup hself
  have hlisted := walk_append hacyclic hrange h (hrange id) hover []
  have hkept : w.removeAll [id] = w := by
    rw [List.removeAll, List.filter_eq_self]
    intro x hx
    have hne : x ≠ id := fun heq => hself (heq ▸ hx)
    simpa using hne
  rw [List.append_nil, hkept, walk, List.append_nil] at hlisted
  exact hlisted

end Registry

end LuaGlue
