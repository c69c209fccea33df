import LuaGlue.Proofs.Inheritance.Reachable

/-!
Looking things up along the bases.

A class has something of its own, or takes what the first of its direct bases gives by the same rule:

    class Leaf : Left, Right      Left : Root      Right : Root

    rule Leaf    = own Leaf, else rule Left, else rule Right
    lineage      = own Leaf, else own Left, else own Root, else own Right

Read out in full, the rule asks the classes of the unrestricted walk, and `Root` twice. A class that has nothing has
nothing when it is asked again, so the lineage gives the same. As no class is its own ancestor, nothing else solves
the rule (`Rooted.inherits_iff`).
-/

namespace LuaGlue

open Relation

/-! ### The rule over the unrestricted walk -/

section Walk

variable {α β : Type}

/-- What was asked in vain need not be asked again. -/
theorem findSome?_eraseDups [BEq α] [LawfulBEq α] (f : α → Option β) (l : List α) :
    l.eraseDups.findSome? f = l.findSome? f := by
  induction l using List.reverseRecOn with
  | nil => rfl
  | append_singleton l a ih =>
    rw [List.eraseDups_append, List.findSome?_append, List.findSome?_append, ih]
    by_cases ha : a ∈ l
    · cases hfound : l.findSome? f with
      | some b => rfl
      | none =>
        have hnone : f a = none := List.findSome?_eq_none_iff.1 hfound a ha
        simp [List.removeAll, ha, hnone]
    · simp [List.removeAll, ha, List.eraseDups_cons]

/-- A lookup that gives for each class its own, or the first of the walk through its bases, gives for a list of
classes the first of the walk from them. -/
theorem Preorder.findSome?_eq {bases : ClassId → List ClassId} {own rule : ClassId → Option β}
    (hrule : ∀ id below, Preorder bases (bases id) below → (bases id).findSome? rule = below.findSome? own →
      rule id = (own id).or (below.findSome? own))
    {ids w : List ClassId} (h : Preorder bases ids w) : ids.findSome? rule = w.findSome? own := by
  induction h with
  | nil => rfl
  | @cons id rest below behind hbelow _ ihbelow ihbehind =>
    have hid := hrule id below hbelow ihbelow
    rw [List.findSome?_cons, hid, List.findSome?_cons, List.findSome?_append, ihbehind]
    cases own id with
    | some b => rfl
    | none => cases below.findSome? own <;> rfl

end Walk

/-! ### The rule of a registry -/

namespace Registry

section Inherits

variable {β : Type} (r : Registry) (own : BoundClass → Option β)

/-- Does a lookup follow the rule: what the class has of its own, else the first result of the same lookup over its
direct bases in the order of declaration? -/
def Inherits (rule : ClassId → Option β) : Prop :=
  ∀ id, rule id = ((r.class? id).bind own).or ((r.bases id).findSome? rule)

/-- What the first class of the lineage has that has any. -/
def inherited (id : ClassId) : Option β := (r.lineage id).findSome? own

theorem inherited_eq (id : ClassId) : r.inherited own id
    = ((r.class? id).bind own).or ((r.flattenedBases id).findSome? fun base => (r.class? base).bind own) := by
  have hasked : ∀ ids : List ClassId,
      (ids.filterMap r.class?).findSome? own = ids.findSome? fun base => (r.class? base).bind own := by
    intro ids
    rw [← List.head?_filterMap, List.filterMap_filterMap, List.head?_filterMap]
  rw [inherited, lineage, classesOf, hasked, List.findSome?_cons]
  cases (r.class? id).bind own <;> rfl

variable {r own}

/-- The lookup in the lineage follows the rule, and it is the only one that does. -/
theorem Rooted.inherits_iff (h : r.Rooted) {rule : ClassId → Option β} :
    r.Inherits own rule ↔ rule = r.inherited own := by
  let asked (id : ClassId) : Option β := (r.class? id).bind own
  have hlineage : ∀ {id : ClassId} {w : List ClassId}, Preorder r.bases (r.bases id) w →
      r.inherited own id = (asked id).or (w.findSome? asked) := by
    intro id w hw
    rw [inherited_eq, flattenedBases_eq h.acyclic h.basesInRange hw, findSome?_eraseDups]
  have hwalk := exists_preorder h.acyclic h.basesInRange
  constructor
  · intro hrule
    funext id
    obtain ⟨w, hw⟩ := hwalk (r.bases id)
    rw [hlineage hw, hrule id, hw.findSome?_eq fun other below _ hbelow => by rw [hrule other, hbelow]]
  · rintro rfl id
    obtain ⟨w, hw⟩ := hwalk (r.bases id)
    rw [hlineage hw, hw.findSome?_eq fun other below hbelow _ => hlineage hbelow]

/-- The lineage of a class: the classes that it leads to. -/
theorem mem_lineage_iff (hplaced : r.Placed) (hrange : r.BasesInRange) {id : ClassId} {c : BoundClass} :
    c ∈ r.lineage id ↔ c ∈ r.classes ∧ r.LeadsTo id c.id := by
  have hasked : ∀ other, other ∈ id :: r.flattenedBases id ↔ r.LeadsTo id other := by
    intro other
    rw [← leadsTo_iff hrange, derivesFrom]
    simp [eq_comm (a := other)]
  rw [lineage, classesOf, List.mem_filterMap]
  constructor
  · rintro ⟨other, hother, hclass⟩
    obtain rfl : c.id = other := hplaced other c hclass
    exact ⟨List.mem_of_getElem? hclass, (hasked _).1 hother⟩
  · rintro ⟨hc, hleads⟩
    exact ⟨c.id, (hasked _).2 hleads, hplaced.getElem? hc⟩

end Inherits

end Registry

end LuaGlue
