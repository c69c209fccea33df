import LuaGlue.Proofs.ClassStore
import LuaGlue.Proofs.Inheritance.Reachable

/-!
What is convertible to a class, over whole histories.

The bases of a class are listed from the class upwards, but its convertible set has what lies below it. So it is found
the other way round, by asking every class for its bases:

    Root ◁── Left ◁── Leaf      convertibleTo Root = tags of Root, Left, Leaf      convertibleTo Left = tags of Left, Leaf

No call takes a class, a name or a base from the registry (`lasts_call`), so the paths that were there stay, and with
them every tag in every set (`Lasts.mem_convertibleTo`).
-/

namespace LuaGlue

open Relation

namespace Registry

/-! ### Paths that stay -/

section Lasts

variable {r r' : Registry}

theorem Lasts.hasBase (h : r.Lasts r') {derived base : ClassId} (hbase : r.HasBase derived base) :
    r'.HasBase derived base := by
  unfold HasBase bases at hbase ⊢
  cases hc : r.class? derived with
  | none =>
    rw [hc] at hbase
    cases hbase
  | some c =>
    rw [hc] at hbase
    obtain ⟨d, hd, hbecomes⟩ := h derived c hc
    rw [hd]
    exact hbecomes.bases.subset hbase

theorem Lasts.leadsTo (h : r.Lasts r') {derived base : ClassId} (hleads : r.LeadsTo derived base) :
    r'.LeadsTo derived base :=
  ReflTransGen.mono (fun _ _ => h.hasBase) _ _ hleads

theorem Lasts.mem_convertibleTo (h : r.Lasts r') (hrooted : r.Rooted) (hrooted' : r'.Rooted) {id : ClassId}
    {tag : String} (htag : tag ∈ (r.convertibleTo id).toList) : tag ∈ (r'.convertibleTo id).toList := by
  rw [mem_convertibleTo_iff hrooted.basesInRange] at htag
  obtain ⟨c, hc, rfl, hleads⟩ := htag
  obtain ⟨d, hd, hbecomes⟩ := h c.id c (hrooted.placed.getElem? hc)
  refine (mem_convertibleTo_iff hrooted'.basesInRange).2 ⟨d, List.mem_of_getElem? hd, ?_, ?_⟩
  · rw [BoundClass.tag, BoundClass.tag, hbecomes.scope, hbecomes.name]
  · rw [hbecomes.id]
    exact h.leadsTo hleads

end Lasts

/-! ### Later calls -/

/-- Are the classes registered that a call makes an edge between? -/
def Takes (r : Registry) : ClassCall → Prop
  | .expose .. | .mention .. => True
  | .derive derived base => derived < r.classes.length ∧ base < r.classes.length

/-- The registries that calls lead to, refused ones included. -/
inductive CallsTo (r : Registry) : Registry → Prop where
  | now : CallsTo r r
  | call {r' : Registry} (h : CallsTo r r') (c : ClassCall) (hc : r'.Takes c) : CallsTo r (r'.call c).1

theorem Formed.call {r : Registry} (h : r.Formed) {c : ClassCall} (hc : r.Takes c) : (r.call c).1.Formed := by
  cases c with
  | expose name scope source state =>
    rw [Registry.call]
    split
    · next hadd => exact h.register (.expose hadd)
    · exact h
  | mention name scope source => exact h.register (.addThin r name scope source)
  | derive derived base =>
    rw [Registry.call]
    split
    · next hadd => exact h.addBase hc.1 hc.2 hadd
    · exact h

theorem Formed.callsTo {r r' : Registry} (h : r.Formed) (hcalls : r.CallsTo r') : r'.Formed ∧ r.Lasts r' := by
  induction hcalls with
  | now => exact ⟨h, .refl r⟩
  | call _ c hc ih =>
    obtain ⟨hformed, hlasts⟩ := ih
    exact ⟨hformed.call hc, hlasts.trans (lasts_call hformed.rooted.placed c)⟩

/-- CORRECT: the convertible set of a class has the tags of the classes from which base edges lead to it, the class
itself among them. So the set of a class is within that of every class it derives from, and later calls take no tag
from any set. -/
theorem convertibleTo_descendants {r : Registry} (h : r.Formed) :
    (∀ id tag, tag ∈ (r.convertibleTo id).toList
        ↔ ∃ c ∈ r.classes, c.tag = tag ∧ ReflTransGen r.HasBase c.id id)
      ∧ (∀ c ∈ r.classes, c.tag ∈ (r.convertibleTo c.id).toList)
      ∧ (∀ derived base, TransGen r.HasBase derived base →
          (r.convertibleTo derived).toList ⊆ (r.convertibleTo base).toList)
      ∧ ∀ r', r.CallsTo r' → ∀ id, (r.convertibleTo id).toList ⊆ (r'.convertibleTo id).toList := by
  have hmem {id : ClassId} {tag : String} : tag ∈ (r.convertibleTo id).toList ↔ _ :=
    mem_convertibleTo_iff h.rooted.basesInRange
  refine ⟨fun id tag => hmem, fun c hc => hmem.2 ⟨c, hc, rfl, .refl⟩, fun derived base hpath tag htag => ?_,
    fun r' hcalls id tag htag => ?_⟩
  · obtain ⟨c, hc, hname, hleads⟩ := hmem.1 htag
    exact hmem.2 ⟨c, hc, hname, hleads.trans hpath.to_reflTransGen⟩
  · obtain ⟨hformed, hlasts⟩ := h.callsTo hcalls
    exact hlasts.mem_convertibleTo h.rooted hformed.rooted htag

/-- Another class derives from `Right` once it is registered. -/
def widened : Registry := ((diamond.call (.expose "Twig" "" "twig.hpp" "Main")).1.call (.derive 4 2)).1

/-- The set of `Root` has all of the diamond, and grows by the new class. -/
theorem diamond_converts : diamond.Formed ∧ TransGen diamond.HasBase 0 3 ∧ diamond.CallsTo widened
    ∧ (diamond.convertibleTo 3).toList = ["_Leaf", "_Left", "_Right", "_Root"]
    ∧ (widened.convertibleTo 3).toList = ["_Leaf", "_Left", "_Right", "_Root", "_Twig"]
    ∧ (diamond.convertibleTo 0).toList ⊆ (diamond.convertibleTo 3).toList
    ∧ (diamond.convertibleTo 3).toList ⊆ (widened.convertibleTo 3).toList := by
  have hleaf : diamond.HasBase 0 1 := List.mem_cons_self
  have hleft : diamond.HasBase 1 3 := List.mem_cons_self
  have hpath : TransGen diamond.HasBase 0 3 := .tail (.single hleaf) hleft
  have htwig : diamond.CallsTo (diamond.call (.expose "Twig" "" "twig.hpp" "Main")).1 := .call .now _ trivial
  have hclasses : (diamond.call (.expose "Twig" "" "twig.hpp" "Main")).1.classes.length = 5 := by decide
  have hcalls : diamond.CallsTo widened := htwig.call (.derive 4 2) (by rw [Takes, hclasses]; decide)
  obtain ⟨-, -, hwithin, hgrows⟩ := convertibleTo_descendants reachable_diamond.formed
  exact ⟨reachable_diamond.formed, hpath, hcalls, by cbv, by cbv, hwithin 0 3 hpath, hgrows widened hcalls 3⟩

end Registry

end LuaGlue
