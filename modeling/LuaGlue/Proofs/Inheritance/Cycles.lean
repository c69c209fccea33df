import LuaGlue.Proofs.ClassTable
import LuaGlue.Proofs.Inheritance.Ancestors
import Mathlib.Data.List.Nodup

/-!
The base relation over whole runs.

`Grown` is the registries that calls of `addClass`, `addThinClass` and `addBase` lead to, with the ids
that were handed out and the edges that were accepted. `Wired` is what each call keeps; of the calls
only an accepted edge changes the relation:

    add a class            bases as before
    accept derived ─▶ base     only if no path leads from base to derived, so no cycle appears
-/

namespace LuaGlue

open Relation

/-! ### One more edge -/

/-- A relation with one more edge. -/
def WithEdge (edges : ClassId → ClassId → Prop) (derived base : ClassId) (d b : ClassId) : Prop :=
  edges d b ∨ (d = derived ∧ b = base)

section WithEdge

variable {edges : ClassId → ClassId → Prop} {derived base : ClassId}

/-- A path that uses the new edge leads up to it and on from it. -/
theorem path_withEdge {x y : ClassId} (h : TransGen (WithEdge edges derived base) x y) :
    TransGen edges x y ∨ (ReflTransGen edges x derived ∧ ReflTransGen edges base y) := by
  induction h with
  | single hedge =>
    rcases hedge with hold | ⟨rfl, rfl⟩
    · exact .inl (.single hold)
    · exact .inr ⟨.refl, .refl⟩
  | tail _ hedge ih =>
    rcases hedge with hold | ⟨rfl, rfl⟩
    · rcases ih with hpath | ⟨hto, hfrom⟩
      · exact .inl (hpath.tail hold)
      · exact .inr ⟨hto, hfrom.tail hold⟩
    · rcases ih with hpath | ⟨hto, -⟩
      · exact .inr ⟨hpath.to_reflTransGen, .refl⟩
      · exact .inr ⟨hto, .refl⟩

/-- An edge that no path leads back over closes no cycle. -/
theorem acyclic_withEdge (hacyclic : ∀ id, ¬ TransGen edges id id)
    (hback : ¬ ReflTransGen edges base derived) (id : ClassId) :
    ¬ TransGen (WithEdge edges derived base) id id := by
  intro hcycle
  rcases path_withEdge hcycle with hold | ⟨hto, hfrom⟩
  · exact hacyclic id hold
  · exact hback (hfrom.trans hto)

end WithEdge

/-! ### What the calls do to the bases -/

namespace Registry

theorem bases_appendClass (r : Registry) (name scope source : String) (state : Option String)
    (id : ClassId) : (r.appendClass name scope source state).1.bases id = r.bases id := by
  unfold bases class? appendClass
  rcases Nat.lt_trichotomy id r.classes.length with hlt | heq | hgt
  · simp only [List.getElem?_append_left hlt]
  · subst heq
    simp
  · rw [List.getElem?_eq_none (by simp; omega), List.getElem?_eq_none (by omega)]

theorem bases_expose (r : Registry) (source state : String) (id other : ClassId) :
    (r.modifyClass id (expose source state)).bases other = r.bases other := by
  unfold bases class? modifyClass
  rw [List.getElem?_modify]
  cases r.classes[other]? with
  | none => rfl
  | some c => by_cases h : id = other <;> simp [h, expose]

/-- A class that exists gets one more base, unless it has it. -/
theorem bases_derive (r : Registry) {derived : ClassId} (hlt : derived < r.classes.length)
    (base other : ClassId) : (r.modifyClass derived (derive base)).bases other
      = if other = derived ∧ base ∉ r.bases derived then r.bases other ++ [base] else r.bases other := by
  unfold bases class? modifyClass
  rw [List.getElem?_modify]
  by_cases h : derived = other
  · subst h
    rw [List.getElem?_eq_getElem hlt]
    by_cases hbase : base ∈ r.classes[derived].bases <;> simp [derive, hbase]
  · simp [h, Ne.symm h]

theorem hasBase_derive (r : Registry) {derived : ClassId} (hlt : derived < r.classes.length)
    (base d b : ClassId) : (r.modifyClass derived (derive base)).HasBase d b
      ↔ WithEdge r.HasBase derived base d b := by
  unfold HasBase WithEdge
  rw [bases_derive r hlt]
  by_cases h : d = derived
  · subst h
    by_cases hbase : base ∈ r.bases d
    · simp only [hbase, not_true_eq_false, and_false, ↓reduceIte, true_and]
      exact ⟨.inl, fun hb => hb.elim id fun heq => heq ▸ hbase⟩
    · simp [hbase]
  · simp [h]

/-! ### Runs -/

/-- The registries that calls lead to from the empty one, with the ids that were handed out and the edges
that were accepted, in order. Ids come back from a class that is refused, too. -/
inductive Grown : Registry → List ClassId → List (ClassId × ClassId) → Prop where
  | empty (patches : Patches) : Grown { patches } [] []
  | addClass {r : Registry} {ids : List ClassId} {edges : List (ClassId × ClassId)}
      (name scope source state : String) {r' : Registry} {id : ClassId} (h : Grown r ids edges)
      (hadd : r.addClass name scope source state = .ok (r', id)) : Grown r' (id :: ids) edges
  | knownClass {r : Registry} {ids : List ClassId} {edges : List (ClassId × ClassId)}
      (name scope source state : String) {qualified : String} {id : ClassId} (h : Grown r ids edges)
      (hadd : r.addClass name scope source state = .error (.duplicateClass qualified id)) :
      Grown r (id :: ids) edges
  | addThinClass {r : Registry} {ids : List ClassId} {edges : List (ClassId × ClassId)}
      (name scope source : String) (h : Grown r ids edges) :
      Grown (r.addThinClass name scope source).1 ((r.addThinClass name scope source).2 :: ids) edges
  | addBase {r : Registry} {ids : List ClassId} {edges : List (ClassId × ClassId)}
      {derived base : ClassId} {r' : Registry} (h : Grown r ids edges) (hderived : derived ∈ ids)
      (hbase : base ∈ ids) (hadd : r.addBase derived base = .ok r') :
      Grown r' ids (edges ++ [(derived, base)])

/-- The bases that accepted edges give a class, each where it comes first. -/
def acceptedBases (edges : List (ClassId × ClassId)) (id : ClassId) : List ClassId :=
  ((edges.filter fun edge => edge.1 == id).map Prod.snd).eraseDups

theorem acceptedBases_append (edges : List (ClassId × ClassId)) (derived base id : ClassId) :
    acceptedBases (edges ++ [(derived, base)]) id
      = if id = derived ∧ base ∉ acceptedBases edges derived then acceptedBases edges id ++ [base]
        else acceptedBases edges id := by
  unfold acceptedBases
  rw [List.filter_append, List.map_append, List.eraseDups_append]
  by_cases h : derived = id
  · subst h
    rw [List.filter_cons_of_pos (by simp), List.filter_nil, List.map_singleton]
    by_cases hbase : base ∈ (edges.filter fun edge => edge.1 == derived).map Prod.snd
    · rw [if_neg (by simpa using hbase), List.removeAll, List.filter_cons_of_neg (by simpa using hbase),
        List.filter_nil, List.eraseDups_nil, List.append_nil]
    · rw [if_pos ⟨rfl, by simpa using hbase⟩, List.removeAll, List.filter_cons_of_pos (by simpa using hbase),
        List.filter_nil]
      rfl
  · have hother : (derived == id) = false := by simpa using h
    rw [if_neg (by simp [Ne.symm h]), List.filter_cons_of_neg (by simp [hother]), List.filter_nil]
    simp [List.removeAll]

/-- What every call keeps. -/
structure Wired (r : Registry) (ids : List ClassId) (edges : List (ClassId × ClassId)) : Prop where
  placed : r.Placed
  issued : ∀ id ∈ ids, id < r.classes.length
  inRange : r.BasesInRange
  acyclic : r.Acyclic
  ordered : ∀ id, r.bases id = acceptedBases edges id
  nodup : ∀ id, (r.bases id).Nodup

section Wired

variable {r : Registry} {ids : List ClassId} {edges : List (ClassId × ClassId)}

/-- A call that leaves all bases alone keeps the rest of it with the places. -/
theorem Wired.of_bases_eq {r' : Registry} (h : r.Wired ids edges) (hplaced : r'.Placed)
    (hlength : r.classes.length ≤ r'.classes.length) (hbases : ∀ id, r'.bases id = r.bases id)
    {id : ClassId} (hid : id < r'.classes.length) : r'.Wired (id :: ids) edges := by
  have hedge : r'.HasBase = r.HasBase := by
    funext d b
    rw [HasBase, hbases]
    rfl
  refine ⟨hplaced, ?_, ?_, ?_, ?_, ?_⟩
  · intro other hother
    rcases List.mem_cons.1 hother with rfl | hother
    · exact hid
    · exact Nat.lt_of_lt_of_le (h.issued other hother) hlength
  · intro d b hb
    rw [hbases] at hb
    exact Nat.lt_of_lt_of_le (h.inRange d b hb) hlength
  · rw [Acyclic, hedge]
    exact h.acyclic
  · intro d
    rw [hbases, h.ordered]
  · intro d
    rw [hbases]
    exact h.nodup d

theorem Wired.appendClass (h : r.Wired ids edges) (name scope source : String) (state : Option String) :
    (r.appendClass name scope source state).1.Wired
      ((r.appendClass name scope source state).2 :: ids) edges :=
  h.of_bases_eq (h.placed.appendClass name scope source state) (by simp [Registry.appendClass])
    (bases_appendClass r name scope source state) (by simp [Registry.appendClass])

theorem Wired.addClass (h : r.Wired ids edges) {name scope source state : String} {r' : Registry} {id : ClassId}
    (hadd : r.addClass name scope source state = .ok (r', id)) : r'.Wired (id :: ids) edges := by
  obtain ⟨-, rfl, rfl⟩ | ⟨c, hfind, -, rfl, rfl⟩ := addClass_cases hadd
  · exact h.appendClass name scope source (some state)
  · have hlt := h.placed.id_lt (mem_of_find? hfind)
    have hplaced := h.placed.modifyClass (f := expose source state) c.id fun _ => rfl
    exact h.of_bases_eq hplaced (by simp [modifyClass])
      (bases_expose r source state c.id) (by simpa [modifyClass] using hlt)

theorem Wired.knownClass (h : r.Wired ids edges) {name scope source state qualified : String} {id : ClassId}
    (hadd : r.addClass name scope source state = .error (.duplicateClass qualified id)) :
    r.Wired (id :: ids) edges := by
  unfold Registry.addClass at hadd
  split at hadd
  · cases hadd
  · next c hfind =>
    split at hadd
    · cases hadd
      exact h.of_bases_eq h.placed (Nat.le_refl _) (fun _ => rfl) (h.placed.id_lt (mem_of_find? hfind))
    · cases hadd

theorem Wired.addThinClass (h : r.Wired ids edges) (name scope source : String) :
    (r.addThinClass name scope source).1.Wired ((r.addThinClass name scope source).2 :: ids) edges := by
  rw [Registry.addThinClass]
  split
  · exact h.appendClass name scope source none
  · next c hfind =>
    exact h.of_bases_eq h.placed (Nat.le_refl _) (fun _ => rfl) (h.placed.id_lt (mem_of_find? hfind))

/-- An edge that is accepted closes no cycle. -/
theorem Wired.derive (h : r.Wired ids edges) {derived base : ClassId} (hderived : derived ∈ ids)
    (hbase : base ∈ ids) (hback : ¬ r.LeadsTo base derived) :
    (r.modifyClass derived (derive base)).Wired ids (edges ++ [(derived, base)]) := by
  have hlength : (r.modifyClass derived (Registry.derive base)).classes.length = r.classes.length := by
    simp [modifyClass]
  have hlt := h.issued derived hderived
  refine ⟨h.placed.modifyClass derived (derive_id base), ?_, ?_, ?_, ?_, ?_⟩
  · intro id hid
    rw [hlength]
    exact h.issued id hid
  · intro d b hb
    rw [hlength]
    rcases (hasBase_derive r hlt base d b).1 hb with hold | ⟨-, rfl⟩
    · exact h.inRange d b hold
    · exact h.issued b hbase
  · have hedges : (r.modifyClass derived (Registry.derive base)).HasBase
        = WithEdge r.HasBase derived base := by
      funext d b
      exact propext (hasBase_derive r hlt base d b)
    rw [Acyclic, hedges]
    exact acyclic_withEdge h.acyclic hback
  · intro d
    rw [bases_derive r hlt, acceptedBases_append, h.ordered, h.ordered]
  · intro d
    rw [bases_derive r hlt]
    split
    · next hnew =>
      obtain ⟨rfl, hnew⟩ := hnew
      exact List.nodup_append.2 ⟨h.nodup d, List.nodup_singleton base, by
        intro b hb c hc heq
        obtain rfl := List.mem_singleton.1 hc
        exact hnew (heq ▸ hb)⟩
    · exact h.nodup d

/-- What `addBase` answers. -/
theorem Wired.addBase_eq (h : r.Wired ids edges) (derived base : ClassId) :
    (r.LeadsTo base derived
        ∧ r.addBase derived base = .error (.baseCycle (r.nameOf derived) (r.nameOf base)))
      ∨ (¬ r.LeadsTo base derived
        ∧ r.addBase derived base = .ok (r.modifyClass derived (Registry.derive base))) := by
  rw [← closesCycle_iff h.inRange]
  rw [Registry.addBase]
  cases r.closesCycle derived base with
  | true => exact .inl ⟨rfl, rfl⟩
  | false => exact .inr ⟨by simp, rfl⟩

theorem Grown.wired (h : Grown r ids edges) : r.Wired ids edges := by
  induction h with
  | empty patches =>
    have hnone : ∀ id, ({ patches } : Registry).bases id = [] := fun _ => rfl
    have hempty : ∀ d b, ¬ ({ patches } : Registry).HasBase d b := by simp [HasBase, hnone]
    refine ⟨fun id c hc => (by simp at hc), by simp, ?_, ?_, fun _ => rfl, fun _ => List.nodup_nil⟩
    · intro d b hb
      exact absurd hb (hempty d b)
    · intro id hcycle
      obtain ⟨next, hedge, -⟩ := TransGen.head'_iff.1 hcycle
      exact hempty id next hedge
  | addClass name scope source state _ hadd ih => exact ih.addClass hadd
  | knownClass name scope source state _ hadd ih => exact ih.knownClass hadd
  | addThinClass name scope source _ ih => exact ih.addThinClass name scope source
  | addBase _ hderived hbase hadd ih =>
    rcases ih.addBase_eq _ _ with ⟨-, herror⟩ | ⟨hback, hok⟩
    · rw [herror] at hadd
      cases hadd
    · rw [hok] at hadd
      cases hadd
      exact ih.derive hderived hbase hback

end Wired

/-! ### Refusals -/

/-- The registry after an edge was offered: as it was, when the edge is refused. -/
def offerBase (r : Registry) (derived base : ClassId) : Registry :=
  match r.addBase derived base with
  | .ok r => r
  | .error _ => r

/-- Adds edges up to the first that is refused. -/
def addBases (r : Registry) (edges : List (ClassId × ClassId)) : Except Abort Registry :=
  edges.foldlM (fun r edge => r.addBase edge.1 edge.2) r

/-- Edges are all accepted when they close no cycle together with those that are there. -/
theorem Wired.addBases_ok_iff {r : Registry} {ids : List ClassId} {accepted : List (ClassId × ClassId)}
    (h : r.Wired ids accepted) {edges : List (ClassId × ClassId)}
    (hids : ∀ edge ∈ edges, edge.1 ∈ ids ∧ edge.2 ∈ ids) :
    (∃ r', r.addBases edges = .ok r')
      ↔ ∀ id, ¬ TransGen (fun d b => r.HasBase d b ∨ (d, b) ∈ edges) id id := by
  induction edges generalizing r accepted with
  | nil =>
    have hacyclic : ∀ id, ¬ TransGen (fun d b => r.HasBase d b) id id := h.acyclic
    simpa [addBases, pure, Except.pure] using hacyclic
  | cons edge rest ih =>
    obtain ⟨derived, base⟩ := edge
    obtain ⟨hderived, hbase⟩ := hids _ List.mem_cons_self
    rcases h.addBase_eq derived base with ⟨hback, herror⟩ | ⟨hback, hok⟩
    · have hfails : ¬ ∃ r', r.addBases ((derived, base) :: rest) = .ok r' := by
        simp [addBases, List.foldlM_cons, herror, bind, Except.bind]
      refine iff_of_false hfails fun hacyclic => hacyclic derived ?_
      exact .head' (.inr List.mem_cons_self) (ReflTransGen.mono (fun _ _ hedge => Or.inl hedge) _ _ hback)
    · have hstep : r.addBases ((derived, base) :: rest)
          = (r.modifyClass derived (Registry.derive base)).addBases rest := by
        simp [addBases, List.foldlM_cons, hok, bind, Except.bind]
      have hedges : (fun d b => (r.modifyClass derived (Registry.derive base)).HasBase d b ∨ (d, b) ∈ rest)
          = fun d b => r.HasBase d b ∨ (d, b) ∈ (derived, base) :: rest := by
        funext d b
        rw [hasBase_derive r (h.issued derived hderived), WithEdge, List.mem_cons, Prod.mk.injEq, or_assoc]
      rw [hstep, ih (h.derive hderived hbase hback) fun edge hedge => hids edge (List.mem_cons_of_mem _ hedge),
        hedges]

/-- CORRECT: in every registry that calls lead to, no class is its own ancestor, the bases of a class are
the accepted ones, each once and in the order of acceptance, and an edge is refused exactly when a path
leads back from its base. So classes without bases take a list of edges, in whatever order, exactly when
the edges close no cycle. -/
theorem base_refusal_exact {r : Registry} {ids : List ClassId} {accepted : List (ClassId × ClassId)}
    (h : Grown r ids accepted) :
    r.Acyclic
      ∧ (∀ id, (r.bases id).Nodup ∧ r.bases id = acceptedBases accepted id)
      ∧ (∀ derived ∈ ids, ∀ base ∈ ids,
        (r.addBase derived base = .error (.baseCycle (r.nameOf derived) (r.nameOf base))
            ↔ base = derived ∨ TransGen r.HasBase base derived)
          ∧ ((∃ r', r.addBase derived base = .ok r')
            ↔ ¬ (base = derived ∨ TransGen r.HasBase base derived))
          ∧ (base = derived ∨ TransGen r.HasBase base derived → r.offerBase derived base = r))
      ∧ ∀ edges : List (ClassId × ClassId), (∀ edge ∈ edges, edge.1 ∈ ids ∧ edge.2 ∈ ids) →
        (∀ id, r.bases id = []) →
        ((∃ r', r.addBases edges = .ok r') ↔ ∀ id, ¬ TransGen (fun d b => (d, b) ∈ edges) id id) := by
  have hwired := h.wired
  refine ⟨hwired.acyclic, fun id => ⟨hwired.nodup id, hwired.ordered id⟩, ?_, ?_⟩
  · intro derived _ base _
    have hpath : r.LeadsTo base derived ↔ base = derived ∨ TransGen r.HasBase base derived := by
      rw [LeadsTo, reflTransGen_iff_eq_or_transGen, eq_comm]
    rw [← hpath]
    rcases hwired.addBase_eq derived base with ⟨hback, herror⟩ | ⟨hback, hok⟩
    · refine ⟨iff_of_true herror hback, by simp [herror, hback], fun _ => ?_⟩
      rw [offerBase, herror]
    · exact ⟨iff_of_false (by simp [hok]) hback, by simp [hok, hback], fun h => absurd h hback⟩
  · intro edges hids hnone
    have hedges : (fun d b => r.HasBase d b ∨ (d, b) ∈ edges) = fun d b => (d, b) ∈ edges := by
      funext d b
      simp [HasBase, hnone]
    rw [hwired.addBases_ok_iff hids, hedges]

/-- `Shape` and `Circle`. -/
def shapes : Registry :=
  { classes := [{ id := 0, name := "Shape", scope := "", source := "", state := some "Main" },
      { id := 1, name := "Circle", scope := "", source := "" }] }

theorem grown_shapes : Grown shapes [1, 0] [] := by
  have hshape : Grown _ [0] [] := .addClass "Shape" "" "" "Main" (.empty {}) rfl
  exact hshape.addThinClass "Circle" "" ""

/-- Once `Circle` derives from `Shape`, the edge back is refused. -/
theorem shapes_refuse_cycle : ∃ r : Registry, shapes.addBase 1 0 = .ok r ∧ Grown r [1, 0] [(1, 0)]
    ∧ r.addBase 0 1 = .error (.baseCycle "::Shape" "::Circle") := by
  have hok : shapes.addBase 1 0 = .ok (shapes.modifyClass 1 (derive 0)) := by
    have hnone : shapes.bases 0 = [] := rfl
    simp [addBase, closesCycle, flattenedBases, hnone, walk]
  have hgrown := grown_shapes.addBase (by simp) (by simp) hok
  have hedge : (shapes.modifyClass 1 (derive 0)).HasBase 1 0 := List.mem_singleton.2 rfl
  exact ⟨_, hok, hgrown,
    ((base_refusal_exact hgrown).2.2.1 0 (by simp) 1 (by simp)).1.2 (.inr (.single hedge))⟩

end Registry

end LuaGlue
