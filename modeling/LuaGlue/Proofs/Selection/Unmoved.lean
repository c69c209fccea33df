import LuaGlue.Proofs.Selection.Learned

/-!
Where members stay, and which classes come to be exposed.

Registering a class appends it without members or changes one in place, and it moves no members
(`Registry.Unmoved`). The same holds of bases, free functions and enums, so only the steps that register a member
have to be looked at to know in which class it lands. A class comes to be exposed only when one of its name is
declared.
-/

namespace LuaGlue

open Selection

/-- Has a class kept its names and its members? It may have become exposed. -/
structure BoundClass.SameRoster (c d : BoundClass) : Prop where
  scope : d.scope = c.scope
  name : d.name = c.name
  exposed : c.isExposed = true → d.isExposed = true
  members : ∀ kind, d.members kind = c.members kind

theorem BoundClass.SameRoster.refl (c : BoundClass) : c.SameRoster c :=
  ⟨rfl, rfl, fun hexposed => hexposed, fun _ => rfl⟩

theorem BoundClass.SameRoster.trans {c d e : BoundClass} (h : c.SameRoster d) (h' : d.SameRoster e) :
    c.SameRoster e :=
  ⟨h'.scope.trans h.scope, h'.name.trans h.name, fun hc => h'.exposed (h.exposed hc),
    fun kind => (h'.members kind).trans (h.members kind)⟩

theorem BoundClass.SameRoster.qualified {c d : BoundClass} (h : c.SameRoster d) : d.qualified = c.qualified := by
  rw [BoundClass.qualified, BoundClass.qualified, h.scope, h.name]

namespace Registry

theorem sameRoster_of_sameFace {f : BoundClass → BoundClass} (hface : SameFace f) (hmembers : SameMembers f)
    (c : BoundClass) : c.SameRoster (f c) := by
  refine ⟨hface.scope c, hface.name c, fun hc => ?_, hmembers.members c⟩
  rw [hmembers.exposed]
  exact hc

/-- Do the members stay where they are, and does no class come to be exposed but under a name that may be `shown`?
A class that was not there has no members. -/
def Unmoved (shown : String → Prop) (r r' : Registry) : Prop :=
  ∀ id d, r'.class? id = some d →
    ((∀ kind, d.members kind = ∅) ∧ (d.isExposed = true → shown d.qualified))
      ∨ ∃ c, r.class? id = some c ∧ c.SameRoster d
        ∧ (d.isExposed = true → c.isExposed = true ∨ shown d.qualified)

section Unmoved

variable {shown : String → Prop}

theorem unmoved_of_classes_eq {r r' : Registry} (h : r'.classes = r.classes) : Unmoved shown r r' := by
  intro id d hd
  rw [class?, h] at hd
  exact .inr ⟨d, hd, .refl d, .inl⟩

theorem Unmoved.refl (r : Registry) : Unmoved shown r r := unmoved_of_classes_eq rfl

theorem Unmoved.trans {r r' r'' : Registry} (h : Unmoved shown r r') (h' : Unmoved shown r' r'') :
    Unmoved shown r r'' := by
  intro id e he
  obtain hnew | ⟨d, hd, hsame, hshown⟩ := h' id e he
  · exact .inl hnew
  obtain ⟨hnone, hshown'⟩ | ⟨c, hc, hsame', hshown'⟩ := h id d hd
  · refine .inl ⟨fun kind => (hsame.members kind).trans (hnone kind), fun hexposed => ?_⟩
    exact (hshown hexposed).elim (fun hd => hsame.qualified ▸ hshown' hd) fun hnew => hnew
  · refine .inr ⟨c, hc, hsame'.trans hsame, fun hexposed => (hshown hexposed).elim (fun hd => ?_) .inr⟩
    rw [hsame.qualified]
    exact hshown' hd

theorem unmoved_appendClass (r : Registry) {name scope : String} (source : String) {state : Option String}
    (hshown : state.isSome = true → shown (Scope.qualify scope name)) :
    Unmoved shown r (r.appendClass name scope source state).1 := by
  intro id d hd
  obtain hold | ⟨-, rfl⟩ := getElem?_appendClass hd
  · exact .inr ⟨d, hold, .refl d, .inl⟩
  · exact .inl ⟨fun kind => by cases kind <;> rfl, hshown⟩

theorem unmoved_modifyClass (r : Registry) (id : ClassId) {f : BoundClass → BoundClass}
    (hf : ∀ c : BoundClass, c.SameRoster (f c))
    (hshown : ∀ c, r.class? id = some c → (f c).isExposed = true → c.isExposed = true ∨ shown c.qualified) :
    Unmoved shown r (r.modifyClass id f) := by
  intro other d hd
  obtain ⟨c, hc, rfl⟩ := getElem?_modifyClass hd
  refine .inr ⟨c, hc, ?_⟩
  split
  · next heq =>
    refine ⟨hf c, fun hexposed => ?_⟩
    rw [(hf c).qualified]
    exact hshown c (heq ▸ hc) hexposed
  · exact ⟨.refl c, .inl⟩

/-- A class that is changed without its names, its members and its state. -/
theorem unmoved_modifyClass_of_sameFace (r : Registry) (id : ClassId) {f : BoundClass → BoundClass}
    (hface : SameFace f) (hmembers : SameMembers f) : Unmoved shown r (r.modifyClass id f) := by
  refine unmoved_modifyClass r id (sameRoster_of_sameFace hface hmembers) fun c _ hexposed => .inl ?_
  rwa [hmembers.exposed] at hexposed

theorem unmoved_addThinClass (r : Registry) (name scope source : String) :
    Unmoved shown r (r.addThinClass name scope source).1 := by
  rw [addThinClass]
  split
  · exact unmoved_appendClass r source fun hexposed => by cases hexposed
  · exact .refl r

theorem unmoved_addClass {r r' : Registry} (hplaced : r.Placed) {name scope source state : String} {id : ClassId}
    (hshown : shown (Scope.qualify scope name)) (hadd : r.addClass name scope source state = .ok (r', id)) :
    Unmoved shown r r' := by
  obtain ⟨-, rfl, -⟩ | ⟨found, hfind, -, rfl, -⟩ := addClass_cases hadd
  · exact unmoved_appendClass r source fun _ => hshown
  · refine unmoved_modifyClass r found.id (fun c => ⟨rfl, rfl, fun _ => rfl, fun kind => by cases kind <;> rfl⟩)
      fun c hc _ => .inr ?_
    obtain rfl : c = found := Option.some.inj (hc.symm.trans (hplaced.getElem? (mem_of_find? hfind)))
    rw [qualified_of_find? hfind]
    exact hshown

theorem unmoved_addBaseNamed (r : Registry) (id : ClassId) (base : String) :
    Unmoved shown r (addBaseNamed r id base).1 := by
  have hthin : Unmoved shown r
      (r.addThinClass (Scope.splitQualified base).2 (Scope.splitQualified base).1 "").1 := unmoved_addThinClass _ _ _ _
  refine keeps_addBaseNamed id base hthin fun hadd => hthin.trans ?_
  obtain ⟨-, rfl⟩ := addBase_ok hadd
  refine unmoved_modifyClass _ id (fun c => ⟨derive_scope _ c, derive_name _ c, fun hc => ?_, derive_members _ c⟩)
    fun c _ hexposed => .inl ?_
  · rwa [derive_isExposed]
  · rwa [derive_isExposed] at hexposed

theorem unmoved_addBasesNamed (r : Registry) (id : ClassId) (bases : List String) :
    Unmoved shown r (addBasesNamed r id bases).1 :=
  keeps_addBasesNamed (fun r' base h => h.trans (unmoved_addBaseNamed r' id base)) (.refl r) bases

theorem unmoved_nestClass (r : Registry) (scope : String) (id : ClassId) :
    Unmoved shown r (nestClass r scope id) := by
  obtain hsame | ⟨outer, hnested⟩ := nestClass_cases r scope id
  · rw [hsame]
    exact .refl r
  · rw [hnested]
    exact unmoved_modifyClass_of_sameFace r outer (sameFace_enclose id) (sameMembers_enclose id)

end Unmoved

end Registry

namespace Selection

open Registry

variable {shown : String → Prop}

theorem unmoved_placeClass {s : Selection} (hplaced : s.registry.Placed) {c : DeclaredClass}
    (hshown : shown c.qualified) : Unmoved shown s.registry (s.placeClass c).1.registry := by
  rw [placeClass]
  simp only
  split
  · exact unmoved_addThinClass s.registry c.name c.scope c.source
  · next state luaScope _ =>
    split
    · exact .refl _
    · next registry id hadd =>
      exact (unmoved_addClass hplaced hshown hadd).trans (unmoved_modifyClass_of_sameFace registry id
        (sameFace_describe c luaScope) (sameMembers_describe c luaScope))

/-- A class leaves the members of all classes where they are. -/
theorem unmoved_registerClass {s : Selection} (hplaced : s.registry.Placed) {c : DeclaredClass}
    (hshown : shown c.qualified) : Unmoved shown s.registry (s.registerClass c).1.registry := by
  have hplace := unmoved_placeClass hplaced hshown
  rw [registerClass]
  split
  · next t heq =>
    rw [heq] at hplace
    exact hplace
  · next t id heq =>
    rw [heq] at hplace
    have hbases : Unmoved shown t.registry (addBasesNamed t.registry id c.bases).1 := unmoved_addBasesNamed _ _ _
    split
    · next registry abort hadd =>
      rw [hadd] at hbases
      exact hplace.trans hbases
    · next registry hadd =>
      rw [hadd] at hbases
      exact (hplace.trans hbases).trans (unmoved_nestClass registry c.scope id)

theorem unmoved_registerFunction (s : Selection) (f : DeclaredFunction) :
    Unmoved shown s.registry (s.registerFunction f).registry := by
  obtain ⟨functions, signatures, redirectors, metamethods, states, skipped, notices, heq⟩ := registerFunction_rest s f
  rw [heq]
  exact unmoved_of_classes_eq rfl

theorem unmoved_registerEnum (s : Selection) (e : DeclaredEnum) :
    Unmoved shown s.registry (s.registerEnum e).registry := by
  rw [registerEnum]
  split
  · exact .refl _
  · split
    · next hadd =>
      obtain ⟨-, rfl⟩ := addEnum_ok hadd
      exact unmoved_of_classes_eq rfl
    · exact .refl _

theorem unmoved_addRequestedBases (s : Selection) (bases : List (String × String)) :
    Unmoved shown s.registry (s.addRequestedBases bases).1.registry := by
  refine addRequestedBases_induction (P := fun t => Unmoved shown s.registry t.registry)
    (fun t derived base h => h.trans ?_) (.refl _) bases
  rw [addRequestedBase]
  simp only
  split
  · exact .refl _
  · exact unmoved_addBaseNamed _ _ base

end Selection

end LuaGlue
