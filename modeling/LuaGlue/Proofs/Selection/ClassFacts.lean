import LuaGlue.Proofs.Inheritance.Reachable
import LuaGlue.Proofs.Isolation.Duplicate
import LuaGlue.Proofs.Selection.Sound

/-!
What a registry says of classes by their names.

A `ClassFact` says that there is a class of a name, that it is bound in a Lua state, or that one class has another as a
direct base. Every step of a run adds facts and takes none back (`Registry.Adds`): a class that is declared adds its
own, unless it is refused, and each base that is named adds a class and a link, whatever its name is spelled like. So
after a run the bound classes and the links are those that the declarations and the requests ask for.

    class Mesh : Shape, bound in Main     named Mesh    bound Mesh Main    named Shape    linked Mesh Shape
-/

namespace LuaGlue

open Selection

/-- What can be said of classes by their qualified names. -/
inductive ClassFact where
  /-- There is a class of this name. -/
  | named (name : String)
  /-- There is one that is bound in this state. -/
  | bound (name state : String)
  /-- The second class is a direct base of the first. -/
  | linked (derived base : String)

namespace Registry

/-- Does the fact hold of the classes? -/
def Shows (r : Registry) : ClassFact → Prop
  | .named name => ∃ c ∈ r.classes, c.qualified = name
  | .bound name state => ∃ c ∈ r.classes, c.qualified = name ∧ c.state = some state
  | .linked derived base =>
    ∃ c ∈ r.classes, c.qualified = derived ∧ ∃ d ∈ r.classes, d.qualified = base ∧ d.id ∈ c.bases

/-- Do just these facts come to those that hold? -/
def Adds (new : ClassFact → Prop) (r r' : Registry) : Prop := ∀ x, r'.Shows x ↔ r.Shows x ∨ new x

section Adds

variable {r r' r'' : Registry} {new new' : ClassFact → Prop}

theorem shows_named_iff {scope name : String} :
    r.Shows (.named (Scope.qualify scope name)) ↔ ∃ id, r.classId? scope name = some id := by
  rw [← Option.isSome_iff_exists, classId?, Option.isSome_map, find?, List.find?_isSome]
  simp only [Shows, beq_iff_eq]

theorem adds_of_classes_eq (h : r'.classes = r.classes) : Adds (fun _ => False) r r' := by
  intro x
  rw [or_false]
  cases x <;> simp only [Shows, h]

/-- Members do not count. -/
theorem adds_of_bare_eq (h : r'.bare = r.bare) : Adds (fun _ => False) r r' := by
  have hbare : ∀ (q : Registry) (x : ClassFact), ({ q with classes := q.bare } : Registry).Shows x ↔ q.Shows x := by
    intro q x
    cases x <;> simp only [Shows, bare, List.mem_map, exists_exists_and_eq_and] <;> rfl
  intro x
  rw [or_false, ← hbare r', ← hbare r]
  cases x <;> simp only [Shows, h]

theorem Adds.refl (r : Registry) : Adds (fun _ => False) r r := adds_of_classes_eq rfl

theorem Adds.trans (h : Adds new r r') (h' : Adds new' r' r'') : Adds (fun x => new x ∨ new' x) r r'' := by
  intro x
  rw [h', h, or_assoc]

theorem Adds.congr (h : Adds new r r') (heq : ∀ x, new x ↔ new' x) : Adds new' r r' := fun x =>
  (h x).trans (or_congr_right (heq x))

/-- A step that adds nothing may follow. -/
theorem Adds.followed (h : Adds new r r') (h' : Adds (fun _ => False) r' r'') : Adds new r r'' :=
  (h.trans h').congr fun _ => or_iff_left id

/-! ### Single classes -/

theorem exists_mem_modifyClass (h : r.Placed) (id : ClassId) (f : BoundClass → BoundClass) (P : BoundClass → Prop) :
    (∃ c ∈ (r.modifyClass id f).classes, P c) ↔ ∃ c ∈ r.classes, P (if id = c.id then f c else c) := by
  constructor
  · rintro ⟨d, hd, hP⟩
    obtain ⟨x, hx⟩ := List.mem_iff_getElem?.1 hd
    obtain ⟨c, hc, rfl⟩ := getElem?_modifyClass hx
    refine ⟨c, List.mem_of_getElem? hc, ?_⟩
    rwa [h x c hc]
  · rintro ⟨c, hc, hP⟩
    have hplace : (r.modifyClass id f).classes[c.id]? = some (if id = c.id then f c else c) := by
      rw [← class?, getElem?_modifyClass_eq, class?, h.getElem? hc]
      rfl
    exact ⟨_, List.mem_of_getElem? hplace, hP⟩

/-- A class that keeps its names, its state and its bases. -/
theorem adds_modifyClass (h : r.Placed) (id : ClassId) {f : BoundClass → BoundClass} (hface : SameFace f)
    (hstate : ∀ c, (f c).state = c.state) : Adds (fun _ => False) r (r.modifyClass id f) := by
  intro x
  cases x <;> simp only [Shows, exists_mem_modifyClass h, apply_ite BoundClass.qualified, apply_ite BoundClass.state,
    apply_ite BoundClass.id, apply_ite BoundClass.bases, hface.qualified, hface.id, hface.bases, hstate, ite_self,
    or_false]

/-- A thin class that is exposed in place. -/
theorem adds_expose (h : r.Placed) {c : BoundClass} (hc : c ∈ r.classes) (hthin : c.isExposed = false)
    (source state : String) :
    Adds (· = .bound c.qualified state) r (r.modifyClass c.id (expose source state)) := by
  have hsame : ∀ d ∈ r.classes, c.id = d.id → c = d := fun d hd heq =>
    Option.some.inj ((h.getElem? hc).symm.trans (heq ▸ h.getElem? hd))
  intro x
  have hname : ∀ d, (if c.id = d.id then expose source state d else d).qualified = d.qualified := fun d => by
    split <;> rfl
  cases x with
  | named name => simp only [Shows, exists_mem_modifyClass h, hname, reduceCtorEq, or_false]
  | bound name other =>
    simp only [Shows, exists_mem_modifyClass h, hname, ClassFact.bound.injEq]
    constructor
    · rintro ⟨d, hd, rfl, hstate⟩
      split at hstate
      · next heq =>
        obtain rfl := hsame d hd heq
        exact .inr ⟨rfl, (Option.some.inj hstate).symm⟩
      · exact .inl ⟨d, hd, rfl, hstate⟩
    · rintro (⟨d, hd, rfl, hstate⟩ | ⟨rfl, rfl⟩)
      · refine ⟨d, hd, rfl, ?_⟩
        rw [if_neg, hstate]
        intro heq
        obtain rfl := hsame d hd heq
        rw [BoundClass.isExposed, hstate] at hthin
        cases hthin
      · exact ⟨c, hc, rfl, by rw [if_pos rfl]; rfl⟩
  | linked derived base =>
    have hrest : ∀ d, (if c.id = d.id then expose source state d else d).id = d.id
        ∧ (if c.id = d.id then expose source state d else d).bases = d.bases := fun d => by
      split <;> exact ⟨rfl, rfl⟩
    simp only [Shows, exists_mem_modifyClass h, hname, hrest, reduceCtorEq, or_false]

/-- A new class has no bases, and is none. -/
theorem adds_appendClass (h : r.Rooted) (name scope source : String) (state : Option String) :
    Adds (fun x => x = .named (Scope.qualify scope name)
      ∨ ∃ s, state = some s ∧ x = .bound (Scope.qualify scope name) s) r (r.appendClass name scope source state).1 := by
  have hmem : ∀ P : BoundClass → Prop, (∃ c ∈ (r.appendClass name scope source state).1.classes, P c)
      ↔ (∃ c ∈ r.classes, P c) ∨ P { id := r.classes.length, name, scope, source, state } := by
    intro P
    simp [appendClass, or_and_right, exists_or]
  intro x
  cases x with
  | named other => simp [Shows, hmem, BoundClass.qualified, eq_comm]
  | bound other s =>
    simp only [Shows, hmem, BoundClass.qualified, reduceCtorEq, false_or, ClassFact.bound.injEq]
    refine or_congr_right ⟨fun hnew => ⟨s, hnew.2, hnew.1.symm, rfl⟩, ?_⟩
    rintro ⟨s', hstate, rfl, rfl⟩
    exact ⟨rfl, hstate⟩
  | linked derived base =>
    have hrange : ∀ c ∈ r.classes, r.classes.length ∉ c.bases := by
      intro c hc hbase
      have hin := h.basesInRange c.id r.classes.length (by rw [bases, class?, h.placed.getElem? hc]; exact hbase)
      exact Nat.lt_irrefl _ hin
    simp only [Shows, hmem, List.not_mem_nil, and_false, or_false, reduceCtorEq, exists_const]
    constructor
    · rintro (⟨c, hc, rfl, ⟨d, hd, hlink⟩ | ⟨-, hnew⟩⟩ | ⟨-, hfalse⟩)
      · exact ⟨c, hc, rfl, d, hd, hlink⟩
      · exact absurd hnew (hrange c hc)
      · exact hfalse.elim fun _ => False.elim
    · rintro ⟨c, hc, rfl, hlink⟩
      exact .inl ⟨c, hc, rfl, .inl hlink⟩

theorem mem_bases_derive {base other : ClassId} {c : BoundClass} :
    other ∈ (derive base c).bases ↔ other ∈ c.bases ∨ other = base := by
  rw [derive]
  split
  · next hold => exact ⟨.inl, fun h => h.elim id fun heq => heq ▸ by simpa using hold⟩
  · simp

theorem derive_state (base : ClassId) (c : BoundClass) : (derive base c).state = c.state := by
  rw [derive]
  split <;> rfl

/-- An edge between two classes. -/
theorem adds_derive (h : r.Placed) {c d : BoundClass} (hc : c ∈ r.classes) (hd : d ∈ r.classes) :
    Adds (· = .linked c.qualified d.qualified) r (r.modifyClass c.id (derive d.id)) := by
  have hsame : ∀ {a b : BoundClass}, a ∈ r.classes → b ∈ r.classes → a.id = b.id → a = b := fun ha hb heq =>
    Option.some.inj ((h.getElem? ha).symm.trans (heq ▸ h.getElem? hb))
  intro x
  cases x with
  | named | bound =>
    simp only [Shows, exists_mem_modifyClass h, apply_ite BoundClass.qualified, apply_ite BoundClass.state,
      derive_qualified, derive_state, ite_self, reduceCtorEq, or_false]
  | linked derived base =>
    have hbases : ∀ a ∈ r.classes, ∀ b ∈ r.classes, b.id ∈ (if c.id = a.id then derive d.id a else a).bases
        ↔ b.id ∈ a.bases ∨ (a = c ∧ b = d) := by
      intro a ha b hb
      split
      · next heq =>
        obtain rfl := hsame hc ha heq
        rw [mem_bases_derive]
        exact or_congr_right ⟨fun hid => ⟨rfl, hsame hb hd hid⟩, fun heq => congrArg BoundClass.id heq.2⟩
      · next hne => exact (or_iff_left fun heq => hne (congrArg BoundClass.id heq.1.symm)).symm
    simp only [Shows, exists_mem_modifyClass h, apply_ite BoundClass.qualified, apply_ite BoundClass.id,
      derive_qualified, derive_id, ite_self, ClassFact.linked.injEq]
    constructor
    · rintro ⟨a, ha, rfl, b, hb, rfl, hlink⟩
      rcases (hbases a ha b hb).1 hlink with hold | ⟨rfl, rfl⟩
      · exact .inl ⟨a, ha, rfl, b, hb, rfl, hold⟩
      · exact .inr ⟨rfl, rfl⟩
    · rintro (⟨a, ha, rfl, b, hb, rfl, hlink⟩ | ⟨rfl, rfl⟩)
      · exact ⟨a, ha, rfl, b, hb, rfl, (hbases a ha b hb).2 (.inl hlink)⟩
      · exact ⟨c, hc, rfl, d, hd, rfl, (hbases c hc d hd).2 (.inr ⟨rfl, rfl⟩)⟩

/-- Of classes with different names the facts tell the state of each. -/
theorem Named.shows_bound_iff (h : r.Named) {c : BoundClass} (hc : c ∈ r.classes) {state : String} :
    r.Shows (.bound c.qualified state) ↔ c.state = some state := by
  constructor
  · rintro ⟨d, hd, hname, hstate⟩
    rwa [h.eq_of_qualified_eq hc hd hname.symm]
  · exact fun hstate => ⟨c, hc, rfl, hstate⟩

/-- They tell the direct bases of each as well. -/
theorem Named.shows_linked_iff (h : r.Named) {c d : BoundClass} (hc : c ∈ r.classes) (hd : d ∈ r.classes) :
    r.Shows (.linked c.qualified d.qualified) ↔ d.id ∈ c.bases := by
  constructor
  · rintro ⟨c', hc', hname, d', hd', hname', hlink⟩
    rwa [h.eq_of_qualified_eq hc hc' hname.symm, h.eq_of_qualified_eq hd hd' hname'.symm]
  · exact fun hlink => ⟨c, hc, rfl, d, hd, rfl, hlink⟩

/-! ### Registrations -/

/-- A class that is looked for is there, or a thin one comes. -/
theorem adds_addThinClass (h : r.Rooted) (name scope source : String) :
    Adds (· = .named (Scope.qualify scope name)) r (r.addThinClass name scope source).1 := by
  rw [addThinClass]
  split
  · refine (adds_appendClass h name scope source none).congr fun x => or_iff_left ?_
    rintro ⟨s, hs, -⟩
    cases hs
  · next c hfind =>
    refine fun x => (or_iff_left_of_imp ?_).symm
    rintro rfl
    exact ⟨c, mem_of_find? hfind, qualified_of_find? hfind⟩

/-- A class that comes to be exposed. -/
theorem adds_addClass (h : r.Rooted) {name scope source state : String} {id : ClassId}
    (hadd : r.addClass name scope source state = .ok (r', id)) :
    Adds (fun x => x = .named (Scope.qualify scope name) ∨ x = .bound (Scope.qualify scope name) state) r r' := by
  obtain ⟨-, rfl, -⟩ | ⟨c, hfind, hthin, rfl, -⟩ := addClass_cases hadd
  · refine (adds_appendClass h name scope source (some state)).congr fun x => or_congr_right ?_
    simp
  · have hnamed : r.Shows (.named (Scope.qualify scope name)) := ⟨c, mem_of_find? hfind, qualified_of_find? hfind⟩
    have hexpose := adds_expose h.placed (mem_of_find? hfind) hthin source state
    rw [qualified_of_find? hfind] at hexpose
    intro x
    rw [hexpose x, ← or_assoc]
    exact or_congr_left (or_iff_left_of_imp fun heq => heq ▸ hnamed).symm

/-- Has the class with this id this name? -/
def Calls (r : Registry) (id : ClassId) (name : String) : Prop := ∃ c, r.class? id = some c ∧ c.qualified = name

theorem Calls.retains {id : ClassId} {name : String} (h : r.Calls id name) (hretains : Retains r r') :
    r'.Calls id name := by
  obtain ⟨c, hc, rfl⟩ := h
  obtain ⟨d, hd, hscope, hname, -⟩ := hretains id c hc
  exact ⟨d, hd, by rw [BoundClass.qualified, BoundClass.qualified, hscope, hname]⟩

theorem Calls.modifyClass {id : ClassId} {name : String} (h : r.Calls id name) (other : ClassId)
    {f : BoundClass → BoundClass} (hface : SameFace f) : (r.modifyClass other f).Calls id name := by
  obtain ⟨c, hc, rfl⟩ := h
  refine ⟨if other = id then f c else c, ?_, ?_⟩
  · rw [getElem?_modifyClass_eq, hc]
    rfl
  · split
    · exact hface.qualified c
    · rfl

/-- A class that is found has the id and the name that it is found by. -/
theorem calls_of_find? (h : r.Placed) {scope name : String} {c : BoundClass} (hfind : r.find? scope name = some c) :
    r.Calls c.id (Scope.qualify scope name) :=
  ⟨c, h.getElem? (mem_of_find? hfind), qualified_of_find? hfind⟩

theorem calls_addThinClass (h : r.Placed) (name scope source : String) :
    (r.addThinClass name scope source).1.Calls (r.addThinClass name scope source).2 (Scope.qualify scope name) := by
  obtain ⟨c, hfind, heq⟩ := Option.map_eq_some_iff.1 (classId?_addThinClass r name scope source)
  rw [← heq]
  exact calls_of_find? (h.addThinClass name scope source) hfind

theorem calls_addClass (h : r.Placed) {name scope source state : String} {id : ClassId}
    (hadd : r.addClass name scope source state = .ok (r', id)) : r'.Calls id (Scope.qualify scope name) := by
  obtain ⟨-, rfl, rfl⟩ | ⟨c, hfind, -, rfl, rfl⟩ := addClass_cases hadd
  · exact ⟨_, List.getElem?_concat_length, rfl⟩
  · exact (calls_of_find? h hfind).modifyClass c.id (sameFace_expose source state)

/-- What a class with these bases adds. -/
def BaseFacts (name : String) (bases : List String) (x : ClassFact) : Prop :=
  ∃ base ∈ bases, x = .named (Scope.canonical base) ∨ x = .linked name (Scope.canonical base)

/-- A base that is named adds its class and the edge to it. -/
theorem adds_addBaseNamed (h : r.Rooted) {id : ClassId} {name base : String} (hcalls : r.Calls id name)
    (hends : (addBaseNamed r id base).2 = none) :
    Adds (BaseFacts name [base]) r (addBaseNamed r id base).1 := by
  have hthin := adds_addThinClass h (Scope.splitQualified base).2 (Scope.splitQualified base).1 ""
  have hplaced := (h.addThinClass (Scope.splitQualified base).2 (Scope.splitQualified base).1 "").placed
  obtain ⟨d, hfind, hbase⟩ := Option.map_eq_some_iff.1
    (classId?_addThinClass r (Scope.splitQualified base).2 (Scope.splitQualified base).1 "")
  obtain ⟨c, hc, rfl⟩ := hcalls.retains
    (retains_addThinClass r (Scope.splitQualified base).2 (Scope.splitQualified base).1 "")
  obtain rfl : c.id = id := hplaced id c hc
  rw [addBaseNamed] at hends ⊢
  simp only [← hbase] at hends ⊢
  split at hends
  · next found hadd =>
    obtain ⟨-, rfl⟩ := addBase_ok hadd
    have hderive := adds_derive hplaced (List.mem_of_getElem? hc) (mem_of_find? hfind)
    rw [qualified_of_find? hfind] at hderive
    refine (hthin.trans hderive).congr fun x => ?_
    simp [BaseFacts, Scope.canonical]
  · cases hends

/-- All bases of a class, if none of them closes a cycle. -/
theorem adds_addBasesNamed (h : r.Rooted) {id : ClassId} {name : String} (hcalls : r.Calls id name)
    {bases : List String} (hends : (addBasesNamed r id bases).2 = none) :
    Adds (BaseFacts name bases) r (addBasesNamed r id bases).1 := by
  induction bases generalizing r with
  | nil => exact (Adds.refl r).congr fun x => by simp [BaseFacts]
  | cons base rest ih =>
    have ⟨c, hc, _⟩ := hcalls
    have hfirst : (addBaseNamed r id base).2 = none → Adds (BaseFacts name [base]) r (addBaseNamed r id base).1 :=
      adds_addBaseNamed h hcalls
    have hnext := hcalls.retains (grows_addBaseNamed r (List.getElem?_eq_some_iff.1 hc).1 base).retains
    have hrooted := (changes_addBaseNamed r id base).keeps Rooted.change h
    rw [addBasesNamed] at hends ⊢
    split at hends
    · next found heq =>
      rw [heq] at hfirst hnext hrooted
      refine ((hfirst rfl).trans (ih hrooted hnext hends)).congr fun x => ?_
      simp [BaseFacts]
    · cases hends

/-- A class that is nested in another one. -/
theorem adds_nestClass (h : r.Placed) (scope : String) (id : ClassId) :
    Adds (fun _ => False) r (nestClass r scope id) := by
  obtain hsame | ⟨outer, hnested⟩ := nestClass_cases r scope id
  · rw [hsame]
    exact .refl r
  · rw [hnested]
    refine adds_modifyClass h outer (sameFace_enclose id) fun c => ?_
    rw [enclose]
    split <;> rfl

/-! ### Thin classes -/

/-- Have classes the states and the bases that they had before? Others may have come that have neither. -/
structure AddsThin (r r' : Registry) : Prop where
  named : ∀ {name}, r.Shows (.named name) → r'.Shows (.named name)
  bound : ∀ {name state}, r'.Shows (.bound name state) ↔ r.Shows (.bound name state)
  linked : ∀ {derived base}, r'.Shows (.linked derived base) ↔ r.Shows (.linked derived base)

theorem Adds.addsThin (h : Adds new r r') (hnew : ∀ x, new x → ∃ name, x = .named name) : AddsThin r r' := by
  refine ⟨fun hnamed => (h _).2 (.inl hnamed), ?_, ?_⟩
  all_goals
    intro _ _
    rw [h]
    refine or_iff_left fun hx => ?_
    obtain ⟨name, heq⟩ := hnew _ hx
    cases heq

theorem AddsThin.trans (h : AddsThin r r') (h' : AddsThin r' r'') : AddsThin r r'' :=
  ⟨fun hnamed => h'.named (h.named hnamed), h'.bound.trans h.bound, h'.linked.trans h.linked⟩

end Adds

end Registry

end LuaGlue
