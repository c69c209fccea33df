import LuaGlue.Proofs.Isolation.Frame
import LuaGlue.Proofs.Selection.Regular

/-!
The classes of a registry over whole histories.

A `ClassStore` is a registry together with the ids it has handed out. Calls expose a class, mention one that may stay
thin, or add a base; an id comes back from each call that names a class, from a refused one too. Classes are
appended or changed in place, and no call takes back what an earlier one has settled (`BoundClass.Becomes`).

    expose, and there is    nothing ──▶ appended        a thin class ──▶ exposed in place
                            an exposed class ──▶ refused, and the store is as it was
-/

namespace LuaGlue

/-- A name without colons can be told from its scope, however the scope is written. -/
theorem Scope.eq_of_qualify_eq {scope name scope' name' : String} (h : IsPlain name) (h' : IsPlain name')
    (heq : qualify scope name = qualify scope' name') : scope = scope' ∧ name = name' := by
  have htext := congrArg String.toList heq
  rw [toList_qualify, toList_qualify] at htext
  have hcut := breakLast?_append (breakLast?_colon_cons h) scope.toList
  rw [htext, breakLast?_append (breakLast?_colon_cons h') scope'.toList] at hcut
  obtain ⟨hscope, hname⟩ := Prod.mk.inj (Option.some.inj hcut)
  exact ⟨String.toList_inj.1 hscope.symm, String.toList_inj.1 hname.symm⟩

/-! ### Calls -/

/-- A call that changes the classes of a registry. -/
inductive ClassCall where
  | expose (name scope source state : String)
  | mention (name scope source : String)
  | derive (derived base : ClassId)

/-- What a call answers. -/
inductive ClassAnswer where
  | named (id : ClassId)
  | refused (reason : SkipReason)
  | linked
  | looped (cause : Abort)

/-- The ids in an answer. -/
def ClassAnswer.ids : ClassAnswer → List ClassId
  | .named id | .refused (.duplicateClass _ id) => [id]
  | _ => []

/-- The registry after a call, and the answer. -/
def Registry.call (r : Registry) : ClassCall → Registry × ClassAnswer
  | .expose name scope source state =>
    match r.addClass name scope source state with
    | .ok (r', id) => (r', .named id)
    | .error reason => (r, .refused reason)
  | .mention name scope source =>
    let (r', id) := r.addThinClass name scope source
    (r', .named id)
  | .derive derived base =>
    match r.addBase derived base with
    | .ok r' => (r', .linked)
    | .error cause => (r, .looped cause)

/-- A registry with the ids that it has handed out. -/
structure ClassStore where
  registry : Registry
  issued : List ClassId

namespace ClassStore

/-- The store after a call. -/
def after (s : ClassStore) (c : ClassCall) : ClassStore :=
  ⟨(s.registry.call c).1, (s.registry.call c).2.ids ++ s.issued⟩

/-- Does the call use names without colons, and ids that were handed out? -/
def Admits (s : ClassStore) : ClassCall → Prop
  | .expose name _ _ _ | .mention name _ _ => Scope.IsPlain name
  | .derive derived base => derived ∈ s.issued ∧ base ∈ s.issued

/-- The stores that calls lead to. -/
inductive Reaches (s : ClassStore) : ClassStore → Prop where
  | start : Reaches s s
  | call {t : ClassStore} (h : Reaches s t) (c : ClassCall) (hc : t.Admits c) : Reaches s (t.after c)

end ClassStore

/-! ### Classes that stay -/

/-- What no call takes from a class: its id and names, the bases it has, and, once it is exposed, its state and
its header. -/
structure BoundClass.Becomes (c d : BoundClass) : Prop where
  id : d.id = c.id
  scope : d.scope = c.scope
  name : d.name = c.name
  bases : c.bases <+: d.bases
  settled : c.isExposed = true → d.state = c.state ∧ d.source = c.source

namespace BoundClass

theorem Becomes.refl (c : BoundClass) : c.Becomes c :=
  ⟨rfl, rfl, rfl, List.prefix_rfl, fun _ => ⟨rfl, rfl⟩⟩

theorem Becomes.qualified {c d : BoundClass} (h : c.Becomes d) : d.qualified = c.qualified := by
  rw [BoundClass.qualified, BoundClass.qualified, h.scope, h.name]

theorem Becomes.isExposed {c d : BoundClass} (h : c.Becomes d) (hc : c.isExposed = true) : d.isExposed = true := by
  rw [BoundClass.isExposed, (h.settled hc).1]
  exact hc

theorem Becomes.trans {c d e : BoundClass} (h : c.Becomes d) (h' : d.Becomes e) : c.Becomes e := by
  refine ⟨h'.id.trans h.id, h'.scope.trans h.scope, h'.name.trans h.name, h.bases.trans h'.bases, fun hc => ?_⟩
  obtain ⟨hstate, hsource⟩ := h.settled hc
  obtain ⟨hstate', hsource'⟩ := h'.settled (h.isExposed hc)
  exact ⟨hstate'.trans hstate, hsource'.trans hsource⟩

/-- Only a thin class may be exposed. -/
theorem becomes_expose {c : BoundClass} (h : c.isExposed = false) (source state : String) :
    c.Becomes (Registry.expose source state c) :=
  ⟨rfl, rfl, rfl, List.prefix_rfl, fun hc => absurd (hc.symm.trans h) nofun⟩

theorem becomes_derive (base : ClassId) (c : BoundClass) : c.Becomes (Registry.derive base c) := by
  rw [Registry.derive]
  split
  · exact .refl c
  · exact ⟨rfl, rfl, rfl, List.prefix_append _ _, fun _ => ⟨rfl, rfl⟩⟩

end BoundClass

namespace Registry

/-- Is every class of the first registry still there in the second one? -/
def Lasts (r r' : Registry) : Prop := ∀ id c, r.class? id = some c → ∃ d, r'.class? id = some d ∧ c.Becomes d

theorem Lasts.refl (r : Registry) : r.Lasts r := fun _ c hc => ⟨c, hc, .refl c⟩

theorem Lasts.trans {r r' r'' : Registry} (h : r.Lasts r') (h' : r'.Lasts r'') : r.Lasts r'' := by
  intro id c hc
  obtain ⟨d, hd, hbecomes⟩ := h id c hc
  obtain ⟨e, he, hbecomes'⟩ := h' id d hd
  exact ⟨e, he, hbecomes.trans hbecomes'⟩

theorem lasts_appendClass (r : Registry) (name scope source : String) (state : Option String) :
    r.Lasts (r.appendClass name scope source state).1 := by
  intro id c hc
  have hlt : id < r.classes.length := (List.getElem?_eq_some_iff.1 hc).1
  refine ⟨c, ?_, .refl c⟩
  rw [class?, appendClass, List.getElem?_append_left hlt]
  exact hc

theorem lasts_modifyClass {r : Registry} {id : ClassId} {f : BoundClass → BoundClass}
    (hf : ∀ c, r.class? id = some c → c.Becomes (f c)) : r.Lasts (r.modifyClass id f) := by
  intro other c hc
  refine ⟨_, by rw [getElem?_modifyClass_eq, hc]; rfl, ?_⟩
  split
  · next heq => exact hf c (heq ▸ hc)
  · exact .refl c

/-- Ids are places, and no two classes have one scope and name. -/
structure Indexed (r : Registry) : Prop where
  placed : r.Placed
  plain : ∀ c ∈ r.classes, Scope.IsPlain c.name
  distinct : ∀ (x y : ClassId) (c d : BoundClass), r.class? x = some c → r.class? y = some d →
    c.qualified = d.qualified → x = y

section Indexed

variable {r : Registry}

theorem Indexed.appendClass (h : r.Indexed) {name scope : String} (hname : Scope.IsPlain name)
    (hfree : r.find? scope name = none) (source : String) (state : Option String) :
    (r.appendClass name scope source state).1.Indexed := by
  have hnew : ∀ (x : ClassId) (c : BoundClass), r.class? x = some c → c.qualified ≠ Scope.qualify scope name := by
    intro x c hc
    simpa using List.find?_eq_none.1 hfree c (List.mem_of_getElem? hc)
  refine ⟨h.placed.appendClass name scope source state, fun c hc => ?_, fun x y c d hc hd heq => ?_⟩
  · rcases mem_appendClass hc with hold | rfl
    · exact h.plain c hold
    · exact hname
  · rcases getElem?_appendClass hc with hold | ⟨rfl, rfl⟩
    · rcases getElem?_appendClass hd with hold' | ⟨rfl, rfl⟩
      · exact h.distinct x y c d hold hold' heq
      · exact absurd heq (hnew x c hold)
    · rcases getElem?_appendClass hd with hold' | ⟨rfl, -⟩
      · exact absurd heq.symm (hnew y d hold')
      · rfl

theorem Indexed.modifyClass (h : r.Indexed) {id : ClassId} {f : BoundClass → BoundClass}
    (hid : ∀ c, (f c).id = c.id) (hscope : ∀ c, (f c).scope = c.scope) (hname : ∀ c, (f c).name = c.name) :
    (r.modifyClass id f).Indexed := by
  have hold : ∀ x c, (r.modifyClass id f).class? x = some c →
      ∃ old, r.class? x = some old ∧ c.scope = old.scope ∧ c.name = old.name := by
    intro x c hc
    obtain ⟨old, hold, rfl⟩ := getElem?_modifyClass hc
    refine ⟨old, hold, ?_⟩
    split
    · exact ⟨hscope old, hname old⟩
    · exact ⟨rfl, rfl⟩
  refine ⟨h.placed.modifyClass id hid, fun c hc => ?_, fun x y c d hc hd heq => ?_⟩
  · obtain ⟨x, hx⟩ := List.mem_iff_getElem?.1 hc
    obtain ⟨old, hmem, -, hsame⟩ := hold x c hx
    rw [hsame]
    exact h.plain old (List.mem_of_getElem? hmem)
  · obtain ⟨old, hplace, hs, hn⟩ := hold x c hc
    obtain ⟨old', hplace', hs', hn'⟩ := hold y d hd
    rw [BoundClass.qualified, BoundClass.qualified, hs, hn, hs', hn'] at heq
    exact h.distinct x y old old' hplace hplace' heq

/-- What is found by a plain name is the class of this very scope and name. -/
theorem Indexed.find?_eq_some_iff (h : r.Indexed) {scope name : String} (hname : Scope.IsPlain name)
    {c : BoundClass} : r.find? scope name = some c ↔ c ∈ r.classes ∧ c.scope = scope ∧ c.name = name := by
  constructor
  · intro hfind
    have hc := mem_of_find? hfind
    exact ⟨hc, Scope.eq_of_qualify_eq (h.plain c hc) hname (qualified_of_find? hfind)⟩
  · rintro ⟨hc, rfl, rfl⟩
    cases hfind : r.find? c.scope c.name with
    | none =>
      have hnone := List.find?_eq_none.1 hfind c hc
      simp [BoundClass.qualified] at hnone
    | some d =>
      have hd := mem_of_find? hfind
      have hplace := h.distinct _ _ d c (h.placed.getElem? hd) (h.placed.getElem? hc) (qualified_of_find? hfind)
      have hsame : some d = some c := (h.placed.getElem? hd).symm.trans (hplace ▸ h.placed.getElem? hc)
      exact hsame

theorem Indexed.classId?_eq_some_iff (h : r.Indexed) {scope name : String} (hname : Scope.IsPlain name)
    {id : ClassId} : r.classId? scope name = some id
      ↔ ∃ c, r.class? id = some c ∧ c.scope = scope ∧ c.name = name := by
  rw [classId?, Option.map_eq_some_iff]
  constructor
  · rintro ⟨c, hfind, rfl⟩
    obtain ⟨hc, hnames⟩ := (h.find?_eq_some_iff hname).1 hfind
    exact ⟨c, h.placed.getElem? hc, hnames⟩
  · rintro ⟨c, hc, hnames⟩
    exact ⟨c, (h.find?_eq_some_iff hname).2 ⟨List.mem_of_getElem? hc, hnames⟩, h.placed id c hc⟩

end Indexed

end Registry

/-! ### What a call does -/

/-- A class is exposed unless it is exposed already, and that depends on what is found under its name. -/
theorem Registry.addClass_eq (r : Registry) (name scope source state : String) :
    (r.find? scope name = none
        ∧ r.addClass name scope source state = .ok (r.appendClass name scope source (some state)))
      ∨ ∃ c, r.find? scope name = some c
        ∧ ((c.isExposed = false
            ∧ r.addClass name scope source state = .ok (r.modifyClass c.id (expose source state), c.id))
          ∨ (c.isExposed = true
            ∧ r.addClass name scope source state = .error (.duplicateClass c.qualified c.id))) := by
  rw [Registry.addClass]
  cases r.find? scope name with
  | none => exact .inl ⟨rfl, rfl⟩
  | some c =>
    refine .inr ⟨c, rfl, ?_⟩
    cases hc : c.isExposed with
    | false => exact .inl (by simp [hc])
    | true => exact .inr (by simp [hc])

/-- A call leaves every class where it is. -/
theorem Registry.lasts_call {r : Registry} (h : r.Placed) (c : ClassCall) : r.Lasts (r.call c).1 := by
  cases c with
  | expose name scope source state =>
    rw [Registry.call]
    rcases r.addClass_eq name scope source state with ⟨-, hadd⟩ | ⟨found, hfind, ⟨hthin, hadd⟩ | ⟨-, hadd⟩⟩
    · rw [hadd]
      exact lasts_appendClass r name scope source (some state)
    · rw [hadd]
      refine lasts_modifyClass fun d hd => ?_
      obtain rfl : found = d := Option.some.inj ((h.getElem? (mem_of_find? hfind)).symm.trans hd)
      exact BoundClass.becomes_expose hthin source state
    · rw [hadd]
      exact .refl r
  | mention name scope source =>
    rw [Registry.call, Registry.addThinClass]
    cases r.find? scope name with
    | none => exact lasts_appendClass r name scope source none
    | some found => exact .refl r
  | derive derived base =>
    rw [Registry.call]
    cases hadd : r.addBase derived base with
    | error cause => exact .refl r
    | ok r' =>
      obtain ⟨-, rfl⟩ := addBase_ok hadd
      exact lasts_modifyClass fun d _ => BoundClass.becomes_derive base d

namespace ClassStore

/-- What holds of a store after any calls: its classes are indexed, and its ids are in use. -/
structure Valid (s : ClassStore) : Prop where
  indexed : s.registry.Indexed
  issued : ∀ id ∈ s.issued, id < s.registry.classes.length

theorem valid_empty (patches : Patches) : Valid ⟨{ patches }, []⟩ :=
  ⟨⟨nofun, nofun, nofun⟩, nofun⟩

variable {s t : ClassStore}

/-- What calls keep: the store stays valid, and its classes last. -/
structure Follows (s t : ClassStore) : Prop where
  valid : t.Valid
  lasts : s.registry.Lasts t.registry

theorem Valid.appended (h : s.Valid) {name scope : String} (hname : Scope.IsPlain name)
    (hfree : s.registry.find? scope name = none) (source : String) (state : Option String) :
    Valid ⟨(s.registry.appendClass name scope source state).1,
      (s.registry.appendClass name scope source state).2 :: s.issued⟩ := by
  refine ⟨h.indexed.appendClass hname hfree source state, fun id hid => ?_⟩
  have hlength : (s.registry.appendClass name scope source state).1.classes.length
      = s.registry.classes.length + 1 := by simp [Registry.appendClass]
  rw [hlength]
  rcases List.mem_cons.1 hid with rfl | hold
  · exact Nat.lt_succ_self _
  · exact Nat.lt_succ_of_lt (h.issued id hold)

/-- An id of a class that was found. -/
theorem Valid.known (h : s.Valid) {c : BoundClass} (hc : c ∈ s.registry.classes) :
    Valid ⟨s.registry, c.id :: s.issued⟩ := by
  refine ⟨h.indexed, fun id hid => ?_⟩
  rcases List.mem_cons.1 hid with rfl | hold
  · exact h.indexed.placed.id_lt hc
  · exact h.issued id hold

/-- One class changes in place. -/
theorem Valid.modified (h : s.Valid) {id : ClassId} {f : BoundClass → BoundClass} (hid : ∀ c, (f c).id = c.id)
    (hscope : ∀ c, (f c).scope = c.scope) (hname : ∀ c, (f c).name = c.name) :
    Valid ⟨s.registry.modifyClass id f, s.issued⟩ := by
  refine ⟨h.indexed.modifyClass hid hscope hname, fun other hother => ?_⟩
  have hlength : (s.registry.modifyClass id f).classes.length = s.registry.classes.length := by
    simp [Registry.modifyClass]
  rw [hlength]
  exact h.issued other hother

theorem Valid.after (h : s.Valid) {c : ClassCall} (hc : s.Admits c) : (s.after c).Valid := by
  rw [ClassStore.after]
  cases c with
  | expose name scope source state =>
    rw [Registry.call]
    rcases s.registry.addClass_eq name scope source state with
      ⟨hfree, hadd⟩ | ⟨found, hfind, ⟨-, hadd⟩ | ⟨-, hadd⟩⟩
    · rw [hadd]
      exact h.appended hc hfree source (some state)
    · rw [hadd]
      exact (h.known (Registry.mem_of_find? hfind)).modified (fun _ => rfl) (fun _ => rfl) fun _ => rfl
    · rw [hadd]
      exact h.known (Registry.mem_of_find? hfind)
  | mention name scope source =>
    rw [Registry.call, Registry.addThinClass]
    cases hfind : s.registry.find? scope name with
    | none => exact h.appended hc hfind source none
    | some found => exact h.known (Registry.mem_of_find? hfind)
  | derive derived base =>
    rw [Registry.call]
    cases hadd : s.registry.addBase derived base with
    | error cause => exact h
    | ok r =>
      obtain ⟨-, rfl⟩ := Registry.addBase_ok hadd
      exact h.modified (Registry.derive_id base) (Registry.derive_scope base) (Registry.derive_name base)

theorem Valid.reaches (h : s.Valid) (hreaches : s.Reaches t) : s.Follows t := by
  induction hreaches with
  | start => exact ⟨h, .refl _⟩
  | call _ c hc ih =>
    exact ⟨ih.valid.after hc, ih.lasts.trans (Registry.lasts_call ih.valid.indexed.placed c)⟩

/-- CORRECT: ids are places, and a name without colons leads to the class of exactly this scope and name. An id that
was handed out goes on naming the class it named, with all its bases. Exposing a class appends it, exposes it in
place, or is refused, and an exposed class keeps its state and its header: each later call to expose it is refused
with its id and leaves the registry as it is. -/
theorem first_registration_kept (patches : Patches) {s t : ClassStore} (hs : Reaches ⟨{ patches }, []⟩ s)
    (ht : s.Reaches t) :
    (∀ id c, s.registry.class? id = some c → c.id = id)
      ∧ (∀ scope name id, Scope.IsPlain name → (s.registry.classId? scope name = some id
          ↔ ∃ c, s.registry.class? id = some c ∧ c.scope = scope ∧ c.name = name))
      ∧ (∀ id ∈ s.issued, ∃ c d, s.registry.class? id = some c ∧ t.registry.class? id = some d
          ∧ d.scope = c.scope ∧ d.name = c.name ∧ c.bases <+: d.bases)
      ∧ (∀ name scope source state, Scope.IsPlain name →
          (s.registry.classId? scope name = none
            ∧ s.registry.call (.expose name scope source state)
              = ((s.registry.appendClass name scope source (some state)).1, .named s.registry.classes.length))
          ∨ ∃ id c, s.registry.class? id = some c ∧ c.scope = scope ∧ c.name = name
            ∧ ((c.isExposed = false ∧ ∃ r, s.registry.call (.expose name scope source state) = (r, .named id)
                ∧ r.class? id = some { c with
                    state := some state, source := if source.isEmpty then c.source else source }
                ∧ ∀ other ≠ id, r.class? other = s.registry.class? other)
              ∨ (c.isExposed = true ∧ s.registry.call (.expose name scope source state)
                = (s.registry, .refused (.duplicateClass c.qualified id)))))
      ∧ ∀ id c, s.registry.class? id = some c → c.isExposed = true →
          ∃ d, t.registry.class? id = some d ∧ d.state = c.state ∧ d.source = c.source
            ∧ ∀ source state, t.registry.call (.expose c.name c.scope source state)
              = (t.registry, .refused (.duplicateClass c.qualified id)) := by
  have hvalid : s.Valid := ((valid_empty patches).reaches hs).valid
  have hlater := hvalid.reaches ht
  have hplaced := hvalid.indexed.placed
  refine ⟨hplaced, fun scope name id hname => hvalid.indexed.classId?_eq_some_iff hname, fun id hid => ?_,
    fun name scope source state hname => ?_, fun id c hc hexposed => ?_⟩
  · have hc := List.getElem?_eq_getElem (hvalid.issued id hid)
    obtain ⟨d, hd, hbecomes⟩ := hlater.lasts id _ hc
    exact ⟨_, d, hc, hd, hbecomes.scope, hbecomes.name, hbecomes.bases⟩
  · rcases s.registry.addClass_eq name scope source state with
      ⟨hfree, hadd⟩ | ⟨c, hfind, ⟨hthin, hadd⟩ | ⟨hexposed, hadd⟩⟩
    · refine .inl ⟨?_, ?_⟩
      · rw [Registry.classId?, hfree]
        rfl
      · rw [Registry.call, hadd]
        rfl
    · obtain ⟨hc, hscope, hname'⟩ := (hvalid.indexed.find?_eq_some_iff hname).1 hfind
      have hplace : s.registry.class? c.id = some c := hplaced.getElem? hc
      refine .inr ⟨c.id, c, hplace, hscope, hname', .inl ⟨hthin,
        s.registry.modifyClass c.id (Registry.expose source state), ?_, ?_, fun other hother => ?_⟩⟩
      · rw [Registry.call, hadd]
      · rw [Registry.getElem?_modifyClass_eq, hplace]
        simp [Registry.expose]
      · rw [Registry.getElem?_modifyClass_eq]
        simp [Ne.symm hother]
    · obtain ⟨hc, hscope, hname'⟩ := (hvalid.indexed.find?_eq_some_iff hname).1 hfind
      refine .inr ⟨c.id, c, hplaced.getElem? hc, hscope, hname', .inr ⟨hexposed, ?_⟩⟩
      rw [Registry.call, hadd]
  · obtain ⟨d, hd, hbecomes⟩ := hlater.lasts id c hc
    obtain ⟨hstate, hsource⟩ := hbecomes.settled hexposed
    refine ⟨d, hd, hstate, hsource, fun source state => ?_⟩
    have hplain : Scope.IsPlain c.name := hvalid.indexed.plain c (List.mem_of_getElem? hc)
    have hfind : t.registry.find? c.scope c.name = some d :=
      (hlater.valid.indexed.find?_eq_some_iff hplain).2 ⟨List.mem_of_getElem? hd, hbecomes.scope, hbecomes.name⟩
    rw [Registry.call, Registry.addClass, hfind]
    simp only
    rw [if_pos (hbecomes.isExposed hexposed), hbecomes.qualified, hbecomes.id, hplaced id c hc]

/-- `Base` is mentioned first, and exposed in place. -/
def withBase : ClassStore :=
  ((ClassStore.mk {} []).after (.mention "Base" "" "")).after (.expose "Base" "" "base.hpp" "Main")

/-- `Leaf` comes after it. -/
def withLeaf : ClassStore := withBase.after (.mention "Leaf" "" "leaf.hpp")

/-- A second declaration of `Base` comes too late. -/
theorem base_exposed_once : Reaches ⟨{}, []⟩ withBase ∧ withBase.Reaches withLeaf
    ∧ withBase.issued = [0, 0]
    ∧ ∃ d, withLeaf.registry.class? 0 = some d ∧ d.state = some "Main" ∧ d.source = "base.hpp"
      ∧ withLeaf.registry.call (.expose "Base" "" "other.hpp" "Editor")
        = (withLeaf.registry, .refused (.duplicateClass "::Base" 0)) := by
  have hplain : Scope.IsPlain "Base" := by decide
  have hmention : Reaches ⟨{}, []⟩ ((ClassStore.mk {} []).after (.mention "Base" "" "")) :=
    .call .start (.mention "Base" "" "") hplain
  have hbase : Reaches ⟨{}, []⟩ withBase := .call hmention (.expose "Base" "" "base.hpp" "Main") hplain
  have hplainLeaf : Scope.IsPlain "Leaf" := by decide
  have hleaf : withBase.Reaches withLeaf := .call .start (.mention "Leaf" "" "leaf.hpp") hplainLeaf
  obtain ⟨d, hd, hstate, hsource, hrefused⟩ := (first_registration_kept {} hbase hleaf).2.2.2.2 0 _ rfl rfl
  exact ⟨hbase, hleaf, rfl, d, hd, hstate, hsource, hrefused "other.hpp" "Editor"⟩

end ClassStore

end LuaGlue
