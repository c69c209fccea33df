import LuaGlue.Proofs.ClassTable
import LuaGlue.Selection.Register

/-!
A registry taken apart into what is bound and the rest.

A function is bound at a `Place`: under a key among the free functions, or under a name in a class. The
*frame* of a registry is everything else but the recorded function types. A registry is its frame, what is
bound at each place, and its function types (`Registry.eq_of_frame_eq`). Registering classes, bases and
enums is a `Framed` step: it depends on the frame alone and leaves every place as it is. Binding a function
fills one place and leaves the frame.

    registry = frame + places + function types
-/

namespace LuaGlue

/-! ### Places -/

/-- Where a function is bound. -/
inductive Place where
  | free (key : String)
  | member (id : ClassId) (kind : MemberKind) (name : String)
  deriving DecidableEq, Repr

/-- The class without its members. -/
def BoundClass.frame (c : BoundClass) : BoundClass :=
  { c with functions := ∅, statics := ∅, constructors := ∅, metamethods := ∅ }

theorem BoundClass.frame_withMembers (c : BoundClass) (kind : MemberKind) (functions : Functions) :
    (c.withMembers kind functions).frame = c.frame := by
  cases kind <;> rfl

theorem BoundClass.id_of_frame_eq {c d : BoundClass} (h : c.frame = d.frame) : c.id = d.id :=
  @congrArg _ _ c.frame d.frame BoundClass.id h

theorem BoundClass.isExposed_of_frame_eq {c d : BoundClass} (h : c.frame = d.frame) : c.isExposed = d.isExposed :=
  @congrArg _ _ c.frame d.frame BoundClass.isExposed h

theorem BoundClass.source_of_frame_eq {c d : BoundClass} (h : c.frame = d.frame) : c.source = d.source :=
  @congrArg _ _ c.frame d.frame BoundClass.source h

theorem BoundClass.eq_of_frame_eq {c d : BoundClass} (hframe : c.frame = d.frame)
    (hmembers : ∀ kind, c.members kind = d.members kind) : c = d := by
  have hfunctions : c.functions = d.functions := hmembers .function
  have hstatics : c.statics = d.statics := hmembers .static
  have hconstructors : c.constructors = d.constructors := hmembers .constructor
  have hmetamethods : c.metamethods = d.metamethods := hmembers .metamethod
  cases c
  cases d
  simp_all [frame]

namespace Registry

/-- The registry without functions, members and function types. -/
def frame (r : Registry) : Registry :=
  { r with classes := r.classes.map BoundClass.frame, functions := ∅, signatures := ∅ }

/-- The classes without their members. -/
def bare (r : Registry) : List BoundClass := r.classes.map BoundClass.frame

/-- What is bound at a place. -/
def bound? (r : Registry) : Place → Option BoundFunction
  | .free key => r.functions.get? key
  | .member id kind name => (r.class? id).bind fun c => (c.members kind).get? name

/-- Is there such a place? -/
def hosts (r : Registry) : Place → Bool
  | .free _ => true
  | .member id _ _ => (r.class? id).isSome

/-- The registry with a function bound at a place. -/
def put (r : Registry) (p : Place) (f : BoundFunction) : Registry :=
  match p with
  | .free key => { r with functions := r.functions.insert key f }
  | .member id kind name => r.modifyClass id fun c => c.withMembers kind ((c.members kind).insert name f)

section Frame

variable {r r' : Registry}

theorem map_eq_map_cases {α β : Type} {f : α → β} {x y : Option α} (h : x.map f = y.map f) :
    (x = none ∧ y = none) ∨ ∃ a b, x = some a ∧ y = some b ∧ f a = f b := by
  cases x with
  | none => exact .inl ⟨rfl, (Option.map_eq_none_iff.1 h.symm)⟩
  | some a =>
    obtain ⟨b, hb, hfb⟩ := Option.map_eq_some_iff.1 h.symm
    exact .inr ⟨a, b, rfl, hb, hfb.symm⟩

theorem class?_of_bare_eq (h : r.bare = r'.bare) (id : ClassId) :
    (r.class? id = none ∧ r'.class? id = none)
      ∨ ∃ c c', r.class? id = some c ∧ r'.class? id = some c' ∧ c.frame = c'.frame := by
  refine map_eq_map_cases (f := BoundClass.frame) ?_
  rw [class?, class?, ← List.getElem?_map, ← List.getElem?_map]
  exact congrArg (·[id]?) h

theorem find?_of_bare_eq (h : r.bare = r'.bare) (scope name : String) :
    (r.find? scope name = none ∧ r'.find? scope name = none)
      ∨ ∃ c c', r.find? scope name = some c ∧ r'.find? scope name = some c' ∧ c.frame = c'.frame := by
  have hfind : ∀ q : Registry, (q.find? scope name).map BoundClass.frame
      = q.bare.find? fun c => c.qualified == Scope.qualify scope name := by
    intro q
    rw [bare, List.find?_map]
    rfl
  refine map_eq_map_cases (f := BoundClass.frame) ?_
  rw [hfind, hfind, h]

theorem class?_of_frame_eq (h : r.frame = r'.frame) (id : ClassId) :
    (r.class? id = none ∧ r'.class? id = none)
      ∨ ∃ c c', r.class? id = some c ∧ r'.class? id = some c' ∧ c.frame = c'.frame :=
  class?_of_bare_eq (congrArg classes h) id

theorem find?_of_frame_eq (h : r.frame = r'.frame) (scope name : String) :
    (r.find? scope name = none ∧ r'.find? scope name = none)
      ∨ ∃ c c', r.find? scope name = some c ∧ r'.find? scope name = some c' ∧ c.frame = c'.frame :=
  find?_of_bare_eq (congrArg classes h) scope name

theorem length_of_frame_eq (h : r.frame = r'.frame) : r.classes.length = r'.classes.length := by
  have hclasses : r.classes.map BoundClass.frame = r'.classes.map BoundClass.frame := congrArg classes h
  simpa using congrArg List.length hclasses

theorem hosts_of_frame_eq (h : r.frame = r'.frame) (p : Place) : r.hosts p = r'.hosts p := by
  cases p with
  | free key => rfl
  | member id kind name =>
    rcases class?_of_frame_eq h id with ⟨hr, hr'⟩ | ⟨c, c', hr, hr', -⟩
    · rw [hosts, hosts, hr, hr']
    · rw [hosts, hosts, hr, hr']
      rfl

/-- A registry is its frame, what is bound in it, and its function types. -/
theorem eq_of_frame_eq (h : r.frame = r'.frame) (hbound : ∀ p, r.bound? p = r'.bound? p)
    (hsignatures : r.signatures = r'.signatures) : r = r' := by
  have hfunctions : r.functions = r'.functions := NameMap.ext_get? fun key => hbound (.free key)
  have hclasses : r.classes = r'.classes := by
    refine List.ext_getElem? fun id => ?_
    rcases class?_of_frame_eq h id with ⟨hr, hr'⟩ | ⟨c, c', hr, hr', hframe⟩
    · exact hr.trans hr'.symm
    · refine hr.trans (Eq.trans (congrArg some ?_) hr'.symm)
      refine BoundClass.eq_of_frame_eq hframe fun kind => NameMap.ext_get? fun name => ?_
      have hplace := hbound (.member id kind name)
      rw [bound?, bound?, hr, hr'] at hplace
      exact hplace
  cases r
  cases r'
  simp_all [frame]

/-! ### Filling places -/

theorem getElem?_modifyClass_eq (r : Registry) (id other : ClassId) (f : BoundClass → BoundClass) :
    (r.modifyClass id f).class? other = (r.class? other).map fun c => if id = other then f c else c := by
  rw [class?, modifyClass, List.getElem?_modify]
  split <;> rfl

theorem frame_modifyClass_of_frame_eq (r : Registry) (id : ClassId) {f : BoundClass → BoundClass}
    (hf : ∀ c, (f c).frame = c.frame) : (r.modifyClass id f).frame = r.frame := by
  have hclasses : (r.modifyClass id f).classes.map BoundClass.frame = r.classes.map BoundClass.frame := by
    refine List.ext_getElem? fun other => ?_
    rw [List.getElem?_map, List.getElem?_map]
    have hclass := getElem?_modifyClass_eq r id other f
    rw [class?, class?] at hclass
    rw [hclass, Option.map_map]
    refine Option.map_congr fun c _ => ?_
    rw [Function.comp_apply]
    split
    · exact hf c
    · rfl
  rw [frame, hclasses]
  rfl

theorem frame_put (r : Registry) (p : Place) (f : BoundFunction) : (r.put p f).frame = r.frame := by
  cases p with
  | free key => rfl
  | member id kind name => exact frame_modifyClass_of_frame_eq r id fun c => c.frame_withMembers kind _

theorem signatures_put (r : Registry) (p : Place) (f : BoundFunction) : (r.put p f).signatures = r.signatures := by
  cases p <;> rfl

theorem bound?_put_self (r : Registry) {p : Place} (h : r.hosts p = true) (f : BoundFunction) :
    (r.put p f).bound? p = some f := by
  cases p with
  | free key => exact NameMap.get?_insert_self r.functions key f
  | member id kind name =>
    obtain ⟨c, hc⟩ := Option.isSome_iff_exists.1 h
    rw [put, bound?, getElem?_modifyClass_eq, hc]
    simp [BoundClass.members_withMembers, NameMap.get?_insert_self]

theorem bound?_put_of_ne (r : Registry) {p q : Place} (h : q ≠ p) (f : BoundFunction) :
    (r.put p f).bound? q = r.bound? q := by
  cases p with
  | free key =>
    cases q with
    | free other => exact NameMap.get?_insert_of_ne r.functions f fun heq => h (by rw [heq])
    | member id kind name => rfl
  | member id kind name =>
    cases q with
    | free other => rfl
    | member id' kind' name' =>
      rw [put, bound?, bound?, getElem?_modifyClass_eq]
      cases r.class? id' with
      | none => rfl
      | some c =>
        simp only [Option.map_some, Option.bind_some]
        split
        · next hid =>
          rw [BoundClass.members_withMembers]
          split
          · next hkind =>
            subst hid hkind
            exact NameMap.get?_insert_of_ne _ f fun heq => h (by rw [heq])
          · rfl
        · rfl

/-- Nothing is bound where there is no place. -/
theorem bound?_of_not_hosts {p : Place} (h : r.hosts p = false) : r.bound? p = none := by
  cases p with
  | free key => cases h
  | member id kind name =>
    have hnone : r.class? id = none := by simpa [hosts] using h
    rw [bound?, hnone]
    rfl

end Frame

/-! ### Steps on the frame -/

/-- Does a step depend on the frame alone, and leave what is bound and the function types? -/
structure Framed {α : Type} (step : Registry → Registry × α) : Prop where
  congr : ∀ {r r'}, r.frame = r'.frame → (step r).1.frame = (step r').1.frame ∧ (step r).2 = (step r').2
  bound : ∀ r p, (step r).1.bound? p = r.bound? p
  signatures : ∀ r, (step r).1.signatures = r.signatures

section Framed

variable {α β : Type}

theorem Framed.pure (a : α) : Framed fun r => (r, a) := ⟨fun h => ⟨h, rfl⟩, fun _ _ => rfl, fun _ => rfl⟩

theorem Framed.bind {step : Registry → Registry × α} {next : α → Registry → Registry × β} (h : Framed step)
    (hnext : ∀ a, Framed (next a)) : Framed fun r => next (step r).2 (step r).1 := by
  refine ⟨fun {r r'} hframe => ?_, fun r p => ?_, fun r => ?_⟩
  · obtain ⟨hfirst, hresult⟩ := h.congr hframe
    simp only [hresult]
    exact (hnext _).congr hfirst
  · rw [(hnext _).bound, h.bound]
  · rw [(hnext _).signatures, h.signatures]

/-- A class that is changed without its members. -/
theorem framed_modifyClass (id : ClassId) {f : BoundClass → BoundClass}
    (hf : ∀ c c', c.frame = c'.frame → (f c).frame = (f c').frame)
    (hmembers : ∀ c kind, (f c).members kind = c.members kind) : Framed fun r => (r.modifyClass id f, ()) := by
  refine ⟨fun {r r'} h => ⟨?_, rfl⟩, fun r p => ?_, fun r => rfl⟩
  · have hclasses : (r.modifyClass id f).classes.map BoundClass.frame
        = (r'.modifyClass id f).classes.map BoundClass.frame := by
      refine List.ext_getElem? fun other => ?_
      have hclass := getElem?_modifyClass_eq r id other f
      have hclass' := getElem?_modifyClass_eq r' id other f
      rw [List.getElem?_map, List.getElem?_map]
      rw [class?] at hclass hclass'
      rw [hclass, hclass']
      rcases class?_of_frame_eq h other with ⟨hr, hr'⟩ | ⟨c, c', hr, hr', hframe⟩
      · rw [hr, hr']
      · rw [hr, hr']
        simp only [Option.map_some]
        split
        · rw [hf c c' hframe]
        · rw [hframe]
    have hrest : ({ r with classes := [], functions := ∅, signatures := ∅ } : Registry)
        = { r' with classes := [], functions := ∅, signatures := ∅ } :=
      congrArg (fun q : Registry => { q with classes := [] }) h
    calc (r.modifyClass id f).frame
        = { ({ r with classes := [], functions := ∅, signatures := ∅ } : Registry) with
            classes := (r.modifyClass id f).classes.map BoundClass.frame } := rfl
      _ = { ({ r' with classes := [], functions := ∅, signatures := ∅ } : Registry) with
            classes := (r'.modifyClass id f).classes.map BoundClass.frame } := by rw [hrest, hclasses]
      _ = (r'.modifyClass id f).frame := rfl
  · cases p with
    | free key => rfl
    | member other kind name =>
      rw [bound?, bound?, getElem?_modifyClass_eq]
      cases r.class? other with
      | none => rfl
      | some c =>
        simp only [Option.map_some, Option.bind_some]
        split
        · rw [hmembers]
        · rfl

theorem framed_appendClass (name scope source : String) (state : Option String) :
    Framed fun r => r.appendClass name scope source state := by
  refine ⟨fun {r r'} h => ?_, fun r p => ?_, fun r => rfl⟩
  · have hlength := length_of_frame_eq h
    refine ⟨?_, hlength⟩
    have hstep : ∀ q : Registry, (q.appendClass name scope source state).1.frame
        = (q.frame.appendClass name scope source state).1 := by
      intro q
      simp [appendClass, frame, BoundClass.frame]
    rw [hstep, hstep, h]
  · cases p with
    | free key => rfl
    | member id kind name =>
      rw [bound?, bound?, class?, class?, appendClass]
      rcases Nat.lt_or_ge id r.classes.length with hlt | hge
      · rw [List.getElem?_append_left hlt]
      · rw [List.getElem?_append_right hge, List.getElem?_eq_none hge, List.getElem?_singleton]
        split
        · cases kind <;> rfl
        · rfl

theorem framed_addThinClass (name scope source : String) : Framed fun r => r.addThinClass name scope source := by
  have happend := framed_appendClass name scope source none
  refine ⟨fun {r r'} h => ?_, fun r p => ?_, fun r => ?_⟩
  · rcases find?_of_frame_eq h scope name with ⟨hr, hr'⟩ | ⟨c, c', hr, hr', hframe⟩
    · rw [addThinClass, addThinClass, hr, hr']
      exact happend.congr h
    · rw [addThinClass, addThinClass, hr, hr']
      exact ⟨h, BoundClass.id_of_frame_eq hframe⟩
  · simp only [addThinClass]
    split
    · exact happend.bound r p
    · rfl
  · simp only [addThinClass]
    split
    · exact happend.signatures r
    · rfl

/-- A class that is exposed, if it can be. -/
theorem framed_addClass (name scope source state : String) : Framed fun r =>
    match r.addClass name scope source state with
    | .ok (r', id) => (r', some id)
    | .error _ => (r, none) := by
  have happend := framed_appendClass name scope source (some state)
  have hexpose : ∀ id, Framed fun r => (r.modifyClass id (expose source state), ()) := by
    refine fun id => framed_modifyClass id (fun c c' h => ?_) fun c kind => by cases kind <;> rfl
    have hstep : ∀ d : BoundClass, (expose source state d).frame = expose source state d.frame := fun d => rfl
    rw [hstep, hstep, h]
  refine ⟨fun {r r'} h => ?_, fun r p => ?_, fun r => ?_⟩
  · rcases find?_of_frame_eq h scope name with ⟨hr, hr'⟩ | ⟨c, c', hr, hr', hframe⟩
    · rw [addClass, addClass, hr, hr']
      obtain ⟨hclasses, hid⟩ := happend.congr h
      exact ⟨hclasses, congrArg some hid⟩
    · have hid := BoundClass.id_of_frame_eq hframe
      have hexposed := BoundClass.isExposed_of_frame_eq hframe
      rw [addClass, addClass, hr, hr']
      simp only [hexposed, hid]
      split
      · next hok =>
        split at hok
        · cases hok
        · next hthin =>
          cases hok
          rw [if_neg hthin]
          exact ⟨((hexpose _).congr h).1, rfl⟩
      · next herror =>
        split at herror
        · next hknown =>
          rw [if_pos hknown]
          exact ⟨h, rfl⟩
        · cases herror
  · simp only [addClass]
    split
    · next hok =>
      split at hok
      · cases hok
        exact happend.bound r p
      · split at hok
        · cases hok
        · cases hok
          exact (hexpose _).bound r p
    · rfl
  · simp only [addClass]
    split
    · next hok =>
      split at hok
      · cases hok
        rfl
      · split at hok
        · cases hok
        · cases hok
          rfl
    · rfl

theorem bases_of_frame_eq {r r' : Registry} (h : r.frame = r'.frame) : r.bases = r'.bases := by
  funext id
  rw [bases, bases]
  rcases class?_of_frame_eq h id with ⟨hr, hr'⟩ | ⟨c, c', hr, hr', hframe⟩
  · rw [hr, hr']
  · rw [hr, hr']
    exact @congrArg _ _ c.frame c'.frame BoundClass.bases hframe

theorem nameOf_of_frame_eq {r r' : Registry} (h : r.frame = r'.frame) (id : ClassId) :
    r.nameOf id = r'.nameOf id := by
  rw [nameOf, nameOf]
  rcases class?_of_frame_eq h id with ⟨hr, hr'⟩ | ⟨c, c', hr, hr', hframe⟩
  · rw [hr, hr']
  · rw [hr, hr']
    exact @congrArg _ _ c.frame c'.frame BoundClass.qualified hframe

/-- A base that is added, or the abort. -/
theorem framed_addBase (derived base : ClassId) : Framed fun r =>
    match r.addBase derived base with
    | .ok r' => (r', none)
    | .error abort => (r, some abort) := by
  have hderive : Framed fun r => (r.modifyClass derived (derive base), ()) := by
    refine framed_modifyClass derived (fun c c' h => ?_) fun c kind => ?_
    · have hstep : ∀ d : BoundClass, (derive base d).frame = derive base d.frame := by
        intro d
        have hbases : d.frame.bases = d.bases := rfl
        rw [derive, derive, hbases]
        split <;> rfl
      rw [hstep, hstep, h]
    · rw [derive]
      split
      · rfl
      · cases kind <;> rfl
  refine ⟨fun {r r'} h => ?_, fun r p => ?_, fun r => ?_⟩
  · have hcycle : r.closesCycle derived base = r'.closesCycle derived base := by
      rw [closesCycle, closesCycle, flattenedBases, flattenedBases, bases_of_frame_eq h, length_of_frame_eq h]
    rw [addBase, addBase, hcycle, nameOf_of_frame_eq h, nameOf_of_frame_eq h]
    cases r'.closesCycle derived base with
    | true => exact ⟨h, rfl⟩
    | false => exact ⟨(hderive.congr h).1, rfl⟩
  · simp only [addBase]
    cases r.closesCycle derived base with
    | true => rfl
    | false => exact hderive.bound r p
  · simp only [addBase]
    cases r.closesCycle derived base <;> rfl

end Framed

end Registry

namespace Selection

open Registry

theorem framed_addBaseNamed (id : ClassId) (base : String) : Framed fun r => addBaseNamed r id base := by
  have hsteps := (framed_addThinClass (Scope.splitQualified base).2 (Scope.splitQualified base).1 "").bind
    fun baseId => framed_addBase id baseId
  have heq : (fun r => addBaseNamed r id base) = fun r =>
      (match (r.addThinClass (Scope.splitQualified base).2 (Scope.splitQualified base).1 "").1.addBase id
          (r.addThinClass (Scope.splitQualified base).2 (Scope.splitQualified base).1 "").2 with
        | .ok r' => (r', none)
        | .error abort =>
          ((r.addThinClass (Scope.splitQualified base).2 (Scope.splitQualified base).1 "").1, some abort)) := rfl
  rw [heq]
  exact hsteps

theorem framed_addBasesNamed (id : ClassId) (bases : List String) : Framed fun r => addBasesNamed r id bases := by
  induction bases with
  | nil => exact .pure none
  | cons base rest ih =>
    have hstep : ∀ abort? : Option Abort, Framed fun r =>
        (match abort? with
          | none => addBasesNamed r id rest
          | some abort => (r, some abort)) := by
      intro abort?
      cases abort? with
      | none => exact ih
      | some abort => exact .pure (some abort)
    have hsteps := (framed_addBaseNamed id base).bind hstep
    have heq : (fun r => addBasesNamed r id (base :: rest)) = fun r =>
        (match (addBaseNamed r id base).2 with
          | none => addBasesNamed (addBaseNamed r id base).1 id rest
          | some abort => ((addBaseNamed r id base).1, some abort)) := by
      funext r
      rw [addBasesNamed]
      split <;> next h => rw [h]
    rw [heq]
    exact hsteps

theorem framed_nestClass (scope : String) (id : ClassId) : Framed fun r => (nestClass r scope id, ()) := by
  have henclose : ∀ outer, Framed fun r => (r.modifyClass outer (enclose id), ()) := by
    refine fun outer => framed_modifyClass outer (fun c c' h => ?_) fun c kind => ?_
    · have hstep : ∀ d : BoundClass, (enclose id d).frame = enclose id d.frame := by
        intro d
        have hnested : d.frame.nested = d.nested := rfl
        rw [enclose, enclose, hnested]
        split <;> rfl
      rw [hstep, hstep, h]
    · rw [enclose]
      split
      · rfl
      · cases kind <;> rfl
  refine ⟨fun {r r'} h => ⟨?_, rfl⟩, fun r p => ?_, fun r => ?_⟩
  · simp only [nestClass]
    split
    · exact h
    · rw [classId?, classId?]
      rcases find?_of_frame_eq h (Scope.splitQualified scope).1 (Scope.splitQualified scope).2 with
        ⟨hr, hr'⟩ | ⟨c, c', hr, hr', hframe⟩
      · rw [hr, hr']
        exact h
      · rw [hr, hr', Option.map_some, Option.map_some, BoundClass.id_of_frame_eq hframe]
        exact ((henclose _).congr h).1
  · simp only [nestClass]
    split
    · rfl
    · split
      · exact (henclose _).bound r p
      · rfl
  · simp only [nestClass]
    split
    · rfl
    · split <;> rfl

theorem framed_describe (id : ClassId) (c : DeclaredClass) (luaScope : Option String) :
    Framed fun r => (r.modifyClass id (describe c luaScope), ()) := by
  refine framed_modifyClass id (fun d d' h => ?_) fun d kind => by cases kind <;> rfl
  have hstep : ∀ d : BoundClass, (describe c luaScope d).frame = describe c luaScope d.frame := fun d => rfl
  rw [hstep, hstep, h]

theorem framed_makeDefault (id : ClassId) :
    Framed fun r => (r.modifyClass id fun c => { c with hasDefaultConstructor := true }, ()) := by
  refine framed_modifyClass id (fun c c' h => ?_) fun c kind => by cases kind <;> rfl
  exact congrArg (fun d : BoundClass => { d with hasDefaultConstructor := true }) h

theorem framed_includeHeader (header : String) :
    Framed fun r => ({ r with headers := r.headers.insert header }, ()) := by
  refine ⟨fun {r r'} h => ⟨?_, rfl⟩, fun r p => by cases p <;> rfl, fun r => rfl⟩
  exact congrArg (fun q : Registry => { q with headers := q.headers.insert header }) h

theorem framed_addEnum (e : BoundEnum) : Framed fun r =>
    match r.addEnum e with
    | .ok r' => (r', true)
    | .error _ => (r, false) := by
  refine ⟨fun {r r'} h => ?_, fun r p => ?_, fun r => ?_⟩
  · have hknown : r.hasEnum e.qualified = r'.hasEnum e.qualified :=
      @congrArg _ _ r.frame r'.frame (fun q => q.hasEnum e.qualified) h
    rw [addEnum, addEnum, hknown]
    cases r'.hasEnum e.qualified with
    | true => exact ⟨h, rfl⟩
    | false => exact ⟨congrArg (fun q : Registry => { q with enums := q.enums ++ [e] }) h, rfl⟩
  · simp only [addEnum]
    cases r.hasEnum e.qualified <;> cases p <;> rfl
  · simp only [addEnum]
    cases r.hasEnum e.qualified <;> rfl

end Selection

end LuaGlue
