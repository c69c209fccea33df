import LuaGlue.Proofs.Selection.Housed
import LuaGlue.Proofs.Selection.Stream

/-!
What holds of the registry all through a run.

The registry stays `Sound`: its classes are regular, its functions are housed, and function types are
recorded under their own names. Classes stay where they are, so the class whose members are being
registered goes on being the one that the members name (`Selection.Sound owner`).

    start ──learn──▶ ── .. ──register──▶ ── .. ──finish──▶ complete        Sound at every arrow
-/

namespace LuaGlue

open Selection

namespace Registry

/-! ### Classes that stay -/

/-- Does every class of the first registry stand in the second one, as exposed as it was? -/
def Retains (r r' : Registry) : Prop :=
  ∀ (id : ClassId) (c : BoundClass), r.class? id = some c →
    ∃ d, r'.class? id = some d ∧ d.scope = c.scope ∧ d.name = c.name ∧ (c.isExposed = true → d.isExposed = true)

theorem Retains.refl (r : Registry) : Retains r r := fun _ c hc => ⟨c, hc, rfl, rfl, id⟩

theorem Retains.trans {r r' r'' : Registry} (h : Retains r r') (h' : Retains r' r'') : Retains r r'' := by
  intro id c hc
  obtain ⟨d, hd, hscope, hname, hexposed⟩ := h id c hc
  obtain ⟨e, he, hscope', hname', hexposed'⟩ := h' id d hd
  exact ⟨e, he, hscope'.trans hscope, hname'.trans hname, fun hc => hexposed' (hexposed hc)⟩

theorem retains_of_classes_eq {r r' : Registry} (h : r'.classes = r.classes) : Retains r r' := by
  intro id c hc
  refine ⟨c, ?_, rfl, rfl, fun hexposed => hexposed⟩
  rw [class?, h]
  exact hc

theorem retains_appendClass (r : Registry) (name scope source : String) (state : Option String) :
    Retains r (r.appendClass name scope source state).1 := by
  intro id c hc
  have hlt : id < r.classes.length := (List.getElem?_eq_some_iff.1 hc).1
  refine ⟨c, ?_, rfl, rfl, fun hexposed => hexposed⟩
  rw [class?, appendClass, List.getElem?_append_left hlt]
  exact hc

theorem retains_modifyClass (r : Registry) (id : ClassId) {f : BoundClass → BoundClass}
    (hscope : ∀ c, (f c).scope = c.scope) (hname : ∀ c, (f c).name = c.name)
    (hexposed : ∀ c, c.isExposed = true → (f c).isExposed = true) : Retains r (r.modifyClass id f) := by
  intro other c hc
  refine ⟨if id = other then f c else c, ?_, ?_, ?_, fun hc => ?_⟩
  · rw [class?] at hc
    rw [class?, modifyClass, List.getElem?_modify, hc]
    rfl
  · split
    · exact hscope c
    · rfl
  · split
    · exact hname c
    · rfl
  · split
    · exact hexposed c hc
    · exact hc

theorem retains_addThinClass (r : Registry) (name scope source : String) :
    Retains r (r.addThinClass name scope source).1 := by
  rw [addThinClass]
  split
  · exact retains_appendClass r name scope source none
  · exact .refl r

theorem lt_of_retains {r r' : Registry} (h : Retains r r') {id : ClassId} (hid : id < r.classes.length) :
    id < r'.classes.length := by
  obtain ⟨d, hd, -⟩ := h id r.classes[id] (List.getElem?_eq_getElem hid)
  exact (List.getElem?_eq_some_iff.1 hd).1

/-! ### Soundness -/

/-- What holds of the registry all through a run. -/
structure Sound (r : Registry) : Prop where
  regular : r.Regular
  housed : r.Housed r.signatures
  keyed : Keyed r.signatures

theorem Sound.empty (patches : Patches) (headers : NameSet) : ({ patches, headers } : Registry).Sound :=
  ⟨.empty patches headers, .empty patches headers, fun entry hentry => by cases hentry⟩

/-- Registrations that keep a registry sound and classes where they are. -/
structure Grows (r r' : Registry) : Prop where
  retains : Retains r r'
  sound : r.Sound → r'.Sound

theorem Grows.refl (r : Registry) : Grows r r := ⟨.refl r, id⟩

theorem Grows.trans {r r' r'' : Registry} (h : Grows r r') (h' : Grows r' r'') : Grows r r'' :=
  ⟨h.retains.trans h'.retains, fun hr => h'.sound (h.sound hr)⟩

/-- Anything but classes, functions and function types may change. -/
theorem grows_of_eq {r r' : Registry} (hclasses : r'.classes = r.classes) (hfunctions : r'.functions = r.functions)
    (hsignatures : r'.signatures = r.signatures) : Grows r r' := by
  refine ⟨retains_of_classes_eq hclasses, fun h => ⟨h.regular.of_classes_eq hclasses, ⟨?_, ?_⟩, ?_⟩⟩
  · rw [hclasses, hsignatures]
    exact h.housed.classes
  · rw [hfunctions, hsignatures]
    exact h.housed.functions
  · rw [hsignatures]
    exact h.keyed

theorem grows_addThinClass (r : Registry) {name scope : String} (hlegible : Scope.Legible scope name)
    (source : String) : Grows r (r.addThinClass name scope source).1 := by
  have hsignatures : (r.addThinClass name scope source).1.signatures = r.signatures := by
    rw [addThinClass]
    split <;> rfl
  refine ⟨retains_addThinClass r name scope source, fun h => ⟨h.regular.addThinClass hlegible source, ?_, ?_⟩⟩
  · rw [hsignatures]
    exact h.housed.addThinClass name scope source
  · rw [hsignatures]
    exact h.keyed

theorem grows_modifyClass (r : Registry) (id : ClassId) {f : BoundClass → BoundClass} (hface : SameFace f)
    (hmembers : SameMembers f) : Grows r (r.modifyClass id f) := by
  refine ⟨retains_modifyClass r id hface.scope hface.name fun c hc => ?_, fun h => ⟨h.regular.modifyClass id hface,
    h.housed.modifyClass_of_members_eq id hface hmembers, h.keyed⟩⟩
  rw [hmembers.exposed]
  exact hc

/-! ### Bases -/

theorem id_addThinClass_lt {r : Registry} (h : r.Placed) (name scope source : String) :
    (r.addThinClass name scope source).2 < (r.addThinClass name scope source).1.classes.length := by
  rw [addThinClass]
  split
  · simp [appendClass]
  · next c hfind => exact h.id_lt (mem_of_find? hfind)

theorem retains_addBase {r r' : Registry} {derived base : ClassId} (hadd : r.addBase derived base = .ok r') :
    Retains r r' := by
  obtain ⟨-, rfl⟩ := addBase_ok hadd
  refine retains_modifyClass r derived (derive_scope base) (derive_name base) fun c hc => ?_
  rwa [derive_isExposed]

theorem signatures_addBase {r r' : Registry} {derived base : ClassId} (hadd : r.addBase derived base = .ok r') :
    r'.signatures = r.signatures := by
  obtain ⟨-, rfl⟩ := addBase_ok hadd
  rfl

theorem grows_addBaseNamed (r : Registry) {id : ClassId} (hid : id < r.classes.length) (base : String) :
    Grows r (addBaseNamed r id base).1 := by
  have hlegible := Scope.legible_splitQualified base
  have hthin := grows_addThinClass r hlegible ""
  refine keeps_addBaseNamed id base hthin fun hadd => ?_
  refine ⟨hthin.retains.trans (retains_addBase hadd), fun hr => ?_⟩
  have hbase := id_addThinClass_lt hr.regular.placed (Scope.splitQualified base).2 (Scope.splitQualified base).1 ""
  have h := hthin.sound hr
  refine ⟨h.regular.addBase (lt_of_retains hthin.retains hid) hbase hadd, ?_, ?_⟩
  · rw [signatures_addBase hadd]
    exact h.housed.addBase hadd
  · rw [signatures_addBase hadd]
    exact h.keyed

theorem grows_addBasesNamed (r : Registry) {id : ClassId} (hid : id < r.classes.length) (bases : List String) :
    Grows r (addBasesNamed r id bases).1 := by
  refine keeps_addBasesNamed (P := Grows r) (fun r' base h => ?_) (.refl r) bases
  exact h.trans (grows_addBaseNamed r' (lt_of_retains h.retains hid) base)

theorem grows_nestClass (r : Registry) (scope : String) (id : ClassId) : Grows r (nestClass r scope id) := by
  obtain hsame | ⟨outer, hnested⟩ := nestClass_cases r scope id
  · rw [hsame]
    exact .refl r
  · rw [hnested]
    exact grows_modifyClass r outer (sameFace_enclose id) (sameMembers_enclose id)

/-- The class that is exposed has the name that was given. -/
theorem Sound.addClass {r r' : Registry} (h : r.Sound) {name scope source state : String} {id : ClassId}
    (hscope : Scope.IsNormal scope) (hname : Scope.IsPlain name)
    (hadd : r.addClass name scope source state = .ok (r', id)) :
    Grows r r' ∧ ∃ c, r'.class? id = some c ∧ c.isExposed = true ∧ c.scope = scope ∧ c.name = name := by
  have hlegible := Scope.Legible.of_isPlain hscope hname
  have hregular := h.regular.addClass hlegible hadd
  have hhoused := h.housed.addClass h.regular hscope hname hadd
  obtain ⟨-, rfl, rfl⟩ | ⟨found, hfind, -, rfl, rfl⟩ := addClass_cases hadd
  · refine ⟨⟨retains_appendClass r name scope source (some state), fun _ => ⟨hregular, hhoused, h.keyed⟩⟩, _,
      List.getElem?_concat_length, rfl, rfl, rfl⟩
  · refine ⟨⟨retains_modifyClass r found.id (fun _ => rfl) (fun _ => rfl) fun _ _ => rfl,
      fun _ => ⟨hregular, hhoused, h.keyed⟩⟩, expose source state found, ?_, rfl, ?_⟩
    · have hfound := h.regular.class?_eq (mem_of_find? hfind)
      rw [class?] at hfound
      rw [class?, modifyClass, List.getElem?_modify, hfound]
      simp
    · have hsame := h.regular.eq_of_find? hlegible hfind
      exact hsame

/-- The class whose members are being registered: exposed, and the one that the members name. -/
def IsCurrent (r : Registry) (owner : Option (String × String)) (id : ClassId) : Prop :=
  ∃ c, r.class? id = some c ∧ c.isExposed = true ∧ owner = some (c.scope, c.name)

theorem IsCurrent.retains {r r' : Registry} {owner : Option (String × String)} {id : ClassId}
    (h : r.IsCurrent owner id) (hretains : Retains r r') : r'.IsCurrent owner id := by
  obtain ⟨c, hc, hexposed, howner⟩ := h
  obtain ⟨d, hd, hscope, hname, hexposed'⟩ := hretains id c hc
  refine ⟨d, hd, hexposed' hexposed, ?_⟩
  rw [howner, hscope, hname]

end Registry

namespace Selection

open Registry

/-- What holds of the state all through a run; the members that come next are those of `owner`. -/
structure Sound (owner : Option (String × String)) (s : Selection) : Prop where
  registry : s.registry.Sound
  current : ∀ id, s.current = some id → s.registry.IsCurrent owner id
  exposed : ∀ id ∈ s.exposed, ∃ c, s.registry.class? id = some c ∧ c.isExposed = true

/-- Steps that register without going on to another class. -/
structure Keeps (s s' : Selection) : Prop where
  grows : Grows s.registry s'.registry
  current : s'.current = s.current
  exposed : s'.exposed = s.exposed

theorem Keeps.refl (s : Selection) : Keeps s s := ⟨.refl _, rfl, rfl⟩

theorem Keeps.trans {s s' s'' : Selection} (h : Keeps s s') (h' : Keeps s' s'') : Keeps s s'' :=
  ⟨h.grows.trans h'.grows, h'.current.trans h.current, h'.exposed.trans h.exposed⟩

theorem Sound.keeps {owner : Option (String × String)} {s s' : Selection} (h : s.Sound owner) (hkeeps : Keeps s s') :
    s'.Sound owner := by
  refine ⟨hkeeps.grows.sound h.registry, fun id hid => ?_, fun id hid => ?_⟩
  · rw [hkeeps.current] at hid
    exact (h.current id hid).retains hkeeps.grows.retains
  · rw [hkeeps.exposed] at hid
    obtain ⟨c, hc, hexposed⟩ := h.exposed id hid
    obtain ⟨d, hd, -, -, hexposed'⟩ := hkeeps.grows.retains id c hc
    exact ⟨d, hd, hexposed' hexposed⟩

/-- Between two classes no class is current. -/
theorem Sound.between {owner : Option (String × String)} {s : Selection} (h : s.Sound owner)
    (owner' : Option (String × String)) : ({ s with current := none } : Selection).Sound owner' :=
  ⟨h.registry, (fun id hid => by cases hid), h.exposed⟩

/-! ### The first pass -/

theorem keeps_learn (s : Selection) (d : Declaration) : Keeps s (s.learn d) := by
  rw [learn, heed]
  split
  · exact ⟨.refl _, rfl, rfl⟩
  · exact ⟨.refl _, rfl, rfl⟩
  · unfold accept
    split
    · exact ⟨grows_of_eq rfl rfl rfl, rfl, rfl⟩
    · exact ⟨.refl _, rfl, rfl⟩
    · exact ⟨.refl _, rfl, rfl⟩

theorem keeps_learnAll (s : Selection) (stream : List (Except DeclarationError Declaration)) :
    Keeps s (s.learnAll stream).1 := by
  induction stream generalizing s with
  | nil => exact .refl s
  | cons item rest ih =>
    cases item with
    | error e => exact .refl s
    | ok d => exact (keeps_learn s d).trans (ih _)

/-! ### Classes -/

/-- A class that comes next is the owner of the members behind it, if it is exposed. -/
theorem Sound.placeClass {owner : Option (String × String)} {s : Selection} (h : s.Sound owner) {c : DeclaredClass}
    (hscope : Scope.IsNormal c.scope) (hname : Scope.IsPlain c.name) :
    (s.placeClass c).1.Sound (some (c.scope, c.name))
      ∧ ∀ id, (s.placeClass c).2 = some id → id < (s.placeClass c).1.registry.classes.length := by
  have hbetween := h.between (some (c.scope, c.name))
  have hlegible := Scope.Legible.of_isPlain hscope hname
  rw [Selection.placeClass]
  simp only
  split
  · refine ⟨?_, fun id hid => ?_⟩
    · exact hbetween.keeps ⟨grows_addThinClass s.registry hlegible c.source, rfl, rfl⟩
    · cases hid
      exact id_addThinClass_lt h.registry.regular.placed c.name c.scope c.source
  · next state luaScope _ =>
    split
    · exact ⟨⟨hbetween.registry, hbetween.current, hbetween.exposed⟩, (fun id hid => by cases hid)⟩
    · next registry id hadd =>
      obtain ⟨hgrows, d, hd, hexposed, hdscope, hdname⟩ := h.registry.addClass hscope hname hadd
      have hdescribe := grows_modifyClass registry id (sameFace_describe c luaScope) (sameMembers_describe c luaScope)
      have hcurrent : registry.IsCurrent (some (c.scope, c.name)) id := ⟨d, hd, hexposed, by rw [hdscope, hdname]⟩
      obtain ⟨e, he, heexposed, heowner⟩ := hcurrent.retains hdescribe.retains
      have hkept : (({ s with current := none } : Selection).withRegistry
          (registry.modifyClass id (describe c luaScope))).Sound (some (c.scope, c.name)) :=
        hbetween.keeps ⟨hgrows.trans hdescribe, rfl, rfl⟩
      refine ⟨⟨hkept.registry, fun other hother => ?_, fun other hother => ?_⟩, fun other hother => ?_⟩
      · cases hother
        exact ⟨e, he, heexposed, heowner⟩
      · rcases List.mem_append.1 hother with hold | hnew
        · exact hkept.exposed other hold
        · rw [List.mem_singleton.1 hnew]
          exact ⟨e, he, heexposed⟩
      · cases hother
        exact (List.getElem?_eq_some_iff.1 he).1

/-- A class may come next, and what follows it are its members. -/
theorem Sound.registerClass {owner : Option (String × String)} {s : Selection} (h : s.Sound owner)
    {c : DeclaredClass} (hscope : Scope.IsNormal c.scope) (hname : Scope.IsPlain c.name) :
    (s.registerClass c).1.Sound (some (c.scope, c.name)) := by
  obtain ⟨hplaced, hid⟩ := h.placeClass hscope hname
  rw [Selection.registerClass]
  split
  · next s' heq =>
    rw [heq] at hplaced
    exact hplaced
  · next s' id heq =>
    rw [heq] at hplaced hid
    have hbases := grows_addBasesNamed s'.registry (hid id rfl) c.bases
    split
    · next registry abort hadd =>
      rw [hadd] at hbases
      exact hplaced.keeps ⟨hbases, rfl, rfl⟩
    · next registry hadd =>
      rw [hadd] at hbases
      exact hplaced.keeps ⟨hbases.trans (grows_nestClass registry c.scope id), rfl, rfl⟩

end Selection

end LuaGlue
