import LuaGlue.Proofs.Inheritance.Inherited
import LuaGlue.Proofs.Members.Access

/-!
Metamethods from the registry to the metatable.

Three things are made from one lookup: the registry finds a metamethod by the rule of inheritance, the metamethod map
lists the wrapper of what was found, and the metatable has a closure where the map has an entry.

    findMetamethod ──▶ metamethodEntries ──▶ closures        __index has a closure always, and asks the member map first
-/

namespace LuaGlue

/-- In a map without repeated names, a name leads to what is listed with it. -/
theorem lookup_eq_some_iff_mem {α : Type} {entries : List (String × α)} (h : (entries.map Prod.fst).Nodup)
    {name : String} {value : α} : entries.lookup name = some value ↔ (name, value) ∈ entries := by
  induction entries with
  | nil => simp
  | cons entry rest ih =>
    obtain ⟨other, first⟩ := entry
    obtain ⟨hfresh, hrest⟩ := List.nodup_cons.1 h
    rw [List.lookup_cons, List.mem_cons, ← ih hrest]
    by_cases hname : name = other
    · subst hname
      have hnone : rest.lookup name = none := List.lookup_eq_none_iff.2 fun entry hentry =>
        bne_iff_ne.2 fun heq => hfresh (List.mem_map.2 ⟨entry, hentry, heq.symm⟩)
      simp [hnone, eq_comm (a := value)]
    · have hne : (name == other) = false := beq_false_of_ne hname
      simp [hne, hname]

/-- A list in which each name goes with its image. -/
theorem lookup_map_graph {α : Type} (l : List String) (f : String → α) (name : String) :
    (l.map fun other => (other, f other)).lookup name = if name ∈ l then some (f name) else none := by
  split
  · next hmem => exact List.lookup_graph f hmem
  · next hmem =>
    rw [List.lookup_eq_none_iff]
    rintro _ hentry
    obtain ⟨other, hother, rfl⟩ := List.mem_map.1 hentry
    exact bne_iff_ne.2 fun heq => hmem (heq ▸ hother)

/-! ### The metamethod map -/

namespace Members

section Metamethods

variable {registry : Registry} {c : BoundClass} {name wrapper : String}

theorem mem_metamethodEntries : (name, wrapper) ∈ metamethodEntries registry c
    ↔ name ∈ metamethodNames ∧ metamethodWrapper registry c name = some wrapper := by
  rw [metamethodEntries, List.mem_filterMap]
  constructor
  · rintro ⟨other, hother, hentry⟩
    obtain ⟨found, hfound, heq⟩ := Option.map_eq_some_iff.1 hentry
    cases heq
    exact ⟨hother, hfound⟩
  · rintro ⟨hname, hfound⟩
    exact ⟨name, hname, by rw [hfound, Option.map_some]⟩

theorem mem_keys_metamethodEntries : name ∈ (metamethodEntries registry c).map Prod.fst
    ↔ name ∈ metamethodNames ∧ (metamethodWrapper registry c name).isSome := by
  rw [List.mem_map, Option.isSome_iff_exists]
  constructor
  · rintro ⟨⟨other, wrapper⟩, hentry, rfl⟩
    obtain ⟨hname, hfound⟩ := mem_metamethodEntries.1 hentry
    exact ⟨hname, wrapper, hfound⟩
  · rintro ⟨hname, wrapper, hfound⟩
    exact ⟨(name, wrapper), mem_metamethodEntries.2 ⟨hname, hfound⟩, rfl⟩

variable (registry c)

/-- No metamethod is listed twice. -/
theorem nodup_keys_metamethodEntries : ((metamethodEntries registry c).map Prod.fst).Nodup := by
  have hnames : metamethodNames.Nodup := by decide
  have hkeys : (metamethodEntries registry c).map Prod.fst
      = metamethodNames.filter fun name => (metamethodWrapper registry c name).isSome := by
    rw [metamethodEntries, List.map_filterMap, ← List.filterMap_eq_filter]
    refine List.filterMap_congr fun name _ => ?_
    cases hfound : metamethodWrapper registry c name <;> simp [Option.guard, hfound]
  rw [hkeys]
  exact hnames.filter _

/-- The map leads from the name of a metamethod to the wrapper that was found for it. -/
theorem lookup_metamethodEntries (hname : name ∈ metamethodNames) :
    (metamethodEntries registry c).lookup name = metamethodWrapper registry c name := by
  ext wrapper
  rw [lookup_eq_some_iff_mem (nodup_keys_metamethodEntries registry c), mem_metamethodEntries]
  exact and_iff_right hname

end Metamethods

end Members

/-! ### The closures -/

namespace ClassSetup

section Closures

variable (registry : Registry) (c : BoundClass)

theorem mem_closures {name : String} : name ∈ closures registry c
    ↔ name ≠ "__index" ∧ name ∈ (Members.metamethodEntries registry c).map Prod.fst := by
  rw [closures, List.mem_filter, Members.mem_keys_metamethodEntries]
  simp only [Bool.and_eq_true, bne_iff_ne, ne_eq]
  exact and_left_comm

/-- What is stored last counts: the closure of a name, if it has one. -/
theorem metaField?_eq (name : String) : metaField? registry c name
    = if name = "__index" then some (.closure (indexSteps c))
      else if name ∈ closures registry c then some (.closure (metamethodSteps c name))
      else (nameFields registry c).reverse.lookup name := by
  rw [metaField?, metaFields, closureFields, List.reverse_append, List.reverse_cons, List.lookup_append,
    List.lookup_append, ← List.map_reverse,
    lookup_map_graph (closures registry c).reverse fun name => MetaValue.closure (metamethodSteps c name)]
  simp only [List.mem_reverse]
  by_cases hname : name = "__index"
  · subst hname
    have hnot : "__index" ∉ closures registry c := fun hmem => ((mem_closures registry c).1 hmem).1 rfl
    simp [hnot]
  · have hne : (name == "__index") = false := beq_false_of_ne hname
    rw [if_neg hname, List.lookup_cons, hne]
    split <;> rfl

/-- The names of the class are texts. -/
theorem closure_not_mem_nameFields {name : String} {steps : List AccessStep} :
    (nameFields registry c).reverse.lookup name ≠ some (.closure steps) := by
  intro hfield
  obtain ⟨before, after, hsplit, -⟩ := List.lookup_eq_some_iff.1 hfield
  have hmem : (name, MetaValue.closure steps) ∈ nameFields registry c :=
    List.mem_reverse.1 (hsplit ▸ List.mem_append_right _ List.mem_cons_self)
  rw [nameFields] at hmem
  cases registry.patches.heap <;> simp at hmem

/-- A name other than `__index` has a closure where the metamethod map has it. -/
theorem exists_closure_iff {name : String} (hname : name ≠ "__index") :
    (∃ steps, metaField? registry c name = some (.closure steps))
      ↔ name ∈ (Members.metamethodEntries registry c).map Prod.fst := by
  have hclosures : name ∈ closures registry c ↔ _ := mem_closures registry c
  rw [metaField?_eq, if_neg hname]
  split
  · next hmem => exact iff_of_true ⟨_, rfl⟩ (hclosures.1 hmem).2
  · next hnot =>
    refine iff_of_false ?_ fun hkey => hnot (hclosures.2 ⟨hname, hkey⟩)
    rintro ⟨steps, hfield⟩
    exact closure_not_mem_nameFields registry c hfield

/-! ### Calls of the closures -/

/-- A metamethod that is called with an object is found in the map. -/
theorem answer_metamethodSteps {name : String} (hname : name ∈ metamethodNames) {a : MemberAccess}
    (hobject : a.isObject = true) (hkept : a.refusal = none) :
    answer registry c (metamethodSteps c name) a
      = some (((Members.metamethodWrapper registry c name).map .called).getD .nothing) := by
  simp [answer, metamethodSteps, AccessStep.run, hobject, hkept, Members.lookup_metamethodEntries registry c hname]

/-- Access to a member goes to the member map first, and then to the metamethod `__index`. -/
theorem answer_indexSteps {a : MemberAccess} {key : String} (hobject : a.isObject = true) (hkey : a.key = some key)
    (hkept : a.refusal = none) : answer registry c (indexSteps c) a
      = some (match (Members.entries registry c ++ Members.utilityEntries registry c).lookup key with
        | some wrapper => .member wrapper
        | none => ((Members.metamethodWrapper registry c "__index").map .called).getD .nothing) := by
  have hindex := Members.lookup_metamethodEntries registry c (by decide : "__index" ∈ metamethodNames)
  cases hmember : (Members.entries registry c ++ Members.utilityEntries registry c).lookup key with
  | some wrapper => simp [answer, indexSteps, AccessStep.run, hobject, hkey, hmember]
  | none => simp [answer, indexSteps, AccessStep.run, hobject, hkey, hmember, hkept, hindex]

end Closures

/-- CORRECT: in every registry that can be formed, a metamethod is found by the rule of inheritance: the own one of a
class, else the first that the rule finds from its direct bases in their order; no other lookup follows this rule. The
metamethod map lists each known name at most once, with the wrapper of what is found. The metatable has a closure for
a name other than `__index` where the map has the name, and the closure calls the wrapper in the map. The closure for
`__index` answers a key with its member, if the member map has one; else it calls the wrapper of `__index` in the map,
own or inherited, and answers nothing if there is none. -/
theorem metamethods_follow_inheritance {registry : Registry} (h : registry.Formed) (c : BoundClass) :
    (∀ name rule, registry.Inherits (fun d => d.metamethods.get? name) rule
        ↔ rule = fun id => registry.findMetamethod id name)
      ∧ ((Members.metamethodEntries registry c).map Prod.fst).Nodup
      ∧ (∀ name wrapper, (name, wrapper) ∈ Members.metamethodEntries registry c
          ↔ name ∈ metamethodNames ∧ ∃ f, registry.findMetamethod c.id name = some f ∧ f.wrapperName = some wrapper)
      ∧ renderMetatable registry c
        = openMetatable c ++ String.join ((metaFields registry c).map (MetaField.text c)) ++ closeMetatable
      ∧ (∀ name, name ≠ "__index" → ((∃ steps, metaField? registry c name = some (.closure steps))
          ↔ name ∈ (Members.metamethodEntries registry c).map Prod.fst))
      ∧ (∀ name wrapper, name ≠ "__index" → (name, wrapper) ∈ Members.metamethodEntries registry c →
          ∃ steps, metaField? registry c name = some (.closure steps)
            ∧ ∀ a : MemberAccess, a.isObject = true → a.refusal = none →
              answer registry c steps a = some (.called wrapper))
      ∧ ∃ steps, metaField? registry c "__index" = some (.closure steps)
        ∧ ∀ (a : MemberAccess) key, a.isObject = true → a.key = some key → a.refusal = none →
          answer registry c steps a = some
            (match (Members.entries registry c ++ Members.utilityEntries registry c).lookup key,
              (Members.metamethodEntries registry c).lookup "__index" with
            | some member, _ => .member member
            | none, some wrapper => .called wrapper
            | none, none => .nothing) := by
  have hentries {name wrapper : String} : (name, wrapper) ∈ Members.metamethodEntries registry c ↔ _ :=
    Members.mem_metamethodEntries
  refine ⟨fun name rule => h.rooted.inherits_iff, Members.nodup_keys_metamethodEntries registry c,
    fun name wrapper => ?_, renderMetatable_eq registry c, fun name hname => exists_closure_iff registry c hname,
    fun name wrapper hname hentry => ?_, indexSteps c, by rw [metaField?_eq, if_pos rfl],
    fun a key hobject hkey hkept => ?_⟩
  · rw [hentries, Members.metamethodWrapper, Option.bind_eq_some_iff]
  · obtain ⟨hknown, hfound⟩ := hentries.1 hentry
    have hkey : name ∈ (Members.metamethodEntries registry c).map Prod.fst := List.mem_map.2 ⟨_, hentry, rfl⟩
    refine ⟨metamethodSteps c name, ?_, fun a hobject hkept => ?_⟩
    · rw [metaField?_eq, if_neg hname, if_pos ((mem_closures registry c).2 ⟨hname, hkey⟩)]
    · rw [answer_metamethodSteps registry c hknown hobject hkept, hfound]
      rfl
  · have hindex := Members.lookup_metamethodEntries registry c (by decide : "__index" ∈ metamethodNames)
    rw [answer_indexSteps registry c hobject hkey hkept, hindex]
    cases (Members.entries registry c ++ Members.utilityEntries registry c).lookup key with
    | some member => rfl
    | none => cases Members.metamethodWrapper registry c "__index" <;> rfl

/-- A class with a native metamethod. -/
def implementing (name wrapper : String) (c : BoundClass) : BoundClass :=
  c.withMembers .metamethod (c.metamethods.insert name (Selection.wrappedMember c name wrapper ""))

/-- The diamond, where `Root` and `Right` implement `__index`, and `Root` implements `__eq` as well. -/
def indexed : Registry :=
  ((Registry.diamond.modifyClass 3 (implementing "__index" "root_index")).modifyClass 3
    (implementing "__eq" "root_eq")).modifyClass 2 (implementing "__index" "right_index")

/-- `Leaf` comes to `Root` through `Left`, before it comes to `Right`. -/
theorem leaf_indexes_like_root : indexed.Formed ∧ ∃ leaf, indexed.class? 0 = some leaf
    ∧ Members.metamethodEntries indexed leaf = [("__eq", "root_eq"), ("__index", "root_index")]
    ∧ (∃ steps, metaField? indexed leaf "__eq" = some (.closure steps)
      ∧ answer indexed leaf steps ⟨true, none, none⟩ = some (.called "root_eq"))
    ∧ ∃ steps, metaField? indexed leaf "__index" = some (.closure steps)
      ∧ answer indexed leaf steps ⟨true, some "speed", none⟩ = some (.called "root_index") := by
  have himplements : ∀ name wrapper, Registry.SameFace (implementing name wrapper) := fun name wrapper =>
    Registry.sameFace_withMembers .metamethod _
  have hformed : indexed.Formed :=
    ((Registry.reachable_diamond.formed.edit 3 (himplements _ _)).edit 3 (himplements _ _)).edit 2 (himplements _ _)
  obtain ⟨leaf, hleaf⟩ : ∃ leaf, indexed.class? 0 = some leaf := ⟨_, rfl⟩
  have hid : leaf.id = 0 := by cases hleaf; rfl
  have hbases : indexed.flattenedBases 0 = [1, 3, 2] := by cbv
  have hlineage : indexed.lineage leaf.id = indexed.classesOf [0, 1, 3, 2] := by
    rw [Registry.lineage, hid, hbases]
  have hentries : Members.metamethodEntries indexed leaf = [("__eq", "root_eq"), ("__index", "root_index")] := by
    simp only [Members.metamethodEntries, Members.metamethodWrapper, Registry.findMetamethod, hlineage]
    decide +kernel
  obtain ⟨-, -, -, -, -, hcalls, steps, hfield, hanswer⟩ := metamethods_follow_inheritance hformed leaf
  obtain ⟨eqSteps, hequals, hcalled⟩ := hcalls "__eq" "root_eq" (by decide) (by simp [hentries])
  refine ⟨hformed, leaf, hleaf, hentries, ⟨eqSteps, hequals, hcalled _ rfl rfl⟩, steps, hfield, ?_⟩
  have hmember : (Members.entries indexed leaf ++ Members.utilityEntries indexed leaf).lookup "speed" = none := by
    simp only [Members.entries, Members.utilityEntries, Members.isTaken, Members.inLineage, hlineage]
    cases hleaf
    decide +kernel
  rw [hanswer _ "speed" rfl rfl rfl, hmember, hentries]
  rfl

end ClassSetup

end LuaGlue
