import LuaGlue.Glue.Members
import LuaGlue.Proofs.Inheritance.Inherited
import LuaGlue.Proofs.Members.Owning

/-!
The member map of a class.

A name is listed once, for the function that the rule of inheritance finds first. The functions are those of the whole
lineage, one class after another, so the first of a name there is the first by the rule:

    lineage            Leaf: Spawn, operator==      Base: Spawn, Get
    member map         Spawn ↦ that of Leaf         Get ↦ that of Base
    reserved names     Set, set                     no Get, get: one of the two is taken          IsValid, GetAddress
-/

namespace LuaGlue

/-! ### The first function of a name -/

/-- What is listed is the first of its name, unless its name was met before. -/
theorem mem_firstByName_iff {seen : List String} {functions : List BoundFunction} {f : BoundFunction} :
    f ∈ firstByName seen functions ↔ f.name ∉ seen ∧ functions.find? (·.name == f.name) = some f := by
  induction functions generalizing seen with
  | nil => simp [firstByName]
  | cons first rest ih =>
    rw [firstByName, List.find?_cons]
    by_cases hname : first.name = f.name
    · by_cases hseen : first.name ∈ seen
      · simp [hseen, ih, hname ▸ hseen]
      · simp [ih, hname, hname ▸ hseen, eq_comm (a := f)]
    · have hne : (first.name == f.name) = false := beq_false_of_ne hname
      have hother : f ≠ first := fun heq => hname (heq ▸ rfl)
      by_cases hseen : first.name ∈ seen
      · simp [hseen, ih, hne]
      · simp [hseen, ih, hne, hother, Ne.symm hname]

/-- No name is listed twice, and none that was met before. -/
theorem nodup_firstByName (seen : List String) (functions : List BoundFunction) :
    ((firstByName seen functions).map (·.name)).Nodup := by
  induction functions generalizing seen with
  | nil => exact List.nodup_nil
  | cons first rest ih =>
    rw [firstByName]
    split
    · exact ih seen
    · rw [List.map_cons, List.nodup_cons]
      refine ⟨fun hmem => ?_, ih _⟩
      obtain ⟨f, hf, hname⟩ := List.mem_map.1 hmem
      exact (mem_firstByName_iff.1 hf).1 (hname ▸ List.mem_cons_self)

/-- Where keys are names, the function of a name is found among the values. -/
theorem find?_values {functions : Functions} (hkeys : ∀ entry ∈ functions.entries, entry.2.name = entry.1)
    (name : String) : functions.values.find? (·.name == name) = functions.get? name := by
  unfold NameMap.values NameMap.get?
  generalize functions.entries = entries at hkeys
  induction entries with
  | nil => rfl
  | cons entry rest ih =>
    obtain ⟨key, f⟩ := entry
    have hkey : f.name = key := hkeys _ List.mem_cons_self
    rw [List.map_cons, List.find?_cons, NameMap.lookupIn, ih fun other hother => hkeys other (List.mem_cons_of_mem _ hother)]
    by_cases hname : name = key
    · simp [hname, hkey]
    · have hne : (key == name) = false := beq_false_of_ne (Ne.symm hname)
      simp [hname, hkey, hne]

namespace Members

/-! ### What a class and its bases have -/

/-- Has the class, or one that it derives from, a function of this name? -/
def HasFunction (r : Registry) (c : BoundClass) (name : String) : Prop :=
  ∃ d ∈ r.classes, r.LeadsTo c.id d.id ∧ ∃ f ∈ d.functions.values, f.name = name

/-- The function of this name in a class, with the class. -/
def ownFunction (name : String) (d : BoundClass) : Option (BoundClass × BoundFunction) :=
  (d.functions.get? name).map (d, ·)

section Lineage

variable {r : Registry} (h : r.Owning) (c : BoundClass)

include h

theorem isTaken_iff {name : String} : isTaken r c name = true ↔ HasFunction r c name := by
  unfold isTaken inLineage HasFunction
  simp only [List.any_eq_true, List.mem_flatMap, Registry.mem_lineage_iff h.rooted.placed h.rooted.basesInRange,
    beq_iff_eq]
  constructor
  · rintro ⟨f, ⟨d, ⟨hd, hleads⟩, hf⟩, hname⟩
    exact ⟨d, hd, hleads, f, hf, hname⟩
  · rintro ⟨d, hd, hleads, f, hf, hname⟩
    exact ⟨f, ⟨d, ⟨hd, hleads⟩, hf⟩, hname⟩

/-- The first function of a name in the lineage is the one that is inherited. -/
theorem find?_inLineage (name : String) : (inLineage r c).find? (·.name == name)
    = (r.inherited (ownFunction name) c.id).map Prod.snd := by
  have hown : ∀ d ∈ r.lineage c.id,
      d.functions.values.find? (·.name == name) = (ownFunction name d).map Prod.snd := by
    intro d hd
    have hd := (Registry.mem_lineage_iff h.rooted.placed h.rooted.basesInRange).1 hd
    have hkeys : ∀ entry ∈ d.functions.entries, entry.2.name = entry.1 := fun entry hentry =>
      (h.classes d hd.1 .function entry hentry).name
    rw [find?_values hkeys, ownFunction]
    cases d.functions.get? name <;> rfl
  rw [inLineage, List.find?_flatMap, Registry.inherited]
  generalize r.lineage c.id = owners at hown
  induction owners with
  | nil => rfl
  | cons d rest ih =>
    rw [List.findSome?_cons, List.findSome?_cons, hown d List.mem_cons_self,
      ih fun other hother => hown other (List.mem_cons_of_mem _ hother)]
    cases ownFunction name d <;> rfl

/-! ### Entries for functions -/

/-- A name is listed for the function that is inherited under it, unless it is that of an operator. -/
theorem mem_entries_iff {name target : String} : (name, target) ∈ entries r c
    ↔ isOperatorName name = false
      ∧ ∃ d f, r.inherited (ownFunction name) c.id = some (d, f) ∧ target = Members.target r c f := by
  have hvisible : isOperatorName name = false → ∀ f, ((inLineage r c).filter fun f => !isOperatorName f.name).find?
      (·.name == name) = some f ↔ ∃ d, r.inherited (ownFunction name) c.id = some (d, f) := by
    intro hname f
    have hsame : ∀ g : BoundFunction,
        decide ((!isOperatorName g.name) = true ∧ (g.name == name) = true) = (g.name == name) := by
      intro g
      by_cases hg : g.name = name <;> simp [hg, hname]
    simp only [List.find?_filter, hsame]
    rw [find?_inLineage h c, Option.map_eq_some_iff]
    exact ⟨fun ⟨⟨d, g⟩, hfound, hg⟩ => ⟨d, hg ▸ hfound⟩, fun ⟨d, hfound⟩ => ⟨(d, f), hfound, rfl⟩⟩
  rw [entries, List.mem_map]
  constructor
  · rintro ⟨f, hf, hentry⟩
    obtain ⟨rfl, rfl⟩ := Prod.mk.inj hentry
    obtain ⟨-, hfirst⟩ := mem_firstByName_iff.1 hf
    have hname : isOperatorName f.name = false := by
      simpa using (List.mem_filter.1 (List.mem_of_find?_eq_some hfirst)).2
    obtain ⟨d, hfound⟩ := (hvisible hname f).1 hfirst
    exact ⟨hname, d, f, hfound, rfl⟩
  · rintro ⟨hname, d, f, hfound, rfl⟩
    have hfirst := (hvisible hname f).2 ⟨d, hfound⟩
    obtain rfl : f.name = name := by simpa using List.find?_some hfirst
    exact ⟨f, mem_firstByName_iff.2 ⟨List.not_mem_nil, hfirst⟩, rfl⟩

/-- The names that are listed. -/
theorem mem_keys_entries_iff {name : String} :
    name ∈ (entries r c).map Prod.fst ↔ isOperatorName name = false ∧ HasFunction r c name := by
  have hhas : HasFunction r c name ↔ (r.inherited (ownFunction name) c.id).isSome := by
    rw [← isTaken_iff h c, isTaken, List.any_eq_true, ← List.find?_isSome, find?_inLineage h c, Option.isSome_map]
  rw [hhas, Option.isSome_iff_exists, List.mem_map]
  constructor
  · rintro ⟨⟨other, target⟩, hentry, rfl⟩
    obtain ⟨hname, d, f, hfound, -⟩ := (mem_entries_iff h c).1 hentry
    exact ⟨hname, (d, f), hfound⟩
  · rintro ⟨hname, ⟨d, f⟩, hfound⟩
    exact ⟨(name, target r c f), (mem_entries_iff h c).2 ⟨hname, d, f, hfound, rfl⟩, rfl⟩

/-- A function that is inherited leads to its native wrapper if it is redirected, else to the wrapper that is named
after the class that has it. -/
theorem target_of_inherited {name : String} {d : BoundClass} {f : BoundFunction}
    (hfound : r.inherited (ownFunction name) c.id = some (d, f)) (symbol : String) : symbol = target r c f
      ↔ (f.isRedirector = true → f.wrapperName = some symbol)
        ∧ (f.isRedirector = false → symbol = s!"{d.tag}_member_function_wrapper_{name}") := by
  obtain ⟨owner, howner, hown⟩ := List.exists_of_findSome?_eq_some hfound
  obtain ⟨g, hg, heq⟩ := Option.map_eq_some_iff.1 hown
  obtain ⟨rfl, rfl⟩ := Prod.mk.inj heq
  have hd := ((Registry.mem_lineage_iff h.rooted.placed h.rooted.basesInRange).1 howner).1
  have hhas : g.OwnedBy owner.id name := h.classes owner hd .function _ (NameMap.mem_entries_of_get? hg)
  have howns : g.owner.bind r.class? = some owner := by
    rw [hhas.owner, Option.bind_some]
    exact h.rooted.placed.getElem? hd
  have hgenerated : wrapperName r c g = s!"{owner.tag}_member_function_wrapper_{name}" := by
    rw [wrapperName, howns, hhas.name, Option.getD_some]
  unfold target
  cases hdirect : g.isRedirector with
  | false => cases g.wrapperName <;> simp [hgenerated]
  | true =>
    obtain ⟨wrapper, hwrapper⟩ := Option.isSome_iff_exists.1 (hhas.redirected hdirect)
    simp [hwrapper, eq_comm (a := symbol)]

/-! ### Entries that every class has -/

omit h in
theorem keys_utilityEntries : (utilityEntries r c).map Prod.fst
    = (if isTaken r c "Set" || isTaken r c "set" then [] else ["Set", "set"])
      ++ (if isTaken r c "Get" || isTaken r c "get" then [] else ["Get", "get"])
      ++ ["IsValid", "GetAddress"].filter fun name => !isTaken r c name := by
  unfold utilityEntries
  simp only [List.map_append, List.map_map, Function.comp_def, List.map_id']
  congr 2 <;> split <;> rfl

omit h in
/-- No reserved name is appended twice. -/
theorem nodup_keys_utilityEntries : ((utilityEntries r c).map Prod.fst).Nodup := by
  have hall : ["Set", "set", "Get", "get", "IsValid", "GetAddress"].Nodup := by decide
  have hset : ∀ taken : Bool, (if taken then [] else ["Set", "set"]).Sublist ["Set", "set"] := by decide
  have hget : ∀ taken : Bool, (if taken then [] else ["Get", "get"]).Sublist ["Get", "get"] := by decide
  rw [keys_utilityEntries]
  exact hall.sublist (((hset _).append (hget _)).append List.filter_sublist)

/-- The reserved names, in the groups that are appended together. -/
def reservedGroups : List (List String) := [["Set", "set"], ["Get", "get"], ["IsValid"], ["GetAddress"]]

/-- A reserved name is appended unless a function takes one of its group. -/
theorem mem_keys_utilityEntries_iff {name : String} : name ∈ (utilityEntries r c).map Prod.fst
    ↔ ∃ group ∈ reservedGroups, name ∈ group ∧ ∀ other ∈ group, ¬ HasFunction r c other := by
  have hpair : ∀ (first second : Bool) (pair : List String),
      name ∈ (if first || second then [] else pair) ↔ name ∈ pair ∧ first = false ∧ second = false := by
    intro first second pair
    cases first <;> cases second <;> simp
  have hsingle : ∀ taken : String → Bool, name ∈ (["IsValid", "GetAddress"].filter fun name => !taken name)
      ↔ (name = "IsValid" ∧ taken "IsValid" = false) ∨ (name = "GetAddress" ∧ taken "GetAddress" = false) := by
    intro taken
    rw [List.mem_filter, List.mem_cons, List.mem_singleton, or_and_right]
    exact or_congr (and_congr_right fun heq => by simp [heq]) (and_congr_right fun heq => by simp [heq])
  simp only [← isTaken_iff h c, Bool.not_eq_true]
  rw [keys_utilityEntries, List.mem_append, List.mem_append, hpair, hpair, hsingle]
  simp [reservedGroups, or_assoc]

end Lineage

/-- CORRECT: in every registry that can be reached, the member map of a class lists no name twice. Before the reserved
names it lists the names of the functions that the class or one it derives from has, but for operators. Each is mapped
to the function that the rule of inheritance finds, and nothing else follows this rule: to its native wrapper if it is
redirected, else to the wrapper named after the class that has it. The reserved names are appended group by group,
where no function takes a name of the group. -/
theorem member_map_exact {r : Registry} (h : r.Reachable) (c : BoundClass) :
    ((entries r c ++ utilityEntries r c).map Prod.fst).Nodup
      ∧ (∀ name, name ∈ (entries r c).map Prod.fst ↔ isOperatorName name = false ∧ HasFunction r c name)
      ∧ (∀ name, ∃ rule, (∀ rule', r.Inherits (ownFunction name) rule' ↔ rule' = rule)
          ∧ ∀ symbol, (name, symbol) ∈ entries r c ↔ isOperatorName name = false ∧ ∃ d f, rule c.id = some (d, f)
            ∧ (f.isRedirector = true → f.wrapperName = some symbol)
            ∧ (f.isRedirector = false → symbol = s!"{d.tag}_member_function_wrapper_{name}"))
      ∧ ∀ name, name ∈ (utilityEntries r c).map Prod.fst
          ↔ ∃ group ∈ reservedGroups, name ∈ group ∧ ∀ other ∈ group, ¬ HasFunction r c other := by
  have howning := h.owning
  refine ⟨?_, fun name => mem_keys_entries_iff howning c, fun name => ?_,
    fun name => mem_keys_utilityEntries_iff howning c⟩
  · rw [List.map_append]
    refine List.Nodup.append ?_ (nodup_keys_utilityEntries c) fun name hlisted hreserved => ?_
    · rw [entries, List.map_map]
      exact nodup_firstByName [] _
    · obtain ⟨group, -, hmem, hfree⟩ := (mem_keys_utilityEntries_iff howning c).1 hreserved
      exact hfree name hmem ((mem_keys_entries_iff howning c).1 hlisted).2
  · refine ⟨r.inherited (ownFunction name), fun rule' => howning.rooted.inherits_iff, fun symbol => ?_⟩
    rw [mem_entries_iff howning c]
    refine and_congr_right fun _ => exists_congr fun d => exists_congr fun f => and_congr_right fun hfound => ?_
    exact target_of_inherited howning c hfound symbol

/-- A class with one more function, or another one in its place. -/
def adding (name : String) (f : BoundClass → BoundFunction) (c : BoundClass) : BoundClass :=
  c.withMembers .function ((c.members .function).insert name (f c))

/-- A native wrapper as a function of a class. -/
def redirecting (name wrapper : String) (c : BoundClass) : BoundFunction :=
  { Selection.wrappedMember c name wrapper "" with isStatic := false, sharesHeader := false }

/-- The diamond, where native wrappers stand for `Spawn` and `get` of `Root`, and `Leaf` has a `Spawn` of its own. -/
def crewed : Registry :=
  let root : BoundClass := { id := 3, name := "Root", scope := "", source := "" }
  let spawn : BoundFunction := { BoundFunction.new "Spawn" "::Leaf" .plainVoid with owner := some 0, overloads := [[]] }
  ((Registry.diamond.modifyClass 3 (adding "Spawn" fun _ => redirecting "Spawn" "root_spawn" root)).modifyClass 3
    (adding "get" fun _ => redirecting "get" "root_get" root)).modifyClass 0 (adding "Spawn" fun _ => spawn)

theorem reachable_crewed : crewed.Reachable := by
  let root : BoundClass := { id := 3, name := "Root", scope := "", source := "" }
  let spawn : DeclaredFunction :=
    { name := "Spawn", scope := "::Leaf", params := [], returns := "void", isStatic := false, comment := ""
      owner := some ("", "Leaf"), isConstructor := false, source := "" }
  have hspawn := Registry.reachable_diamond.register (.redirect _ root ⟨"::Root", "Spawn", false⟩ "root_spawn" "")
  have hget := hspawn.register (.redirect _ root ⟨"::Root", "get", false⟩ "root_get" "")
  exact hget.register (@Registry.Change.extendMember _ 0 _ spawn [] _ _ rfl rfl)

/-- `Leaf` shadows `Spawn`; as it inherits `get`, it has neither `Get` nor `get` among the reserved names. -/
theorem leaf_member_map : crewed.Reachable ∧ ∃ leaf, crewed.class? 0 = some leaf
    ∧ entries crewed leaf = [("Spawn", "_Leaf_member_function_wrapper_Spawn"), ("get", "root_get")]
    ∧ (utilityEntries crewed leaf).map Prod.fst = ["Set", "set", "IsValid", "GetAddress"]
    ∧ ((entries crewed leaf ++ utilityEntries crewed leaf).map Prod.fst).Nodup
    ∧ HasFunction crewed leaf "get" := by
  obtain ⟨leaf, hleaf⟩ : ∃ leaf, crewed.class? 0 = some leaf := ⟨_, rfl⟩
  have hid : leaf.id = 0 := by cases hleaf; rfl
  have hbases : crewed.flattenedBases 0 = [1, 3, 2] := by cbv
  have hlineage : crewed.lineage leaf.id = crewed.classesOf [0, 1, 3, 2] := by
    rw [Registry.lineage, hid, hbases]
  have hentries : entries crewed leaf = [("Spawn", "_Leaf_member_function_wrapper_Spawn"), ("get", "root_get")] := by
    rw [entries, inLineage, hlineage]
    cases hleaf
    decide +kernel
  have hreserved : (utilityEntries crewed leaf).map Prod.fst = ["Set", "set", "IsValid", "GetAddress"] := by
    simp only [utilityEntries, isTaken, inLineage, hlineage]
    cases hleaf
    decide +kernel
  obtain ⟨hnodup, hlisted, -, -⟩ := member_map_exact reachable_crewed leaf
  have hget : "get" ∈ (entries crewed leaf).map Prod.fst := by simp [hentries]
  exact ⟨reachable_crewed, leaf, hleaf, hentries, hreserved, hnodup, ((hlisted "get").1 hget).2⟩

end Members

end LuaGlue
