import LuaGlue.Proofs.Attachment.Requested
import LuaGlue.Proofs.Selection.Remarks
import Mathlib.Data.List.Perm.Basic

/-!
Types in any order of the declarations.

The spelling of a type is read against the names of classes and enums, the templates that stand for others, and the
extensions. The first pass gathers names and templates from the whole sequence. What it has at its end does not depend
on the order: the names are sets, and of templates that are mapped at most once each the table has every mapping
(`readings_perm`). The second pass changes none of this, so a function has the same types at every point of it.

    declared        f(Late*)   class Late              class Late   f(Late*)
    first pass      classes {::Late}                   classes {::Late}
    second pass     f ↦ ::Late*   class Late           class Late   f ↦ ::Late*
-/

namespace LuaGlue

/-! ### Entries in any order -/

/-- Entries at different keys can be made in either order. -/
theorem NameMap.insert_comm {α : Type} (m : NameMap α) {key other : String} (h : key ≠ other) (value value' : α) :
    (m.insert key value).insert other value' = (m.insert other value').insert key value := by
  refine ext_get? fun name => ?_
  simp only [get?_insert]
  by_cases hname : name = key
  · have hother : name ≠ other := fun heq => h (hname.symm.trans heq)
    rw [if_neg hother, if_pos hname, if_pos hname]
  · rw [if_neg hname, if_neg hname]

/-- Names can be added in either order. -/
theorem NameSet.insert_comm (names : NameSet) (name other : String) :
    (names.insert name).insert other = (names.insert other).insert name := by
  refine ext_contains fun x => ?_
  simp only [contains_insert, Bool.or_eq_true]
  exact or_left_comm

/-! ### What types are read by -/

/-- The template that an item asks to map, and the one it is to stand for. -/
def templateRequest? (item : Except DeclarationError Declaration) : Option (String × String) :=
  match Request.read? item with
  | some (.template source target) => some (source, target)
  | _ => none

/-- The templates that are asked to be mapped, in order. -/
def templateRequests (stream : List (Except DeclarationError Declaration)) : List (String × String) :=
  stream.filterMap templateRequest?

/-- Is each template mapped by at most one request? -/
def MapsTemplatesOnce (stream : List (Except DeclarationError Declaration)) : Prop :=
  ((templateRequests stream).map Prod.fst).Nodup

instance (stream : List (Except DeclarationError Declaration)) : Decidable (MapsTemplatesOnce stream) :=
  inferInstanceAs (Decidable (List.Nodup _))

namespace Selection

/-- The templates after a request to map one. -/
def mapTemplate (templates : NameMap String) (entry : String × String) : NameMap String :=
  templates.insert entry.1 entry.2

/-- A state of the second pass over a sequence: after the whole first pass, some declarations from the front have been
registered. -/
def InSecondPass (registry : Registry) (stream : List (Except DeclarationError Declaration)) (s : Selection) : Prop :=
  ((start registry).learnAll stream).2 = none
    ∧ ∃ seen, seen <+: stream ∧ s = (((start registry).learnAll stream).1.registerAll seen).1

theorem templates_learn (s : Selection) (d : Declaration) : (s.learn d).registry.templates
    = ((templateRequest? (.ok d)).toList).foldl mapTemplate s.registry.templates := by
  rw [learn, heed, templateRequest?, Request.read?]
  cases Request.of (Annotations.parse d.comment) with
  | error e => rfl
  | ok request =>
    cases request with
    | none => rfl
    | some request => cases request <;> rfl

/-- The first pass over a sequence without errors learns the names and the templates of all of it. -/
theorem readings_learnAll {s : Selection} {stream : List (Except DeclarationError Declaration)}
    (hends : (s.learnAll stream).2 = none) : (s.learnAll stream).1.known = learnNames s.known stream
      ∧ (s.learnAll stream).1.registry.templates
        = (templateRequests stream).foldl mapTemplate s.registry.templates := by
  induction stream generalizing s with
  | nil => exact ⟨rfl, rfl⟩
  | cons item rest ih =>
    cases item with
    | error e => cases hends
    | ok d =>
      obtain ⟨hknown, htemplates⟩ := ih (s := s.learn d) hends
      rw [known_learn] at hknown
      rw [templates_learn] at htemplates
      refine ⟨hknown, htemplates.trans ?_⟩
      have hrequests : templateRequests (.ok d :: rest)
          = (templateRequest? (.ok d)).toList ++ templateRequests rest := by
        rw [templateRequests, List.filterMap_cons]
        cases templateRequest? (.ok d) <;> rfl
      rw [hrequests, List.foldl_append]

/-- The first pass comes to its end when every file can be loaded. -/
theorem ends_learnAll_iff {s : Selection} {stream : List (Except DeclarationError Declaration)} :
    (s.learnAll stream).2 = none ↔ ∀ item ∈ stream, item.isOk = true := by
  induction stream generalizing s with
  | nil => simp [learnAll]
  | cons item rest ih =>
    cases item with
    | error e => simp [learnAll, Except.isOk, Except.toBool]
    | ok d =>
      rw [learnAll, ih, List.forall_mem_cons]
      exact (and_iff_right rfl).symm

theorem learnName_comm (known : KnownNames) (d d' : Declaration) :
    learnName (learnName known d) d' = learnName (learnName known d') d := by
  cases d <;> cases d' <;> try rfl
  · exact congrArg (KnownNames.mk · known.enums) (NameSet.insert_comm ..)
  · exact congrArg (KnownNames.mk known.classes) (NameSet.insert_comm ..)

section Perm

variable {stream stream' : List (Except DeclarationError Declaration)}

theorem learnNames_perm (hperm : stream'.Perm stream) (known : KnownNames) :
    learnNames known stream' = learnNames known stream := by
  refine hperm.foldl_eq' (fun item _ item' _ known => ?_) known
  cases item with
  | error e => rfl
  | ok d =>
    cases item' with
    | error e => rfl
    | ok d' => exact learnName_comm known d d'

/-- Templates that are mapped once each are mapped alike in any order. -/
theorem mapTemplates_perm {requests requests' : List (String × String)} (hperm : requests'.Perm requests)
    (honce : (requests.map Prod.fst).Nodup) (templates : NameMap String) :
    requests'.foldl mapTemplate templates = requests.foldl mapTemplate templates := by
  have honce' : (requests'.map Prod.fst).Nodup := (hperm.map Prod.fst).nodup_iff.2 honce
  refine hperm.foldl_eq' (fun entry hentry other hother templates => ?_) templates
  by_cases hkey : entry.1 = other.1
  · rw [List.inj_on_of_nodup_map honce' hentry hother hkey]
  · exact (templates.insert_comm hkey entry.2 other.2)

/-- What types are read by after the first pass over either sequence. -/
theorem readings_perm (hperm : stream'.Perm stream) (honce : MapsTemplatesOnce stream) {s : Selection}
    (hends : (s.learnAll stream).2 = none) (hends' : (s.learnAll stream').2 = none) :
    (s.learnAll stream').1.known = (s.learnAll stream).1.known
      ∧ (s.learnAll stream').1.registry.templates = (s.learnAll stream).1.registry.templates := by
  obtain ⟨hknown, htemplates⟩ := readings_learnAll hends
  obtain ⟨hknown', htemplates'⟩ := readings_learnAll hends'
  rw [hknown, hknown', htemplates, htemplates']
  exact ⟨learnNames_perm hperm _, mapTemplates_perm (hperm.filterMap _) honce _⟩

end Perm

/-- In the second pass a function has the types it has when the pass begins. -/
theorem InSecondPass.signature_eq {registry : Registry} {stream : List (Except DeclarationError Declaration)}
    {s : Selection} (h : InSecondPass registry stream s) (f : DeclaredFunction) :
    s.signature f = ((start registry).learnAll stream).1.signature f := by
  obtain ⟨-, seen, -, rfl⟩ := h
  exact (learned_registerAll _ seen).signature f

end Selection

open Selection

/-- CORRECT: let two sequences hold the same declarations in different orders, with at most one request to map each
template. Then the first pass comes to its end over both or over neither. At any point of the second pass over either of
them a function has the same types, or the same parameter or result of it cannot be read for the same reason. -/
theorem types_in_any_order (registry : Registry) {stream stream' : List (Except DeclarationError Declaration)}
    (hperm : stream'.Perm stream) (honce : MapsTemplatesOnce stream) :
    (((start registry).learnAll stream').2 = none ↔ ((start registry).learnAll stream).2 = none)
      ∧ ∀ s s', InSecondPass registry stream s → InSecondPass registry stream' s' →
        ∀ f, s'.signature f = s.signature f := by
  refine ⟨?_, fun s s' hs hs' f => ?_⟩
  · rw [ends_learnAll_iff, ends_learnAll_iff]
    exact forall_congr' fun item => imp_congr_left hperm.mem_iff
  · obtain ⟨hknown, htemplates⟩ := readings_perm hperm honce hs.1 hs'.1
    have hpatches (stream : List (Except DeclarationError Declaration)) :
        ((start registry).learnAll stream).1.registry.patches = registry.patches := by
      obtain ⟨_, _, _, _, hlearned⟩ := learnAll_rest (start registry) stream
      rw [hlearned]
      rfl
    rw [hs.signature_eq, hs'.signature_eq, signature, signature, Spelling.Context.of, Spelling.Context.of, hknown,
      htemplates, hpatches, hpatches]

/-- `Shop::Fill(List<Item>& items, Kind kind)`. -/
def fill : DeclaredFunction where
  name := "Fill"
  scope := "::Shop"
  params := [⟨"items", "List<Item>&"⟩, ⟨"kind", "Kind"⟩]
  returns := "void"
  isStatic := false
  comment := ""
  owner := none
  isConstructor := false
  source := "shop.hpp"

/-- The function in front of everything that its types name. -/
def fillFirst : List (Except DeclarationError Declaration) :=
  [.ok (.function fill), .ok (.record ⟨"Item", "::Shop", "shop.hpp", none, "", [], false⟩),
    .ok (.enum ⟨"Kind", "::Shop", "", [], "shop.hpp"⟩),
    .ok (.remark "CUSTOM_ATTRIBUTE[LuaStateTypes(Main) LuaMapTemplateClass(List, Array)]")]

/-- A registry for which instances of `Array` are arrays. -/
def arrayRegistry : Registry where
  patches := { array := some { template := "Array", wrapper := "View", raw := "Raw" } }

/-- The function has its types when it comes first, and when everything it names has been registered. -/
theorem fill_read_first_and_last : fillFirst.reverse.Perm fillFirst ∧ MapsTemplatesOnce fillFirst
    ∧ ∃ s s', InSecondPass arrayRegistry fillFirst s ∧ InSecondPass arrayRegistry fillFirst.reverse s'
      ∧ s.registry.classes.length = 0 ∧ s'.registry.classes.length = 1 ∧ s'.signature fill = s.signature fill
      ∧ (s.signature fill).toOption.map (fun types => types.1.map fun p => (p.name, p.type.kindLabel))
        = some [("items", "Raw"), ("kind", "::Shop::Kind")] := by
  have hperm : fillFirst.reverse.Perm fillFirst := List.reverse_perm _
  have honce : MapsTemplatesOnce fillFirst := by decide +kernel
  have hfirst : InSecondPass arrayRegistry fillFirst ((start arrayRegistry).learnAll fillFirst).1 :=
    ⟨rfl, [], List.nil_prefix, rfl⟩
  have hlast : InSecondPass arrayRegistry fillFirst.reverse
      (((start arrayRegistry).learnAll fillFirst.reverse).1.registerAll (fillFirst.reverse.take 3)).1 :=
    ⟨rfl, _, List.take_prefix _ _, rfl⟩
  have hsame := (types_in_any_order arrayRegistry hperm honce).2 _ _ hfirst hlast fill
  exact ⟨hperm, honce, _, _, hfirst, hlast, by decide +kernel, by decide +kernel, hsame, by decide +kernel⟩

end LuaGlue
