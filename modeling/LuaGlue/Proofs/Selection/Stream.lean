import LuaGlue.Declaration.Source
import LuaGlue.Proofs.Naming.Scopes

/-!
The order of declarations.

A file lists each class right before its constructors and methods, so in the sequence that files make a
member always stands behind its own class, with only members in between. `InOrder owner` says this of a
sequence that comes after the class `owner`.

    class A · A's members · class B · B's members · functions · enums
-/

namespace LuaGlue

/-- The class that a declaration leaves its members to. -/
def Declaration.ownerAfter (owner : Option (String × String)) : Declaration → Option (String × String)
  | .record c => some (c.scope, c.name)
  | _ => owner

/-- May the declaration stand where the last class is `owner`? -/
def Declaration.Follows (owner : Option (String × String)) : Declaration → Prop
  | .record c => Scope.IsNormal c.scope
  | .function f => ∀ o, f.owner = some o → owner = some o ∧ f.scope = Scope.qualify o.1 o.2
  | _ => True

namespace DeclarationSource

/-- Do members stand behind their classes? -/
def InOrder : Option (String × String) → List (Except DeclarationError Declaration) → Prop
  | _, [] => True
  | owner, .error _ :: rest => InOrder owner rest
  | owner, .ok d :: rest => d.Follows owner ∧ InOrder (d.ownerAfter owner) rest

theorem inOrder_append {owner : Option (String × String)} {a b : List (Except DeclarationError Declaration)}
    (ha : InOrder owner a) (hb : ∀ owner, InOrder owner b) : InOrder owner (a ++ b) := by
  induction a generalizing owner with
  | nil => exact hb owner
  | cons item rest ih =>
    cases item with
    | error e => exact ih ha
    | ok d => exact ⟨ha.1, ih ha.2⟩

/-- Declarations that are no classes stand where they may one by one. -/
theorem inOrder_of_forall {owner : Option (String × String)} {l : List Declaration}
    (h : ∀ d ∈ l, d.Follows owner ∧ d.ownerAfter owner = owner) : InOrder owner (l.map .ok) := by
  induction l with
  | nil => trivial
  | cons d rest ih =>
    obtain ⟨hfollows, howner⟩ := h d List.mem_cons_self
    refine ⟨hfollows, ?_⟩
    rw [howner]
    exact ih fun other hother => h other (List.mem_cons_of_mem _ hother)

/-! ### One file -/

theorem exists_of_mem_mapM {α β : Type} {f : α → Option β} {l : List α} {found : List β}
    (h : l.mapM f = some found) : ∀ b ∈ found, ∃ a, f a = some b := by
  induction l generalizing found with
  | nil =>
    cases h
    intro b hb
    cases hb
  | cons a l ih =>
    simp only [List.mapM_cons, Option.bind_eq_bind, Option.bind_eq_some_iff, Option.pure_def] at h
    obtain ⟨first, hfirst, others, hothers, hfound⟩ := h
    cases hfound
    intro b hb
    rcases List.mem_cons.1 hb with rfl | hb
    · exact ⟨a, hfirst⟩
    · exact ih hothers b hb

theorem owner_of_decode {value : Toml.Value} {f : DeclaredFunction}
    (h : DeclarationDocument.function value = some f) : f.owner = none := by
  simp only [DeclarationDocument.function, Option.bind_eq_bind, Option.bind_eq_some_iff, Option.pure_def] at h
  obtain ⟨_, -, _, -, _, -, _, -, _, -, _, -, _, -, hf⟩ := h
  cases hf
  rfl

/-- The functions of a file are free. -/
theorem owner_of_mem_functions {text : String} {d : DeclarationDocument}
    (h : DeclarationDocument.parse? text = some d) : ∀ f ∈ d.functions, f.owner = none := by
  simp only [DeclarationDocument.parse?, DeclarationDocument.decode, Option.bind_eq_bind,
    Option.bind_eq_some_iff, Option.pure_def] at h
  obtain ⟨_, -, fields, -, _, -, _, -, _, -, functions, hfunctions, _, -, hd⟩ := h
  cases hd
  rw [Toml.Fields.withDefault] at hfunctions
  split at hfunctions
  · next value _ =>
    unfold Toml.Decoder.list at hfunctions
    split at hfunctions
    · intro f hf
      obtain ⟨value, hvalue⟩ := exists_of_mem_mapM hfunctions f hf
      exact owner_of_decode hvalue
    · cases hfunctions
  · cases hfunctions
    intro f hf
    cases hf

/-- The declarations of a class: the class itself, and functions that name it as their owner. -/
theorem exists_members_of_entry (source : String) (entry : ClassEntry) :
    ∃ (d : DeclaredClass) (members : List DeclaredFunction),
      DeclarationDocument.classDeclarations source entry = .record d :: members.map .function
        ∧ d.scope = Scope.normalize entry.scope ∧ d.name = entry.name
        ∧ ∀ f ∈ members, f.owner = some (d.scope, d.name) ∧ f.scope = Scope.qualify d.scope d.name := by
  refine ⟨_, _, rfl, rfl, rfl, fun f hf => ?_⟩
  rcases List.mem_append.1 hf with hconstructor | hmethod
  · obtain ⟨params, -, rfl⟩ := List.mem_map.1 hconstructor
    exact ⟨rfl, rfl⟩
  · obtain ⟨method, -, rfl⟩ := List.mem_map.1 hmethod
    exact ⟨rfl, rfl⟩

/-- The class that a class entry declares. -/
theorem scope_of_mem_classDeclarations {source : String} {entry : ClassEntry} {c : DeclaredClass}
    (h : .record c ∈ DeclarationDocument.classDeclarations source entry) :
    c.scope = Scope.normalize entry.scope ∧ c.name = entry.name := by
  obtain ⟨d, members, hentry, hscope, hname, -⟩ := exists_members_of_entry source entry
  rw [hentry, List.mem_cons] at h
  rcases h with heq | hmember
  · cases heq
    exact ⟨hscope, hname⟩
  · obtain ⟨f, -, heq⟩ := List.mem_map.1 hmember
    cases heq

/-- The classes of a file are those that it has entries for. -/
theorem mem_declarations_record_iff {document : DeclarationDocument} {c : DeclaredClass} :
    .record c ∈ document.declarations
      ↔ ∃ entry ∈ document.classes, .record c ∈ DeclarationDocument.classDeclarations document.source entry := by
  simp [DeclarationDocument.declarations]

theorem inOrder_classDeclarations (owner : Option (String × String)) (source : String) (entry : ClassEntry) :
    InOrder owner ((DeclarationDocument.classDeclarations source entry).map .ok) := by
  obtain ⟨c, members, hentry, hscope, -, howners⟩ := exists_members_of_entry source entry
  rw [hentry]
  refine ⟨?_, inOrder_of_forall fun d hd => ?_⟩
  · change Scope.IsNormal c.scope
    rw [hscope]
    exact Scope.isNormal_normalize _
  · obtain ⟨f, hf, rfl⟩ := List.mem_map.1 hd
    obtain ⟨howner, hqualified⟩ := howners f hf
    refine ⟨fun o ho => ?_, rfl⟩
    cases howner.symm.trans ho
    exact ⟨rfl, hqualified⟩

theorem inOrder_declarations {d : DeclarationDocument} (hfree : ∀ f ∈ d.functions, f.owner = none)
    (owner : Option (String × String)) : InOrder owner (d.declarations.map .ok) := by
  unfold DeclarationDocument.declarations
  rw [List.map_append, List.map_append, List.map_append]
  refine inOrder_append (inOrder_append (inOrder_append ?_ fun owner => ?_) fun owner => ?_) fun owner => ?_
  · refine inOrder_of_forall fun remark hremark => ?_
    obtain ⟨comment, -, rfl⟩ := List.mem_map.1 hremark
    exact ⟨trivial, rfl⟩
  · induction d.classes generalizing owner with
    | nil => trivial
    | cons entry rest ih =>
      rw [List.flatMap_cons, List.map_append]
      exact inOrder_append (inOrder_classDeclarations owner d.source entry) ih
  · refine inOrder_of_forall fun function hfunction => ?_
    obtain ⟨f, hf, rfl⟩ := List.mem_map.1 hfunction
    refine ⟨fun o ho => ?_, rfl⟩
    rw [hfree f hf] at ho
    cases ho
  · refine inOrder_of_forall fun enum henum => ?_
    obtain ⟨e, -, rfl⟩ := List.mem_map.1 henum
    exact ⟨trivial, rfl⟩

/-! ### Several files -/

/-- A declaration of the sequence is made by one of the files. -/
theorem mem_stream_iff {sources : List DeclarationSource} {d : Declaration} :
    .ok d ∈ stream sources ↔ ∃ source ∈ sources, ∃ text document, source.text = some text
      ∧ DeclarationDocument.parse? text = some document ∧ d ∈ document.declarations := by
  rw [stream, List.mem_flatMap]
  refine exists_congr fun source => and_congr_right fun _ => ?_
  rw [items, load]
  cases source.text with
  | none => simp
  | some text => cases hparse : DeclarationDocument.parse? text <;> simp [hparse]

theorem inOrder_items (source : DeclarationSource) (owner : Option (String × String)) :
    InOrder owner source.items := by
  unfold items load
  cases source.text with
  | none => trivial
  | some text =>
    cases hparse : DeclarationDocument.parse? text with
    | none => simp [InOrder, hparse]
    | some d => simpa [hparse] using inOrder_declarations (owner_of_mem_functions hparse) owner

/-- In the sequence that files make, members stand behind their classes. -/
theorem inOrder_stream (sources : List DeclarationSource) (owner : Option (String × String)) :
    InOrder owner (stream sources) := by
  induction sources generalizing owner with
  | nil => trivial
  | cons source rest ih =>
    rw [stream, List.flatMap_cons]
    exact inOrder_append (inOrder_items source owner) ih

end DeclarationSource

end LuaGlue
