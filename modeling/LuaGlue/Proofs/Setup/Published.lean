import LuaGlue.Proofs.Setup.Blocks

/-!
What a block of the setup code leaves behind in Lua.

The block of a free function, of an enum or of a class is run from any state. The stack is as it was, the
scope leads to a table that holds the value under its name, and of the tables that were there before one
is changed in one field. It is assumed that the globals and the tables that the scope leads through are
different tables: a scope that leads back to a table it came from may be cut by its own publication.
-/

namespace LuaGlue

/-- Every table that is referred to is in use. -/
structure LuaState.IsSound (s : LuaState) : Prop where
  globals : s.globals < s.tables.count
  closed : s.tables.IsClosed

/-! ### The fields of a new table -/

theorem LuaTable.fields_foldl_set (entries : List (String × LuaValue)) (t : LuaTable) (key : String) :
    (entries.foldl (fun t entry => t.set (.text entry.1) entry.2) t).fields (.text key)
      = (entries.reverse.lookup key).getD (t.fields (.text key)) := by
  induction entries generalizing t with
  | nil => rfl
  | cons entry rest ih =>
    obtain ⟨name, value⟩ := entry
    rw [List.foldl_cons, ih, List.reverse_cons, List.lookup_append]
    by_cases hkey : key = name
    · subst hkey
      cases rest.reverse.lookup key <;> simp [LuaTable.set]
    · have hne : (key == name) = false := beq_false_of_ne hkey
      cases rest.reverse.lookup key <;> simp [LuaTable.set, List.lookup_cons, List.lookup_nil, hkey, hne]

/-- A key has the value that is listed last for it. -/
theorem LuaTable.fields_ofEntries (entries : List (String × LuaValue)) (key : String) :
    (LuaTable.ofEntries entries).fields (.text key) = (entries.reverse.lookup key).getD .nil :=
  fields_foldl_set entries .empty key

theorem LuaTable.metatable_ofEntries (entries : List (String × LuaValue)) :
    (LuaTable.ofEntries entries).metatable = none := by
  suffices h : ∀ t : LuaTable,
      (entries.foldl (fun t entry => t.set (.text entry.1) entry.2) t).metatable = t.metatable from h .empty
  intro t
  induction entries generalizing t with
  | nil => rfl
  | cons entry rest ih =>
    rw [List.foldl_cons, ih]
    rfl

theorem lookup_map {α β : Type} (f : α → β) (l : List (String × α)) (key : String) :
    (l.map fun entry => (entry.1, f entry.2)).lookup key = (l.lookup key).map f := by
  induction l with
  | nil => rfl
  | cons entry rest ih =>
    rw [List.map_cons, List.lookup_cons, List.lookup_cons, ih]
    cases key == entry.1 <;> rfl

/-! ### The value -/

namespace Content

variable (registry : Registry)

/-- Is the value the one that is published? A function is the wrapper; an enum is a table with the last
number listed for each key, as a 64-bit two's complement; a class table holds the static functions, and
has a metatable if the class has a constructor. -/
def IsValue (m : LuaTables) (v : LuaValue) : Content → Prop
  | .function f => v = .function f.freeWrapperName
  | .enum e => ∃ id, v = .table id ∧ ∀ key, m.field id (.text key)
      = ((e.values.reverse.lookup key).map fun value => .integer (BitVec.ofNat 64 value).toInt).getD .nil
  | .classTable c => ∃ id, v = .table id
      ∧ (∀ key, m.field id (.text key) = (((entries registry (.classTable c)).reverse.lookup key).getD .nil))
      ∧ ((m.cell id).metatable.isSome ↔ c.constructor?.isSome)

variable (bodies : String → String) {m : LuaTables} {t : Nat}

theorem isValue_publish (content : Content) (hm : m.IsClosed) (ht : t < m.count) (scope : List String) (name : String) :
    content.IsValue registry (m.publish t scope name (content.creation registry bodies))
      ((content.creation registry bodies).value (m.walk t scope).2.count) := by
  cases content with
  | function f => rfl
  | enum e =>
    have hcell := Store.cell_publish scope name (creation registry bodies (.enum e)) hm ht rfl
    refine ⟨_, rfl, fun key => ?_⟩
    have hmap := lookup_map (fun value => LuaValue.integer (literalValue value)) e.values.reverse key
    rw [Store.field, hcell, LuaTable.fields_ofEntries, entries, ← List.map_reverse, hmap]
    simp only [literalValue_eq]
  | classTable c =>
    have htables : ∃ metatable more, (creation registry bodies (.classTable c)).tables (m.walk t scope).2.count
          = ⟨(LuaTable.ofEntries (entries registry (.classTable c))).fields, metatable⟩ :: more
        ∧ (metatable.isSome ↔ c.constructor?.isSome) := by
      cases hctor : c.constructor?.isSome with
      | false =>
        refine ⟨none, [], ?_, by simp⟩
        rw [creation, ← LuaTable.metatable_ofEntries (entries registry (.classTable c))]
        simp [hctor]
      | true => exact ⟨some _, _, by rw [creation]; simp only [hctor, if_true]; rfl, by simp⟩
    obtain ⟨metatable, more, htables, hmetatable⟩ := htables
    have hcell := Store.cell_publish scope name _ hm ht htables
    refine ⟨_, rfl, fun key => ?_, ?_⟩
    · rw [Store.field, hcell]
      exact LuaTable.fields_ofEntries ..
    · rw [hcell]
      exact hmetatable

end Content

/-! ### A block -/

namespace Block

/-- What a block has done when it is over. -/
structure Published (registry : Registry) (b : Block) (s s' : LuaState) : Prop where
  stack : s'.stack = s.stack
  globals : s'.globals = s.globals
  /-- The scope leads to a table that holds the value under its name. -/
  reached : ∃ t, s'.tables.follow s'.globals b.scope = some t
    ∧ b.content.IsValue registry s'.tables (s'.tables.field t (.text b.name))
  /-- The tables that the scope led through are the ones it leads through. -/
  kept : ∀ names, names <+: b.scope → ∀ t, s.tables.follow s.globals names = some t →
    s'.tables.follow s'.globals names = some t
  /-- In the tables that were there, no field changed but the one where the publication is grafted on. -/
  others : ∀ t < s.tables.count, ∀ key, (t, key) ≠ s.tables.graft s.globals b.scope b.name →
    s'.tables.field t key = s.tables.field t key

/-- Run from any state in which the globals and the tables that its scope meets are different, a block
ends, leaves the stack as it was, and publishes its value at its path; every other field of the tables
that were there is kept. -/
theorem exec_published (registry : Registry) (bodies : String → String) (b : Block) (hplain : b.IsPlain registry)
    (s : LuaState) (hsound : s.IsSound) (hmet : (s.tables.met s.globals b.scope).Nodup) :
    ∃ s', b.exec registry bodies s = some s' ∧ b.Published registry s s' := by
  obtain ⟨hglobals, hclosed⟩ := hsound
  have hexec := exec_eq registry bodies b hplain s hglobals
  refine ⟨_, hexec, rfl, rfl, ?_, ?_, ?_⟩
  · refine ⟨_, Store.follow_publish b.scope b.name _ hclosed hglobals hmet, ?_⟩
    have hvalue := b.content.isValue_publish registry bodies hclosed hglobals b.scope b.name
    rw [← Store.field_publish_self b.scope b.name] at hvalue
    exact hvalue
  · intro names hnames t ht
    exact Store.follow_publish_of_prefix b.scope b.name _ hclosed hglobals hmet hnames ht
  · intro t ht key hkey
    exact Store.field_publish_of_ne b.scope b.name _ hclosed hglobals ht hkey

/-- A state of Lua in which the global `Gfx` is a table with one field. -/
def gfxState : LuaState where
  stack := [.integer 7]
  tables := (Store.mk (fun _ => .empty) 0).allotAll [.ofEntries [("Gfx", .table 1)], .ofEntries [("width", .integer 640)]]
  objects := ⟨fun _ => ⟨0, .nil, none⟩, 0⟩
  globals := 0
  named := fun _ => none

theorem isSound_gfxState : gfxState.IsSound := by
  refine ⟨by decide, ?_⟩
  intro t ht key u hu
  have ht2 : t = 0 ∨ t = 1 := by
    have : t < 2 := ht
    omega
  rcases ht2 with rfl | rfl
  · have hfield : (if key = .text "Gfx" then LuaValue.table 1 else .nil) = .table u := by
      simpa [gfxState, Store.field, Store.allot, LuaTable.ofEntries, LuaTable.set, LuaTable.empty, Function.update] using hu
    split at hfield <;> cases hfield
    decide
  · have hfield : (if key = .text "width" then LuaValue.integer 640 else .nil) = .table u := by
      simpa [gfxState, Store.field, Store.allot, LuaTable.ofEntries, LuaTable.set, LuaTable.empty, Function.update] using hu
    split at hfield <;> cases hfield

/-- An enum inside a table that is missing. -/
def maskEnum : BoundEnum :=
  { name := "Mask", scope := "::Gfx::Types", state := "Main",
    values := [("None", 0), ("All", 18446744073709551615), ("None", 1)] }

theorem maskEnum_published : ∃ s', (ofEnum maskEnum).exec {} (fun _ => "") gfxState = some s'
    ∧ (ofEnum maskEnum).Published {} gfxState s' :=
  exec_published {} (fun _ => "") (ofEnum maskEnum) (by decide +kernel) gfxState isSound_gfxState (by decide +kernel)

end Block

end LuaGlue
