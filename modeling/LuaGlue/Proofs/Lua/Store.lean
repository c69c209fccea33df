import Mathlib.Logic.Function.Basic

/-!
The objects of Lua in memory: values, and numbered cells that hold tables and userdata.

    allot   takes the next cell into use     its number was in no use before
    write   replaces the contents of a cell  every other cell stays

A table is read and written raw, so its metatable plays no part in it.
-/

namespace LuaGlue

/-- A value of Lua. -/
inductive LuaValue where
  | nil
  | boolean (value : Bool)
  | integer (value : Int)
  | text (contents : String)
  /-- A native function, by its symbol. -/
  | function (symbol : String)
  /-- A native function without a name, by its body. -/
  | lambda (body : String)
  | table (id : Nat)
  | userdata (id : Nat)
  /-- A value of another kind: a float, a bare address, a thread. -/
  | other (description : String)
  deriving DecidableEq, Repr

/-- The table that the value refers to. -/
def LuaValue.table? : LuaValue → Option Nat
  | .table id => some id
  | _ => none

theorem LuaValue.table?_eq_some {v : LuaValue} {id : Nat} : v.table? = some id ↔ v = .table id := by
  cases v <;> simp [table?]

/-- A table. -/
structure LuaTable where
  fields : LuaValue → LuaValue
  metatable : Option Nat

/-- A table without fields. -/
def LuaTable.empty : LuaTable := ⟨fun _ => .nil, none⟩

/-- The table with one field changed. -/
def LuaTable.set (t : LuaTable) (key value : LuaValue) : LuaTable :=
  { t with fields := Function.update t.fields key value }

@[simp] theorem LuaTable.fields_set_self (t : LuaTable) (key value : LuaValue) :
    (t.set key value).fields key = value := Function.update_self ..

theorem LuaTable.fields_set_of_ne (t : LuaTable) {key other : LuaValue} (value : LuaValue) (h : other ≠ key) :
    (t.set key value).fields other = t.fields other := Function.update_of_ne h ..

/-- Full userdata, without the native bytes in it. -/
structure LuaObject where
  /-- How many user values it has. -/
  userValues : Nat
  /-- The first user value. -/
  userValue : LuaValue
  metatable : Option Nat

/-- Numbered cells. Those below `count` are in use. -/
structure Store (α : Type) where
  cell : Nat → α
  count : Nat

namespace Store

variable {α : Type} (m : Store α)

/-- One more cell. -/
def allot (a : α) : Store α := ⟨Function.update m.cell m.count a, m.count + 1⟩

/-- New contents for a cell. -/
def write (i : Nat) (a : α) : Store α := { m with cell := Function.update m.cell i a }

@[simp] theorem count_allot (a : α) : (m.allot a).count = m.count + 1 := rfl

@[simp] theorem cell_allot_count (a : α) : (m.allot a).cell m.count = a := Function.update_self ..

theorem cell_allot_of_ne (a : α) {j : Nat} (h : j ≠ m.count) : (m.allot a).cell j = m.cell j :=
  Function.update_of_ne h ..

theorem cell_allot_of_lt (a : α) {j : Nat} (h : j < m.count) : (m.allot a).cell j = m.cell j :=
  m.cell_allot_of_ne a (Nat.ne_of_lt h)

@[simp] theorem cell_write_self (i : Nat) (a : α) : (m.write i a).cell i = a := Function.update_self ..

theorem cell_write_of_ne {i j : Nat} (a : α) (h : j ≠ i) : (m.write i a).cell j = m.cell j :=
  Function.update_of_ne h ..

/-- The cell that was taken last is filled as if it had been taken with these contents. -/
@[simp] theorem write_allot_count (a b : α) : (m.allot a).write m.count b = m.allot b := by
  simp [write, allot]

theorem write_comm {i j : Nat} (h : i ≠ j) (a b : α) : (m.write i a).write j b = (m.write j b).write i a := by
  simp only [write, Function.update_comm h]

/-- A cell in use may be written before or after another one is taken. -/
theorem allot_write {i : Nat} (h : i < m.count) (a b : α) : (m.write i a).allot b = (m.allot b).write i a := by
  simp only [write, allot, Function.update_comm (Nat.ne_of_lt h)]

end Store

/-- The tables in memory. -/
abbrev LuaTables := Store LuaTable

namespace Store

/-! ### Fields -/

variable (m : LuaTables)

/-- A field of a table. -/
def field (t : Nat) (key : LuaValue) : LuaValue := (m.cell t).fields key

/-- The tables with one field of a table changed. -/
def setField (t : Nat) (key value : LuaValue) : LuaTables := m.write t ((m.cell t).set key value)

@[simp] theorem count_setField (t : Nat) (key value : LuaValue) : (m.setField t key value).count = m.count := rfl

@[simp] theorem field_setField_self (t : Nat) (key value : LuaValue) :
    (m.setField t key value).field t key = value := by
  simp [field, setField, LuaTable.set]

theorem cell_setField_of_ne {t u : Nat} (h : u ≠ t) (key value : LuaValue) :
    (m.setField t key value).cell u = m.cell u :=
  m.cell_write_of_ne _ h

theorem field_setField_of_ne {t u : Nat} {key other : LuaValue} (value : LuaValue) (h : (u, other) ≠ (t, key)) :
    (m.setField t key value).field u other = m.field u other := by
  by_cases hu : u = t
  · subst hu
    have hkey : other ≠ key := fun hkey => h (by rw [hkey])
    simp [field, setField, LuaTable.set, hkey]
  · rw [field, m.cell_setField_of_ne hu, ← field]

theorem field_allot_of_ne {t : Nat} (h : t ≠ m.count) (table : LuaTable) (key : LuaValue) :
    (m.allot table).field t key = m.field t key := by
  rw [field, m.cell_allot_of_ne table h, ← field]

@[simp] theorem field_allot_count (table : LuaTable) (key : LuaValue) :
    (m.allot table).field m.count key = table.fields key := by
  rw [field, cell_allot_count]

@[simp] theorem setField_allot_count (table : LuaTable) (key value : LuaValue) :
    (m.allot table).setField m.count key value = m.allot (table.set key value) := by
  rw [setField, cell_allot_count, write_allot_count]

/-- Fields of different tables may be changed in either order. -/
theorem setField_comm {t u : Nat} (h : t ≠ u) (key value other what : LuaValue) :
    (m.setField t key value).setField u other what = (m.setField u other what).setField t key value := by
  simp only [setField, m.cell_write_of_ne _ h.symm, m.cell_write_of_ne _ h]
  exact m.write_comm h ..

/-- A field of a table in use may be changed before or after another table is made. -/
theorem allot_setField {t : Nat} (h : t < m.count) (key value : LuaValue) (table : LuaTable) :
    (m.setField t key value).allot table = (m.allot table).setField t key value := by
  rw [setField, setField, m.allot_write h, m.cell_allot_of_lt table h]

/-! ### Following names -/

/-- The table that is reached from a table by following names. -/
def follow (t : Nat) (names : List String) : Option Nat :=
  names.foldlM (fun t name => (m.field t (.text name)).table?) t

@[simp] theorem follow_nil (t : Nat) : m.follow t [] = some t := rfl

theorem follow_cons (t : Nat) (name : String) (rest : List String) :
    m.follow t (name :: rest) = (m.field t (.text name)).table?.bind fun u => m.follow u rest := by
  rw [follow, List.foldlM_cons]
  rfl

theorem follow_append (t : Nat) (names rest : List String) :
    m.follow t (names ++ rest) = (m.follow t names).bind fun u => m.follow u rest := by
  rw [follow, List.foldlM_append]
  rfl

/-- The value that is reached from a table by following names and then reading one more. -/
theorem follow_concat (t : Nat) (names : List String) (name : String) :
    m.follow t (names ++ [name]) = (m.follow t names).bind fun u => (m.field u (.text name)).table? := by
  simp only [follow_append, follow_cons, follow_nil, Option.bind_fun_some]

end Store

end LuaGlue
