import LuaGlue.Glue.StateFile
import LuaGlue.Proofs.Lua.Calls
import LuaGlue.Proofs.Setup.Walk

/-!
Running the blocks of the setup code that publish a function, an enum or a class table.

Whatever the scope is and whichever of its tables are missing, the statements of a block have one effect:
the stack stays, and the tables change as `Store.publish` says. A new global table is published only at
the end of a block; from a new table on that makes no difference (`publish_setField`).
-/

namespace LuaGlue

/-- A table with these fields; of two with one key the later one counts. -/
def LuaTable.ofEntries (entries : List (String × LuaValue)) : LuaTable :=
  entries.foldl (fun t entry => t.set (.text entry.1) entry.2) .empty

/-- The metatable of a class table that can be called. -/
def LuaTable.callable (body : String) : LuaTable := LuaTable.empty.set (.text "__call") (.lambda body)

/-- The functions that make a table callable, each given by the body that it makes `__call`. -/
def Helper.ofBodies (bodies : String → String) : Helper := fun symbol =>
  TableStmt.execBlock (fun _ _ => none) (ConstructorDispatch.makeCallable (bodies symbol))

/-- What a block of the setup publishes. -/
inductive Content where
  | function (f : BoundFunction)
  | enum (e : BoundEnum)
  | classTable (c : BoundClass)

namespace Content

variable (registry : Registry)

/-- The statements that push the value. -/
def push : Content → List TableStmt
  | .function f => [.run (.pushFunction f.freeWrapperName)]
  | .enum e => StateFile.enumTable e
  | .classTable c => .run .newTable :: .gap :: ClassSetup.tableContents registry c

/-- How the global table is left. -/
def close : Content → String → TableStmt
  | .classTable _ => ScopeWalk.closeGlobalFoundFirst
  | _ => ScopeWalk.closeGlobal

/-- The fields of the table that is published: the values of an enum, or the static functions of a class. -/
def entries : Content → List (String × LuaValue)
  | .function _ => []
  | .enum e => e.values.map fun value => (value.1, .integer (literalValue value.2))
  | .classTable c => c.statics.values.map fun f => (f.name, .function (Members.target registry c f))

/-- What is made for the value: nothing for a function, else its table; behind that of a class with a
constructor its metatable. -/
def creation (bodies : String → String) : Content → Creation
  | .function f => ⟨fun _ => [], fun _ => .function f.freeWrapperName⟩
  | .enum e => ⟨fun _ => [.ofEntries (entries registry (.enum e))], .table⟩
  | .classTable c =>
    { tables := fun count =>
        if c.constructor?.isSome then
          [{ LuaTable.ofEntries (entries registry (.classTable c)) with metatable := some (count + 1) },
           .callable (bodies c.dispatchName)]
        else [.ofEntries (entries registry (.classTable c))]
      value := .table }

/-- Is every key its own literal? -/
def IsPlain (content : Content) : Prop := ∀ entry ∈ content.entries registry, PlainName entry.1

instance (content : Content) : Decidable (content.IsPlain registry) :=
  inferInstanceAs (Decidable (∀ entry ∈ content.entries registry, PlainName entry.1))

end Content

/-- A block of the setup: what it publishes, in which scope and under which name. -/
structure Block where
  scope : List String
  name : String
  content : Content

namespace Block

/-- The block of a free function. -/
def ofFunction (f : BoundFunction) : Block := ⟨Scope.parts f.luaScope, f.luaName, .function f⟩

/-- The block of an enum. -/
def ofEnum (e : BoundEnum) : Block := ⟨Scope.parts e.scope, e.name, .enum e⟩

/-- The part of the setup of a class that publishes its class table. -/
def ofClass (c : BoundClass) : Block := ⟨Scope.parts c.luaScope, c.name, .classTable c⟩

variable (registry : Registry)

/-- The statements of the block. -/
def stmts (b : Block) : List TableStmt :=
  let publish := ScopeWalk.publish b.scope b.name (b.content.push registry) b.content.close
  match b.content with
  | .classTable _ => .remark "// Scopes -> START" :: publish ++ [.remark "// Scopes -> END"]
  | _ => publish

/-- What stands in the generated code for a function is the text of its block. -/
theorem renderFunctionEntry_eq (f : BoundFunction) : StateFile.renderFunctionEntry f
    = Text.line 4 "\x7b" ++ TableStmt.renderAll 8 ((ofFunction f).stmts registry) ++ Text.line 4 "\x7d" ++ "\n" := rfl

theorem renderEnumEntry_eq (e : BoundEnum) : StateFile.renderEnumEntry e
    = Text.line 4 "\x7b" ++ TableStmt.renderAll 8 ((ofEnum e).stmts registry) ++ Text.line 4 "\x7d" ++ "\n" := rfl

theorem classTable_eq (c : BoundClass) : ClassSetup.classTable registry c = (ofClass c).stmts registry := rfl

/-- Is every name in the block its own literal? -/
def IsPlain (b : Block) : Prop :=
  (∀ part ∈ b.scope, PlainName part) ∧ PlainName b.name ∧ b.content.IsPlain registry

instance (b : Block) : Decidable (b.IsPlain registry) := inferInstanceAs (Decidable (_ ∧ _ ∧ _))

/-- The block as it runs. -/
def exec (bodies : String → String) (b : Block) (s : LuaState) : Option LuaState :=
  TableStmt.execBlock (Helper.ofBodies bodies) (b.stmts registry) s

/-- The tables after the block ran. -/
def publish (bodies : String → String) (b : Block) (globals : Nat) (m : LuaTables) : LuaTables :=
  m.publish globals b.scope b.name (b.content.creation registry bodies)

end Block

/-! ### Pushing the value -/

section
variable (s : LuaState) (stack : List LuaValue) (m : LuaTables) (found : Option Bool)

/-- Fields are stored one by one into the table on top. -/
theorem execAll_fields {α : Type} {h : Helper} (stmts : α → List TableStmt) (entry : α → String × LuaValue)
    (list : List α) (table : LuaTable)
    (hstep : ∀ a ∈ list, ∀ m : LuaTables, ∀ t,
      TableStmt.execAll h (stmts a) ⟨s.having (.table t :: stack) m, found⟩
        = some ⟨s.having (.table t :: stack) (m.setField t (.text (entry a).1) (entry a).2), found⟩) :
    TableStmt.execAll h (list.flatMap stmts) ⟨s.having (.table m.count :: stack) (m.allot table), found⟩
      = some ⟨s.having (.table m.count :: stack)
          (m.allot ((list.map entry).foldl (fun t e => t.set (.text e.1) e.2) table)), found⟩ := by
  induction list generalizing table with
  | nil => rfl
  | cons a rest ih =>
    rw [List.flatMap_cons, TableStmt.execAll_append, hstep a List.mem_cons_self, Option.bind_some,
      Store.setField_allot_count, ih _ fun a ha => hstep a (List.mem_cons_of_mem _ ha)]
    rfl

/-- The helper gives the table on top a metatable. -/
theorem exec_helper (bodies : String → String) (symbol : String) (table : LuaTable) :
    Helper.ofBodies bodies symbol (s.having (.table m.count :: stack) (m.allot table))
      = some (s.having (.table m.count :: stack)
          (m.allotAll [{ table with metatable := some (m.count + 1) }, .callable (bodies symbol)])) := by
  have hplain : PlainName "__call" := by decide +kernel
  have hfill : ((m.allot table).allot .empty).setField (m.count + 1) (.text "__call") (.lambda (bodies symbol))
      = (m.allot table).allot (.callable (bodies symbol)) := (m.allot table).setField_allot_count ..
  have hcell : ((m.allot table).allot (.callable (bodies symbol))).cell m.count = table := by
    rw [Store.cell_allot_of_lt _ _ (by simp), Store.cell_allot_count]
  have htables : ((m.allot table).allot (.callable (bodies symbol))).write m.count { table with metatable := some (m.count + 1) }
      = (m.allot { table with metatable := some (m.count + 1) }).allot (.callable (bodies symbol)) := by
    rw [← Store.allot_write _ (by simp), Store.write_allot_count]
  rw [Helper.ofBodies, TableStmt.execBlock, ConstructorDispatch.makeCallable]
  simp [TableStmt.exec, hplain, hfill, hcell, htables]

/-- The value is pushed, and what it needs is made. -/
theorem Content.execAll_push (registry : Registry) (bodies : String → String) (content : Content)
    (hplain : content.IsPlain registry) :
    TableStmt.execAll (Helper.ofBodies bodies) (content.push registry) ⟨s.having stack m, found⟩
      = some ⟨s.having ((content.creation registry bodies).value m.count :: stack)
          (m.allotAll ((content.creation registry bodies).tables m.count)), found⟩ := by
  cases content with
  | function f => rfl
  | enum e =>
    have hfields := execAll_fields s stack m found (h := Helper.ofBodies bodies)
      (fun value : String × Nat => [.run (.pushLiteral value.1), .run (.pushInteger value.2), .run .setField])
      (fun value => (value.1, .integer (literalValue value.2))) e.values .empty
      (fun value hvalue m t => by
        have hkey : PlainName value.1 := hplain _ (List.mem_map_of_mem hvalue)
        simp [TableStmt.exec, hkey])
    rw [push, StateFile.enumTable, TableStmt.execAll_cons]
    exact hfields
  | classTable c =>
    have hfields : TableStmt.execAll (Helper.ofBodies bodies) (c.statics.values.flatMap fun f =>
          [.run (.pushLiteral f.name), .run (.pushFunction (Members.target registry c f)), .run .setField, .gap])
        ⟨s.having (.table m.count :: stack) (m.allot .empty), found⟩
          = some ⟨s.having (.table m.count :: stack) (m.allot (.ofEntries (entries registry (.classTable c)))), found⟩ :=
      execAll_fields s stack m found _ _ c.statics.values .empty fun f hf m t => by
        have hkey : PlainName f.name := hplain _ (List.mem_map_of_mem hf)
        simp [TableStmt.exec, hkey]
    have hopen : TableStmt.execAll (Helper.ofBodies bodies) (.run .newTable :: [.gap]) ⟨s.having stack m, found⟩
        = some ⟨s.having (.table m.count :: stack) (m.allot .empty), found⟩ := by
      simp [TableStmt.exec]
    have hpush : push registry (.classTable c) = (.run .newTable :: [.gap]) ++ ClassSetup.tableContents registry c := rfl
    rw [hpush, ClassSetup.tableContents, TableStmt.execAll_append, hopen, Option.bind_some, TableStmt.execAll_append,
      hfields, Option.bind_some]
    cases hctor : c.constructor?.isSome with
    | false => simp [creation, hctor]
    | true => simp [TableStmt.exec, creation, hctor, exec_helper s stack m bodies]

/-! ### Walking the scope -/

variable (helper : Helper)

/-- The table of a part is opened, a new one if it is missing. -/
theorem execAll_openField {name : String} (h : PlainName name) (t : Nat) :
    TableStmt.execAll helper (ScopeWalk.openField name) ⟨s.having (.table t :: stack) m, found⟩
      = some ⟨s.having (.table (m.enter t name).1 :: .table t :: stack) (m.enter t name).2, found⟩ := by
  cases hname : (m.field t (.text name)).table? with
  | some u =>
    have hu := LuaValue.table?_eq_some.1 hname
    simp [ScopeWalk.openField, TableStmt.exec, h, hu, Store.enter_of_found hu, LuaValue.table?]
  | none => simp [ScopeWalk.openField, TableStmt.exec, h, hname, Store.enter_of_missing hname]

/-- Opening the tables of inner parts puts one value for each part on top of the table that the walk
begins at, the table that it ends at on top. -/
theorem execAll_openFields {inner : List String} (h : ∀ part ∈ inner, PlainName part) (t : Nat) :
    ∃ rest, TableStmt.execAll helper (inner.flatMap ScopeWalk.openField) ⟨s.having (.table t :: stack) m, found⟩
        = some ⟨s.having (.table (m.walk t inner).1 :: rest) (m.walk t inner).2, found⟩
      ∧ (.table (m.walk t inner).1 :: rest).drop inner.length = .table t :: stack := by
  induction inner generalizing t stack m with
  | nil => exact ⟨stack, rfl, rfl⟩
  | cons part inner ih =>
    obtain ⟨rest, hrun, hdrop⟩ := ih (.table t :: stack) (m.enter t part).2
      (fun p hp => h p (List.mem_cons_of_mem _ hp)) (m.enter t part).1
    refine ⟨rest, ?_, ?_⟩
    · rw [List.flatMap_cons, TableStmt.execAll_append,
        execAll_openField s stack m found helper (h part List.mem_cons_self), Option.bind_some, hrun, Store.walk]
    · rw [List.length_cons, Store.walk, ← List.tail_drop, hdrop]
      rfl

/-- Closing them takes as many values off. -/
theorem execAll_closeFields {inner : List String} {above : List LuaValue} {v : LuaValue}
    (h : above.drop inner.length = v :: stack) :
    TableStmt.execAll helper (ScopeWalk.closeFields inner) ⟨s.having above m, found⟩
      = some ⟨s.having (v :: stack) m, found⟩ := by
  have hlength : inner.length ≤ above.length := by
    have := congrArg List.length h
    rw [List.length_drop, List.length_cons] at this
    omega
  cases inner with
  | nil =>
    rw [List.length_nil, List.drop_zero] at h
    rw [h]
    rfl
  | cons part inner =>
    rw [List.length_cons] at h hlength
    simp [ScopeWalk.closeFields, TableStmt.exec, hlength, h]

/-- With the table of the scope on top, the value is stored under its name. -/
theorem execAll_body {name : String} (hname : PlainName name) {push : List TableStmt} {c : Creation}
    (hpush : ∀ stack m found, TableStmt.execAll helper push ⟨s.having stack m, found⟩
      = some ⟨s.having (c.value m.count :: stack) (m.allotAll (c.tables m.count)), found⟩) (t : Nat) :
    TableStmt.execAll helper (.run (.pushLiteral name) :: push ++ [.run .setField])
        ⟨s.having (.table t :: stack) m, found⟩
      = some ⟨s.having (.table t :: stack)
          ((m.allotAll (c.tables m.count)).setField t (.text name) (c.value m.count)), found⟩ := by
  simp [TableStmt.execAll_append, TableStmt.exec, hname, hpush]

/-- From the global table on: the inner tables are opened, the value is stored, and they are closed. -/
theorem execAll_inside {inner : List String} (hinner : ∀ part ∈ inner, PlainName part) {name : String}
    (hname : PlainName name) {push : List TableStmt} {c : Creation}
    (hpush : ∀ stack m found, TableStmt.execAll helper push ⟨s.having stack m, found⟩
      = some ⟨s.having (c.value m.count :: stack) (m.allotAll (c.tables m.count)), found⟩) (t : Nat) :
    TableStmt.execAll helper (inner.flatMap ScopeWalk.openField
        ++ (.run (.pushLiteral name) :: push ++ [.run .setField]) ++ ScopeWalk.closeFields inner)
        ⟨s.having (.table t :: stack) m, found⟩
      = some ⟨s.having (.table t :: stack) (m.publish t inner name c), found⟩ := by
  obtain ⟨rest, hopen, hdrop⟩ := execAll_openFields s stack m found helper hinner t
  rw [TableStmt.execAll_append, TableStmt.execAll_append, hopen, Option.bind_some,
    execAll_body s rest _ found helper hname hpush, Option.bind_some,
    execAll_closeFields s stack _ found helper hdrop, Store.publish]

/-- The statements of a publication leave the stack, and publish. -/
theorem execAll_publish {scope : List String} (hscope : ∀ part ∈ scope, PlainName part) {name : String}
    (hname : PlainName name) {push : List TableStmt} {c : Creation}
    (hpush : ∀ stack m found, TableStmt.execAll helper push ⟨s.having stack m, found⟩
      = some ⟨s.having (c.value m.count :: stack) (m.allotAll (c.tables m.count)), found⟩)
    {close : String → TableStmt}
    (hclose : ∀ outermost b, (close outermost).exec helper b = (ScopeWalk.closeGlobal outermost).exec helper b)
    (hglobals : s.globals < m.count) :
    ∃ found', TableStmt.execAll helper (ScopeWalk.publish scope name push close) ⟨s.having stack m, none⟩
      = some ⟨s.having stack (m.publish s.globals scope name c), found'⟩ := by
  cases scope with
  | nil => exact ⟨none, by simp [ScopeWalk.publish, TableStmt.execAll_append, TableStmt.exec, hpush, hname, Store.publish_nil]⟩
  | cons outermost inner =>
    have hfirst : PlainName outermost := hscope outermost List.mem_cons_self
    have hinner : ∀ part ∈ inner, PlainName part := fun part hp => hscope part (List.mem_cons_of_mem _ hp)
    have hstmts : ScopeWalk.publish (outermost :: inner) name push close
        = ScopeWalk.openGlobal outermost ++ ((inner.flatMap ScopeWalk.openField
          ++ (.run (.pushLiteral name) :: push ++ [.run .setField]) ++ ScopeWalk.closeFields inner)
          ++ [close outermost]) := by
      simp [ScopeWalk.publish, ScopeWalk.within, ScopeWalk.openScope]
    cases hglobal : (m.field s.globals (.text outermost)).table? with
    | some u =>
      have hu := LuaValue.table?_eq_some.1 hglobal
      have hopen : TableStmt.execAll helper (ScopeWalk.openGlobal outermost) ⟨s.having stack m, none⟩
          = some ⟨s.having (.table u :: stack) m, some true⟩ := by
        simp [ScopeWalk.openGlobal, TableStmt.exec, hfirst, hu, LuaValue.table?]
      refine ⟨some true, ?_⟩
      rw [hstmts, TableStmt.execAll_append, hopen, Option.bind_some, TableStmt.execAll_append,
        execAll_inside s stack m (some true) helper hinner hname hpush, Store.publish_of_found _ _ _ hu,
        Option.bind_some, TableStmt.execAll_cons, hclose]
      simp [ScopeWalk.closeGlobal, TableStmt.exec]
    | none =>
      have hopen : TableStmt.execAll helper (ScopeWalk.openGlobal outermost) ⟨s.having stack m, none⟩
          = some ⟨s.having (.table m.count :: stack) (m.allot .empty), some false⟩ := by
        simp [ScopeWalk.openGlobal, TableStmt.exec, hfirst, hglobal]
      -- the new global table is published last; it is as good as published first
      have hlast := Store.publish_setField (m := m.allot .empty) (t := m.count) inner name c (.text outermost)
        (.table m.count) (g := s.globals) (by rw [Store.count_allot]; omega) (by omega) (by simp)
        (fun key => by rw [Store.field_allot_count]; rfl)
      refine ⟨some false, ?_⟩
      rw [hstmts, TableStmt.execAll_append, hopen, Option.bind_some, TableStmt.execAll_append,
        execAll_inside s stack _ (some false) helper hinner hname hpush, Store.publish_of_missing _ _ _ hglobal,
        Store.attach, hlast, Option.bind_some, TableStmt.execAll_cons, hclose]
      simp [ScopeWalk.closeGlobal, TableStmt.exec, hfirst]

end

namespace Block

variable (registry : Registry) (bodies : String → String) (b : Block)

/-- Remarks around statements do nothing. -/
theorem execAll_stmts (helper : Helper) (s : LuaState) :
    TableStmt.execAll helper (b.stmts registry) ⟨s, none⟩
      = TableStmt.execAll helper
          (ScopeWalk.publish b.scope b.name (b.content.push registry) b.content.close) ⟨s, none⟩ := by
  obtain ⟨scope, name, content⟩ := b
  cases content with
  | function f => rfl
  | enum e => rfl
  | classTable c =>
    simp only [stmts, List.cons_append, TableStmt.execAll_cons, TableStmt.execAll_append, TableStmt.exec,
      Option.bind_some]
    exact Option.bind_fun_some _

/-- A block leaves everything but the tables as it was. -/
theorem exec_eq (hplain : b.IsPlain registry) (s : LuaState)
    (hglobals : s.globals < s.tables.count) :
    b.exec registry bodies s = some { s with tables := b.publish registry bodies s.globals s.tables } := by
  obtain ⟨hscope, hname, hkeys⟩ := hplain
  have hclose : ∀ outermost run, (b.content.close outermost).exec (Helper.ofBodies bodies) run
      = (ScopeWalk.closeGlobal outermost).exec (Helper.ofBodies bodies) run := by
    intro outermost run
    cases b.content <;> rfl
  obtain ⟨found, hrun⟩ := execAll_publish s s.stack s.tables (Helper.ofBodies bodies) hscope hname
    (fun stack m found => b.content.execAll_push s stack m found registry bodies hkeys) hclose hglobals
  rw [LuaState.having_self] at hrun
  rw [exec, TableStmt.execBlock, execAll_stmts, hrun]
  rfl

end Block

end LuaGlue
