import LuaGlue.Proofs.Lua.Store

/-!
Publishing a value under a scope, as an operation on the tables in memory.

The scope is walked from a table on, and a table that is missing on the way is made. The last table gets
the value under its name. Of the tables that were there before, one is changed in one field (`graft`):

    scope A::B::C, name f       _G.A is a table, _G.A.B is not
    graft                       field B of the table _G.A
    afterwards                  _G.A.B = { C = { f = value } }
-/

namespace LuaGlue

/-- No table in use refers to one that is not. -/
def Store.IsClosed (m : LuaTables) : Prop :=
  ∀ t < m.count, ∀ key u, m.field t key = .table u → u < m.count

namespace Store

variable (m : LuaTables)

/-! ### Several new tables -/

/-- More cells, one after another. -/
def allotAll {α : Type} (m : Store α) (as : List α) : Store α := as.foldl allot m

section
variable {α : Type} (m : Store α)

@[simp] theorem allotAll_nil : m.allotAll [] = m := rfl

@[simp] theorem allotAll_cons (a : α) (as : List α) : m.allotAll (a :: as) = (m.allot a).allotAll as := rfl

@[simp] theorem count_allotAll (as : List α) : (m.allotAll as).count = m.count + as.length := by
  induction as generalizing m with
  | nil => rfl
  | cons a as ih =>
    rw [allotAll_cons, ih, count_allot, List.length_cons]
    omega

theorem cell_allotAll_of_lt (as : List α) {i : Nat} (h : i < m.count) : (m.allotAll as).cell i = m.cell i := by
  induction as generalizing m with
  | nil => rfl
  | cons a as ih =>
    rw [allotAll_cons, ih _ (by rw [count_allot]; omega), m.cell_allot_of_lt a h]

/-- The first of the new cells has the number that was next. -/
theorem cell_allotAll_count (a : α) (as : List α) : (m.allotAll (a :: as)).cell m.count = a := by
  rw [allotAll_cons, cell_allotAll_of_lt _ _ (by rw [count_allot]; omega), cell_allot_count]

end

theorem allotAll_setField (as : List LuaTable) {t : Nat} (h : t < m.count) (key value : LuaValue) :
    (m.setField t key value).allotAll as = (m.allotAll as).setField t key value := by
  induction as generalizing m with
  | nil => rfl
  | cons a as ih => rw [allotAll_cons, allotAll_cons, m.allot_setField h, ih _ (by rw [count_allot]; omega)]

/-! ### The walk -/

/-- The table under a name in a table, a new one if there is none; and the tables then. -/
def enter (t : Nat) (name : String) : Nat × LuaTables :=
  match (m.field t (.text name)).table? with
  | some u => (u, m)
  | none => (m.count, (m.allot .empty).setField t (.text name) (.table m.count))

/-- The table at the end of a scope that is walked from a table on, and the tables then. -/
def walk (m : LuaTables) (t : Nat) : List String → Nat × LuaTables
  | [] => (t, m)
  | name :: rest => walk (m.enter t name).2 (m.enter t name).1 rest

/-- The tables that a walk meets, the one it begins at included. -/
def met (m : LuaTables) (t : Nat) : List String → List Nat
  | [] => [t]
  | name :: rest =>
    t :: match (m.field t (.text name)).table? with
      | some u => met m u rest
      | none => []

/-- The field in which a publication changes a table that was there before: in the last table that the
walk meets, the name that follows. -/
def graft (m : LuaTables) (t : Nat) (scope : List String) (name : String) : Nat × LuaValue :=
  match scope with
  | [] => (t, .text name)
  | next :: rest =>
    match (m.field t (.text next)).table? with
    | some u => graft m u rest name
    | none => (t, .text next)

section
variable {m} {t u : Nat} {name : String}

theorem enter_of_found (h : m.field t (.text name) = .table u) : m.enter t name = (u, m) := by
  rw [enter, LuaValue.table?_eq_some.2 h]

theorem enter_of_missing (h : (m.field t (.text name)).table? = none) :
    m.enter t name = (m.count, (m.allot .empty).setField t (.text name) (.table m.count)) := by
  rw [enter, h]

theorem walk_of_found (h : m.field t (.text name) = .table u) (rest : List String) :
    m.walk t (name :: rest) = m.walk u rest := by
  rw [walk, enter_of_found h]

theorem met_of_found (h : m.field t (.text name) = .table u) (rest : List String) :
    m.met t (name :: rest) = t :: m.met u rest := by
  rw [met, LuaValue.table?_eq_some.2 h]

theorem graft_of_found (h : m.field t (.text name) = .table u) (rest : List String) (last : String) :
    m.graft t (name :: rest) last = m.graft u rest last := by
  rw [graft, LuaValue.table?_eq_some.2 h]

theorem graft_of_missing (h : (m.field t (.text name)).table? = none) (rest : List String) (last : String) :
    m.graft t (name :: rest) last = (t, .text name) := by
  rw [graft, h]

end

theorem graft_mem_met (t : Nat) (scope : List String) (name : String) : (m.graft t scope name).1 ∈ m.met t scope := by
  induction scope generalizing t with
  | nil => simp [graft, met]
  | cons next rest ih =>
    cases hnext : (m.field t (.text next)).table? with
    | none => simp [graft, met, hnext]
    | some u => simp [graft, met, hnext, ih u]

/-- A table without fields is where the walk from it stops. -/
theorem graft_of_empty {t : Nat} (h : ∀ key, m.field t key = .nil) (scope : List String) (name : String) :
    (m.graft t scope name).1 = t := by
  cases scope with
  | nil => rfl
  | cons next rest => rw [graft_of_missing (by rw [h]; rfl)]

theorem met_of_empty {t : Nat} (h : ∀ key, m.field t key = .nil) (scope : List String) : m.met t scope = [t] := by
  cases scope with
  | nil => rfl
  | cons next rest => simp [met, h, LuaValue.table?]

/-! ### A table that is made on the way -/

variable {m} {t : Nat} (name : String)

/-- The tables after a missing table was made. -/
def attach (m : LuaTables) (t : Nat) (name : String) : LuaTables :=
  (m.allot .empty).setField t (.text name) (.table m.count)

@[simp] theorem count_attach : (m.attach t name).count = m.count + 1 := rfl

theorem field_attach_count (ht : t < m.count) (key : LuaValue) : (m.attach t name).field m.count key = .nil := by
  rw [attach, field_setField_of_ne _ _ (by simp; omega), field_allot_count]
  rfl

@[simp] theorem field_attach_self : (m.attach t name).field t (.text name) = .table m.count :=
  field_setField_self ..

theorem field_attach_of_ne {a : Nat} {key : LuaValue} (ha : a ≠ m.count) (h : (a, key) ≠ (t, .text name)) :
    (m.attach t name).field a key = m.field a key := by
  rw [attach, field_setField_of_ne _ _ h, field_allot_of_ne _ ha]

theorem isClosed_attach (hm : m.IsClosed) (ht : t < m.count) : (m.attach t name).IsClosed := by
  intro a ha key u hu
  rw [count_attach] at ha ⊢
  by_cases hself : (a, key) = (t, .text name)
  · obtain ⟨rfl, rfl⟩ := Prod.mk.inj hself
    rw [field_attach_self] at hu
    cases hu
    omega
  · rcases Nat.lt_succ_iff_lt_or_eq.1 ha with hlt | rfl
    · rw [field_attach_of_ne name (by omega) hself] at hu
      exact Nat.lt_succ_of_lt (hm a hlt key u hu)
    · rw [field_attach_count name ht] at hu
      cases hu

theorem walk_of_missing (h : (m.field t (.text name)).table? = none) (rest : List String) :
    m.walk t (name :: rest) = (m.attach t name).walk m.count rest := by
  rw [walk, enter_of_missing h, attach]

/-- The walk ends at a table in use. -/
theorem walk_lt (hm : m.IsClosed) (ht : t < m.count) (scope : List String) :
    (m.walk t scope).1 < (m.walk t scope).2.count := by
  induction scope generalizing m t with
  | nil => exact ht
  | cons name rest ih =>
    cases hname : (m.field t (.text name)).table? with
    | none =>
      rw [walk_of_missing name hname]
      exact ih (isClosed_attach name hm ht) (by simp)
    | some u =>
      have hu := LuaValue.table?_eq_some.1 hname
      rw [walk_of_found hu]
      exact ih hm (hm t ht _ u hu)

theorem count_le_walk (t : Nat) (scope : List String) : m.count ≤ (m.walk t scope).2.count := by
  induction scope generalizing m t with
  | nil => exact Nat.le_refl _
  | cons name rest ih =>
    cases hname : (m.field t (.text name)).table? with
    | none =>
      rw [walk_of_missing name hname]
      have := ih (m := m.attach t name) m.count
      rw [count_attach] at this
      omega
    | some u =>
      rw [walk_of_found (LuaValue.table?_eq_some.1 hname)]
      exact ih u

/-- Where the walk goes on, a table that it met before is not changed. -/
theorem ne_graft_of_found {next : String} {u : Nat} (h : m.field t (.text next) = .table u) {rest : List String}
    (hmet : (m.met t (next :: rest)).Nodup) (key : LuaValue) (last : String) :
    (t, key) ≠ m.graft t (next :: rest) last := by
  rw [met_of_found h, List.nodup_cons] at hmet
  rw [graft_of_found h]
  intro heq
  have hfirst : t = (m.graft u rest last).1 := congrArg Prod.fst heq
  apply hmet.1
  rw [hfirst]
  exact m.graft_mem_met u rest last

/-- Behind a table that was made on the way, no older table is changed. -/
theorem ne_graft_attach (ht : t < m.count) {a : Nat} (ha : a < m.count) (key : LuaValue) (next : String)
    (rest : List String) (last : String) : (a, key) ≠ (m.attach t next).graft m.count rest last := by
  intro heq
  have hfirst : a = ((m.attach t next).graft m.count rest last).1 := congrArg Prod.fst heq
  rw [graft_of_empty _ (field_attach_count next ht)] at hfirst
  omega

end Store

/-- What is published: the tables that are made for it, which may know the number of the first of them,
and the value. -/
structure Creation where
  tables : Nat → List LuaTable
  value : Nat → LuaValue

namespace Store

variable {m : LuaTables} {t : Nat} (scope : List String) (name : String) (c : Creation)

/-- The tables after a value was published under a scope that is walked from a table on. -/
def publish (m : LuaTables) (t : Nat) (scope : List String) (name : String) (c : Creation) : LuaTables :=
  let made := (m.walk t scope).2
  (made.allotAll (c.tables made.count)).setField (m.walk t scope).1 (.text name) (c.value made.count)

theorem publish_nil : m.publish t [] name c =
    (m.allotAll (c.tables m.count)).setField t (.text name) (c.value m.count) := rfl

theorem publish_of_found {next : String} {u : Nat} (h : m.field t (.text next) = .table u) :
    m.publish t (next :: scope) name c = m.publish u scope name c := by
  rw [publish, publish, walk_of_found h]

theorem publish_of_missing {next : String} (h : (m.field t (.text next)).table? = none) :
    m.publish t (next :: scope) name c = (m.attach t next).publish m.count scope name c := by
  rw [publish, publish, walk_of_missing next h]

/-- No other field of a table that was there before changes. -/
theorem field_publish_of_ne (hm : m.IsClosed) (ht : t < m.count) {a : Nat} {key : LuaValue} (ha : a < m.count)
    (h : (a, key) ≠ m.graft t scope name) : (m.publish t scope name c).field a key = m.field a key := by
  induction scope generalizing m t with
  | nil =>
    rw [publish_nil, field_setField_of_ne _ _ h, field, cell_allotAll_of_lt _ _ ha, ← field]
  | cons next rest ih =>
    cases hnext : (m.field t (.text next)).table? with
    | none =>
      rw [graft_of_missing hnext] at h
      have hcount : a < (m.attach t next).count := by rw [count_attach]; omega
      rw [publish_of_missing _ _ _ hnext,
        ih (isClosed_attach next hm ht) (by simp) hcount (ne_graft_attach ht ha key next rest name),
        field_attach_of_ne next (by omega) h]
    | some u =>
      have hu := LuaValue.table?_eq_some.1 hnext
      rw [graft_of_found hu] at h
      rw [publish_of_found _ _ _ hu, ih hm (hm t ht _ u hu) ha h]

/-- What the scope led through before, it still leads through. -/
theorem follow_publish_of_prefix (hm : m.IsClosed) (ht : t < m.count) (hmet : (m.met t scope).Nodup)
    {names : List String} (hnames : names <+: scope) {u : Nat} (h : m.follow t names = some u) :
    (m.publish t scope name c).follow t names = some u := by
  induction names generalizing t scope with
  | nil => exact h
  | cons next rest ih =>
    obtain ⟨tail, rfl⟩ := hnames
    obtain ⟨v, hv, hrest⟩ := Option.bind_eq_some_iff.1 ((m.follow_cons t next rest).symm.trans h)
    have hfield := LuaValue.table?_eq_some.1 hv
    rw [List.cons_append] at hmet ⊢
    have hkept := field_publish_of_ne _ _ c hm ht ht (ne_graft_of_found hfield hmet (.text next) name)
    rw [met_of_found hfield, List.nodup_cons] at hmet
    have hrest' := ih (rest ++ tail) (hm t ht _ v hfield) hmet.2 (List.prefix_append ..) hrest
    rw [follow_cons, hkept, hfield, publish_of_found _ _ _ hfield]
    exact hrest'

/-- The scope leads to the table that got the value. -/
theorem follow_publish (hm : m.IsClosed) (ht : t < m.count) (hmet : (m.met t scope).Nodup) :
    (m.publish t scope name c).follow t scope = some (m.walk t scope).1 := by
  induction scope generalizing m t with
  | nil => rfl
  | cons next rest ih =>
    cases hnext : (m.field t (.text next)).table? with
    | none =>
      have hempty := field_attach_count next ht
      have hclosed := isClosed_attach next hm ht
      have hgraft := ne_graft_attach ht ht (.text next) next rest name
      have hkept := field_publish_of_ne rest name c hclosed (t := m.count) (by simp) (by rw [count_attach]; omega) hgraft
      have hrest := ih hclosed (t := m.count) (by simp) (by rw [met_of_empty _ hempty]; simp)
      rw [publish_of_missing _ _ _ hnext, walk_of_missing next hnext, follow_cons, hkept, field_attach_self]
      exact hrest
    | some u =>
      have hu := LuaValue.table?_eq_some.1 hnext
      have hkept := field_publish_of_ne (next :: rest) name c hm ht ht (ne_graft_of_found hu hmet (.text next) name)
      rw [met_of_found hu, List.nodup_cons] at hmet
      have hrest := ih hm (hm t ht _ u hu) hmet.2
      rw [follow_cons, hkept, hu, publish_of_found _ _ _ hu, walk_of_found hu]
      exact hrest

/-- There the value stands under its name. -/
theorem field_publish_self : (m.publish t scope name c).field (m.walk t scope).1 (.text name)
    = c.value (m.walk t scope).2.count :=
  field_setField_self ..

/-- The first of the tables that were made for the value is as it was made. -/
theorem cell_publish (hm : m.IsClosed) (ht : t < m.count) {table : LuaTable} {more : List LuaTable}
    (h : c.tables (m.walk t scope).2.count = table :: more) :
    (m.publish t scope name c).cell (m.walk t scope).2.count = table := by
  have hlt := walk_lt hm ht scope
  rw [publish, cell_setField_of_ne _ (by omega), h, cell_allotAll_count]

/-! ### A global that is set at the end -/

/-- From a table without fields on, a field of another table may be changed before or after. -/
theorem publish_setField {g : Nat} (key value : LuaValue) (hg : g < m.count) (hne : g ≠ t) (ht : t < m.count)
    (hempty : ∀ key, m.field t key = .nil) :
    (m.setField g key value).publish t scope name c = (m.publish t scope name c).setField g key value := by
  induction scope generalizing m t with
  | nil =>
    rw [publish_nil, publish_nil, count_setField, m.allotAll_setField _ hg, setField_comm _ hne]
  | cons next rest ih =>
    have hmissing : (m.field t (.text next)).table? = none := by rw [hempty]; rfl
    have hmissing' : ((m.setField g key value).field t (.text next)).table? = none := by
      rw [field_setField_of_ne _ _ (by simp [hne.symm])]
      exact hmissing
    have hattach : (m.setField g key value).attach t next = (m.attach t next).setField g key value := by
      rw [attach, attach, count_setField, m.allot_setField hg, setField_comm _ hne]
    rw [publish_of_missing _ _ _ hmissing, publish_of_missing _ _ _ hmissing', hattach, count_setField]
    exact ih (by rw [count_attach]; omega) (by omega) (by simp) (field_attach_count next ht)

end Store

end LuaGlue
