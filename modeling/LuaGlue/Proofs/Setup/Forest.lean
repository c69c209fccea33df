import LuaGlue.Proofs.Setup.Walk
import Mathlib.Data.List.Induction

/-!
Tables that form a forest, and what later publications do to a path in it.

No table is referred to from two places, and a table is made after the one that refers to it. So a path
leads to a table at one place only, and no walk meets a table twice. A publication keeps this, and of
the paths that lead to a table that was there it cuts those that its own path is the beginning of:

    _G.Outer.Inner          a table, say 7
    publish Outer           _G.Outer is a new table
    _G.Outer.Inner          nothing; no later publication brings 7 back
-/

namespace LuaGlue

/-- Each table is referred to from one place at most, and from tables that are older. -/
structure Store.IsForest (m : LuaTables) : Prop where
  rises : ∀ t key u, m.field t key = .table u → t < u ∧ u < m.count
  single : ∀ t key t' key' u, m.field t key = .table u → m.field t' key' = .table u → t = t' ∧ key = key'

/-- No field of the table is a table. -/
def LuaTable.IsFlat (t : LuaTable) : Prop := ∀ key, (t.fields key).table? = none

theorem LuaTable.isFlat_empty : LuaTable.empty.IsFlat := fun _ => rfl

theorem LuaTable.IsFlat.set {t : LuaTable} (h : t.IsFlat) {v : LuaValue} (hv : v.table? = none) (key : LuaValue) :
    (t.set key v).IsFlat := by
  intro other
  by_cases hother : other = key
  · rw [hother, fields_set_self]
    exact hv
  · rw [fields_set_of_ne _ _ hother]
    exact h other

/-- The tables made for what is published are flat, and it is the first of them, if it is a table. -/
structure Creation.IsFlat (c : Creation) : Prop where
  tables : ∀ count, ∀ table ∈ c.tables count, table.IsFlat
  value : ∀ count u, c.value count = .table u → u = count ∧ c.tables count ≠ []

namespace Store

variable {m : LuaTables} {t : Nat}

/-- Tables without fields, but for the numbers in use. -/
theorem isForest_of_fieldless (h : ∀ t key, m.field t key = .nil) : m.IsForest := by
  constructor
  · intro t key u hu
    rw [h] at hu
    cases hu
  · intro t key t' key' u hu
    rw [h] at hu
    cases hu

/-- A flat table brings no reference. -/
theorem field_of_allot {table : LuaTable} (h : table.IsFlat) {key : LuaValue} {u : Nat}
    (hu : (m.allot table).field t key = .table u) : m.field t key = .table u := by
  by_cases ht : t = m.count
  · subst ht
    rw [field_allot_count] at hu
    have hnone := h key
    rw [hu] at hnone
    cases hnone
  · rwa [field_allot_of_ne _ ht] at hu

theorem field_of_allotAll {tables : List LuaTable} (h : ∀ table ∈ tables, table.IsFlat)
    {key : LuaValue} {u : Nat} (hu : (m.allotAll tables).field t key = .table u) : m.field t key = .table u := by
  induction tables generalizing m with
  | nil => exact hu
  | cons table rest ih =>
    exact field_of_allot (h table List.mem_cons_self)
      (ih (fun other hother => h other (List.mem_cons_of_mem _ hother)) hu)

namespace IsForest

theorem isClosed (hm : m.IsForest) : m.IsClosed := fun t _ key u hu => (hm.rises t key u hu).2

theorem not_field_count (hm : m.IsForest) (a : Nat) (key : LuaValue) {u : Nat} (hu : m.count ≤ u) :
    m.field a key ≠ .table u := by
  intro h
  have := (hm.rises a key u h).2
  omega

/-! ### Paths -/

theorem le_of_follow (hm : m.IsForest) {names : List String} {u : Nat} (h : m.follow t names = some u) : t ≤ u := by
  induction names generalizing t with
  | nil =>
    cases h
    exact Nat.le_refl _
  | cons name rest ih =>
    obtain ⟨v, hv, hrest⟩ := Option.bind_eq_some_iff.1 ((m.follow_cons t name rest).symm.trans h)
    have hlt := (hm.rises t _ v (LuaValue.table?_eq_some.1 hv)).1
    have hle := ih hrest
    omega

theorem lt_of_follow (hm : m.IsForest) (ht : t < m.count) {names : List String} {u : Nat}
    (h : m.follow t names = some u) : u < m.count := by
  induction names generalizing t with
  | nil =>
    cases h
    exact ht
  | cons name rest ih =>
    obtain ⟨v, hv, hrest⟩ := Option.bind_eq_some_iff.1 ((m.follow_cons t name rest).symm.trans h)
    exact ih (hm.rises t _ v (LuaValue.table?_eq_some.1 hv)).2 hrest

/-- A path that ends with a name goes through a table that refers to its end. -/
theorem exists_of_follow_concat {names : List String} {name : String} {u : Nat}
    (h : m.follow t (names ++ [name]) = some u) :
    ∃ v, m.follow t names = some v ∧ m.field v (.text name) = .table u := by
  rw [follow_concat] at h
  obtain ⟨v, hv, hu⟩ := Option.bind_eq_some_iff.1 h
  exact ⟨v, hv, LuaValue.table?_eq_some.1 hu⟩

/-- Back to the table it began at no path leads. -/
theorem follow_concat_ne_self (hm : m.IsForest) (names : List String) (name : String) :
    m.follow t (names ++ [name]) ≠ some t := by
  intro h
  obtain ⟨v, hv, hfield⟩ := exists_of_follow_concat h
  have hle := hm.le_of_follow hv
  have hlt := (hm.rises v _ t hfield).1
  omega

/-- A table is reached by one path. -/
theorem path_unique (hm : m.IsForest) {p q : List String} {u : Nat} (hp : m.follow t p = some u)
    (hq : m.follow t q = some u) : p = q := by
  induction p using List.reverseRecOn generalizing q u with
  | nil =>
    cases hp
    cases q using List.reverseRecOn with
    | nil => rfl
    | append_singleton q name => exact absurd hq (hm.follow_concat_ne_self q name)
  | append_singleton p name ih =>
    cases q using List.reverseRecOn with
    | nil =>
      cases hq
      exact absurd hp (hm.follow_concat_ne_self p name)
    | append_singleton q other =>
      obtain ⟨v, hv, hfield⟩ := exists_of_follow_concat hp
      obtain ⟨w, hw, hother⟩ := exists_of_follow_concat hq
      obtain ⟨rfl, hname⟩ := hm.single _ _ _ _ _ hfield hother
      cases hname
      rw [ih hv hw]

theorem le_of_mem_met (hm : m.IsForest) (scope : List String) : ∀ u ∈ m.met t scope, t ≤ u := by
  induction scope generalizing t with
  | nil => simp [met]
  | cons name rest ih =>
    intro u hu
    cases hname : (m.field t (.text name)).table? with
    | none =>
      simp only [met, hname, List.mem_cons, List.not_mem_nil, or_false] at hu
      omega
    | some v =>
      have hv := LuaValue.table?_eq_some.1 hname
      rw [met_of_found hv] at hu
      rcases List.mem_cons.1 hu with rfl | hu
      · exact Nat.le_refl _
      · have hlt := (hm.rises t _ v hv).1
        have hle := ih u hu
        omega

/-- A walk meets no table twice. -/
theorem nodup_met (hm : m.IsForest) (t : Nat) (scope : List String) : (m.met t scope).Nodup := by
  induction scope generalizing t with
  | nil => simp [met]
  | cons name rest ih =>
    cases hname : (m.field t (.text name)).table? with
    | none => simp [met, hname]
    | some v =>
      have hv := LuaValue.table?_eq_some.1 hname
      rw [met_of_found hv, List.nodup_cons]
      refine ⟨fun hmem => ?_, ih v⟩
      have hlt := (hm.rises t _ v hv).1
      have hle := hm.le_of_mem_met rest t hmem
      omega

/-! ### What publications keep -/

/-- More tables, all of them flat. -/
theorem allotAll (hm : m.IsForest) {tables : List LuaTable}
    (h : ∀ table ∈ tables, table.IsFlat) : (m.allotAll tables).IsForest := by
  constructor
  · intro t key u hu
    have := hm.rises t key u (field_of_allotAll h hu)
    rw [count_allotAll]
    omega
  · intro t key t' key' u hu hu'
    exact hm.single t key t' key' u (field_of_allotAll h hu) (field_of_allotAll h hu')

/-- A field may be changed to anything but a table that is older or is referred to already. -/
theorem setField (hm : m.IsForest) {key value : LuaValue}
    (h : ∀ u, value = .table u → t < u ∧ u < m.count ∧ ∀ a other, m.field a other ≠ .table u) :
    (m.setField t key value).IsForest := by
  have hcases : ∀ a other u, (m.setField t key value).field a other = .table u →
      (a = t ∧ other = key ∧ value = .table u) ∨ m.field a other = .table u := by
    intro a other u hu
    by_cases hself : (a, other) = (t, key)
    · obtain ⟨rfl, rfl⟩ := Prod.mk.inj hself
      rw [field_setField_self] at hu
      exact .inl ⟨rfl, rfl, hu⟩
    · rw [field_setField_of_ne _ _ hself] at hu
      exact .inr hu
  constructor
  · intro a other u hu
    rcases hcases a other u hu with ⟨rfl, rfl, hvalue⟩ | hfield
    · exact ⟨(h u hvalue).1, (h u hvalue).2.1⟩
    · exact hm.rises a other u hfield
  · intro a other a' other' u hu hu'
    rcases hcases a other u hu with ⟨rfl, rfl, hvalue⟩ | hfield <;>
      rcases hcases a' other' u hu' with ⟨rfl, rfl, hvalue'⟩ | hfield'
    · exact ⟨rfl, rfl⟩
    · exact absurd hfield' ((h u hvalue).2.2 _ _)
    · exact absurd hfield ((h u hvalue').2.2 _ _)
    · exact hm.single _ _ _ _ _ hfield hfield'

theorem attach (hm : m.IsForest) (ht : t < m.count) (name : String) : (m.attach t name).IsForest := by
  have hempty : (m.allotAll [.empty]).IsForest := hm.allotAll (by simpa using LuaTable.isFlat_empty)
  refine hempty.setField fun u hu => ?_
  cases hu
  exact ⟨ht, by simp, fun a key ha => hm.not_field_count a key (Nat.le_refl _) (field_of_allot LuaTable.isFlat_empty ha)⟩

theorem walk (hm : m.IsForest) (ht : t < m.count) (scope : List String) : (m.walk t scope).2.IsForest := by
  induction scope generalizing m t with
  | nil => exact hm
  | cons name rest ih =>
    cases hname : (m.field t (.text name)).table? with
    | none =>
      rw [walk_of_missing name hname]
      exact ih (hm.attach ht name) (by simp)
    | some u =>
      have hu := LuaValue.table?_eq_some.1 hname
      rw [walk_of_found hu]
      exact ih hm (hm.rises t _ u hu).2

variable (scope : List String) (name : String) {c : Creation}

/-- A new table has no reference to it yet. -/
theorem publish (hm : m.IsForest) (ht : t < m.count) (hc : c.IsFlat) : (m.publish t scope name c).IsForest := by
  have hwalk := hm.walk ht scope
  have hlt := walk_lt hm.isClosed ht scope
  refine (hwalk.allotAll (hc.tables _)).setField fun u hu => ?_
  obtain ⟨rfl, hne⟩ := hc.value _ u hu
  have hpos := List.length_pos_iff.2 hne
  rw [count_allotAll]
  exact ⟨hlt, by omega, fun a key ha =>
    hwalk.not_field_count a key (Nat.le_refl _) (field_of_allotAll (hc.tables _) ha)⟩

/-! ### What publications cut -/

/-- Where a publication is grafted on, there is nothing older than the publication. -/
theorem le_of_field_graft (hm : m.IsForest) (ht : t < m.count) (hc : c.IsFlat) {u : Nat}
    (h : (m.publish t scope name c).field (m.graft t scope name).1 (m.graft t scope name).2 = .table u) :
    m.count ≤ u := by
  induction scope generalizing m t with
  | nil =>
    have hvalue : c.value m.count = .table u := (field_setField_self ..).symm.trans h
    exact Nat.le_of_eq (hc.value _ u hvalue).1.symm
  | cons next rest ih =>
    cases hnext : (m.field t (.text next)).table? with
    | none =>
      have hkept := field_publish_of_ne rest name c (isClosed_attach next hm.isClosed ht) (t := m.count) (by simp)
        (by rw [count_attach]; omega) (ne_graft_attach ht ht (.text next) next rest name)
      rw [graft_of_missing hnext, publish_of_missing _ _ _ hnext, hkept, field_attach_self] at h
      cases h
      exact Nat.le_refl _
    | some v =>
      have hv := LuaValue.table?_eq_some.1 hnext
      rw [graft_of_found hv, publish_of_found _ _ _ hv] at h
      exact ih hm (hm.rises t _ v hv).2 h

/-- It is grafted on somewhere on its path: at the end, or where no table was. -/
theorem exists_graft (m : LuaTables) (t : Nat) : ∃ before next, before ++ [next] <+: scope ++ [name]
    ∧ m.follow t before = some (m.graft t scope name).1 ∧ (m.graft t scope name).2 = .text next
    ∧ (before ++ [next] = scope ++ [name] ∨ m.follow t (before ++ [next]) = none) := by
  induction scope generalizing t with
  | nil => exact ⟨[], name, List.prefix_refl _, rfl, rfl, .inl rfl⟩
  | cons first rest ih =>
    cases hfirst : (m.field t (.text first)).table? with
    | none =>
      rw [graft_of_missing hfirst]
      exact ⟨[], first, by simp, rfl, rfl, .inr (by simp [follow_cons, hfirst])⟩
    | some v =>
      obtain ⟨before, next, hbegins, hfollow, hnext, hend⟩ := ih v
      rw [graft_of_found (LuaValue.table?_eq_some.1 hfirst)]
      refine ⟨first :: before, next, ?_, ?_, hnext, ?_⟩
      · simpa using hbegins
      · rw [follow_cons, hfirst]
        exact hfollow
      · rcases hend with hend | hend
        · exact .inl (by simpa using hend)
        · exact .inr (by simpa [follow_cons, hfirst] using hend)

end IsForest

/-- A path leads to the same table where each step of it does. -/
theorem follow_congr {m' : LuaTables} {names : List String}
    (h : ∀ before next, before ++ [next] <+: names → ∀ u, m.follow t before = some u →
      m'.field u (.text next) = m.field u (.text next)) : m'.follow t names = m.follow t names := by
  induction names using List.reverseRecOn with
  | nil => rfl
  | append_singleton names name ih =>
    have hnames := ih fun before next hbegins => h before next (hbegins.trans (List.prefix_append ..))
    rw [follow_concat, follow_concat, hnames]
    cases hu : m.follow t names with
    | none => rfl
    | some u => rw [Option.bind_some, Option.bind_some, h names name (List.prefix_refl _) u hu]

/-- The publication itself stands at the end of its path. -/
theorem follow_publish_path (scope : List String) (name : String) {c : Creation} (hm : m.IsForest) (ht : t < m.count)
    (hc : c.IsFlat) {u : Nat} (h : (m.publish t scope name c).follow t (scope ++ [name]) = some u) : m.count ≤ u := by
  obtain ⟨v, hv, hfield⟩ := IsForest.exists_of_follow_concat h
  rw [follow_publish scope name c hm.isClosed ht (hm.nodup_met t scope)] at hv
  cases hv
  rw [field_publish_self] at hfield
  obtain ⟨rfl, -⟩ := hc.value _ u hfield
  exact count_le_walk t scope

section Publish

variable (scope : List String) (name : String) {c : Creation} (hm : m.IsForest) (ht : t < m.count)

include hm ht

/-- Nothing on a path is younger than its end. -/
theorem lt_of_follow_publish (hc : c.IsFlat) {before rest : List String} {u b : Nat} (hu : u < m.count)
    (h : (m.publish t scope name c).follow t (before ++ rest) = some u)
    (hb : (m.publish t scope name c).follow t before = some b) : b < m.count := by
  rw [follow_append, hb] at h
  have hle := (hm.publish scope name ht hc).le_of_follow h
  omega

/-- The publication is not on a path to a table that was there, so the path was there. -/
theorem follow_of_follow_publish (hc : c.IsFlat) {names : List String} {u : Nat} (hu : u < m.count)
    (h : (m.publish t scope name c).follow t names = some u) : m.follow t names = some u := by
  rw [← h]
  refine follow_congr fun before next hbegins a ha => ?_
  obtain ⟨rest, rfl⟩ := hbegins
  have hpath : (m.publish t scope name c).follow t (before ++ ([next] ++ rest)) = some u := by
    rwa [← List.append_assoc]
  have ha' := lt_of_follow_publish scope name hm ht hc hu hpath ha
  by_cases hgraft : (a, LuaValue.text next) = m.graft t scope name
  · obtain ⟨b, hb, -⟩ := Option.bind_eq_some_iff.1 ((follow_append _ t (before ++ [next]) rest).symm.trans h)
    have hlt := lt_of_follow_publish scope name hm ht hc hu h hb
    obtain ⟨v, hv, hfield⟩ := IsForest.exists_of_follow_concat hb
    cases ha.symm.trans hv
    have hle := hm.le_of_field_graft scope name ht hc (u := b) (by rw [← hgraft]; exact hfield)
    omega
  · exact (field_publish_of_ne scope name c hm.isClosed ht ha' hgraft).symm

/-- A path that the publication is not made on stays. -/
theorem follow_publish_of_uncut {names : List String} {u : Nat} (h : m.follow t names = some u)
    (huncut : ¬ scope ++ [name] <+: names) : (m.publish t scope name c).follow t names = some u := by
  rw [← h]
  refine follow_congr fun before next hbegins a ha => ?_
  refine field_publish_of_ne scope name c hm.isClosed ht (hm.lt_of_follow ht ha) fun hgraft => ?_
  obtain ⟨before', next', hbegins', hfollow, hnext, hend⟩ := IsForest.exists_graft scope name m t
  rw [← hgraft] at hfollow hnext
  have hbefore : before = before' := hm.path_unique ha hfollow
  cases hnext
  subst hbefore
  rcases hend with hend | hend
  · rw [hend] at hbegins
    exact huncut hbegins
  · obtain ⟨rest, rfl⟩ := hbegins
    rw [follow_append, hend] at h
    cases h

/-- A path to a table that was there stays as it was unless the publication is made on it. -/
theorem follow_publish_iff (hc : c.IsFlat) {names : List String} {u : Nat} (hu : u < m.count) :
    (m.publish t scope name c).follow t names = some u
      ↔ m.follow t names = some u ∧ ¬ scope ++ [name] <+: names := by
  constructor
  · intro h
    refine ⟨follow_of_follow_publish scope name hm ht hc hu h, ?_⟩
    rintro ⟨rest, rfl⟩
    obtain ⟨b, hb, -⟩ := Option.bind_eq_some_iff.1 ((follow_append _ t (scope ++ [name]) rest).symm.trans h)
    have hlt := lt_of_follow_publish scope name hm ht hc hu h hb
    have hle := follow_publish_path scope name hm ht hc hb
    omega
  · rintro ⟨h, huncut⟩
    exact follow_publish_of_uncut scope name hm ht h huncut

end Publish

end Store

end LuaGlue
