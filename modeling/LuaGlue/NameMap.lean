/-!
Finite maps from names, kept in the order of their keys.

Keys are ordered by code point. A map is the list of its entries with strictly increasing keys, so
two maps with the same entries are equal and every listing of a map is in key order. The lemmas say
what each operation does to `get?`.
-/

namespace LuaGlue

/-- Entries with strictly increasing keys. -/
def NameMap.Ordered {α : Type u} (entries : List (String × α)) : Prop :=
  entries.Pairwise fun a b => a.1 < b.1

/-- A finite map from names. -/
structure NameMap (α : Type u) where
  /-- The entries, in key order. -/
  entries : List (String × α)
  /-- Keys increase strictly. -/
  ordered : NameMap.Ordered entries

namespace NameMap

variable {α : Type u}

/-- The map without entries. -/
def empty : NameMap α := ⟨[], List.Pairwise.nil⟩

instance : EmptyCollection (NameMap α) := ⟨empty⟩

instance : Inhabited (NameMap α) := ⟨empty⟩

/-- The value in a list of entries at a key. -/
def lookupIn (key : String) : List (String × α) → Option α
  | [] => none
  | (other, value) :: rest => if key = other then some value else lookupIn key rest

/-- The entries with one more; an entry of the same key gives way. -/
def insertIn (key : String) (value : α) : List (String × α) → List (String × α)
  | [] => [(key, value)]
  | (other, old) :: rest =>
    if key < other then (key, value) :: (other, old) :: rest
    else if key = other then (key, value) :: rest
    else (other, old) :: insertIn key value rest

theorem mem_insertIn {key : String} {value : α} {entry : String × α} {entries : List (String × α)}
    (h : entry ∈ insertIn key value entries) : entry = (key, value) ∨ entry ∈ entries := by
  induction entries with
  | nil => simpa [insertIn] using h
  | cons head rest ih =>
    obtain ⟨other, old⟩ := head
    rw [insertIn] at h
    split at h
    · simpa using h
    · split at h
      · rcases List.mem_cons.1 h with rfl | h
        · exact .inl rfl
        · exact .inr (List.mem_cons_of_mem _ h)
      · rcases List.mem_cons.1 h with rfl | h
        · exact .inr List.mem_cons_self
        · exact (ih h).imp_right (List.mem_cons_of_mem _)

theorem ordered_insertIn {key : String} {value : α} {entries : List (String × α)}
    (h : Ordered entries) : Ordered (insertIn key value entries) := by
  induction entries with
  | nil => simp [insertIn, Ordered]
  | cons head rest ih =>
    obtain ⟨other, old⟩ := head
    have hrest : Ordered rest := List.Pairwise.of_cons h
    have hlt : ∀ e ∈ rest, other < e.1 := fun e he => List.rel_of_pairwise_cons h he
    rw [insertIn]
    split
    · next hk =>
      refine List.Pairwise.cons (fun e he => ?_) h
      rcases List.mem_cons.1 he with rfl | he
      · exact hk
      · exact String.lt_trans hk (hlt e he)
    · next hk =>
      split
      · next heq => exact List.Pairwise.cons (fun e he => heq ▸ hlt e he) hrest
      · next hne =>
        refine List.Pairwise.cons (fun e he => ?_) (ih hrest)
        rcases mem_insertIn he with rfl | he
        · exact Classical.byContradiction fun hn =>
            hne (String.le_antisymm (String.not_lt.1 hn) (String.not_lt.1 hk))
        · exact hlt e he

/-- The value at a key. -/
def get? (m : NameMap α) (key : String) : Option α := lookupIn key m.entries

/-- Is there an entry at this key? -/
def contains (m : NameMap α) (key : String) : Bool := (m.get? key).isSome

/-- The map with this value at the key, whatever was there. -/
def insert (m : NameMap α) (key : String) (value : α) : NameMap α :=
  ⟨insertIn key value m.entries, ordered_insertIn m.ordered⟩

/-- The map without an entry at the key. -/
def erase (m : NameMap α) (key : String) : NameMap α :=
  ⟨m.entries.filter fun entry => entry.1 ≠ key, List.Pairwise.filter _ m.ordered⟩

/-- The map with the value at the key made from the old one, if any. -/
def alter (m : NameMap α) (key : String) (f : Option α → α) : NameMap α :=
  m.insert key (f (m.get? key))

/-- The keys, increasing. -/
def keys (m : NameMap α) : List String := m.entries.map Prod.fst

/-- The values, in the order of their keys. -/
def values (m : NameMap α) : List α := m.entries.map Prod.snd

/-- The number of entries. -/
def size (m : NameMap α) : Nat := m.entries.length

/-- The map that holds these entries; the last one of a key counts. -/
def ofList (entries : List (String × α)) : NameMap α :=
  entries.foldl (fun m entry => m.insert entry.1 entry.2) empty

@[simp] theorem get?_empty (key : String) : (∅ : NameMap α).get? key = none := rfl

theorem get?_insert_self (m : NameMap α) (key : String) (value : α) :
    (m.insert key value).get? key = some value := by
  show lookupIn key (insertIn key value m.entries) = some value
  induction m.entries with
  | nil => simp [insertIn, lookupIn]
  | cons head rest ih =>
    obtain ⟨other, old⟩ := head
    rw [insertIn]
    split
    · simp [lookupIn]
    · split
      · simp [lookupIn]
      · next hne => simp [lookupIn, hne, ih]

theorem get?_insert_of_ne (m : NameMap α) {key other : String} (value : α) (h : other ≠ key) :
    (m.insert key value).get? other = m.get? other := by
  show lookupIn other (insertIn key value m.entries) = lookupIn other m.entries
  induction m.entries with
  | nil => simp [insertIn, lookupIn, h]
  | cons head rest ih =>
    obtain ⟨third, old⟩ := head
    rw [insertIn]
    split
    · simp [lookupIn, h]
    · split
      · next heq => subst heq; simp [lookupIn, h]
      · simp [lookupIn, ih]

theorem get?_insert (m : NameMap α) (key other : String) (value : α) :
    (m.insert key value).get? other = if other = key then some value else m.get? other := by
  split
  · next h => rw [h, get?_insert_self]
  · next h => exact get?_insert_of_ne m value h

theorem contains_insert (m : NameMap α) (key other : String) (value : α) :
    (m.insert key value).contains other = (other == key || m.contains other) := by
  rw [contains, get?_insert]
  split
  · next h => simp [h]
  · next h => simp [h, contains]

theorem mem_entries_of_get? {m : NameMap α} {key : String} {value : α} (h : m.get? key = some value) :
    (key, value) ∈ m.entries := by
  unfold get? at h
  generalize m.entries = entries at h ⊢
  induction entries with
  | nil => cases h
  | cons head rest ih =>
    obtain ⟨other, old⟩ := head
    rw [lookupIn] at h
    split at h
    · next heq =>
      cases h
      exact heq ▸ List.mem_cons_self
    · exact List.mem_cons_of_mem _ (ih h)

theorem get?_of_mem_entries {m : NameMap α} {key : String} {value : α} (h : (key, value) ∈ m.entries) :
    m.get? key = some value := by
  have hordered := m.ordered
  unfold get?
  generalize m.entries = entries at h hordered ⊢
  induction entries with
  | nil => cases h
  | cons head rest ih =>
    obtain ⟨other, old⟩ := head
    rw [lookupIn]
    rcases List.mem_cons.1 h with heq | hrest
    · cases heq
      simp
    · have hlt : other < key := List.rel_of_pairwise_cons hordered hrest
      split
      · next heq => exact absurd (heq ▸ hlt) (String.lt_irrefl other)
      · exact ih hrest (List.Pairwise.of_cons hordered)

theorem mem_entries_iff {m : NameMap α} {key : String} {value : α} :
    (key, value) ∈ m.entries ↔ m.get? key = some value :=
  ⟨get?_of_mem_entries, mem_entries_of_get?⟩

theorem mem_keys_iff {m : NameMap α} {key : String} : key ∈ m.keys ↔ m.contains key = true := by
  rw [contains, Option.isSome_iff_exists]
  simp [keys, mem_entries_iff]

theorem mem_values {m : NameMap α} {value : α} : value ∈ m.values ↔ ∃ key, (key, value) ∈ m.entries := by
  simp [values]

theorem mem_values_of_get? {m : NameMap α} {key : String} {value : α} (h : m.get? key = some value) :
    value ∈ m.values := mem_values.2 ⟨key, mem_entries_of_get? h⟩

theorem mem_values_insert {m : NameMap α} {key : String} {value other : α}
    (h : other ∈ (m.insert key value).values) : other = value ∨ other ∈ m.values := by
  obtain ⟨k, hk⟩ := mem_values.1 h
  rcases mem_insertIn hk with heq | hold
  · exact .inl (congrArg Prod.snd heq)
  · exact .inr (mem_values.2 ⟨k, hold⟩)

theorem mem_entries_erase {m : NameMap α} {key : String} {entry : String × α} :
    entry ∈ (m.erase key).entries ↔ entry ∈ m.entries ∧ entry.1 ≠ key := by
  simp [erase]

/-- Erasing keys leaves the entries at other keys. -/
theorem mem_entries_eraseAll {m : NameMap α} {keys : List String} {entry : String × α} :
    entry ∈ (keys.foldl erase m).entries ↔ entry ∈ m.entries ∧ entry.1 ∉ keys := by
  induction keys generalizing m with
  | nil => simp
  | cons key rest ih =>
    rw [List.foldl_cons, ih, mem_entries_erase, List.mem_cons, not_or, and_assoc]

theorem get?_eraseAll (m : NameMap α) (keys : List String) (key : String) :
    (keys.foldl erase m).get? key = if key ∈ keys then none else m.get? key := by
  refine Option.ext fun value => ?_
  rw [← mem_entries_iff, mem_entries_eraseAll, mem_entries_iff]
  split
  · next h => simp [h]
  · next h => simp [h]

/-- Increasing entries are the same when they hold the same. -/
theorem eq_of_mem_iff {entries others : List (String × α)} (h : Ordered entries) (h' : Ordered others)
    (hsame : ∀ entry, entry ∈ entries ↔ entry ∈ others) : entries = others := by
  induction entries generalizing others with
  | nil => exact (List.eq_nil_iff_forall_not_mem.2 fun entry hentry => by cases (hsame entry).2 hentry).symm
  | cons first rest ih =>
    cases others with
    | nil => cases (hsame first).1 List.mem_cons_self
    | cons first' rest' =>
      have hheads : first = first' := by
        rcases List.mem_cons.1 ((hsame first).1 List.mem_cons_self) with heq | hlater
        · exact heq
        · rcases List.mem_cons.1 ((hsame first').2 List.mem_cons_self) with heq | hlater'
          · exact heq.symm
          · exact absurd (String.lt_trans (List.rel_of_pairwise_cons h hlater') (List.rel_of_pairwise_cons h' hlater))
              (String.lt_irrefl _)
      subst hheads
      have hrest : ∀ entry, entry ∈ rest ↔ entry ∈ rest' := by
        have hapart : ∀ entry, (entry ∈ rest → entry ≠ first) ∧ (entry ∈ rest' → entry ≠ first) := by
          refine fun entry => ⟨fun hentry heq => ?_, fun hentry heq => ?_⟩
          · exact String.lt_irrefl _ (heq ▸ List.rel_of_pairwise_cons h hentry)
          · exact String.lt_irrefl _ (heq ▸ List.rel_of_pairwise_cons h' hentry)
        intro entry
        have hboth := hsame entry
        rw [List.mem_cons, List.mem_cons] at hboth
        exact ⟨fun hentry => (hboth.1 (.inr hentry)).resolve_left ((hapart entry).1 hentry),
          fun hentry => (hboth.2 (.inr hentry)).resolve_left ((hapart entry).2 hentry)⟩
      rw [ih (List.Pairwise.of_cons h) (List.Pairwise.of_cons h') hrest]

/-- Two maps with the same value at every key are the same. -/
theorem ext_get? {m m' : NameMap α} (h : ∀ key, m.get? key = m'.get? key) : m = m' := by
  have hentries : m.entries = m'.entries := by
    refine eq_of_mem_iff m.ordered m'.ordered fun entry => ?_
    rw [show entry = (entry.1, entry.2) from rfl, mem_entries_iff, mem_entries_iff, h]
  cases m
  cases m'
  cases hentries
  rfl

/-- Two maps whose wanted values are the same at every key list the same wanted values. -/
theorem filter_values_eq {m m' : NameMap α} {wanted : α → Bool}
    (h : ∀ key, (m.get? key).filter wanted = (m'.get? key).filter wanted) :
    m.values.filter wanted = m'.values.filter wanted := by
  have hentries : (m.entries.filter fun entry => wanted entry.2) = m'.entries.filter fun entry => wanted entry.2 := by
    refine eq_of_mem_iff (m.ordered.filter _) (m'.ordered.filter _) fun entry => ?_
    have hkey := congrArg (entry.2 ∈ ·) (h entry.1)
    simp only [Option.mem_def, Option.filter_eq_some_iff] at hkey
    rw [List.mem_filter, List.mem_filter, show entry = (entry.1, entry.2) from rfl, mem_entries_iff, mem_entries_iff, hkey]
  rw [values, values, List.filter_map, List.filter_map]
  exact congrArg _ hentries

end NameMap

/-- A finite set of names, listed in their order. -/
abbrev NameSet := NameMap Unit

namespace NameSet

/-- The set with one more name. -/
def insert (names : NameSet) (name : String) : NameSet := NameMap.insert names name ()

/-- The set with all these names too. -/
def insertAll (names : NameSet) (more : List String) : NameSet := more.foldl insert names

/-- The set of these names. -/
def ofNames (names : List String) : NameSet := insertAll ∅ names

/-- The names, increasing. -/
def toList (names : NameSet) : List String := NameMap.keys names

theorem mem_toList {names : NameSet} {name : String} : name ∈ names.toList ↔ names.contains name = true :=
  NameMap.mem_keys_iff

theorem contains_insert (names : NameSet) (name other : String) :
    (names.insert name).contains other = (other == name || names.contains other) :=
  NameMap.contains_insert names name other ()

theorem contains_insertAll (names : NameSet) (more : List String) (other : String) :
    (names.insertAll more).contains other = true ↔ other ∈ more ∨ names.contains other = true := by
  unfold insertAll
  induction more generalizing names with
  | nil => simp
  | cons name rest ih =>
    rw [List.foldl_cons, ih, contains_insert, Bool.or_eq_true, beq_iff_eq, List.mem_cons, or_left_comm, or_assoc]

theorem mem_toList_ofNames {names : List String} {name : String} : name ∈ (ofNames names).toList ↔ name ∈ names := by
  rw [mem_toList, ofNames, contains_insertAll]
  simp [NameMap.contains]

/-- Two sets with the same names are the same. -/
theorem ext_contains {names others : NameSet} (h : ∀ name, names.contains name = true ↔ others.contains name = true) :
    names = others := by
  refine NameMap.ext_get? fun name => ?_
  have hname := h name
  rw [NameMap.contains, NameMap.contains] at hname
  cases hold : names.get? name <;> cases hnew : others.get? name <;> simp_all

end NameSet

end LuaGlue
