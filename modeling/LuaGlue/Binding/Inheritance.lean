import LuaGlue.Binding.Registry

/-!
The base relation between classes.

`walk` goes through the bases of a class depth first, in the order of declaration, and lists each one
where it is first met:

    class Leaf : Left, Right      Left : Root      Right : Root
    flattenedBases Leaf = [Left, Root, Right]

An edge that would make a class its own ancestor is refused, so the relation stays acyclic.
-/

namespace LuaGlue

/-- The ids below `count` that are still to be met. -/
def unseen (count : Nat) (seen : List ClassId) : List ClassId :=
  (List.range count).filter fun id => !seen.contains id

theorem length_unseen_cons_lt {count id : Nat} {seen : List ClassId} (h : id < count)
    (hseen : seen.contains id = false) : (unseen count (id :: seen)).length < (unseen count seen).length := by
  have hmem : id ∈ unseen count seen := by
    simp only [unseen, List.mem_filter, List.mem_range, Bool.not_eq_true']
    exact ⟨h, hseen⟩
  have hsplit : unseen count (id :: seen) = (unseen count seen).filter fun other => other != id := by
    simp only [unseen, List.filter_filter]
    refine List.filter_congr fun other _ => ?_
    by_cases hid : other = id <;> simp [hid]
  rw [hsplit]
  exact List.length_filter_lt_length_iff_exists.2 ⟨id, hmem, by simp⟩

/-- The ids met from a stack of ids on, each once; `seen` are those met before. -/
def walk (bases : ClassId → List ClassId) (count : Nat) (seen : List ClassId) :
    List ClassId → List ClassId
  | [] => []
  | id :: rest =>
    if _h : id < count ∧ seen.contains id = false then
      id :: walk bases count (id :: seen) (bases id ++ rest)
    else walk bases count seen rest
termination_by stack => ((unseen count seen).length, stack.length)
decreasing_by
  · exact Prod.Lex.left _ _ (length_unseen_cons_lt _h.1 _h.2)
  · exact Prod.Lex.right _ (Nat.lt_succ_self _)

namespace Registry

/-- The direct bases of a class. -/
def bases (r : Registry) (id : ClassId) : List ClassId :=
  match r.class? id with
  | some c => c.bases
  | none => []

/-- All bases of a class, depth first. -/
def flattenedBases (r : Registry) (id : ClassId) : List ClassId :=
  walk r.bases r.classes.length [id] (r.bases id)

/-- Would this edge make a class its own ancestor? -/
def closesCycle (r : Registry) (derived base : ClassId) : Bool :=
  derived == base || (r.flattenedBases base).contains derived

/-- The qualified name of a class. -/
def nameOf (r : Registry) (id : ClassId) : String :=
  match r.class? id with
  | some c => c.qualified
  | none => ""

/-- A class with one more direct base. -/
def derive (base : ClassId) (c : BoundClass) : BoundClass :=
  if c.bases.contains base then c else { c with bases := c.bases ++ [base] }

/-- Adds a direct base, unless that closes a cycle. -/
def addBase (r : Registry) (derived base : ClassId) : Except Abort Registry :=
  if r.closesCycle derived base then .error (.baseCycle (r.nameOf derived) (r.nameOf base))
  else .ok (r.modifyClass derived (derive base))

/-- The classes of these ids. -/
def classesOf (r : Registry) (ids : List ClassId) : List BoundClass := ids.filterMap r.class?

/-- A class followed by all its bases: where its members are looked for. -/
def lineage (r : Registry) (id : ClassId) : List BoundClass :=
  r.classesOf (id :: r.flattenedBases id)

/-- The metamethod of a class: its own, else that of the first base that has one. -/
def findMetamethod (r : Registry) (id : ClassId) (name : String) : Option BoundFunction :=
  (r.lineage id).findSome? fun c => c.metamethods.get? name

/-- Does the first class derive from the second, at any distance? -/
def derivesFrom (r : Registry) (derived base : ClassId) : Bool :=
  (r.flattenedBases derived).contains base

/-- The tags of a class and of every class that derives from it. -/
def convertibleTo (r : Registry) (id : ClassId) : NameSet :=
  NameSet.ofNames <|
    (r.classes.filter fun c => c.id == id || r.derivesFrom c.id id).map (·.tag)

/-- Does a state file hold this class: is it exposed, and bound to the state or a base of a class
that is? -/
def reaches (r : Registry) (state : String) (c : BoundClass) : Bool :=
  c.isExposed && (c.state == some state ||
    r.classes.any fun d => d.state == some state && r.derivesFrom d.id c.id)

/-- The classes of a state file, in the order of registration. -/
def classesForState (r : Registry) (state : String) : List BoundClass :=
  r.classes.filter (r.reaches state)

end Registry

end LuaGlue
