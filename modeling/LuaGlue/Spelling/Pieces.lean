import LuaGlue.Text.Blank

/-!
Lists inside the spelling of a type: template arguments and parameters.

A comma separates two pieces unless a bracket is open around it:

    "int, std::function<void(int, int)>, Map<A, B>"
      = ["int", "std::function<void(int, int)>", "Map<A, B>"]

Pieces are trimmed, and a last piece without text is no piece. `length_le_of_mem_splitTopLevel` says
that no piece is longer than the list.
-/

namespace LuaGlue.Spelling

/-- How a character changes the number of open brackets. -/
def nesting (c : Char) : Int :=
  if c = '<' ∨ c = '(' then 1 else if c = '>' ∨ c = ')' then -1 else 0

/-- The pieces from here on, when `depth` brackets are open and `current` has been read of the first
piece. -/
def piecesFrom (depth : Int) (current : List Char) : List Char → List (List Char)
  | [] => if (Text.trim current).isEmpty then [] else [Text.trim current]
  | c :: rest =>
    if c = ',' ∧ depth = 0 then Text.trim current :: piecesFrom depth [] rest
    else piecesFrom (depth + nesting c) (current ++ [c]) rest

/-- The pieces between the commas that stand outside all brackets. -/
def splitTopLevel (text : List Char) : List (List Char) := piecesFrom 0 [] text

theorem length_le_of_mem_piecesFrom {depth : Int} {current text piece : List Char}
    (h : piece ∈ piecesFrom depth current text) : piece.length ≤ current.length + text.length := by
  induction text generalizing depth current with
  | nil =>
    rw [piecesFrom] at h
    split at h
    · simp at h
    · simp only [List.mem_singleton] at h
      subst h
      simpa using Text.length_trim_le current
  | cons c rest ih =>
    rw [piecesFrom] at h
    split at h
    · rcases List.mem_cons.1 h with rfl | h
      · exact Nat.le_trans (Text.length_trim_le current) (Nat.le_add_right _ _)
      · have := ih h
        simp only [List.length_nil, List.length_cons] at this ⊢
        omega
    · have := ih h
      simp only [List.length_append, List.length_cons, List.length_nil] at this ⊢
      omega

theorem length_le_of_mem_splitTopLevel {text piece : List Char} (h : piece ∈ splitTopLevel text) :
    piece.length ≤ text.length := by
  simpa using length_le_of_mem_piecesFrom h

end LuaGlue.Spelling
