import LuaGlue.Scope

/-!
Paths of files.

A path is a text of names with slashes between them; one that begins with a slash is absolute. Paths are
joined without being cleaned up, so that messages show them as they were given:

    join "/a"  "b"     = "/a/b"        parent "/a/b"     = "/a"
    join "/a"  "./b"   = "/a/./b"      parent "/a/./b"   = "/a"
    join "/a"  "/b"    = "/b"          parent "b"        = ""
-/

namespace LuaGlue.Path

/-- Is the path absolute? -/
def isAbsolute (path : String) : Bool := path.toList.head? = some '/'

/-- A path that is seen from a directory. -/
def join (base path : String) : String :=
  if isAbsolute path || base.isEmpty then path
  else if base.toList.getLast? = some '/' then base ++ path
  else base ++ "/" ++ path

/-- The names between the slashes, some perhaps empty. -/
def pieces (text : List Char) : List (List Char) :=
  match text with
  | [] => [[]]
  | '/' :: rest => [] :: pieces rest
  | c :: rest =>
    match pieces rest with
    | [] => [[c]]
    | piece :: others => (c :: piece) :: others

/-- The names of a path, outermost first; an empty one or a single point leads nowhere else. -/
def names (path : String) : List String := (pieces path.toList).map String.ofList

/-- Does the name lead to the directory it stands in? -/
def isHere (name : List Char) : Bool := name.isEmpty || name = ['.']

/-- The text, read from its end, without names that lead nowhere else and the slashes before them; a
slash at the very front stays, and so does a point at the very front. -/
def trimBack : List Char → List Char
  | [] => []
  | '/' :: rest => if rest.isEmpty then ['/'] else trimBack rest
  | '.' :: '/' :: rest => trimBack ('/' :: rest)
  | text => text

/-- The path of the directory that a path stands in, if its last name is not the root. -/
def parent? (path : String) : Option String :=
  let text := trimBack path.toList.reverse
  if text.isEmpty || text = ['/'] then none
  else
    let before := text.dropWhile fun c => c ≠ '/'
    some (String.ofList (trimBack before).reverse)

end LuaGlue.Path
