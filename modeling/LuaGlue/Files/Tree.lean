import LuaGlue.Files.Path
import LuaGlue.Files.System
import LuaGlue.NameMap

/-!
A tree of files in memory.

A *place* is the list of names that leads to a file or directory from the root. Paths are walked name by
name, and each name but the last has to lead to a directory, also the ones that `..` goes back from.
Absolute paths lead nowhere.
-/

namespace LuaGlue

/-- A tree of files. -/
structure FileTree where
  /-- The texts of the files, by place. -/
  files : NameMap String := ∅
  /-- The directories, by place. The root is always one. -/
  directories : NameSet := ∅

namespace FileTree

/-- A place as one text. -/
def key (place : List String) : String := "/".intercalate place

/-- Is there a directory? -/
def isDirectory (t : FileTree) (place : List String) : Bool :=
  place.isEmpty || t.directories.contains (key place)

/-- Is there a file? -/
def isFile (t : FileTree) (place : List String) : Bool := t.files.contains (key place)

/-- The place one name further on. -/
def step (place : List String) (name : String) : List String :=
  if Path.isHere name.toList then place else if name = ".." then place.dropLast else place ++ [name]

/-- May a file or directory have this name? It has at most 255 bytes, and none of them is zero. -/
def isValidName (name : String) : Bool :=
  name.utf8ByteSize ≤ 255 && !name.toList.contains '\x00'

/-- The place that names lead to from a directory. -/
def walk (t : FileTree) (place : List String) : List String → Option (List String)
  | [] => some place
  | name :: rest =>
    if t.isDirectory place && isValidName name then t.walk (step place name) rest else none

/-- May a path be followed? It is relative and has at most 4095 bytes. -/
def isValidPath (path : String) : Bool := !Path.isAbsolute path && path.utf8ByteSize ≤ 4095

/-- The place that a path leads to. There may be nothing yet. -/
def locate? (t : FileTree) (path : String) : Option (List String) :=
  if !path.isEmpty && isValidPath path then t.walk [] (Path.names path) else none

/-- The text of a file. -/
def read? (t : FileTree) (path : String) : Option String := do
  t.files.get? (key (← t.locate? path))

/-- Is there a file or a directory at a path? -/
def has (t : FileTree) (path : String) : Bool :=
  match t.locate? path with
  | some place => t.isDirectory place || t.isFile place
  | none => false

/-- The tree with a directory at a place, unless a file is there. -/
def withDirectory (t : FileTree) (place : List String) : Option FileTree :=
  if t.isDirectory place then some t
  else if t.isFile place then none
  else some { t with directories := t.directories.insert (key place) }

/-- The tree with all directories that names lead through. -/
def makeWay (t : FileTree) (place : List String) : List String → Option FileTree
  | [] => some t
  | name :: rest =>
    let next := step place name
    if isValidName name then do (← t.withDirectory next).makeWay next rest else none

/-- The tree with the directories of a path. -/
def makeDirectories? (t : FileTree) (path : String) : Option FileTree :=
  if isValidPath path then t.makeWay [] (Path.names path) else none

/-- The tree with a file at a path, unless a directory is there or the way to it is missing. -/
def write? (t : FileTree) (path contents : String) : Option FileTree := do
  let place ← t.locate? path
  if t.isDirectory place then none
  else some { t with files := t.files.insert (key place) contents }

/-- The files below a directory: the rest of the place of each, and its text. -/
def filesBelow (t : FileTree) (path : String) : List (String × String) :=
  match t.locate? path with
  | none => []
  | some place =>
    let start := if place.isEmpty then [] else (key place).toList ++ ['/']
    t.files.entries.filterMap fun (file, contents) =>
      if start.isPrefixOf file.toList then
        some (String.ofList (file.toList.drop start.length), contents)
      else none

/-- Does a change, or tells that it cannot be done. -/
def attempt (change : FileTree → Option FileTree) : StateM FileTree Bool := do
  match change (← get) with
  | some t => set t; return true
  | none => return false

/-- The tree as a place that a run works in. -/
def system : FileSystem (StateM FileTree) where
  read path := return (← get).read? path
  has path := return (← get).has path
  makeDirectories path := attempt (·.makeDirectories? path)
  write path contents := attempt (·.write? path contents)

end FileTree

end LuaGlue
