/-!
What a run needs of the place that files are in.

`FileSystem m` lists the operations, in any monad `m`. A run is written against this list, so it is the
same program on the disk and on a tree of files in memory.
-/

namespace LuaGlue

/-- The operations on files. Each one tells whether it has succeeded. -/
structure FileSystem (m : Type → Type) where
  /-- The text of a file, unless it cannot be read. -/
  read : String → m (Option String)
  /-- Is there a file or a directory at a path? -/
  has : String → m Bool
  /-- Makes a directory and those it stands in, where they are missing. -/
  makeDirectories : String → m Bool
  /-- Writes a file, in place of one that is there. -/
  write : String → String → m Bool

end LuaGlue
