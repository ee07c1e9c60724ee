/-!
# Files and their paths

The file system, as far as the library looks at it: a path leads to a file with its bytes, to a
directory, or nowhere.

A path is a sequence of names between slashes. Empty names and single dots do not count. A path
names a file if its last name is not the one of the parent directory.
-/

namespace FeatureFlags

/-- What stands under a path of the file system. -/
inductive FileEntry where
  | file (bytes : List UInt8)
  | directory

/-- The file system. -/
abbrev Files := String → Option FileEntry

namespace Files

/-- The names of a path. -/
def names (path : String) : List String :=
  (path.splitOn "/").filter fun name => name != "" && name != "."

/-- The name of the file that a path names. -/
def fileName? (path : String) : Option String :=
  (names path).getLast?.filter (· != "..")

/-- The path of the directory in which a file lies. -/
def directoryOf (path : String) : String :=
  let names := "/".intercalate (names path).dropLast
  if path.startsWith "/" then "/" ++ names else if names = "" then "." else names

/-- Whether there is a directory under a path. -/
def isDirectory (files : Files) (path : String) : Bool :=
  match files path with
  | some .directory => true
  | _ => false

end Files

end FeatureFlags
