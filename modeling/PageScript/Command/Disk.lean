import PageScript.Bytes

/-!
# Disks

The program sees a disk as a function from paths to what stands there.  A file tree
is a disk that is given outright: files and directories below the directory that
the program runs in.  A path leads through directories only; a file on the way, or
a slash after a file, leads nowhere.
-/

namespace PageScript

/-- What stands at a path. -/
inductive DiskEntry where
  | missing
  | directory
  | file (content : Bytes)
  /-- A file that cannot be read, with the reason. -/
  | unreadable (reason : String)
  deriving DecidableEq

namespace DiskEntry

/-- Whether anything stands there. -/
def isPresent : DiskEntry → Bool
  | .missing => false
  | _ => true

end DiskEntry

/-- What stands at each path. -/
abbrev Disk := String → DiskEntry

/-- Files and directories below one directory, by the parts of their paths. -/
structure FileTree where
  files : List (List String × Bytes) := []
  directories : List (List String) := []

namespace FileTree

/-- The parts of a path. -/
def parts (path : String) : List String :=
  path.splitOn "/"

/-- A tree from paths written with slashes. -/
def ofPaths (files : List (String × Bytes)) (directories : List String) : FileTree where
  files := files.map fun (path, content) => (parts path, content)
  directories := directories.map parts

/-- Whether a path leads to a directory of the tree or through it. -/
def hasDirectory (tree : FileTree) (path : List String) : Bool :=
  path.isEmpty || tree.directories.any path.isPrefixOf ||
    tree.files.any fun (file, _) => path.isPrefixOf file && path != file

/-- What stands at a path without dots. -/
def entryAt (tree : FileTree) (path : List String) : DiskEntry :=
  match tree.files.find? fun (file, _) => file == path with
  | some (_, content) => .file content
  | none => if tree.hasDirectory path then .directory else .missing

/-- Follow the parts of a path from a place in the tree.  Outside the tree, where the
place is missing, only the directories that dots lead to are known. -/
def follow (tree : FileTree) (place : Option (List String)) : List String → DiskEntry
  | [] =>
      match place with
      | some path => tree.entryAt path
      | none => .directory
  | part :: rest =>
      match place with
      | none =>
          if part = "" || part = "." || part = ".." then tree.follow none rest else .missing
      | some path =>
          if tree.entryAt path ≠ .directory then .missing
          else if part = "" || part = "." then tree.follow (some path) rest
          else if part = ".." then
            tree.follow (if path.isEmpty then none else some path.dropLast) rest
          else tree.follow (some (path ++ [part])) rest

/-- The tree as a disk. -/
def disk (tree : FileTree) : Disk := fun path =>
  if path = "" then .missing
  else if path.startsWith "/" then tree.follow none (parts path)
  else tree.follow (some []) (parts path)

end FileTree

end PageScript
