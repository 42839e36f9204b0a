import SplitBuild.FileStore
/-!
# File trees

A file tree holds files and directories in memory, by their locations,
and resolves relative paths from a current directory. Writing makes every
location above the target a directory, whatever stood there; what stands
below a location is left alone.
-/

namespace SplitBuild

/-- What stands at a location. -/
inductive FileEntry where
  | file (contents : ByteArray)
  | directory

namespace FileEntry

/-- The contents of a file. -/
def contents? : FileEntry → Option ByteArray
  | file contents => some contents
  | directory => none

end FileEntry

/-- Files and directories by location, and a current directory. -/
structure FileTree where
  entries : Std.ExtTreeMap Location FileEntry compare
  cwd : Location

namespace FileTree

/-- The tree without files, at the root. -/
def empty : FileTree := ⟨∅, [.root]⟩

/-- What stands at a location. -/
def get? (t : FileTree) (l : Location) : Option FileEntry := t.entries[l]?

/-- The location of a path. -/
def locate (t : FileTree) (p : FilePath) : Location := p.resolve t.cwd

/-- The tree with another current directory. -/
def enter (t : FileTree) (p : FilePath) : FileTree := { t with cwd := t.locate p }

/-- The tree with directories at some locations. -/
def withDirectories (t : FileTree) (ls : List Location) : FileTree :=
  { t with entries := ls.foldl (fun es l => es.insert l .directory) t.entries }

/-- The tree with a file at a location, below directories. -/
def withFile (t : FileTree) (l : Location) (contents : ByteArray) : FileTree :=
  withDirectories { t with entries := t.entries.insert l (.file contents) } l.ancestors

/-- The tree with a file at a path. -/
def write (t : FileTree) (p : FilePath) (contents : ByteArray) : FileTree :=
  t.withFile (t.locate p) contents

/-- The tree with a directory at a path. -/
def createDirectories (t : FileTree) (p : FilePath) : FileTree :=
  t.withDirectories (t.locate p :: (t.locate p).ancestors)

/-- The contents of the file at a path. -/
def read (t : FileTree) (p : FilePath) : Except FileFault ByteArray :=
  match t.get? (t.locate p) with
  | some (.file contents) => .ok contents
  | some .directory => .error .isDirectory
  | none => .error .noFile

/-- A file stands at a path. -/
def isFile (t : FileTree) (p : FilePath) : Bool :=
  match t.get? (t.locate p) with
  | some (.file _) => true
  | _ => false

/-- The files of the tree with their contents, in the order of their
components. -/
def files (t : FileTree) : List (Location × ByteArray) :=
  t.entries.toList.filterMap fun e => e.2.contents?.map fun contents => (e.1, contents)

/-- The files below the directory at a path. -/
def walk (t : FileTree) (p : FilePath) : Except FileFault (List FilePath) :=
  match t.get? (t.locate p) with
  | some .directory =>
    .ok ((t.files.filter fun e => Location.isWithin e.1 (t.locate p)).map
      fun e => .ofComponents e.1)
  | _ => .error .noDirectory

instance : FileStore (StateM FileTree) where
  walk p := do return (← get).walk p
  read p := do return (← get).read p
  write p contents := do
    modify fun t => t.write p contents
    return .ok ()
  createDirectories p := do
    modify fun t => t.createDirectories p
    return .ok ()
  isFile p := do return (← get).isFile p

/-- The tree of some files, written in turn into an empty one that is
first entered at a path. -/
def ofFiles (cwd : Option FilePath) (files : List (FilePath × ByteArray)) : FileTree :=
  files.foldl (fun t f => t.write f.1 f.2)
    (match cwd with | some p => empty.enter p | none => empty)

end FileTree

end SplitBuild
