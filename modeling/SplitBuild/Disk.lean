import SplitBuild.AssetTable
import SplitBuild.FileTree
/-!
# Disks

A disk holds files and directories and has a working directory, as the
file system of a machine does. It is stricter than a tree in memory: a
path leads through directories that are there, a file is not overwritten
by a directory nor the other way round, and the files below a directory
are named by the path that was asked for.
-/

namespace SplitBuild

/-- Files and directories by location, and a working directory. -/
structure Disk where
  entries : Std.ExtTreeMap Location FileEntry compare
  cwd : Location

namespace Disk

/-! ## Locations -/

/-- A directory stands at a location. -/
def isDirectory (d : Disk) (l : Location) : Bool :=
  match d.entries[l]? with
  | some .directory => true
  | some (.file _) => false
  | none => l = [.root]

/-- The contents of the file at a location. -/
def contents? (d : Disk) (l : Location) : Option ByteArray :=
  d.entries[l]?.bind FileEntry.contents?

/-- The location above one; the root for the root. -/
def above (l : Location) : Location := if l = [.root] then l else l.dropLast

/-- Where a segment of a path leads from a location. -/
def enterSegment (l : Location) (seg : List Char) : Location :=
  match Component.ofSegment? seg with
  | none => l
  | some .parent => above l
  | some step => l ++ [step]

/-- Where a path starts. -/
def start (d : Disk) (p : FilePath) : Location := if p.isAbsolute then [.root] else d.cwd

/-- The location that a path leads to, through directories alone. The empty
path leads nowhere. -/
def locate? (d : Disk) (p : FilePath) : Option Location :=
  if p.text.isEmpty then none
  else (Path.segments p.text).foldlM
    (fun l seg => if d.isDirectory l then some (enterSegment l seg) else none) (d.start p)

/-! ## Reading -/

/-- The contents of the file at a path. -/
def read (d : Disk) (p : FilePath) : Except FileFault ByteArray :=
  match d.locate? p with
  | none => .error .noFile
  | some l =>
    match d.contents? l with
    | some contents => .ok contents
    | none => .error (if d.isDirectory l then .isDirectory else .noFile)

/-- A file stands at a path. -/
def isFile (d : Disk) (p : FilePath) : Bool :=
  ((d.locate? p).bind d.contents?).isSome

/-- The files below a location by what leads to them from there, in the
order of their components. -/
def below (d : Disk) (top : Location) : List (Location × ByteArray) :=
  d.entries.toList.filterMap fun e =>
    if Location.isWithin e.1 top then
      e.2.contents?.map fun contents => (e.1.drop top.length, contents)
    else none

/-- The files below the directory at a path, or the file that stands there. -/
def walk (d : Disk) (p : FilePath) : Except FileFault (List FilePath) :=
  match d.locate? p with
  | none => .error .noDirectory
  | some l =>
    if d.isDirectory l then
      .ok ((d.below l).map fun e => p.join (.ofComponents e.1))
    else match d.contents? l with
      | some _ => .ok [p]
      | none => .error .noDirectory

/-! ## Writing -/

/-- The disk with an entry at a location. -/
def put (d : Disk) (l : Location) (entry : FileEntry) : Disk :=
  { d with entries := d.entries.insert l entry }

/-- The disk with a directory where one component leads, and that place;
none where a file is in the way. -/
def makeStep? (place : Disk × Location) (step : Component) : Option (Disk × Location) :=
  let (d, l) := place
  match step with
  | .root | .current => some (d, l)
  | .parent => some (d, above l)
  | .normal _ =>
    let next := l ++ [step]
    match d.entries[next]? with
    | some .directory => some (d, next)
    | some (.file _) => none
    | none => some (d.put next .directory, next)

/-- The disk with every directory of a path; none where a file is in the
way. -/
def makeDirectories? (d : Disk) (p : FilePath) : Option Disk :=
  (p.components.foldlM makeStep? (d, d.start p)).map (·.1)

/-- The disk with a file at a path whose directory is there. -/
def writeFile (d : Disk) (p : FilePath) (contents : ByteArray) : Except FileFault Disk :=
  match d.locate? p with
  | none => .error .noFile
  | some l => if d.isDirectory l then .error .isDirectory else .ok (d.put l (.file contents))

/-- The outcome of a change to a disk, which an unsuccessful one leaves as
it is. -/
def changed (d : Disk) (next : Except FileFault Disk) : Except FileFault Unit × Disk :=
  match next with
  | .ok next => (.ok (), next)
  | .error fault => (.error fault, d)

/-- Puts every directory of a path on the disk. -/
def createDirectories (d : Disk) (p : FilePath) : Except FileFault Unit × Disk :=
  d.changed (match d.makeDirectories? p with
    | some next => .ok next
    | none => .error .noDirectory)

/-- Puts a file on the disk, with the directories above it. -/
def write (d : Disk) (p : FilePath) (contents : ByteArray) : Except FileFault Unit × Disk :=
  match d.createDirectories (p.parent?.getD ⟨""⟩) with
  | (.ok _, next) => next.changed (next.writeFile p contents)
  | (.error fault, next) => (.error fault, next)

instance : FileStore (StateM Disk) where
  walk p := do return (← get).walk p
  read p := do return (← get).read p
  write p contents := modifyGet fun d => d.write p contents
  createDirectories p := modifyGet fun d => d.createDirectories p
  isFile p := do return (← get).isFile p

/-! ## Whole disks -/

/-- The disk whose working directory holds some files, put there in turn. -/
def ofFiles (files : List (FilePath × ByteArray)) : Disk :=
  let cwd := [.root, .normal "work"]
  files.foldl (fun d f => (d.write f.1 f.2).2) ⟨Std.ExtTreeMap.empty.insert cwd .directory, cwd⟩

/-- The files below the working directory, by name. -/
def files (d : Disk) : AssetTable :=
  .ofList ((d.below d.cwd).map fun e => ((FilePath.ofComponents e.1).text, e.2))

end Disk

end SplitBuild
