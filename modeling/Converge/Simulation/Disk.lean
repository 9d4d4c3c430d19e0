import Converge.CommandLine

/-!
# A simulated disk

Files and stores under paths, as commands see them. Two paths are the same when they have the same
parts, not counting empty parts and single dots.

## Main definitions

* `Disk`: files and the stores in directories.
* `Disk.host`: the disk as commands see it.
-/

namespace Converge

/-- Files and the stores in directories, under normalized paths. -/
structure Disk where
  files : Table String := ∅
  stores : Table TextStore := ∅
  /-- Whether a command that serves would have been interrupted at once. -/
  served : Bool := false

namespace Disk

/-- A path without empty parts and single dots. -/
def normalize (path : String) : String :=
  "/".intercalate ((path.splitOn "/").filter fun part => part != "" && part != ".")

/-- Whether some part of a path before its end is a file. -/
def belowFile (d : Disk) (path : String) : Bool :=
  d.files.entries.any fun (file, _) => path.startsWith (file ++ "/")

/-- Whether a path is a directory: a store is in it, or something is below it. -/
def isDirectory (d : Disk) (path : String) : Bool :=
  d.stores.contains path
    || d.files.entries.any (fun (file, _) => file.startsWith (path ++ "/"))
    || d.stores.entries.any (fun (dir, _) => dir.startsWith (path ++ "/"))

/-- The content of a file. -/
def readFile (d : Disk) (path : String) : Except FileError String :=
  let path := normalize path
  match d.files.find? path with
  | some content => .ok content
  | none =>
    if d.isDirectory path then .error .isDirectory
    else if d.belowFile path then .error .notDirectory
    else .error .notFound

/-- The store in a directory, an empty one if there was none. -/
def openStore (d : Disk) (path : String) : Except FileError TextStore :=
  let path := normalize path
  if d.files.contains path then .error .alreadyExists
  else if d.belowFile path then .error .notDirectory
  else .ok ((d.stores.find? path).getD ∅)

/-- The disk with a store in a directory. -/
def saveStore (d : Disk) (path : String) (t : TextStore) : Disk :=
  { d with stores := d.stores.insert (normalize path) t }

/-- The disk with a file. -/
def writeFile (d : Disk) (path content : String) : Disk :=
  { d with files := d.files.insert (normalize path) content }

/-- The disk as commands see it. Serving is interrupted before the first tick. -/
def host : Host (StateM Disk) where
  readFile path := fun d => (d.readFile path, d)
  openStore path := fun d =>
    match d.openStore path with
    | .ok t => (.ok t, d.saveStore path t)
    | .error e => (.error e, d)
  saveStore path t := fun d => ((), d.saveStore path t)
  serve _ _ _ := fun d => ((), { d with served := true })

end Disk

end Converge
