import StaticSite.Asset.Fingerprint
import StaticSite.Asset.Manifest
import StaticSite.Files.Disk

/-!
# Deploying assets

The static files of a site are copied into the output, under names with fingerprints where these
are wanted. Files and directories whose names begin with a dot are left out. `scan` makes the
manifest of a source without copying: every file is deployed under its own name.
-/

namespace StaticSite

def isHidden (name : String) : Bool := name.toList.head? = some '.'

def FileTree.visibleFiles (t : FileTree) (loc : Location) : List Location :=
  (t.below loc).filterMap fun (way, e) =>
    match e with
    | .directory => none
    | .file _ => if way.any isHidden then none else some way

/-- The ways to the visible files below a place; there are none if nothing is there. A file to which
the path through the place cannot be used is passed over without an error. -/
def sourceFiles (t : FileTree) (source : Place) : Except FileError (List Location) :=
  if !t.has source then .ok []
  else if t.hasDirectory source then
    .ok ((t.visibleFiles source.location).filter fun way => (source.below way).isUsable)
  else .error .notADirectory

def scan (t : FileTree) (source : Place) : Except FileError Manifest :=
  (sourceFiles t source).map fun ways =>
    ways.foldl (fun m way => m.add (slashPath way) (slashPath way)) .empty

def deployedWay (f : Fingerprinting) (way : Location) (bytes : List UInt8) : Location :=
  match way.getLast? with
  | none => way
  | some name => way.dropLast ++ [f.deployedName name bytes]

def deployFile (f : Fingerprinting) (source dest : Place) (m : Manifest) (way : Location) :
    Disk FileError Manifest := do
  let t ← Disk.tree
  let bytes ← t.read (source.below way)
  -- These bytes only decide the name; the copy reads the file once more.
  let deployed := deployedWay f way bytes
  Disk.copy (source.below way) (dest.below deployed)
  return m.add (slashPath way) (slashPath deployed)

def deploy (f : Fingerprinting) (source dest : Place) : Disk FileError Manifest := do
  let t ← Disk.tree
  let ways ← sourceFiles t source
  ways.foldlM (deployFile f source dest) .empty

end StaticSite
