import Std.Time.DateTime.Timestamp
import StaticSite.Command.Snapshot

/-!
# The program

The program reads the part of the file tree that its command line is about, runs the command on it,
and carries the differences back.
-/

namespace StaticSite

def readEntry (loc : Location) : IO (List (Location × Entry)) := do
  let path := (← IO.currentDir) / Path.ofLocation loc
  if ← path.isDir then return [(loc, .directory)]
  else if ← path.pathExists then return [(loc, .file (← IO.FS.readBinFile path).toList)]
  else return []

partial def readRecords (loc : Location) : IO (List (Location × Entry)) := do
  let path := (← IO.currentDir) / Path.ofLocation loc
  if ← path.isDir then
    let names := (← path.readDir).toList.map fun e => e.fileName
    let inner ← names.mapM fun name => readRecords (loc ++ [name])
    return (loc, .directory) :: inner.flatten
  else readEntry loc

/-- What stands at places, below them and where their steps start from. -/
def readPlaces (places : List Place) : IO (List (Location × Entry)) := do
  let records ← places.mapM fun p => do
    return (← p.passed.mapM readEntry).flatten ++ (← readRecords p.location)
  return records.flatten

def carryOut : TreeStep → IO Unit
  | .remove loc true => IO.FS.removeDir (Path.ofLocation loc)
  | .remove loc false => IO.FS.removeFile (Path.ofLocation loc)
  | .make loc => IO.FS.createDir (Path.ofLocation loc)
  | .write loc bytes => IO.FS.writeBinFile (Path.ofLocation loc) bytes.toByteArray

def readEnvironment : IO Environment := do
  try return .ofBlock (← IO.FS.readBinFile "/proc/self/environ").toList
  catch _ => return []

def readSurroundings : IO Surroundings := do
  let now ← Std.Time.Timestamp.now
  return {
    workDir := (Path.place [] (← IO.currentDir).toString).location
    environment := ← readEnvironment
    today := Calendar.Date.ofSeconds now.toSecondsSinceUnixEpoch.val }

def readTree (around : Surroundings) (words : List String) : IO FileTree := do
  match CommandLine.read words with
  | .error _ => return .empty
  | .ok l =>
    let settings ← readPlaces (settingsPlaces around.workDir l.settingsPath)
    -- The settings are read first, since they name the directories.
    let directories ← readPlaces (l.directories (.ofRecords settings) around)
    return .ofRecords (settings ++ directories)

end StaticSite

open StaticSite in
def main (words : List String) : IO UInt32 := do
  let start ← IO.monoMsNow
  let around ← readSurroundings
  let before ← readTree around words
  let (outcome, after) := (runWords around words).run before
  (before.stepsTo after).forM carryOut
  let elapsed := (← IO.monoMsNow) - start
  IO.print (outcome.shown.render ((elapsed + 5) / 10))
  outcome.complaints.forM fun line => IO.eprintln line
  return outcome.exitCode.toUInt32
