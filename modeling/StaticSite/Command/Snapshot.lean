import StaticSite.Command.Line

/-!
# File trees from records

The part of the file tree that a command line is about: which places have to be known before it
runs, and a tree made from what stands there. The environment comes as one block of bytes.
-/

namespace StaticSite

/-- An environment from its block: variables between null bytes, each with its value after an equals
sign. What is not a text is left out. -/
def Environment.ofBlock (block : List UInt8) : Environment :=
  -- The null byte behind the last variable leaves an empty piece, which has no equals sign.
  (Text.splitOn (· == 0) block).filterMap fun bytes =>
    (Text.decode? bytes).bind fun s =>
      (Text.cut ['='] s.toList).map fun (name, value) => (String.ofList name, String.ofList value)

/-- The places of the directories that a command line works with, as far as the settings in a tree
name them. -/
def CommandLine.directories (l : CommandLine) (t : FileTree) (around : Surroundings) : List Place :=
  match loadLayered t around.workDir l.settingsPath around.environment with
  | .error _ => []
  | .ok s =>
    let beside (directory : String) := besideSettings l.settingsPath directory
    let paths := match l.command with
      | .check _ => [beside s.value.build.staticDir]
      | .build o =>
        [o.output.getD (beside s.value.build.outputDir),
          o.staticDir.getD (beside s.value.build.staticDir)]
    paths.map (Path.place around.workDir)

def FileTree.record (t : FileTree) (r : Location × Entry) : FileTree :=
  let changed := match r.2 with
    | .directory => t.makeDirectories r.1
    | .file bytes => t.write r.1 bytes
  match changed with
  | .ok t => t
  | .error _ => t

def FileTree.ofRecords (records : List (Location × Entry)) : FileTree :=
  records.foldl FileTree.record .empty

inductive TreeStep where
  | remove (loc : Location) (isDirectory : Bool)
  | make (loc : Location)
  | write (loc : Location) (bytes : List UInt8)

/-- The steps from one tree to another one: what is gone is removed, from the inside out, and then
what is new is made, from the outside in. -/
def FileTree.stepsTo (t t' : FileTree) : List TreeStep :=
  -- In ascending order a directory stands before what is in it.
  let gone := t.entries.entries.reverse.filterMap fun (loc, e) =>
    match e, t'.entry? loc with
    | .directory, some .directory => none
    | .file _, some (.file _) => none
    | e, _ => some (.remove loc (e = .directory))
  let made := t'.entries.entries.filterMap fun (loc, e) =>
    if t.entry? loc = some e then none
    else
      match e with
      | .directory => some (.make loc)
      | .file bytes => some (.write loc bytes)
  gone ++ made

end StaticSite
