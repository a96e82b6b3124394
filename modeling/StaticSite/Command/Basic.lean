import StaticSite.Build.Run

/-!
# Commands

What commands share: the surroundings they run in, the directories that settings name, and the ways
in which they fail. Directories in the settings are meant from the directory of the settings file.
-/

namespace StaticSite

structure Surroundings where
  workDir : Location
  environment : Environment := []
  today : Calendar.Date

inductive CommandError where
  | load (e : LoadError)
  | url (d : SettingsDefect)
  | build (e : BuildError)
  | problems (count : Nat)
  | strict (count : Nat)
  deriving DecidableEq, Repr

def CommandError.causes : CommandError → List String
  | .load e => ["Failed to load configuration", e.message]
  | .url d => ["Invalid --url override", configurationError d.message]
  | .build e => "Build failed" :: e.causes
  | .problems n => ["Validation failed with " ++ Number.digits n ++ " error(s)"]
  | .strict n => ["Validation failed with " ++ Number.digits n ++ " warning(s) (strict mode)"]

def besideSettings (settingsPath directory : String) : String :=
  if Path.isAbsolute directory then directory
  else
    match Path.parent? settingsPath with
    | none => directory
    | some parent => Path.join parent directory

def staticPath? (t : FileTree) (around : Surroundings) (settingsPath : String) (s : Settings) :
    Option String :=
  let path := besideSettings settingsPath s.build.staticDir
  if t.hasDirectory (Path.place around.workDir path) then some path else none

def linesText (lines : List String) : String := String.join (lines.map (· ++ "\n"))

end StaticSite
