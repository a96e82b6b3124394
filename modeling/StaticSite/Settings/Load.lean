import StaticSite.Files.Disk
import StaticSite.Settings.Decode
import StaticSite.Settings.Layers
import StaticSite.Text.Utf8
import StaticSite.Toml.Document

/-!
# Loading settings

Settings are read from a TOML document, from a file that holds one, or from a file under the layer
of the environment. They are validated wherever they come from.
-/

namespace StaticSite

inductive LayerError where
  | noFile (path : String)
  | unknownFormat (path : String)
  | unreadable (path : String)
  | mismatch
  deriving DecidableEq, Repr

def LayerError.message : LayerError → String
  | .noFile path => "configuration file \"" ++ path ++ "\" not found"
  | .unknownFormat path =>
    "configuration file \"" ++ path ++ "\" is not of a registered file format"
  | .unreadable path => "configuration file \"" ++ path ++ "\" is malformed"
  | .mismatch => "a setting is missing or has a value of the wrong type"

inductive LoadError where
  | defect (d : SettingsDefect)
  | notFound (path : String)
  | malformed (path : String)
  | unreadable (e : FileError)
  | layers (e : LayerError)
  deriving DecidableEq, Repr

def configurationError (reason : String) : String := "Configuration error: " ++ reason

def LoadError.message : LoadError → String
  | .defect d => configurationError d.message
  | .notFound path => configurationError ("Configuration file not found: " ++ path)
  | .malformed path => configurationError ("Failed to parse config file: " ++ path)
  | .unreadable e => "IO error: " ++ e.message
  | .layers e => "Config crate error: " ++ e.message

def Settings.validated (s : Settings) : Except SettingsDefect (Logged Settings) :=
  s.validate.map fun logged => ⟨s, logged.warnings⟩

def Settings.read? (document : String) : Option Settings :=
  (Toml.parse document).bind (Settings.decode .toml)

def loadFile (t : FileTree) (workDir : Location) (path : String) :
    Except LoadError (Logged Settings) := do
  let place := Path.place workDir path
  if !t.has place then throw (.notFound path)
  let bytes ← (t.read place).mapError .unreadable
  match Text.decode? bytes with
  | none => throw (.unreadable .notText)
  | some document =>
    match Settings.read? document with
    | none => throw (.malformed path)
    | some s => s.validated.mapError .defect

/-- The path of the TOML file that a path means if it names no file: the path with `.toml` after it.
What follows the last name of the path counts only if that name has an extension, and after a slash
the file has a name of its own. -/
def settingsPath? (workDir : Location) (path : String) : Option String :=
  let path := Path.join (Path.ofLocation workDir) path
  (Path.lastName? path).map fun name =>
    -- A path that has an extension already gets another one behind it.
    if (Path.splitExtension name).2 = none then Path.trimmed path ++ ".toml"
    else if Path.endsWithSlash path then path ++ ".placeholder.toml"
    else path ++ ".toml"

def settingsPlaces (workDir : Location) (path : String) : List Place :=
  (path :: (settingsPath? workDir path).toList).map (Path.place workDir)

/-- The bytes of the file that a path means. A file that the path names itself has to be a TOML
file by its extension. -/
def settingsFile (t : FileTree) (workDir : Location) (path : String) :
    Except LayerError (List UInt8) :=
  let files := (settingsPlaces workDir path).filterMap fun p =>
    (t.read p).toOption.map fun bytes => (p.location.getLastD "", bytes)
  -- A file at the path itself comes before one with another extension.
  match files.head? with
  | none => .error (.noFile path)
  | some (name, bytes) =>
    if (Path.splitExtension name).2 = some "toml" then .ok bytes else .error (.unknownFormat path)

def withoutByteMark : List UInt8 → List UInt8
  | 0xEF :: 0xBB :: 0xBF :: rest => rest
  | bytes => bytes

/-- Whether a value can stand in a layer. Its integers have at most 64 bits. -/
def fitsLayer : Value → Bool
  | .integer i => Number.fitsSigned 64 i
  | v => v.isReadable

/-- The entries of the document in a file. Malformed characters in its texts are replaced, dotted
keys make implied tables their own, and all that is in it is read. -/
def fileLayer? (bytes : List UInt8) : Option (List (String × Value)) :=
  match Toml.parseUnder .adopted (Text.decodeLossy (withoutByteMark bytes)) with
  | some v => if v.all fitsLayer then some v.entries else none
  | none => none

def loadLayered (t : FileTree) (workDir : Location) (path : String) (env : Environment) :
    Except LoadError (Logged Settings) := do
  let bytes ← (settingsFile t workDir path).mapError .layers
  match fileLayer? bytes with
  | none => throw (.layers (.unreadable path))
  | some file =>
    match Settings.decode .layered (layered (file ++ env.layer)) with
    | none => throw (.layers .mismatch)
    | some s => s.validated.mapError .defect

end StaticSite
