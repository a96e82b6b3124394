import StaticSite.Command.Basic

/-!
# The build command

The command loads the settings, applies what its options say, builds the site, and reports the
counts.
-/

namespace StaticSite

structure BuildOptions where
  output : Option String := none
  staticDir : Option String := none
  url : Option String := none
  deriving DecidableEq, Repr

structure BuildSummary where
  report : BuildReport
  output : String
  deriving DecidableEq, Repr

namespace BuildSummary

def brokenLines (count : Nat) : List String :=
  if count = 0 then []
  else ["  Broken:     " ++ Number.digits count ++ " (run `check` for details)"]

def seconds (hundredths : Nat) : String :=
  Number.digits (hundredths / 100) ++ "." ++ Number.padded 10 2 (hundredths % 100) ++ "s"

def lines (s : BuildSummary) (hundredths : Nat) : List String :=
  ["",
    "  Build completed successfully!",
    "",
    "  Pages:      " ++ Number.digits s.report.pages,
    "  Assets:     " ++ Number.digits s.report.assets] ++
  brokenLines s.report.brokenReferences ++
  ["",
    "  Duration:   " ++ seconds hundredths,
    "  Output:     " ++ s.output,
    ""]

end BuildSummary

def Settings.withUrl (s : Settings) (url : String) : Settings :=
  { s with site := { s.site with url := url } }

def Settings.overridden (s : Settings) : Option String → Except SettingsDefect Settings
  | none => .ok s
  | some url => (s.withUrl url).validated.map fun logged => logged.value

/-- The site that settings and options describe, with the path of its output. -/
def BuildOptions.site (o : BuildOptions) (t : FileTree) (around : Surroundings)
    (settingsPath : String) (s : Settings) : Build × String :=
  let output := o.output.getD (besideSettings settingsPath s.build.outputDir)
  -- What an option names is meant from where the command runs, and does not have to exist.
  let static := o.staticDir.or (staticPath? t around settingsPath s)
  ({ settings := s
     output := Path.place around.workDir output
     static := static.map (Path.place around.workDir) }, output)

def buildCommand (around : Surroundings) (settingsPath : String) (o : BuildOptions) :
    Disk CommandError BuildSummary := do
  let t ← Disk.tree
  let loaded := loadLayered t around.workDir settingsPath around.environment
  let s ← Disk.ofExcept (loaded.mapError .load)
  let s ← Disk.ofExcept ((s.value.overridden o.url).mapError .url)
  let (build, output) := o.site t around settingsPath s
  let report ← Disk.under .build (build.run around.today)
  return { report, output }

end StaticSite
