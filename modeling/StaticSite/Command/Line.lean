import StaticSite.Command.Build
import StaticSite.Command.Check
import StaticSite.Command.Options

/-!
# The command line

The words of a command line name one of the commands with its options. A command line that breaks
the rules has exit code two, a command that fails has exit code one.
-/

namespace StaticSite

inductive Command where
  | build (o : BuildOptions)
  | check (strict : Bool)
  deriving DecidableEq, Repr

/-- What a command line asks for: a command on the site whose settings are in a file. -/
structure CommandLine where
  settingsPath : String
  verbosity : Nat
  command : Command
  deriving DecidableEq, Repr

def helpOption : OptionSpec := { name := "help", letter := some 'h', kind := .help }

def globalOptions : List OptionSpec :=
  [{ name := "config", letter := some 'c', kind := .value false },
    { name := "verbose", letter := some 'v', kind := .counter },
    helpOption,
    { name := "version", letter := some 'V', kind := .version }]

def buildOptions : List OptionSpec :=
  [{ name := "output", letter := some 'o', kind := .value false },
    { name := "static-dir", kind := .value false },
    { name := "url", kind := .value true },
    helpOption]

def checkOptions : List OptionSpec := [{ name := "strict", kind := .flag }, helpOption]

def commandNames : List String := ["build", "check", "help"]

/-- The command with a name, and its options. After `help` stands at most the name of a command. -/
def readCommand (name : String) (words : List String) : Except Stop Command := do
  if name = "build" then
    let (g, _) ← readOptions buildOptions [] {} words
    return .build ⟨g.value? "output", g.value? "static-dir", g.value? "url"⟩
  else if name = "check" then
    let (g, _) ← readOptions checkOptions [] {} words
    return .check (g.has "strict")
  else
    match words with
    | [] => throw .help
    | [topic] => throw (if topic ∈ commandNames then .help else .misuse)
    | _ => throw .misuse

def CommandLine.read (words : List String) : Except Stop CommandLine := do
  let (g, command) ← readOptions globalOptions commandNames {} words
  match command with
  | none => throw .misuse
  | some (name, rest) =>
    return {
      settingsPath := (g.value? "config").getD "site.toml"
      verbosity := (g.filter fun e => e.1 = "verbose").length
      command := ← readCommand name rest }

def versionText : String := "openstate-site 0.1.0\n"

def usageText : String :=
  linesText
    ["Static builder for the OpenState marketing site",
      "",
      "Usage: openstate-site [OPTIONS] <COMMAND>",
      "",
      "Commands:",
      "  build  Render every page into the output directory",
      "  check  Validate configuration, section content and references",
      "  help   Print this message or the help of the given subcommand(s)",
      "",
      "Options:",
      "  -c, --config <CONFIG>  Path to configuration file [default: site.toml]",
      "  -v, --verbose...       Increase verbosity (-v, -vv, -vvv)",
      "  -h, --help             Print help",
      "  -V, --version          Print version"]

inductive Shown where
  | text (s : String)
  | summary (s : BuildSummary)
  deriving DecidableEq, Repr

def Shown.render (hundredths : Nat) : Shown → String
  | .text s => s
  | .summary s => linesText (s.lines hundredths)

structure Outcome where
  shown : Shown
  complaints : List String := []
  exitCode : Nat := 0
  deriving DecidableEq, Repr

def Outcome.ofFailure (output : String) : Option CommandError → Outcome
  | none => { shown := .text output }
  | some e => { shown := .text output, complaints := e.causes, exitCode := 1 }

def CommandLine.run (l : CommandLine) (around : Surroundings) : StateM FileTree Outcome := do
  match l.command with
  | .build o =>
    match ← (buildCommand around l.settingsPath o).run with
    | .ok summary => return { shown := .summary summary }
    | .error e => return .ofFailure "" (some e)
  | .check strict =>
    let (lines, failure) := checkCommand (← get) around l.settingsPath strict
    return .ofFailure (linesText lines) failure

def runWords (around : Surroundings) (words : List String) : StateM FileTree Outcome :=
  match CommandLine.read words with
  | .error .help => return { shown := .text usageText }
  | .error .version => return { shown := .text versionText }
  | .error .misuse => return { shown := .text "", complaints := [usageText], exitCode := 2 }
  | .ok l => l.run around

end StaticSite
