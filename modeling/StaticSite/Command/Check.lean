import StaticSite.Command.Basic

/-!
# The check command

The command looks at the settings, at the content of the routes and at the references of the pages,
and changes nothing. Defects of the settings and of content are errors, references that do not
resolve are warnings, and strictness makes warnings count.
-/

namespace StaticSite

structure Findings where
  errors : List String := []
  warnings : List String := []
  lines : List String := []
  deriving DecidableEq, Repr

namespace Findings

def append (a b : Findings) : Findings :=
  ⟨a.errors ++ b.errors, a.warnings ++ b.warnings, a.lines ++ b.lines⟩

instance : Append Findings := ⟨append⟩

end Findings

def checkSettings (loaded : Except LoadError (Logged Settings)) : Findings :=
  match loaded with
  | .ok _ => { lines := ["Checking configuration...", "  ✓ Configuration valid"] }
  | .error e =>
    { errors := [configurationError e.message]
      lines := ["Checking configuration...", "  ✗ Configuration invalid: " ++ e.message] }

/-- The defects of the content of the routes, at most one for each. -/
def contentProblems : List String :=
  Route.all.filterMap fun r =>
    match r.validate with
    | .ok _ => none
    | .error d => some (r.path ++ ": " ++ d.message)

def checkContent : Findings :=
  let count := Number.digits Route.all.length
  let failed := contentProblems.length
  let outcome :=
    if failed = 0 then "  ✓ All " ++ count ++ " routes valid"
    else "  ✗ " ++ Number.digits failed ++ "/" ++ count ++ " routes have content errors"
  { errors := contentProblems, lines := ["", "Checking section content...", outcome] }

def BrokenReference.warning (b : BrokenReference) : String :=
  b.route.path ++ ": unresolved reference '" ++ b.reference ++ "'"

def checkResolution (s : Settings) (r : Resolver) : Findings :=
  let broken := siteBrokenReferences s r
  let outcome :=
    if broken = [] then "  ✓ All references resolve"
    else "  ⚠ " ++ Number.digits broken.length ++ " unresolved reference(s)"
  { warnings := broken.map BrokenReference.warning, lines := [outcome] }

def checkReferences (t : FileTree) (around : Surroundings) (settingsPath : String)
    (s : Settings) : Findings :=
  let start : Findings := { lines := ["", "Checking references..."] }
  let resolver := Resolver.ofSettings s
  -- Without static files all names of assets are trusted.
  match staticPath? t around settingsPath s with
  | none =>
    let missing := "Static directory missing: " ++ s.build.staticDir ++ "/ (assets not checked)"
    start ++ { warnings := [missing] } ++ checkResolution s resolver
  | some path =>
    match scan t (Path.place around.workDir path) with
    | .error e => start ++ { errors := ["Failed to scan " ++ path ++ ": " ++ fileError e] }
    | .ok m => start ++ checkResolution s (m.restrict resolver)

def findings (t : FileTree) (around : Surroundings) (settingsPath : String) : Findings :=
  let loaded := loadLayered t around.workDir settingsPath around.environment
  let start := checkSettings loaded ++ checkContent
  match loaded with
  | .error _ => start
  | .ok s => start ++ checkReferences t around settingsPath s.value

def markedLines (title mark : String) (lines : List String) : List String :=
  if lines = [] then [] else ["", title] ++ lines.map fun line => "  " ++ mark ++ " " ++ line

def Findings.summary (f : Findings) : List String :=
  ["",
    "Summary:",
    "  Errors:   " ++ Number.digits f.errors.length,
    "  Warnings: " ++ Number.digits f.warnings.length] ++
  markedLines "Errors:" "✗" f.errors ++ markedLines "Warnings:" "⚠" f.warnings

def Findings.failure? (f : Findings) (strict : Bool) : Option CommandError :=
  if f.errors ≠ [] then some (.problems f.errors.length)
  else if strict ∧ f.warnings ≠ [] then some (.strict f.warnings.length)
  else none

def checkCommand (t : FileTree) (around : Surroundings) (settingsPath : String) (strict : Bool) :
    List String × Option CommandError :=
  let f := findings t around settingsPath
  let failure := f.failure? strict
  let final := if failure.isSome then [] else ["", "✓ All checks passed"]
  (f.lines ++ f.summary ++ final, failure)

end StaticSite
