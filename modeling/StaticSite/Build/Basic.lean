import StaticSite.Asset.Deploy
import StaticSite.Page.Document
import StaticSite.Settings.Load

/-!
# Builds

What a build is made from, what it reports, and why it can fail. A build is checked before it
touches anything.
-/

namespace StaticSite

/-- A site to be built: its settings, where the output goes, and the directory of its static files.
Without one, every asset name is trusted. -/
structure Build where
  settings : Settings
  output : Place
  static : Option Place := none

structure BuildReport where
  pages : Nat
  assets : Nat
  brokenReferences : Nat
  deriving DecidableEq, Repr

inductive BuildError where
  | settings (d : SettingsDefect)
  | content (d : ContentDefect)
  | page (e : TemplateError)
  | assets (e : FileError)
  | files (e : FileError)
  deriving DecidableEq, Repr

def fileError (e : FileError) : String := "IO error: " ++ e.message

/-- The text of an error with the texts of its causes, the outermost one first. -/
def BuildError.causes : BuildError → List String
  | .settings d =>
    let cause := configurationError d.message
    ["content error: " ++ cause, cause]
  | .content d => ["content error: " ++ d.message, d.message]
  | .page e =>
    let cause := "template error: " ++ e.message
    ["HTML error: " ++ cause, cause, e.message]
  | .assets e => ["asset error: " ++ fileError e, fileError e, e.message]
  | .files e => [fileError e, e.message]

def BuildError.message (e : BuildError) : String := e.causes.headD ""

def Settings.checkBuild (s : Settings) : Except BuildError (Logged Unit) := do
  let logged ← s.validate.mapError .settings
  Route.all.forM fun r => r.validate.mapError .content
  return logged

def Route.outputWay (r : Route) : Location :=
  let name := Text.trimBoth Text.isSlash r.path
  if name = "" then ["index.html"] else [name, "index.html"]

def Route.outputPath (r : Route) (directory : String) : String :=
  r.outputWay.foldl Path.join directory

def manifestWay : Location := ["asset-manifest.json"]

def sitemapWay : Location := ["sitemap.xml"]

end StaticSite
