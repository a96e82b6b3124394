import StaticSite.Build.Basic
import StaticSite.Page.Sitemap

/-!
# Running a build

A build empties the output, deploys the assets and writes their manifest, writes the document of
every route, and writes the sitemap. What assets there are decides which references resolve.
-/

namespace StaticSite

/-- The work of several pieces, all of which are done even if one of them fails; the first error is
the one reported. -/
def Disk.all (works : List (Disk ε α)) : Disk ε (List α) := do
  -- No error stops the work before all pieces are done.
  let results ← works.mapM Disk.attempt
  results.mapM Disk.ofExcept

def clearOutput (output : Place) : Disk FileError Unit := do
  let t ← Disk.tree
  -- An output that its path does not lead to yet is not emptied.
  if t.has output then Disk.removeAll output
  Disk.makeDirectories output

def writeOutput (output : Place) (way : Location) (text : String) : Disk FileError Unit :=
  Disk.write (output.below way) (Text.encode text)

namespace Build

def deployAssets (b : Build) (static : Place) : Disk BuildError Manifest := do
  let m ← Disk.under .assets (deploy { enabled := b.settings.build.fingerprint } static b.output)
  Disk.under .files (writeOutput b.output manifestWay m.json)
  return m

def manifest? (b : Build) : Disk BuildError (Option Manifest) :=
  match b.static with
  | none => return none
  | some static => do return some (← b.deployAssets static)

def resolver (b : Build) : Option Manifest → Resolver
  | none => .ofSettings b.settings
  | some m => m.restrict (.ofSettings b.settings)

/-- The document of a route is written; the result is how many references it cannot resolve. -/
def writePage (b : Build) (resolver : Resolver) (route : Route) : Disk BuildError Nat := do
  let page := (route.assemble ⟨b.settings, resolver⟩).value
  let rendered := (document b.settings .standard resolver page).value
  let html ← Disk.ofExcept (rendered.mapError BuildError.page)
  let way := route.outputWay
  Disk.under .files do
    Disk.makeDirectories (b.output.below way).parent
    writeOutput b.output way html
  return (unresolvedReferences b.settings resolver page).length

def writePages (b : Build) (resolver : Resolver) : Disk BuildError Nat := do
  let counts ← Disk.all (Route.all.map (b.writePage resolver))
  return counts.foldl Nat.add 0

def writeSitemap (b : Build) (date : Calendar.Date) : Disk BuildError Unit :=
  if b.settings.sitemap.enabled then
    Disk.under .files (writeOutput b.output sitemapWay (sitemap b.settings (some date) Route.all))
  else return

def run (b : Build) (date : Calendar.Date) : Disk BuildError BuildReport := do
  let _ ← Disk.ofExcept b.settings.checkBuild
  Disk.under .files (clearOutput b.output)
  let manifest ← b.manifest?
  -- From here on documents may take the places of assets.
  let broken ← b.writePages (b.resolver manifest)
  b.writeSitemap date
  return {
    pages := Route.all.length
    assets := match manifest with
      | none => 0
      | some m => m.size
    brokenReferences := broken }

end Build

end StaticSite
