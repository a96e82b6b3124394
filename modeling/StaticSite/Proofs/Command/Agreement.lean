import StaticSite.Command.Build
import StaticSite.Command.Check
import StaticSite.Command.Snapshot
import StaticSite.Proofs.Build.Run
import StaticSite.Proofs.Page.Reported

/-!
# What a check says about a build

A check looks for assets where the static files stand, and a build where it has deployed them. Both
ask a manifest with the same logical names, so the same references fail to resolve, and the warnings
of the check are as many as the broken references that the build reports.
-/

namespace StaticSite

open FileTree

namespace Resolver

/-- Two resolvers that cannot resolve the same names of assets. -/
def FailAlike (r r' : Resolver) : Prop :=
  ∀ name, (r.asset name).reference? = (r'.asset name).reference?

theorem failAlike_restrict {m m' : Manifest} (r : Resolver)
    (h : ∀ name, name ∈ m.entries.map Prod.fst ↔ name ∈ m'.entries.map Prod.fst) :
    FailAlike (m.restrict r) (m'.restrict r) := by
  intro name
  have hmem : logicalName name ∈ assetNames m.entries ↔
      logicalName name ∈ assetNames m'.entries := by
    simp only [assetNames_eq, List.mem_map (f := siteRelative), h]
  rw [Manifest.restrict, Manifest.restrict, reference?_asset_restrict, reference?_asset_restrict]
  simp only [hmem]

end Resolver

section

variable {r r' : Resolver}

theorem Reference.isBroken_congr (h : r.FailAlike r') (x : Reference) :
    x.isBroken r = x.isBroken r' := by
  rw [isBroken, isBroken, Resolved.isBroken_eq, Resolved.isBroken_eq]
  cases x with
  | asset name => exact congrArg Option.isSome (h name)
  | link target => exact congrArg Option.isSome (Resolver.reference?_link r r' target)

theorem Route.unresolved_references (h : r.FailAlike r') (s : Settings) (route : Route) :
    unresolved (route.references s r) = unresolved (route.references s r') := by
  rw [Route.references_eq, Route.references_eq, Reference.unresolved_map_resolve,
    Reference.unresolved_map_resolve, funext (Reference.isBroken_congr h)]

end

/-- The files that a build deploys after it has emptied the output have the names that are found
where they stand before. -/
theorem scan_of_runs_deploy {f : Fingerprinting} {static output : Place} {t t₁ t₂ : FileTree}
    {u : Unit} {m : Manifest} (hapart : static.Apart output) (hd : t.hasDirectory static = true)
    (houter : ∀ l ∈ static.passed, output.location <+: l → l = output.location)
    (hclear : (clearOutput output).Runs t u t₁) (h : (deploy f static output).Runs t₁ m t₂) :
    ∃ m', scan t static = .ok m' ∧
      ∀ name, name ∈ m.entries.map Prod.fst ↔ name ∈ m'.entries.map Prod.fst := by
  obtain ⟨ways₁, hways₁, rfl, -⟩ := runs_deploy hapart h
  -- Emptying the output leaves the path to the static files and the files themselves.
  have hd₁ : t₁.hasDirectory static = true := by
    refine hasDirectory_kept_of_runs_clearOutput hclear hd fun l hl hout => ?_
    rcases hl with hl | rfl
    · exact houter l hl hout
    · exact absurd hout hapart.2
  obtain ⟨ways, hways⟩ : ∃ ways, sourceFiles t static = .ok ways :=
    ⟨_, sourceFiles_of_hasDirectory hd⟩
  have hsame : ∀ way, way ∈ ways₁ ↔ way ∈ ways := by
    intro way
    have hfile : t₁.file? (static.location ++ way) = t.file? (static.location ++ way) := by
      refine file?_outside_of_runs_clearOutput hclear ?_
      rintro ⟨rest, hrest⟩
      exact hapart.ne way rest hrest.symm
    rw [mem_sourceFiles_iff hd₁ hways₁, mem_sourceFiles_iff hd hways]
    constructor
    · rintro ⟨bytes, h⟩
      exact ⟨bytes, hfile ▸ h.file, h.visible, h.usable⟩
    · rintro ⟨bytes, h⟩
      exact ⟨bytes, hfile.trans h.file, h.visible, h.usable⟩
  refine ⟨.ofWays id ways, by rw [scan, hways]; rfl, fun name => ?_⟩
  rw [Manifest.mem_keys_ofWays hways₁, Manifest.mem_keys_ofWays hways]
  simp only [hsame]

def Surroundings.directory (around : Surroundings) (settingsPath directory : String) : Place :=
  Path.place around.workDir (besideSettings settingsPath directory)

def missingStatic (t : FileTree) (around : Surroundings) (settingsPath : String) (s : Settings) :
    List String :=
  if t.hasDirectory (around.directory settingsPath s.build.staticDir) then []
  else ["Static directory missing: " ++ s.build.staticDir ++ "/ (assets not checked)"]

@[simp] theorem Findings.errors_append (a b : Findings) :
    (a ++ b).errors = a.errors ++ b.errors := rfl

@[simp] theorem Findings.warnings_append (a b : Findings) :
    (a ++ b).warnings = a.warnings ++ b.warnings := rfl

theorem checkResolution_errors (s : Settings) (r : Resolver) : (checkResolution s r).errors = [] :=
  rfl

theorem checkResolution_warnings (s : Settings) (r : Resolver) :
    (checkResolution s r).warnings = (siteBrokenReferences s r).map BrokenReference.warning := rfl

theorem Build.brokenCount_congr {s : Settings} {r r' : Resolver} (h : r.FailAlike r')
    (route : Route) : brokenCount s r route = brokenCount s r' route :=
  congrArg List.length (route.unresolved_references h s)

theorem length_siteBrokenReferences (s : Settings) (r : Resolver) :
    (siteBrokenReferences s r).length =
      Build.brokenCount s r .home + Build.brokenCount s r .community := by
  simp only [siteBrokenReferences, unresolvedReferences_eq, Route.all, List.flatMap_cons,
    List.flatMap_nil, List.append_nil, List.length_append, List.length_map, Build.brokenCount]

section

variable {around : Surroundings} {path : String} {t t' : FileTree} {s : Logged Settings}

theorem findings_of_loaded
    (hload : loadLayered t around.workDir path around.environment = .ok s) :
    (findings t around path).errors = (checkReferences t around path s.value).errors ∧
      (findings t around path).warnings = (checkReferences t around path s.value).warnings := by
  have hcontent : checkContent.errors = [] := by
    simp only [checkContent, contentProblems, Route.validate_eq]
    rfl
  have hfindings : findings t around path =
      checkSettings (.ok s) ++ checkContent ++ checkReferences t around path s.value := by
    unfold findings
    generalize loadLayered t around.workDir path around.environment = loaded at hload ⊢
    subst hload
    rfl
  rw [hfindings, Findings.errors_append, Findings.warnings_append, Findings.errors_append,
    Findings.warnings_append, hcontent]
  exact ⟨rfl, rfl⟩

theorem checkReferences_of_missing {s : Settings} (h : staticPath? t around path s = none) :
    checkReferences t around path s =
      { lines := ["", "Checking references..."] } ++
        { warnings := ["Static directory missing: " ++ s.build.staticDir ++
          "/ (assets not checked)"] } ++
        checkResolution s (.ofSettings s) := by
  unfold checkReferences
  generalize staticPath? t around path s = found at h ⊢
  subst h
  rfl

theorem checkReferences_of_scan {s : Settings} {static : String} {m : Manifest}
    (h : staticPath? t around path s = some static)
    (hscan : scan t (Path.place around.workDir static) = .ok m) :
    checkReferences t around path s =
      { lines := ["", "Checking references..."] } ++
        checkResolution s (m.restrict (.ofSettings s)) := by
  unfold checkReferences
  generalize staticPath? t around path s = found at h ⊢
  subst h
  dsimp only
  generalize scan t (Path.place around.workDir static) = scanned at hscan ⊢
  subst hscan
  rfl

theorem checkCommand_strict :
    (checkCommand t around path true).2 = none ↔
      (findings t around path).errors = [] ∧ (findings t around path).warnings = [] := by
  have hfailure : (checkCommand t around path true).2 =
      (findings t around path).failure? true := rfl
  rw [hfailure, Findings.failure?]
  generalize findings t around path = f
  by_cases herrors : f.errors = [] <;> by_cases hwarnings : f.warnings = [] <;>
    simp [herrors, hwarnings]

def Surroundings.site (around : Surroundings) (settingsPath : String) (t : FileTree)
    (s : Settings) : Build where
  settings := s
  output := around.directory settingsPath s.build.outputDir
  static := (staticPath? t around settingsPath s).map (Path.place around.workDir)

theorem runs_buildCommand {summary : BuildSummary}
    (hload : loadLayered t around.workDir path around.environment = .ok s) :
    (buildCommand around path {}).Runs t summary t' ↔
      ((around.site path t s.value).run around.today).Runs t summary.report t' ∧
        summary.output = besideSettings path s.value.build.outputDir := by
  simp only [buildCommand, Disk.runs_bind, Disk.runs_tree, Disk.runs_ofExcept, Disk.runs_under,
    Disk.runs_pure]
  constructor
  · rintro ⟨_, _, ⟨rfl, rfl⟩, _, _, ⟨hs, rfl⟩, _, _, ⟨hurl, rfl⟩, _, _, hrun, rfl, rfl⟩
    rw [hload] at hs
    obtain rfl := Except.ok.inj hs
    obtain rfl := Except.ok.inj hurl
    exact ⟨hrun, rfl⟩
  · rintro ⟨hrun, houtput⟩
    refine ⟨t, t, ⟨rfl, rfl⟩, s, t, ⟨by rw [hload]; rfl, rfl⟩, s.value, t, ⟨rfl, rfl⟩,
      summary.report, t', hrun, ?_, rfl⟩
    show (⟨summary.report, besideSettings path s.value.build.outputDir⟩ : BuildSummary) = summary
    rw [← houtput]

theorem checkReferences_of_runs_build {summary : BuildSummary}
    (hload : loadLayered t around.workDir path around.environment = .ok s)
    (hapart : (around.directory path s.value.build.staticDir).Apart
      (around.directory path s.value.build.outputDir))
    (houter : t.hasDirectory (around.directory path s.value.build.staticDir) = true →
      ∀ l ∈ (around.directory path s.value.build.staticDir).passed,
        (around.directory path s.value.build.outputDir).location <+: l →
          l = (around.directory path s.value.build.outputDir).location)
    (h : (buildCommand around path {}).Runs t summary t') :
    (checkReferences t around path s.value).errors = [] ∧ ∃ broken : List BrokenReference,
      broken.length = summary.report.brokenReferences ∧
        (checkReferences t around path s.value).warnings =
          missingStatic t around path s.value ++ broken.map BrokenReference.warning := by
  obtain ⟨-, t₁, m, t₂, t₃, hclear, hmanifest, hpages, -⟩ :=
    Build.runs_run.1 ((runs_buildCommand hload).1 h).1
  have hcount := (Build.runs_writePages hpages).1
  have hstatic? : staticPath? t around path s.value =
      if t.hasDirectory (around.directory path s.value.build.staticDir) = true then
        some (besideSettings path s.value.build.staticDir) else none := rfl
  cases hd : t.hasDirectory (around.directory path s.value.build.staticDir) with
  | false =>
    rw [hd, if_neg (by simp)] at hstatic?
    rcases Build.runs_manifest?_cases hmanifest with ⟨-, rfl, -⟩ | ⟨_, _, hs, -⟩
    · rw [checkReferences_of_missing hstatic?]
      refine ⟨rfl, siteBrokenReferences s.value (.ofSettings s.value), ?_, ?_⟩
      · rw [length_siteBrokenReferences, hcount]
        rfl
      · rw [missingStatic, hd]
        rfl
    · rw [Surroundings.site, hstatic?] at hs
      cases hs
  | true =>
    rw [hd, if_pos rfl] at hstatic?
    rcases Build.runs_manifest?_cases hmanifest with ⟨hs, -, -⟩ | ⟨static, m', hs, rfl, hdeploy⟩
    · rw [Surroundings.site, hstatic?] at hs
      cases hs
    · rw [Surroundings.site, hstatic?] at hs
      obtain rfl := Option.some.inj hs
      obtain ⟨t₄, hdeploy, -⟩ := Build.runs_deployAssets hdeploy
      obtain ⟨m, hscan, hnames⟩ := scan_of_runs_deploy hapart hd (houter hd) hclear hdeploy
      rw [checkReferences_of_scan hstatic? hscan]
      refine ⟨rfl, siteBrokenReferences s.value (m.restrict (.ofSettings s.value)), ?_, ?_⟩
      · -- The build asks the manifest of the copies, and the check that of the files.
        have halike := Resolver.failAlike_restrict (.ofSettings s.value) hnames
        replace hcount : summary.report.brokenReferences =
            Build.brokenCount s.value (m'.restrict (.ofSettings s.value)) .home +
              Build.brokenCount s.value (m'.restrict (.ofSettings s.value)) .community := hcount
        rw [length_siteBrokenReferences, hcount, Build.brokenCount_congr halike .home,
          Build.brokenCount_congr halike .community]
      · rw [missingStatic, hd]
        rfl

end

theorem eq_of_loaded {loaded : Except LoadError (Logged Settings)} {s : Settings}
    (h : loaded.toOption.map (fun l => (l.value, l.warnings)) = some (s, [])) :
    loaded = .ok (.of s) := by
  obtain ⟨⟨value, warnings⟩, hl, he⟩ := Option.map_eq_some_iff.1 h
  cases he
  exact eq_ok_of_toOption hl

end StaticSite
