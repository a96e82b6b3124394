import StaticSite.Proofs.Command.Agreement
import StaticSite.Proofs.Files.Kept

/-!
# Files that a build keeps

A build removes what its output holds and writes below the output only, so every file that is not
below the output is kept, however the build ends. The static files are among these as long as none
of them stands in the output; nothing checks where the two directories are.
-/

namespace StaticSite

open FileTree

section

variable {f : Fingerprinting} {source dest : Place}

theorem keeps_deployFile (m : Manifest) {way : Location} (hway : way ≠ []) :
    (deployFile f source dest m way).Keeps dest.location := by
  refine Disk.keeps_tree_bind fun t => ?_
  refine ((Disk.keeps_liftM (t.read (source.below way))).bind fun _ _ _ _ => ?_) t
  exact (Disk.keeps_copy_below _ (deployedWay_ne_nil hway)).bind fun _ _ _ _ => Disk.keeps_pure _

theorem keeps_deploy : (deploy f source dest).Keeps dest.location := by
  refine Disk.keeps_tree_bind fun t => ?_
  refine ((Disk.keeps_liftM (sourceFiles t source)).bind fun _ ways _ hways => ?_) t
  obtain ⟨hways, -⟩ := Disk.runs_liftM.1 hways
  exact Disk.keeps_foldlM
    (fun m _ hway => keeps_deployFile m (ne_nil_of_mem_sourceFiles hways hway)) _

end

theorem keeps_clearOutput (output : Place) : (clearOutput output).Keeps output.location := by
  refine Disk.keeps_tree_bind fun t => ?_
  split
  · exact ((Disk.keeps_removeAll output).bind fun _ _ _ _ => Disk.keeps_makeDirectories output) t
  · exact Disk.keeps_makeDirectories output t

theorem keeps_writeOutput (output : Place) {way : Location} (text : String) (hway : way ≠ []) :
    (writeOutput output way text).Keeps output.location := Disk.keeps_write_below _ hway

theorem Route.outputWay_ne_nil (r : Route) : r.outputWay ≠ [] := by
  unfold outputWay
  dsimp only
  split <;> simp

theorem Disk.keeps_all {ε α : Type} {loc : Location} {works : List (Disk ε α)}
    (h : ∀ work ∈ works, work.Keeps loc) : (Disk.all works).Keeps loc :=
  (keeps_mapM fun work hwork => keeps_attempt (h work hwork)).bind fun _ _ _ _ =>
    keeps_mapM fun r _ => keeps_ofExcept r

namespace Build

variable {b : Build}

theorem keeps_manifest? : b.manifest?.Keeps b.output.location := by
  unfold manifest?
  split
  · exact Disk.keeps_pure _
  · refine Disk.Keeps.bind ?_ fun _ _ _ _ => Disk.keeps_pure _
    refine (Disk.keeps_under _ keeps_deploy).bind fun _ _ _ _ => ?_
    refine Disk.Keeps.bind ?_ fun _ _ _ _ => Disk.keeps_pure _
    exact Disk.keeps_under _ (keeps_writeOutput _ _ (by decide))

theorem keeps_writePage (r : Resolver) (route : Route) :
    (b.writePage r route).Keeps b.output.location := by
  rw [writePage_eq]
  refine Disk.Keeps.bind ?_ fun _ _ _ _ => Disk.keeps_pure _
  apply Disk.keeps_under
  exact (Disk.keeps_makeDirectories _).bind fun _ _ _ _ =>
    keeps_writeOutput _ _ route.outputWay_ne_nil

theorem keeps_writePages (r : Resolver) : (b.writePages r).Keeps b.output.location := by
  refine Disk.Keeps.bind (Disk.keeps_all ?_) fun _ _ _ _ => Disk.keeps_pure _
  intro work hwork
  obtain ⟨route, -, rfl⟩ := List.mem_map.1 hwork
  exact keeps_writePage r route

theorem keeps_writeSitemap (date : Calendar.Date) :
    (b.writeSitemap date).Keeps b.output.location := by
  unfold writeSitemap
  split
  · exact Disk.keeps_under _ (keeps_writeOutput _ _ (by decide))
  · exact Disk.keeps_pure _

theorem keeps_run (date : Calendar.Date) : (b.run date).Keeps b.output.location := by
  refine (Disk.keeps_ofExcept _).bind fun _ _ _ _ => ?_
  refine (Disk.keeps_under _ (keeps_clearOutput _)).bind fun _ _ _ _ => ?_
  refine keeps_manifest?.bind fun _ m _ _ => ?_
  refine (keeps_writePages _).bind fun _ _ _ _ => ?_
  exact (keeps_writeSitemap date).bind fun _ _ _ _ => Disk.keeps_pure _

end Build

theorem Settings.build_overridden {s s' : Settings} {url : Option String}
    (h : s.overridden url = .ok s') : s'.build = s.build := by
  cases url with
  | none => rw [← Except.ok.inj h]
  | some url =>
    have hmap : ((s.withUrl url).validate.map fun logged =>
        (⟨s.withUrl url, logged.warnings⟩ : Logged Settings)).map Logged.value = .ok s' := h
    cases hv : (s.withUrl url).validate with
    | error d =>
      rw [hv] at hmap
      cases hmap
    | ok logged =>
      rw [hv] at hmap
      rw [← Except.ok.inj hmap]
      rfl

section

variable {around : Surroundings} {path : String} {o : BuildOptions} {t : FileTree}

theorem BuildOptions.site_congr {s s' : Settings} (h : s'.build = s.build) :
    (o.site t around path s').1.output = (o.site t around path s).1.output := by
  simp only [site, h]

theorem sameFiles_buildCommand {s : Logged Settings}
    (hload : loadLayered t around.workDir path around.environment = .ok s) :
    t.SameFiles (o.site t around path s.value).1.output.location
      ((buildCommand around path o).outcome t).2 := by
  have hloaded : (Disk.ofExcept ((loadLayered t around.workDir path around.environment).mapError
      CommandError.load)).outcome t = (.ok s, t) := by
    rw [hload]
    rfl
  -- The place of the output depends on the settings, so the loading is followed by hand.
  rw [buildCommand, Disk.outcome_bind, Disk.outcome_tree]
  dsimp only
  rw [Disk.outcome_bind, hloaded]
  refine ((Disk.keeps_ofExcept _).bind fun _ s' _ hs' => ?_) t
  obtain ⟨hs', -⟩ := Disk.runs_ofExcept.1 hs'
  have hbuild : s'.build = s.value.build := by
    cases hurl : s.value.overridden o.url with
    | error d =>
      rw [hurl] at hs'
      cases hs'
    | ok s'' =>
      rw [hurl] at hs'
      rw [← Except.ok.inj hs']
      exact Settings.build_overridden hurl
  rw [← BuildOptions.site_congr hbuild]
  exact (Disk.keeps_under _ (Build.keeps_run _)).bind fun _ _ _ _ => Disk.keeps_pure _

/-- After the build command, whether it succeeds or not, every file that was in the static directory
is still there with the same bytes, unless it was below the output directory. -/
theorem buildCommand_keeps_static {s : Logged Settings}
    (hload : loadLayered t around.workDir path around.environment = .ok s) :
    let b := (o.site t around path s.value).1
    ∀ static ∈ b.static, ∀ way bytes, t.file? (static.location ++ way) = some bytes →
      (b.output.location <+: static.location ++ way → static.location ++ way = b.output.location) →
        FileTree.file? ((buildCommand around path o).outcome t).2 (static.location ++ way) =
          some bytes := by
  intro b static _ way bytes hfile hout
  rw [sameFiles_buildCommand hload _ hout, hfile]

end

/-- An output that is named by an option and stands among the static files. -/
theorem buildCommand_keeps_static_nested :
    let t := FileTree.ofRecords
      [(["site.toml"], .file (Text.encode "[site]\ntitle = \"T\"\nurl = \"https://t.example\"\n")),
        (["static"], .directory), (["static", "a.txt"], .file [97]),
        (["static", "out"], .directory), (["static", "out", "a.txt"], .file [98])]
    let around : Surroundings := { workDir := [], today := ⟨2024, 2, 29⟩ }
    let s : Logged Settings := .of { site := { title := "T", url := "https://t.example" } }
    let o : BuildOptions := { output := some "static/out", url := some "https://u.example" }
    let b := (o.site t around "site.toml" s.value).1
    let static := around.directory "site.toml" s.value.build.staticDir
    loadLayered t around.workDir "site.toml" around.environment = .ok s ∧ static ∈ b.static ∧
      static.location <+: b.output.location ∧
      FileTree.file? ((buildCommand around "site.toml" o).outcome t).2
        (static.location ++ ["a.txt"]) = some [97] := by
  intro t around s o b static
  have hload : loadLayered t around.workDir "site.toml" around.environment = .ok s :=
    eq_of_loaded (by decide +kernel)
  have hstatic : static ∈ b.static := by decide +kernel
  have hfile : t.file? (static.location ++ ["a.txt"]) = some [97] := by decide +kernel
  have hout : b.output.location <+: static.location ++ ["a.txt"] →
      static.location ++ ["a.txt"] = b.output.location := by decide +kernel
  exact ⟨hload, hstatic, by decide +kernel,
    buildCommand_keeps_static hload static hstatic ["a.txt"] [97] hfile hout⟩

/-- The output is the static directory. A build that succeeds removes the static files first, and
has none to deploy then. -/
theorem buildCommand_removes_static :
    let t := FileTree.ofRecords
      [(["site.toml"], .file (Text.encode
          ("[site]\ntitle = \"T\"\nurl = \"https://t.example\"\n" ++
            "[build]\noutput_dir = \"static\"\n"))),
        (["static"], .directory), (["static", "a.txt"], .file [120])]
    let around : Surroundings := { workDir := [], today := ⟨2024, 2, 29⟩ }
    let s : Logged Settings := .of
      { site := { title := "T", url := "https://t.example" }, build := { outputDir := "static" } }
    let b := around.site "site.toml" t s.value
    let static := around.directory "site.toml" s.value.build.staticDir
    loadLayered t around.workDir "site.toml" around.environment = .ok s ∧ static ∈ b.static ∧
      t.file? (static.location ++ ["a.txt"]) = some [120] ∧
      ∃ summary t', (buildCommand around "site.toml" {}).Runs t summary t' ∧
        t'.file? (static.location ++ ["a.txt"]) = none := by
  intro t around s b static
  have hload : loadLayered t around.workDir "site.toml" around.environment = .ok s :=
    eq_of_loaded (by decide +kernel)
  have hrun : ((b.run around.today).outcome t).1.isOk = true ∧
      FileTree.file? ((b.run around.today).outcome t).2 (static.location ++ ["a.txt"]) = none := by
    simp only [Build.run, Settings.checkBuild_eq, Build.writePages_eq]
    decide +kernel
  obtain ⟨report, hreport⟩ := Disk.exists_runs_of_isOk hrun.1
  have houtput : "static" = besideSettings "site.toml" s.value.build.outputDir := by decide +kernel
  have hcommand : (buildCommand around "site.toml" {}).Runs t ⟨report, "static"⟩ _ :=
    (runs_buildCommand hload).2 ⟨hreport, houtput⟩
  exact ⟨hload, by decide +kernel, by decide +kernel, _, _, hcommand, hrun.2⟩

end StaticSite
