import StaticSite.Command.Snapshot
import StaticSite.Proofs.Build.Run

/-!
# The output of a build

A successful build leaves exactly the deployed assets with their manifest, the pages, and the
sitemap, and it changes no file elsewhere. What it leaves depends on the settings and on what stands
outside the output, but not on what the output held before; so building again changes nothing but
the date in the sitemap.
-/

namespace StaticSite

open FileTree

variable {t t' u u' : FileTree}

def FileTree.pathsBelow (t : FileTree) (loc : Location) : Set String :=
  {path | ∃ way, t.file? (loc ++ way) ≠ none ∧ slashPath way = path}

theorem mem_pathsBelow_of_writes {loc : Location} {ways : List Location}
    (h : ∀ l, t'.file? l ≠ none ↔ (∃ way ∈ ways, l = loc ++ way) ∨ t.file? l ≠ none)
    (path : String) :
    path ∈ t'.pathsBelow loc ↔ path ∈ ways.map slashPath ∨ path ∈ t.pathsBelow loc := by
  rw [List.mem_map]
  constructor
  · rintro ⟨way, hfile, rfl⟩
    rcases (h _).1 hfile with ⟨way', hmem, he⟩ | hfile
    · exact Or.inl ⟨way', hmem, congrArg slashPath (List.append_cancel_left he).symm⟩
    · exact Or.inr ⟨way, hfile, rfl⟩
  · rintro (⟨way, hmem, rfl⟩ | ⟨way, hfile, rfl⟩)
    · exact ⟨way, (h _).2 (Or.inl ⟨way, hmem, rfl⟩), rfl⟩
    · exact ⟨way, (h _).2 (Or.inr hfile), rfl⟩

theorem mem_pathsBelow_of_deploy {f : Fingerprinting} {source dest : Place} {m : Manifest}
    (hapart : source.Apart dest) (hempty : ∀ way, t.file? (dest.location ++ way) = none)
    (h : (deploy f source dest).Runs t m t') (path : String) :
    path ∈ t'.pathsBelow dest.location ↔ path ∈ m.entries.map Prod.snd := by
  obtain ⟨ways, hways, rfl, hfiles, -⟩ := runs_deploy hapart h
  have hperm := Manifest.entries_ofWays_perm (g := t.copyWay f source) (nodup_of_sourceFiles hways)
    (fun way hway => ne_nil_of_mem_sourceFiles hways hway)
    (fun way hway => all_isFileName_of_mem_sourceFiles hways hway)
  rw [(hperm.map Prod.snd).mem_iff, List.map_map, List.mem_map]
  constructor
  · rintro ⟨way, hfile, rfl⟩
    obtain ⟨bytes, hbytes⟩ := Option.ne_none_iff_exists'.1 hfile
    rw [hfiles, hempty] at hbytes
    rcases hbytes with ⟨w, hw, he, -⟩ | ⟨-, hnone⟩
    · exact ⟨w, hw, congrArg slashPath (List.append_cancel_left he).symm⟩
    · cases hnone
  · rintro ⟨w, hw, rfl⟩
    refine ⟨t.copyWay f source w, ?_, rfl⟩
    rw [(hfiles _ _).2 (Or.inl ⟨w, hw, rfl, rfl⟩)]
    simp

namespace Build

/-- The state after a build that has succeeded on a day. -/
structure Finished (b : Build) (date : Calendar.Date) (report : BuildReport) (t t' : FileTree) :
    Prop where
  outside : ∀ l, ¬b.output.location <+: l → t'.file? l = t.file? l
  files : ∃ m : Option Manifest, m.isSome = b.static.isSome ∧
    report.assets = (m.map Manifest.size).getD 0 ∧
    (∀ m' ∈ m, t'.file? (b.output.location ++ manifestWay) = some (Text.encode m'.json)) ∧
    ∀ path, path ∈ t'.pathsBelow b.output.location ↔
      (∃ m' ∈ m, path ∈ m'.entries.map Prod.snd) ∨
      b.static.isSome = true ∧ path = "asset-manifest.json" ∨
      path = "index.html" ∨ path = "community/index.html" ∨
      b.settings.sitemap.enabled = true ∧ path = "sitemap.xml"
  sitemap : b.settings.sitemap.enabled = true →
    t'.file? (b.output.location ++ sitemapWay) =
      some (Text.encode (sitemap b.settings (some date) Route.all))

/-- Two states in which the output has the same files with the same bytes, apart from the
sitemap. -/
def SameOutput (b : Build) (t u : FileTree) : Prop :=
  ∀ way, ¬(b.settings.sitemap.enabled = true ∧ way = sitemapWay) →
    t.file? (b.output.location ++ way) = u.file? (b.output.location ++ way)

variable {b : Build} {date date' : Calendar.Date} {report report' : BuildReport}

theorem runs_manifest? {m : Option Manifest}
    (hapart : ∀ static ∈ b.static, static.Apart b.output)
    (hempty : ∀ way, t.file? (b.output.location ++ way) = none)
    (hd : t.hasDirectory b.output = true) (h : b.manifest?.Runs t m t') :
    m.isSome = b.static.isSome ∧ StaysIn b.output t t' ∧
      (∀ m' ∈ m, t'.file? (b.output.location ++ manifestWay) = some (Text.encode m'.json)) ∧
      ∀ path, path ∈ t'.pathsBelow b.output.location ↔
        (∃ m' ∈ m, path ∈ m'.entries.map Prod.snd) ∨
        b.static.isSome = true ∧ path = "asset-manifest.json" := by
  rcases runs_manifest?_cases h with ⟨hs, rfl, rfl⟩ | ⟨static, m', hs, rfl, hdeploy⟩
  · rw [hs]
    refine ⟨rfl, ⟨fun _ _ => rfl, hd⟩, by simp, fun path => ?_⟩
    simp [pathsBelow, hempty]
  · rw [hs]
    obtain ⟨t₂, hrun, hstays, hfiles⟩ := runs_deployAssets hdeploy
    have happ := hapart static hs
    obtain ⟨-, -, -, -, hframe⟩ := runs_deploy happ hrun
    obtain ⟨hsame, hd₂⟩ := hframe hd
    refine ⟨rfl, StaysIn.trans ⟨hsame, hd₂⟩ (hstays hd₂), ?_, fun path => ?_⟩
    · rintro m'' ⟨⟩
      rw [hfiles, if_pos rfl]
    · have hwrite : ∀ l, t'.file? l ≠ none ↔
          (∃ way ∈ [manifestWay], l = b.output.location ++ way) ∨ t₂.file? l ≠ none := by
        intro l
        rw [hfiles]
        split
        · rename_i hl
          simp [hl]
        · rename_i hl
          simp [hl]
      have hway : slashPath manifestWay = "asset-manifest.json" := by decide
      rw [mem_pathsBelow_of_writes hwrite, mem_pathsBelow_of_deploy happ hempty hrun]
      simp [hway, or_comm]

def textWays (b : Build) : List Location :=
  Route.all.map Route.outputWay ++ if b.settings.sitemap.enabled then [sitemapWay] else []

theorem mem_textWays {way : Location} :
    way ∈ b.textWays ↔ way = Route.home.outputWay ∨ way = Route.community.outputWay ∨
      b.settings.sitemap.enabled = true ∧ way = sitemapWay := by
  simp [textWays, Route.all]

theorem mem_map_textWays {path : String} :
    path ∈ b.textWays.map slashPath ↔ path = "index.html" ∨ path = "community/index.html" ∨
      b.settings.sitemap.enabled = true ∧ path = "sitemap.xml" := by
  have hhome : slashPath Route.home.outputWay = "index.html" := by decide
  have hcommunity : slashPath Route.community.outputWay = "community/index.html" := by decide
  have hsitemap : slashPath sitemapWay = "sitemap.xml" := by decide
  rw [List.mem_map]
  constructor
  · rintro ⟨way, hway, rfl⟩
    rcases mem_textWays.1 hway with rfl | rfl | ⟨henabled, rfl⟩
    · exact Or.inl hhome
    · exact Or.inr (Or.inl hcommunity)
    · exact Or.inr (Or.inr ⟨henabled, hsitemap⟩)
  · rintro (rfl | rfl | ⟨henabled, rfl⟩)
    · exact ⟨_, mem_textWays.2 (Or.inl rfl), hhome⟩
    · exact ⟨_, mem_textWays.2 (Or.inr (Or.inl rfl)), hcommunity⟩
    · exact ⟨_, mem_textWays.2 (Or.inr (Or.inr ⟨henabled, rfl⟩)), hsitemap⟩

theorem manifestWay_not_mem_textWays (b : Build) : manifestWay ∉ b.textWays := by
  rw [mem_textWays]
  rintro (h | h | ⟨-, h⟩)
  · exact absurd h (by decide)
  · exact absurd h (by decide)
  · exact absurd h (by decide)

theorem file?_of_not_mem_textWays {r : Resolver} {n : Nat} {t₁ : FileTree}
    (hpages : (b.writePages r).Runs t n t₁) (hsitemap : (b.writeSitemap date).Runs t₁ () t')
    {way : Location} (hway : way ∉ b.textWays) :
    t'.file? (b.output.location ++ way) = t.file? (b.output.location ++ way) := by
  rw [mem_textWays, not_or, not_or] at hway
  obtain ⟨hhome, hcommunity, hmap⟩ := hway
  rw [(runs_writeSitemap hsitemap).2, if_neg fun h => hmap ⟨h.1, List.append_cancel_left h.2⟩,
    (runs_writePages hpages).2.2, if_neg fun h => hcommunity (List.append_cancel_left h),
    if_neg fun h => hhome (List.append_cancel_left h)]

/-- All the work of a build is done in the output that it has emptied. -/
theorem staysIn_of_runs {t₁ : FileTree} (hapart : ∀ static ∈ b.static, static.Apart b.output)
    (hseen : b.output.IsSeen t) (h : (b.run date).Runs t report t')
    (hclear : (clearOutput b.output).Runs t () t₁) : StaysIn b.output t₁ t' := by
  obtain ⟨-, s₁, m, t₂, t₃, hc, hmanifest, hpages, hsitemap, -⟩ := runs_run.1 h
  obtain rfl := (hc.unique hclear).2
  have hstays₂ := (runs_manifest? hapart (empty_of_runs_clearOutput hseen hclear)
    (hasDirectory_of_runs_clearOutput hseen hclear) hmanifest).2.1
  have hstays₃ := (runs_writePages hpages).2.1 hstays₂.directory
  exact (hstays₂.trans hstays₃).trans ((runs_writeSitemap hsitemap).1 hstays₃.directory)

theorem finished_of_runs (hapart : ∀ static ∈ b.static, static.Apart b.output)
    (hseen : b.output.IsSeen t) (h : (b.run date).Runs t report t') :
    b.Finished date report t t' := by
  obtain ⟨-, t₁, m, t₂, t₃, hclear, hmanifest, hpages, hsitemap, -, hassets⟩ := runs_run.1 h
  obtain ⟨hset, -, hentry, hpaths₂⟩ := runs_manifest? hapart
    (empty_of_runs_clearOutput hseen hclear) (hasDirectory_of_runs_clearOutput hseen hclear)
    hmanifest
  obtain ⟨-, -, hfiles₃⟩ := runs_writePages hpages
  obtain ⟨-, hfiles₄⟩ := runs_writeSitemap hsitemap
  have hwrites : ∀ l, t'.file? l ≠ none ↔
      (∃ way ∈ b.textWays, l = b.output.location ++ way) ∨ t₂.file? l ≠ none := by
    intro l
    rw [hfiles₄, hfiles₃]
    split_ifs with hsitemap hcommunity hhome
    · exact iff_of_true (by simp) (Or.inl ⟨_, mem_textWays.2 (Or.inr (Or.inr ⟨hsitemap.1, rfl⟩)),
        hsitemap.2⟩)
    · exact iff_of_true (by simp) (Or.inl ⟨_, mem_textWays.2 (Or.inr (Or.inl rfl)), hcommunity⟩)
    · exact iff_of_true (by simp) (Or.inl ⟨_, mem_textWays.2 (Or.inl rfl), hhome⟩)
    · refine (or_iff_right ?_).symm
      rintro ⟨way, hway, rfl⟩
      rcases mem_textWays.1 hway with rfl | rfl | ⟨henabled, rfl⟩
      · exact hhome rfl
      · exact hcommunity rfl
      · exact hsitemap ⟨henabled, rfl⟩
  refine ⟨?_, ⟨m, hset, hassets, ?_, fun path => ?_⟩, ?_⟩
  · intro l hl
    rw [← (staysIn_of_runs hapart hseen h hclear).same.file? hl,
      file?_of_runs_clearOutput hseen hclear, if_neg hl]
  · intro m' hm'
    rw [file?_of_not_mem_textWays hpages hsitemap (manifestWay_not_mem_textWays b), hentry m' hm']
  · rw [mem_pathsBelow_of_writes hwrites, mem_map_textWays, hpaths₂, or_comm, or_assoc]
  · intro henabled
    rw [hfiles₄, if_pos ⟨henabled, rfl⟩]

/-- Builds that start from the same empty output report the same and leave the same, whatever day
it is. -/
theorem same_of_runs {t₁ : FileTree} (hclear : (clearOutput b.output).Runs t () t₁)
    (hclear' : (clearOutput b.output).Runs u () t₁) (h : (b.run date).Runs t report t')
    (h' : (b.run date').Runs u report' u') : report = report' ∧ b.SameOutput t' u' := by
  -- Up to the sitemap the two runs are one and the same.
  obtain ⟨-, s₁, m, s₂, s₃, hc, hm, hp, hs, hcount, hsize⟩ := runs_run.1 h
  obtain ⟨-, s₁', m', s₂', s₃', hc', hm', hp', hs', hcount', hsize'⟩ := runs_run.1 h'
  obtain rfl := (hc.unique hclear).2
  obtain rfl := (hc'.unique hclear').2
  obtain ⟨rfl, rfl⟩ := hm.unique hm'
  obtain ⟨hbroken, rfl⟩ := hp.unique hp'
  obtain ⟨pages, assets, broken⟩ := report
  obtain ⟨pages', assets', broken'⟩ := report'
  refine ⟨?_, fun way hway => ?_⟩
  · simp only at hbroken hcount hsize hcount' hsize'
    rw [hbroken, hcount, hcount', hsize, hsize']
  · have hkept : ∀ {day : Calendar.Date} {s' : FileTree} {u : Unit},
        (b.writeSitemap day).Runs s₃ u s' →
          s'.file? (b.output.location ++ way) = s₃.file? (b.output.location ++ way) := by
      intro day s' u hs
      rw [(runs_writeSitemap hs).2, if_neg]
      rintro ⟨henabled, he⟩
      exact hway ⟨henabled, List.append_cancel_left he⟩
    rw [hkept hs, hkept hs']

/-- A build that has succeeded can be repeated on any day, if the path of the output ends with its
name and no step of it starts inside the output. -/
theorem exists_runs_again (day : Calendar.Date)
    (hapart : ∀ static ∈ b.static, static.Apart b.output) (hseen : b.output.IsSeen t)
    (h : (b.run date).Runs t report t') (hnamed : b.output.isNamed = true)
    (houter : ∀ l ∈ b.output.passed, ¬b.output.location <+: l) :
    ∃ t'', (b.run day).Runs t' report t'' := by
  obtain ⟨hvalid, t₁, m, t₂, t₃, hclear, hm, hp, hs, hcount, hsize⟩ := runs_run.1 h
  obtain ⟨t'', hs'⟩ := exists_runs_writeSitemap day hs
  have hstays := staysIn_of_runs hapart hseen h hclear
  have hclear' := runs_clearOutput_again hseen hclear hstays hnamed houter
  exact ⟨t'', runs_run.2 ⟨hvalid, t₁, m, t₂, t₃, hclear', hm, hp, hs', hcount, hsize⟩⟩

end Build

end StaticSite
