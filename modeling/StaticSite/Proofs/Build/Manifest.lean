import StaticSite.Proofs.Asset.Manifest
import StaticSite.Proofs.Build.Output

/-!
# What the asset manifest says about the output

The assets are deployed first, and the manifest is written when all of them are in place. What a
build writes afterwards has fixed paths: the documents and the sitemap. So an entry of the manifest
tells what is in the finished output, unless the asset is deployed where the build writes a file of
its own; nothing keeps an asset from having such a name.
-/

namespace StaticSite

open FileTree

def FileTree.fileBelow? (t : FileTree) (loc : Location) (path : String) : Option (List UInt8) :=
  t.file? (loc ++ pathWay path)

theorem FileTree.fileBelow?_slashPath {t : FileTree} {loc way : Location} (hne : way ≠ [])
    (hn : way.all isFileName = true) : t.fileBelow? loc (slashPath way) = t.file? (loc ++ way) := by
  rw [fileBelow?, pathWay_slashPath hne hn]

namespace Build

variable {b : Build} {date : Calendar.Date} {report : BuildReport} {t t₁ t₂ t' : FileTree}

/-- Whether a path below the output is that of a file which the build makes itself. -/
def Makes (b : Build) (path : String) : Prop :=
  path = "asset-manifest.json" ∨ path = "index.html" ∨ path = "community/index.html" ∨
    b.settings.sitemap.enabled = true ∧ path = "sitemap.xml"

instance (b : Build) (path : String) : Decidable (b.Makes path) :=
  inferInstanceAs (Decidable (_ ∨ _))

theorem ne_of_not_makes {way : Location} (h : ¬b.Makes (slashPath way)) :
    way ≠ manifestWay ∧ way ∉ b.textWays := by
  constructor
  · rintro rfl
    exact h (Or.inl (by decide))
  · intro hway
    exact h (Or.inr (mem_map_textWays.1 (List.mem_map_of_mem hway)))

/-- After the assets are deployed, only the files that the build makes itself change. -/
theorem file?_of_runs_deployAssets {static : Place} {m : Manifest} {r : Resolver} {n : Nat}
    (hassets : (b.deployAssets static).Runs t m t₁) (hpages : (b.writePages r).Runs t₁ n t₂)
    (hsitemap : (b.writeSitemap date).Runs t₂ () t') :
    ∃ t₀, (deploy { enabled := b.settings.build.fingerprint } static b.output).Runs t m t₀ ∧
      t'.file? (b.output.location ++ manifestWay) = some (Text.encode m.json) ∧
      ∀ way, ¬b.Makes (slashPath way) →
        t'.file? (b.output.location ++ way) = t₀.file? (b.output.location ++ way) := by
  obtain ⟨t₀, hdeploy, -, hfiles⟩ := runs_deployAssets hassets
  refine ⟨t₀, hdeploy, ?_, fun way hway => ?_⟩
  · rw [file?_of_not_mem_textWays hpages hsitemap (manifestWay_not_mem_textWays b), hfiles,
      if_pos rfl]
  · obtain ⟨hmanifest, htexts⟩ := ne_of_not_makes hway
    rw [file?_of_not_mem_textWays hpages hsitemap htexts, hfiles,
      if_neg fun h => hmanifest (List.append_cancel_left h)]

theorem exists_bytes_of_mem_entries {f : Fingerprinting} {source dest : Place} {m : Manifest}
    (hapart : source.Apart dest) (h : (deploy f source dest).Runs t m t₁) {e : String × String}
    (he : e ∈ m.entries) :
    ∃ way way' bytes, e = (slashPath way, slashPath way') ∧ way ≠ [] ∧ way' ≠ [] ∧
      t.file? (source.location ++ way) = some bytes ∧
      t₁.file? (dest.location ++ way') = some bytes := by
  obtain ⟨ways, hways, rfl, hfiles, -⟩ := runs_deploy hapart h
  have hne : ∀ way ∈ ways, way ≠ [] := fun way hway => ne_nil_of_mem_sourceFiles hways hway
  have hperm := Manifest.entries_ofWays_perm (g := t.copyWay f source) (nodup_of_sourceFiles hways)
    hne (fun way hway => all_isFileName_of_mem_sourceFiles hways hway)
  obtain ⟨way, hway, rfl⟩ := List.mem_map.1 (hperm.mem_iff.1 he)
  exact ⟨way, t.copyWay f source way, t.content (source.location ++ way), rfl, hne way hway,
    deployedWay_ne_nil (hne way hway), (sees_of_mem_sourceFiles hways hway).file,
    (hfiles _ _).2 (Or.inl ⟨way, hway, rfl, rfl⟩)⟩

theorem head?_html (s : Settings) (r : Resolver) (route : Route) :
    (html s r route).toList.head? = some '<' := by
  rw [html, String.toList_ofList]
  rfl

theorem exists_documents_of_runs (h : (b.run date).Runs t report t') :
    ∃ r, ∀ route : Route, t'.file? (b.output.location ++ route.outputWay) =
      some (Text.encode (html b.settings r route)) := by
  obtain ⟨-, t₁, m, t₂, t₃, -, -, hpages, hsitemap, -⟩ := runs_run.1 h
  refine ⟨b.resolver m, fun route => ?_⟩
  have hother : route.outputWay ≠ sitemapWay := by cases route <;> decide
  rw [(runs_writeSitemap hsitemap).2, if_neg fun h => hother (List.append_cancel_left h.2),
    (runs_writePages hpages).2.2]
  cases route with
  | community => rw [if_pos rfl]
  | home =>
    have hhome : Route.home.outputWay ≠ Route.community.outputWay := by decide
    rw [if_neg fun h => hhome (List.append_cancel_left h), if_pos rfl]

end Build

end StaticSite
