import StaticSite.Build.Run
import StaticSite.Proofs.Asset.Deploy
import StaticSite.Proofs.Page.References

/-!
# Runs of builds

A build that succeeds is taken apart into its phases, and each phase is described by the files that
it writes. The output starts as an empty directory; everything that is done afterwards stays in it.
-/

namespace StaticSite

open FileTree

variable {t t' : FileTree}

theorem Route.validate_eq (r : Route) : r.validate = .ok () := by
  apply eq_ok_of_toOption
  cases r <;> decide +kernel

theorem Settings.checkBuild_eq (s : Settings) :
    s.checkBuild = s.validate.mapError BuildError.settings := by
  unfold checkBuild
  simp only [Route.validate_eq]
  cases s.validate <;> rfl

theorem Disk.runs_all {ε α : Type} {works : List (Disk ε α)} {as : List α}
    (h : (Disk.all works).Runs t as t') : (works.mapM id).Runs t as t' := by
  induction works generalizing t as with
  | nil =>
    rw [Disk.all, runs_bind] at h
    obtain ⟨rs, t₁, hrs, h⟩ := h
    obtain ⟨rfl, rfl⟩ := runs_mapM_nil.1 hrs
    exact runs_mapM_nil.2 (runs_mapM_nil.1 h)
  | cons work works ih =>
    rw [Disk.all, runs_bind] at h
    -- All results are there before the first of them is looked at, and looking changes nothing.
    obtain ⟨rs, t₂, hrs, h⟩ := h
    obtain ⟨r, t₁, rs', hr, hrs', rfl⟩ := runs_mapM_cons.1 hrs
    obtain ⟨a, _, as', ha, has, rfl⟩ := runs_mapM_cons.1 h
    obtain ⟨rfl, rfl⟩ := runs_ofExcept.1 ha
    have hrest : (Disk.all works).Runs t₁ as' t' := runs_bind.2 ⟨rs', t₂, hrs', has⟩
    exact runs_mapM_cons.2 ⟨a, t₁, as', runs_attempt.1 hr, ih hrest, rfl⟩

/-- A path is seen: it is not empty, and it leads to what stands at its location. -/
def Place.IsSeen (p : Place) (t : FileTree) : Prop :=
  p.isEmpty = false ∧ (t.entry? p.location ≠ none → t.has p = true)

theorem Place.isSeen_of_hasDirectory {p : Place} (h : t.hasDirectory p = true) : p.IsSeen t :=
  ⟨(reaches_iff.1 (hasDirectory_iff.1 h).1).1, fun _ => has_of_hasDirectory h⟩

theorem runs_clearOutput_cases {output : Place} {u : Unit} (h : (clearOutput output).Runs t u t') :
    t.has output = true ∧ (Disk.makeDirectories output).Runs (t.remove output.location) u t' ∨
      t.has output = false ∧ (Disk.makeDirectories output).Runs t u t' := by
  rw [clearOutput, Disk.runs_bind] at h
  obtain ⟨_, _, htree, h⟩ := h
  obtain ⟨rfl, rfl⟩ := Disk.runs_tree.1 htree
  cases hhas : t.has output with
  | true =>
    rw [hhas, if_pos rfl, Disk.runs_bind] at h
    obtain ⟨_, t₁, hremove, h⟩ := h
    rw [Disk.runs_removeAll hremove] at h
    exact Or.inl ⟨rfl, h⟩
  | false =>
    rw [hhas, if_neg (by simp)] at h
    exact Or.inr ⟨rfl, h⟩

theorem runs_clearOutput {output : Place} {u : Unit} (hseen : output.IsSeen t)
    (h : (clearOutput output).Runs t u t') :
    (Disk.makeDirectories output).Runs (t.remove output.location) u t' := by
  rcases runs_clearOutput_cases h with ⟨-, h⟩ | ⟨hhas, h⟩
  · exact h
  · -- What is seen and not found does not stand there, so there is nothing to remove.
    have hnone : t.entry? output.location = none := by
      by_contra hne
      rw [hseen.2 hne] at hhas
      cases hhas
    rwa [remove_of_entry?_none hnone]

/-- The tree with the empty output depends on what stands outside the output only. -/
theorem eq_of_runs_clearOutput {output : Place} {t₁ t₂ t₁' t₂' : FileTree} {u₁ u₂ : Unit}
    (h₁ : output.IsSeen t₁) (h₂ : output.IsSeen t₂)
    (hsame : ∀ l, ¬output.location <+: l → l ∉ output.made → t₁.entry? l = t₂.entry? l)
    (hrun₁ : (clearOutput output).Runs t₁ u₁ t₁') (hrun₂ : (clearOutput output).Runs t₂ u₂ t₂') :
    t₁' = t₂' := by
  apply eq_of_entry?
  intro l
  rw [(Disk.runs_makeDirectories (runs_clearOutput h₁ hrun₁)).1,
    (Disk.runs_makeDirectories (runs_clearOutput h₂ hrun₂)).1]
  split
  · rfl
  · rename_i hmade
    rw [entry?_remove, entry?_remove]
    by_cases hl : output.location <+: l
    · by_cases hnil : l = []
      · simp [hnil]
      · simp [hnil, hl]
    · simp [hl, hsame l hl hmade]

section

variable {output : Place} {u : Unit}

theorem hasDirectory_of_runs_clearOutput (hseen : output.IsSeen t)
    (h : (clearOutput output).Runs t u t') : t'.hasDirectory output = true :=
  (Disk.runs_makeDirectories (runs_clearOutput hseen h)).2 hseen.1

theorem file?_of_runs_clearOutput (hseen : output.IsSeen t)
    (h : (clearOutput output).Runs t u t') (l : Location) :
    t'.file? l = if output.location <+: l then none else t.file? l := by
  rw [Disk.file?_of_runs_makeDirectories (runs_clearOutput hseen h)]
  have he := entry?_remove t output.location l
  by_cases hl : output.location <+: l
  · rw [if_pos hl, file?]
    by_cases hnil : l = []
    · simp [hnil]
    · rw [he, if_pos ⟨hnil, hl⟩]
  · rw [if_neg hl]
    exact file?_of_entry? (by rw [he, if_neg fun h => hl h.2])

theorem empty_of_runs_clearOutput (hseen : output.IsSeen t)
    (h : (clearOutput output).Runs t u t') (way : Location) :
    t'.file? (output.location ++ way) = none := by
  rw [file?_of_runs_clearOutput hseen h, if_pos (List.prefix_append _ _)]

theorem file?_outside_of_runs_clearOutput (h : (clearOutput output).Runs t u t') {l : Location}
    (hl : ¬output.location <+: l) : t'.file? l = t.file? l := by
  rcases runs_clearOutput_cases h with ⟨-, h⟩ | ⟨-, h⟩
  · rw [Disk.file?_of_runs_makeDirectories h]
    exact file?_of_entry? (by rw [entry?_remove, if_neg fun h => hl h.2])
  · rw [Disk.file?_of_runs_makeDirectories h]

theorem hasDirectory_kept_of_runs_clearOutput {p : Place} (h : (clearOutput output).Runs t u t')
    (hd : t.hasDirectory p = true)
    (houter : ∀ l, l ∈ p.passed ∨ l = p.location → output.location <+: l → l = output.location) :
    t'.hasDirectory p = true := by
  refine hasDirectory_of_isDirectory hd fun l hl hdir => ?_
  rcases runs_clearOutput_cases h with ⟨hhas, h⟩ | ⟨-, h⟩
  · by_cases hout : output.location <+: l
    · rw [houter l hl hout]
      exact isDirectory_of_hasDirectory ((Disk.runs_makeDirectories h).2 (isEmpty_of_has hhas))
    · apply Disk.isDirectory_of_runs_makeDirectories h
      rw [isDirectory_iff, entry?_remove, if_neg fun h => hout h.2, isDirectory_iff.1 hdir]
  · exact Disk.isDirectory_of_runs_makeDirectories h hdir

end

/-- What is done in a directory leaves what is outside it as it was, and the directory in place. -/
structure StaysIn (out : Place) (t t' : FileTree) : Prop where
  same : t.SameOutside out.location t'
  directory : t'.hasDirectory out = true

theorem StaysIn.trans {out : Place} {t₁ t₂ t₃ : FileTree} (h : StaysIn out t₁ t₂)
    (h' : StaysIn out t₂ t₃) : StaysIn out t₁ t₃ :=
  ⟨h.same.trans h'.same, h'.directory⟩

/-- After work in the output the output is seen, and emptying it once more leads to the same. -/
theorem eq_of_runs_clearOutput_again {output : Place} {t₁ t₁' : FileTree} {u u' : Unit}
    (hseen : output.IsSeen t) (h : (clearOutput output).Runs t u t₁)
    (hstays : StaysIn output t₁ t') (h' : (clearOutput output).Runs t' u' t₁') : t₁' = t₁ := by
  refine eq_of_runs_clearOutput (Place.isSeen_of_hasDirectory hstays.directory) hseen ?_ h' h
  intro l hl hmade
  rw [← hstays.same l hl, (Disk.runs_makeDirectories (runs_clearOutput hseen h)).1, if_neg hmade,
    entry?_remove, if_neg fun h => hl h.2]

theorem runs_clearOutput_again {output : Place} {t₁ : FileTree} {u : Unit}
    (hseen : output.IsSeen t) (h : (clearOutput output).Runs t u t₁)
    (hstays : StaysIn output t₁ t') (hnamed : output.isNamed = true)
    (houter : ∀ l ∈ output.passed, ¬output.location <+: l) :
    (clearOutput output).Runs t' () t₁ := by
  have hmake := runs_clearOutput hseen h
  have hadds : (t.remove output.location).AddsDirectories (t'.remove output.location) := by
    intro l
    by_cases hl : output.location <+: l
    · left
      by_cases hnil : l = []
      · simp [hnil]
      · rw [entry?_remove, entry?_remove, if_pos ⟨hnil, hl⟩, if_pos ⟨hnil, hl⟩]
    · have hsame : FileTree.entry? (t'.remove output.location) l = t₁.entry? l := by
        rw [entry?_remove, if_neg fun h => hl h.2, hstays.same l hl]
      rw [isDirectory_iff, hsame, ← isDirectory_iff]
      exact Disk.addsDirectories_of_runs_makeDirectories hmake l
  obtain ⟨t₁', hmake'⟩ := Disk.exists_runs_makeDirectories hadds hmake
  have hclear : (clearOutput output).Runs t' () t₁' := by
    rw [clearOutput, Disk.runs_bind]
    refine ⟨t', t', Disk.runs_tree.2 ⟨rfl, rfl⟩, ?_⟩
    rw [if_pos (has_of_hasDirectory hstays.directory), Disk.runs_bind]
    exact ⟨(), _, Disk.runs_removeAll_of_hasDirectory hstays.directory hnamed houter, hmake'⟩
  rwa [← eq_of_runs_clearOutput_again hseen h hstays hclear]

theorem runs_writeOutput {out : Place} {way : Location} {text : String} {u : Unit}
    (h : (writeOutput out way text).Runs t u t') :
    (t.hasDirectory out = true → StaysIn out t t') ∧
      ∀ l, t'.file? l =
        if l = out.location ++ way then some (Text.encode text) else t.file? l := by
  refine ⟨fun hd => ⟨Disk.sameOutside_write h, Disk.hasDirectory_of_runs_write h hd⟩, ?_⟩
  intro l
  rw [Disk.file?_of_runs_write h, Place.location_below]

namespace Build

variable {b : Build}

def html (s : Settings) (r : Resolver) (route : Route) : String :=
  String.ofList (shellSegments.flatMap
    (Segment.text (shellBindings s r (route.assemble ⟨s, r⟩).value).value))

theorem document_eq (s : Settings) (r : Resolver) (route : Route) :
    (document s Templates.standard r (route.assemble ⟨s, r⟩).value).value = .ok (html s r route) :=
  Template.render_of_cuts cuts_shell (error?_shellBindings s r _)

def brokenCount (s : Settings) (r : Resolver) (route : Route) : Nat :=
  (unresolved (route.references s r)).length

theorem writePage_eq (r : Resolver) (route : Route) :
    b.writePage r route = do
      Disk.under BuildError.files do
        Disk.makeDirectories (b.output.below route.outputWay).parent
        writeOutput b.output route.outputWay (html b.settings r route)
      return brokenCount b.settings r route := by
  simp only [writePage, document_eq, unresolvedReferences_eq]
  rfl

theorem runs_writePage {r : Resolver} {route : Route} {n : Nat}
    (h : (b.writePage r route).Runs t n t') :
    n = brokenCount b.settings r route ∧
      (t.hasDirectory b.output = true → StaysIn b.output t t') ∧
      ∀ l, t'.file? l = if l = b.output.location ++ route.outputWay then
        some (Text.encode (html b.settings r route)) else t.file? l := by
  rw [writePage_eq, Disk.runs_bind] at h
  obtain ⟨_, t₁, hwork, h⟩ := h
  obtain ⟨rfl, rfl⟩ := Disk.runs_pure.1 h
  obtain ⟨_, t₂, hdirs, hwrite⟩ := Disk.runs_bind.1 (Disk.runs_under.1 hwork)
  obtain ⟨hstays, hfiles⟩ := runs_writeOutput hwrite
  refine ⟨rfl, ?_, ?_⟩
  · intro hd
    have hd₂ := Disk.hasDirectory_of_runs_makeDirectories hdirs hd
    exact StaysIn.trans ⟨Disk.sameOutside_makeDirectories hd hdirs, hd₂⟩ (hstays hd₂)
  · intro l
    rw [hfiles, Disk.file?_of_runs_makeDirectories hdirs]

theorem writePages_eq (r : Resolver) :
    b.writePages r = do
      let counts ← Disk.all (Route.all.map fun route => do
        Disk.under BuildError.files do
          Disk.makeDirectories (b.output.below route.outputWay).parent
          writeOutput b.output route.outputWay (html b.settings r route)
        return brokenCount b.settings r route)
      return counts.foldl Nat.add 0 := by
  rw [writePages, funext (writePage_eq r)]

theorem runs_writePages {r : Resolver} {n : Nat} (h : (b.writePages r).Runs t n t') :
    n = brokenCount b.settings r .home + brokenCount b.settings r .community ∧
      (t.hasDirectory b.output = true → StaysIn b.output t t') ∧
      ∀ l, t'.file? l =
        if l = b.output.location ++ Route.community.outputWay then
          some (Text.encode (html b.settings r .community))
        else if l = b.output.location ++ Route.home.outputWay then
          some (Text.encode (html b.settings r .home))
        else t.file? l := by
  rw [writePages, Disk.runs_bind] at h
  obtain ⟨counts, t₂, hall, h⟩ := h
  obtain ⟨rfl, rfl⟩ := Disk.runs_pure.1 h
  obtain ⟨n₁, t₁, ns, hhome, hrest, rfl⟩ := Disk.runs_mapM_cons.1 (Disk.runs_all hall)
  obtain ⟨n₂, t₃, ns', hcommunity, hnil, rfl⟩ := Disk.runs_mapM_cons.1 hrest
  obtain ⟨rfl, rfl⟩ := Disk.runs_mapM_nil.1 hnil
  obtain ⟨rfl, hstays, hfiles⟩ := runs_writePage hhome
  obtain ⟨rfl, hstays', hfiles'⟩ := runs_writePage hcommunity
  refine ⟨?_, ?_, ?_⟩
  · simp
  · intro hd
    exact (hstays hd).trans (hstays' (hstays hd).directory)
  · intro l
    rw [hfiles', hfiles]

theorem runs_writeSitemap {date : Calendar.Date} {u : Unit}
    (h : (b.writeSitemap date).Runs t u t') :
    (t.hasDirectory b.output = true → StaysIn b.output t t') ∧
      ∀ l, t'.file? l =
        if b.settings.sitemap.enabled = true ∧ l = b.output.location ++ sitemapWay then
          some (Text.encode (sitemap b.settings (some date) Route.all))
        else t.file? l := by
  unfold writeSitemap at h
  split at h
  · rename_i henabled
    obtain ⟨hstays, hfiles⟩ := runs_writeOutput (Disk.runs_under.1 h)
    refine ⟨hstays, fun l => ?_⟩
    rw [hfiles]
    simp [henabled]
  · rename_i hdisabled
    obtain ⟨-, rfl⟩ := Disk.runs_pure.1 h
    refine ⟨fun hd => ⟨fun _ _ => rfl, hd⟩, fun l => ?_⟩
    rw [if_neg fun h => hdisabled h.1]

theorem runs_deployAssets {static : Place} {m : Manifest}
    (h : (b.deployAssets static).Runs t m t') :
    ∃ t₁, (deploy { enabled := b.settings.build.fingerprint } static b.output).Runs t m t₁ ∧
      (t₁.hasDirectory b.output = true → StaysIn b.output t₁ t') ∧
      ∀ l, t'.file? l = if l = b.output.location ++ manifestWay then
        some (Text.encode m.json) else t₁.file? l := by
  rw [deployAssets, Disk.runs_bind] at h
  obtain ⟨m', t₁, hdeploy, h⟩ := h
  obtain ⟨_, t₂, hwrite, h⟩ := Disk.runs_bind.1 h
  obtain ⟨rfl, rfl⟩ := Disk.runs_pure.1 h
  exact ⟨t₁, Disk.runs_under.1 hdeploy, runs_writeOutput (Disk.runs_under.1 hwrite)⟩

theorem runs_manifest?_cases {m : Option Manifest} (h : b.manifest?.Runs t m t') :
    b.static = none ∧ m = none ∧ t = t' ∨
      ∃ static m', b.static = some static ∧ m = some m' ∧ (b.deployAssets static).Runs t m' t' := by
  unfold manifest? at h
  cases hs : b.static with
  | none =>
    rw [hs] at h
    obtain ⟨rfl, rfl⟩ := Disk.runs_pure.1 h
    exact Or.inl ⟨rfl, rfl, rfl⟩
  | some static =>
    rw [hs] at h
    obtain ⟨m', t₁, hdeploy, h⟩ := Disk.runs_bind.1 h
    obtain ⟨rfl, rfl⟩ := Disk.runs_pure.1 h
    exact Or.inr ⟨static, m', rfl, rfl, hdeploy⟩

theorem exists_runs_writeSitemap {date : Calendar.Date} {u : Unit} (day : Calendar.Date)
    (h : (b.writeSitemap date).Runs t u t') : ∃ t'', (b.writeSitemap day).Runs t () t'' := by
  unfold writeSitemap at h ⊢
  by_cases henabled : b.settings.sitemap.enabled = true
  · rw [if_pos henabled] at h ⊢
    obtain ⟨t'', hwrite⟩ := Disk.exists_runs_write
      (Text.encode (sitemap b.settings (some day) Route.all)) (Disk.runs_under.1 h)
    exact ⟨t'', Disk.runs_under.2 hwrite⟩
  · rw [if_neg henabled]
    exact ⟨t, Disk.runs_pure.2 ⟨rfl, rfl⟩⟩

theorem runs_run {date : Calendar.Date} {report : BuildReport} :
    (b.run date).Runs t report t' ↔
      (∃ valid, b.settings.checkBuild = .ok valid) ∧
      ∃ t₁ m t₂ t₃, (clearOutput b.output).Runs t () t₁ ∧ b.manifest?.Runs t₁ m t₂ ∧
        (b.writePages (b.resolver m)).Runs t₂ report.brokenReferences t₃ ∧
        (b.writeSitemap date).Runs t₃ () t' ∧ report.pages = Route.all.length ∧
        report.assets = (m.map Manifest.size).getD 0 := by
  simp only [run, Disk.runs_bind, Disk.runs_ofExcept, Disk.runs_under, Disk.runs_pure]
  constructor
  · rintro ⟨valid, _, ⟨hvalid, rfl⟩, _, t₁, hclear, m, t₂, hmanifest, n, t₃, hpages, _, _,
      hsitemap, rfl, rfl⟩
    refine ⟨⟨valid, hvalid⟩, t₁, m, t₂, t₃, hclear, hmanifest, hpages, hsitemap, rfl, ?_⟩
    cases m <;> rfl
  · rintro ⟨⟨valid, hvalid⟩, t₁, m, t₂, t₃, hclear, hmanifest, hpages, hsitemap, hcount, hsize⟩
    refine ⟨valid, t, ⟨hvalid, rfl⟩, (), t₁, hclear, m, t₂, hmanifest, _, t₃, hpages, (), t',
      hsitemap, ?_, rfl⟩
    obtain ⟨pages, assets, broken⟩ := report
    subst hcount hsize
    cases m <;> rfl

end Build

end StaticSite
