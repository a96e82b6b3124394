import StaticSite.Proofs.Asset.Deploy
import StaticSite.Proofs.Resolver

/-!
# References to deployed assets

The name of an asset is the way to its file, and so is the path under which it is deployed: neither
begins with a slash. A reference loses blanks at its ends before it is looked up, and the names in
a manifest keep theirs. So an asset can be referred to by its name if and only if no blank stands at
an end of the name; a reference by another name fails, or it leads to another asset.
-/

namespace StaticSite

theorem siteRelative_slashPath {way : Location} (hne : way ≠ [])
    (hn : way.all isFileName = true) : siteRelative (slashPath way) = slashPath way := by
  obtain ⟨c, cs, hc, hslash⟩ := exists_toList_slashPath hne hn
  exact siteRelative_eq_self (by rw [hc]; simpa using hslash)

theorem slashPath_ne_empty {way : Location} (hne : way ≠ []) (hn : way.all isFileName = true) :
    slashPath way ≠ "" := by
  obtain ⟨c, cs, hc, -⟩ := exists_toList_slashPath hne hn
  rintro h
  rw [h] at hc
  cases hc

/-- Every asset is a file, named by the way to it, and deployed under the way to its copy. -/
def Manifest.Lists (m : Manifest) (f : Fingerprinting) : Prop :=
  ∀ e ∈ m.entries, ∃ way bytes, way ≠ [] ∧ way.all isFileName = true ∧
    (deployedWay f way bytes).all isFileName = true ∧
      e = (slashPath way, slashPath (deployedWay f way bytes))

namespace Manifest

variable {f : Fingerprinting}

theorem lists_empty : empty.Lists f := by
  intro e he
  cases he

theorem Lists.add {m : Manifest} (hm : m.Lists f) {way : Location} {bytes : List UInt8}
    (hne : way ≠ []) (hn : way.all isFileName = true)
    (hd : (deployedWay f way bytes).all isFileName = true) :
    (m.add (slashPath way) (slashPath (deployedWay f way bytes))).Lists f := by
  intro e he
  rcases SortedMap.mem_insertEntry he with rfl | he
  · exact ⟨way, bytes, hne, hn, hd, rfl⟩
  · exact hm e he

end Manifest

theorem Disk.all_isFileName_of_runs_copy {source dest : Place} {t t' : FileTree} {u : Unit}
    (h : (Disk.copy source dest).Runs t u t') : dest.location.all isFileName = true := by
  rw [Disk.copy, Disk.runs_bind] at h
  obtain ⟨_, t₁, -, h⟩ := h
  rw [Disk.runs_bind] at h
  obtain ⟨_, t₂, -, h⟩ := h
  rw [Disk.runs_bind] at h
  obtain ⟨bytes, t₃, -, hwrite⟩ := h
  exact (Disk.runs_write hwrite).1

section

variable {f : Fingerprinting} {source dest : Place} {t t' : FileTree} {m m' : Manifest}

theorem lists_of_runs_deployFile {way : Location} (hm : m.Lists f) (hne : way ≠ [])
    (hn : way.all isFileName = true) (h : (deployFile f source dest m way).Runs t m' t') :
    m'.Lists f := by
  rw [deployFile, Disk.runs_bind] at h
  obtain ⟨_, t₁, -, h⟩ := h
  rw [Disk.runs_bind] at h
  obtain ⟨bytes, t₂, -, h⟩ := h
  rw [Disk.runs_bind] at h
  obtain ⟨_, t₃, hcopy, h⟩ := h
  obtain ⟨rfl, -⟩ := Disk.runs_pure.1 h
  -- The copy was written, so its names are proper ones.
  have hnames := Disk.all_isFileName_of_runs_copy hcopy
  rw [Place.location_below, List.all_append, Bool.and_eq_true] at hnames
  exact hm.add hne hn hnames.2

theorem lists_of_runs_deployFiles {ways : List Location} (hm : m.Lists f)
    (hne : ∀ way ∈ ways, way ≠ []) (hn : ∀ way ∈ ways, way.all isFileName = true)
    (h : (ways.foldlM (deployFile f source dest) m).Runs t m' t') : m'.Lists f := by
  induction ways generalizing m t with
  | nil =>
    obtain ⟨rfl, -⟩ := Disk.runs_foldlM_nil.1 h
    exact hm
  | cons way ways ih =>
    obtain ⟨m₁, t₁, hstep, hrest⟩ := Disk.runs_foldlM_cons.1 h
    rw [List.forall_mem_cons] at hne hn
    exact ih (lists_of_runs_deployFile hm hne.1 hn.1 hstep) hne.2 hn.2 hrest

theorem lists_of_runs_deploy (h : (deploy f source dest).Runs t m t') : m.Lists f := by
  rw [deploy, Disk.runs_bind] at h
  obtain ⟨_, _, htree, h⟩ := h
  obtain ⟨rfl, rfl⟩ := Disk.runs_tree.1 htree
  rw [Disk.runs_bind] at h
  obtain ⟨ways, t₀, hfound, h⟩ := h
  obtain ⟨hways, -⟩ := Disk.runs_liftM.1 hfound
  exact lists_of_runs_deployFiles Manifest.lists_empty
    (fun way hway => ne_nil_of_mem_sourceFiles hways hway)
    (fun way hway => all_isFileName_of_mem_sourceFiles hways hway) h

theorem deployedWay_of_disabled (hf : f.enabled = false) (way : Location) (bytes : List UInt8) :
    deployedWay f way bytes = way := by
  cases way using List.reverseRecOn with
  | nil => rfl
  | append_singleton dir name =>
    have happlies : ¬f.appliesTo name = true := fun h => by
      rw [Fingerprinting.appliesTo_iff, hf] at h
      cases h.1
    rw [deployedWay_concat, Fingerprinting.deployedName_of_not_appliesTo happlies]

theorem lists_of_scan (h : scan t source = .ok m) : m.Lists { enabled := false } := by
  rw [scan] at h
  cases hways : sourceFiles t source with
  | error e =>
    rw [hways] at h
    cases h
  | ok ways =>
    rw [hways] at h
    obtain rfl := Except.ok.inj h
    have hne : ∀ way ∈ ways, way ≠ [] := fun way hway => ne_nil_of_mem_sourceFiles hways hway
    have hn : ∀ way ∈ ways, way.all isFileName = true :=
      fun way hway => all_isFileName_of_mem_sourceFiles hways hway
    have hperm := Manifest.entries_ofWays_perm (g := id) (nodup_of_sourceFiles hways) hne hn
    intro e he
    obtain ⟨way, hway, rfl⟩ := List.mem_map.1 (hperm.mem_iff.1 he)
    have hsame : deployedWay { enabled := false } way [] = way := deployedWay_of_disabled rfl way []
    refine ⟨way, [], hne way hway, hn way hway, ?_, ?_⟩
    · rw [hsame]
      exact hn way hway
    · rw [hsame]
      rfl

end

theorem trim_of_logicalName {name : String} (h : Resolver.logicalName name = name) :
    Text.trim name = name := by
  have htrim : (Text.trim name).toList.Sublist name.toList := Text.sublist_trimBoth _ name
  have hlogical : name.toList.Sublist (Text.trim name).toList := by
    rw [Resolver.logicalName, siteRelative] at h
    conv_lhs => rw [← h, Text.toList_trimStart]
    exact List.dropWhile_sublist _
  exact String.toList_inj.1 (htrim.antisymm hlogical)

namespace Manifest

variable {f : Fingerprinting} {m : Manifest} (hm : m.Lists f)

include hm

theorem Lists.assets_restrict (r : Resolver) : (m.restrict r).assets = some m.entries := by
  have hsame : ∀ e ∈ m.entries, (siteRelative e.1, siteRelative e.2) = e := by
    intro e he
    obtain ⟨way, bytes, hne, hn, hd, rfl⟩ := hm e he
    rw [siteRelative_slashPath hne hn, siteRelative_slashPath (deployedWay_ne_nil hne) hd]
  rw [restrict, Resolver.restrict]
  simp only [List.map_congr_left hsame, List.map_id']

theorem Lists.name_ne_empty {name deployed : String} (h : (name, deployed) ∈ m.entries) :
    name ≠ "" := by
  obtain ⟨way, bytes, hne, hn, -, he⟩ := hm _ h
  rw [(Prod.mk.inj he).1]
  exact slashPath_ne_empty hne hn

theorem Lists.siteRelative_name {name deployed : String} (h : (name, deployed) ∈ m.entries) :
    siteRelative name = name := by
  obtain ⟨way, bytes, hne, hn, -, he⟩ := hm _ h
  rw [(Prod.mk.inj he).1]
  exact siteRelative_slashPath hne hn

/-- Different files are deployed under different paths. -/
theorem Lists.eq_of_deployed_eq {d e : String × String} (hd : d ∈ m.entries) (he : e ∈ m.entries)
    (h : d.2 = e.2) : d = e := by
  obtain ⟨way, bytes, hne, hn, hdn, rfl⟩ := hm d hd
  obtain ⟨way', bytes', hne', hn', hdn', rfl⟩ := hm e he
  obtain rfl := eq_of_slashPath_deployedWay hne hne' hdn hdn' h
  exact Prod.ext rfl h

theorem Lists.asset_of_mem (r : Resolver) {name deployed : String}
    (h : (Resolver.logicalName name, deployed) ∈ m.entries) :
    (m.restrict r).asset name = .url (r.basePath ++ deployed) := by
  have hne : Resolver.logicalName name ≠ "" := hm.name_ne_empty h
  have hkeys : (m.entries.map Prod.fst).Nodup := m.assets.nodup_keys
  have hlookup : Resolver.deployed? m.entries (Resolver.logicalName name) = some deployed := by
    rw [Resolver.deployed?, SortedMap.lookup_reverse hkeys, SortedMap.lookup_eq_some_iff_mem hkeys]
    exact h
  rw [Resolver.asset]
  simp only [if_neg hne, hm.assets_restrict r, hlookup]
  rfl

theorem Lists.asset_of_not_mem (r : Resolver) {name : String}
    (h : Resolver.logicalName name ∉ m.entries.map Prod.fst) :
    (m.restrict r).asset name = .broken name := by
  have hlookup : Resolver.deployed? m.entries (Resolver.logicalName name) = none := by
    rw [Resolver.deployed?, List.lookup_eq_none_iff]
    intro e he
    have hkey : Resolver.logicalName name ≠ e.1 := fun hk =>
      h (hk ▸ List.mem_map_of_mem (List.mem_reverse.1 he))
    simpa using hkey
  rw [Resolver.asset]
  simp only [hm.assets_restrict r, hlookup]
  split <;> rfl

end Manifest

/-- The manifests that are made from static files: by deploying them, or by looking at them. -/
inductive Manifest.OfFiles : Manifest → Prop
  | deployed {f : Fingerprinting} {source dest : Place} {t t' : FileTree} {m : Manifest}
    (h : (deploy f source dest).Runs t m t') : OfFiles m
  | scanned {t : FileTree} {source : Place} {m : Manifest} (h : scan t source = .ok m) : OfFiles m

/-- An asset resolves to its deployed path below the base path, if and only if its name has no blanks
at its ends. With blanks it fails to resolve, or it resolves to another asset: the one, if there is
one, that is named by what the reference is looked up as. -/
theorem asset_resolves_iff_trimmed {m : Manifest} (hm : m.OfFiles) (base : String)
    {e : String × String} (he : e ∈ m.entries) :
    let resolver := m.restrict (.ofBase base)
    (resolver.asset e.1 = .url ((Resolver.ofBase base).basePath ++ e.2) ↔ Text.trim e.1 = e.1) ∧
      (Text.trim e.1 ≠ e.1 →
        resolver.asset e.1 = .broken e.1 ∨ ∃ d ∈ m.entries,
          d.1 = Resolver.logicalName e.1 ∧ d.2 ≠ e.2 ∧
            resolver.asset e.1 = .url ((Resolver.ofBase base).basePath ++ d.2)) := by
  intro resolver
  obtain ⟨f, hlists⟩ : ∃ f, m.Lists f := by
    cases hm with
    | deployed h => exact ⟨_, lists_of_runs_deploy h⟩
    | scanned h => exact ⟨_, lists_of_scan h⟩
  have hother : Text.trim e.1 ≠ e.1 →
      resolver.asset e.1 = .broken e.1 ∨ ∃ d ∈ m.entries,
        d.1 = Resolver.logicalName e.1 ∧ d.2 ≠ e.2 ∧
          resolver.asset e.1 = .url ((Resolver.ofBase base).basePath ++ d.2) := by
    intro htrim
    by_cases hmem : Resolver.logicalName e.1 ∈ m.entries.map Prod.fst
    · obtain ⟨d, hd, hname⟩ := List.mem_map.1 hmem
      refine .inr ⟨d, hd, hname, ?_, hlists.asset_of_mem _ (by rw [← hname]; exact hd)⟩
      -- The other file is not deployed as this one: then it would be this one, and nothing trimmed.
      intro hsame
      obtain rfl := hlists.eq_of_deployed_eq hd he hsame
      exact htrim (trim_of_logicalName hname.symm)
    · exact .inl (hlists.asset_of_not_mem _ hmem)
  refine ⟨⟨fun h => ?_, fun htrim => ?_⟩, hother⟩
  · by_contra htrim
    rcases hother htrim with hbroken | ⟨d, -, -, hne, hd⟩
    · rw [hbroken] at h
      cases h
    · rw [hd] at h
      exact hne ((String.append_right_inj _).1 (Resolved.url.inj h))
  · refine hlists.asset_of_mem _ ?_
    rw [Resolver.logicalName, htrim, hlists.siteRelative_name he]
    exact he

/-- A picture that is deployed under another name, and a file with a blank before its name. -/
theorem asset_resolves_iff_trimmed_picture :
    let t := FileTree.ofRecords
      [(["s"], .directory), (["s", " robots"], .file []), (["s", "img"], .directory),
        (["s", "img", "a.min.png"], .file [97]), (["d"], .directory)]
    let work := deploy { enabled := true } (Path.place [] "s") (Path.place [] "d")
    ∃ m t', work.Runs t m t' ∧ m.OfFiles ∧
      m.entries = [(" robots", " robots"), ("img/a.min.png", "img/a.min.af63dc4c.png")] ∧
      Text.trim "img/a.min.png" = "img/a.min.png" ∧
      (m.restrict (.ofBase "site")).asset "img/a.min.png" =
        .url ("/site/" ++ "img/a.min.af63dc4c.png") ∧
      (m.restrict (.ofBase "site")).asset " robots" ≠ .url ("/site/" ++ " robots") := by
  intro t work
  have hentries : (work.outcome t).1.toOption.map Manifest.entries =
      some [(" robots", " robots"), ("img/a.min.png", "img/a.min.af63dc4c.png")] := by
    decide +kernel
  obtain ⟨m, hm, he⟩ := Option.map_eq_some_iff.1 hentries
  have hrun : work.Runs t m (work.outcome t).2 := Disk.runs_of_outcome hm
  have hbase : (Resolver.ofBase "site").basePath = "/site/" := by decide +kernel
  have hpicture := (asset_resolves_iff_trimmed (.deployed hrun) "site"
    (e := ("img/a.min.png", "img/a.min.af63dc4c.png")) (by simp [he])).1
  have hrobots := (asset_resolves_iff_trimmed (.deployed hrun) "site"
    (e := (" robots", " robots")) (by simp [he])).1
  rw [hbase] at hpicture hrobots
  have htrim : Text.trim "img/a.min.png" = "img/a.min.png" := by decide +kernel
  have hblank : Text.trim " robots" ≠ " robots" := by decide +kernel
  exact ⟨m, _, hrun, .deployed hrun, he, htrim, hpicture.2 htrim, fun h => hblank (hrobots.1 h)⟩

/-- Files with a blank at the start of their names are listed, but the name of the one is broken, and
the name of the other one leads to another file. -/
theorem asset_with_blank_is_lost :
    let t := FileTree.ofRecords
      [(["s"], .directory), (["s", " "], .directory), (["s", " ", "x"], .file [1]),
        (["s", " a.png"], .file []), (["s", "x"], .file [])]
    ∃ m, scan t (Path.place [] "s") = .ok m ∧
      m.entries = [(" /x", " /x"), (" a.png", " a.png"), ("x", "x")] ∧
      (m.restrict (.ofBase "/")).asset " a.png" = .broken " a.png" ∧
      (m.restrict (.ofBase "/")).asset " /x" = .url ("/" ++ "x") := by
  intro t
  have hscan : (scan t (Path.place [] "s")).toOption.map (fun m =>
      (m.entries, (m.restrict (.ofBase "/")).asset " a.png",
        (m.restrict (.ofBase "/")).asset " /x")) =
      some ([(" /x", " /x"), (" a.png", " a.png"), ("x", "x")], .broken " a.png",
        .url ("/" ++ "x")) := by
    decide +kernel
  obtain ⟨m, hm, he⟩ := Option.map_eq_some_iff.1 hscan
  obtain ⟨hentries, hrest⟩ := Prod.mk.inj he
  obtain ⟨hbroken, hother⟩ := Prod.mk.inj hrest
  exact ⟨m, eq_ok_of_toOption hm, hentries, hbroken, hother⟩

end StaticSite
