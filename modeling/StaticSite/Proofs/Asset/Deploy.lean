import Mathlib.Data.Set.Card
import StaticSite.Asset.Deploy
import StaticSite.Command.Snapshot
import StaticSite.Proofs.Asset.Fingerprint
import StaticSite.Proofs.Asset.Manifest
import StaticSite.Proofs.Files.Disk
import StaticSite.Proofs.Files.Path
import StaticSite.Proofs.SortedMap

/-!
# Deployed assets

Deploying goes through the visible files of the source once. Each step copies one file and adds one
entry to the manifest, and no step touches what another one has made, because neither the logical
names nor the deployed paths of two files are the same.
-/

namespace StaticSite

theorem deployedWay_concat (f : Fingerprinting) (dir : Location) (name : String)
    (bytes : List UInt8) :
    deployedWay f (dir ++ [name]) bytes = dir ++ [f.deployedName name bytes] := by
  simp [deployedWay]

theorem deployedWay_ne_nil {f : Fingerprinting} {way : Location} {bytes : List UInt8}
    (h : way ≠ []) : deployedWay f way bytes ≠ [] := by
  rw [← List.dropLast_append_getLast h, deployedWay_concat]
  simp

/-- Different files are deployed at different places, whatever is in them. -/
theorem eq_of_deployedWay_eq {f : Fingerprinting} {way way' : Location} {bytes bytes' : List UInt8}
    (hne : way ≠ []) (hne' : way' ≠ [])
    (h : deployedWay f way bytes = deployedWay f way' bytes') : way = way' := by
  rw [← List.dropLast_append_getLast hne, ← List.dropLast_append_getLast hne'] at h ⊢
  rw [deployedWay_concat, deployedWay_concat] at h
  obtain ⟨hdir, hname⟩ := List.append_inj' h rfl
  rw [hdir, Fingerprinting.eq_of_deployedName_eq (List.singleton_inj.1 hname)]

/-- A deployment from a place sees a file at the end of a way: no name on the way is hidden, and the
path to the file can be used. -/
structure FileTree.Sees (t : FileTree) (source : Place) (way : Location) (bytes : List UInt8) :
    Prop where
  file : t.file? (source.location ++ way) = some bytes
  visible : ∀ name ∈ way, isHidden name = false
  usable : (source.below way).isUsable = true

namespace FileTree

theorem all_isFileName_of_file? {t : FileTree} {loc way : Location} {bytes : List UInt8}
    (h : t.file? (loc ++ way) = some bytes) : way.all isFileName = true := by
  have hall := all_isFileName (Option.ne_none_iff_exists'.2 ⟨_, file?_eq_some_iff.1 h⟩)
  rw [List.all_append, Bool.and_eq_true] at hall
  exact hall.2

theorem sees_place_iff {t : FileTree} {workDir way : Location} {path : String} {bytes : List UInt8}
    (hne : way ≠ []) : t.Sees (Path.place workDir path) way bytes ↔
      t.file? ((Path.place workDir path).location ++ way) = some bytes ∧
        (∀ name ∈ way, isHidden name = false) ∧
        (Path.join path (slashPath way)).utf8ByteSize < 4096 ∧
        '\x00' ∉ (Path.join path (slashPath way)).toList := by
  have husable : way.all isFileName = true →
      (((Path.place workDir path).below way).isUsable = true ↔
        (Path.join path (slashPath way)).utf8ByteSize < 4096 ∧
          '\x00' ∉ (Path.join path (slashPath way)).toList) := by
    intro hn
    rw [← Path.place_join hne hn, Path.isUsable_place_iff]
  constructor
  · rintro ⟨hfile, hvisible, hlimit⟩
    exact ⟨hfile, hvisible, (husable (all_isFileName_of_file? hfile)).1 hlimit⟩
  · rintro ⟨hfile, hvisible, hlimit⟩
    exact ⟨hfile, hvisible, (husable (all_isFileName_of_file? hfile)).2 hlimit⟩

def isVisibleFile (d : Location × Entry) : Bool := d.2 ≠ .directory && !d.1.any isHidden

theorem visibleFiles_eq (t : FileTree) (loc : Location) :
    t.visibleFiles loc = ((t.below loc).filter isVisibleFile).map Prod.fst := by
  unfold visibleFiles
  induction t.below loc with
  | nil => rfl
  | cons d l ih =>
    obtain ⟨way, e⟩ := d
    rw [List.filterMap_cons, ih]
    cases e with
    | directory => simp [isVisibleFile]
    | file bytes =>
      cases hhidden : way.any isHidden <;> simp [isVisibleFile, hhidden]

theorem mem_visibleFiles_iff {t : FileTree} {loc way : Location} :
    way ∈ t.visibleFiles loc ↔ way ≠ [] ∧ (∃ bytes, t.file? (loc ++ way) = some bytes) ∧
      ∀ name ∈ way, isHidden name = false := by
  rw [visibleFiles_eq, List.mem_map]
  constructor
  · rintro ⟨⟨w, e⟩, hmem, rfl⟩
    obtain ⟨hbelow, hvisible⟩ := List.mem_filter.1 hmem
    obtain ⟨hne, he⟩ := mem_below_iff.1 hbelow
    cases e with
    | directory => cases hvisible
    | file bytes =>
      exact ⟨hne, ⟨bytes, file?_eq_some_iff.2 he⟩, by simpa [isVisibleFile] using hvisible⟩
  · rintro ⟨hne, ⟨bytes, hfile⟩, hvisible⟩
    have hbelow := mem_below_iff.2 ⟨hne, file?_eq_some_iff.1 hfile⟩
    have hkept : isVisibleFile (way, .file bytes) = true := by simpa [isVisibleFile] using hvisible
    exact ⟨(way, .file bytes), List.mem_filter.2 ⟨hbelow, hkept⟩, rfl⟩

theorem nodup_visibleFiles (t : FileTree) (loc : Location) : (t.visibleFiles loc).Nodup := by
  rw [visibleFiles_eq]
  exact (t.nodup_ways_below loc).sublist (List.filter_sublist.map Prod.fst)

end FileTree

section

variable {t : FileTree} {source : Place} {ways : List Location}

theorem sourceFiles_of_hasDirectory (h : t.hasDirectory source = true) :
    sourceFiles t source = .ok
      ((t.visibleFiles source.location).filter fun way => (source.below way).isUsable) := by
  rw [sourceFiles, FileTree.has_of_hasDirectory h, h]
  rfl

theorem sourceFiles_eq_ok (h : sourceFiles t source = .ok ways) :
    ways = [] ∨ ways =
      (t.visibleFiles source.location).filter fun way => (source.below way).isUsable := by
  unfold sourceFiles at h
  split at h
  · exact Or.inl (Except.ok.inj h).symm
  · split at h
    · exact Or.inr (Except.ok.inj h).symm
    · cases h

theorem nodup_of_sourceFiles (h : sourceFiles t source = .ok ways) : ways.Nodup := by
  rcases sourceFiles_eq_ok h with rfl | rfl
  · exact List.nodup_nil
  · exact (t.nodup_visibleFiles _).filter _

theorem ne_nil_of_mem_sourceFiles (h : sourceFiles t source = .ok ways) {way : Location}
    (hway : way ∈ ways) : way ≠ [] := by
  rcases sourceFiles_eq_ok h with rfl | rfl
  · cases hway
  · exact (FileTree.mem_visibleFiles_iff.1 (List.mem_filter.1 hway).1).1

theorem sees_of_mem_sourceFiles (h : sourceFiles t source = .ok ways) {way : Location}
    (hway : way ∈ ways) : t.Sees source way (t.content (source.location ++ way)) := by
  rcases sourceFiles_eq_ok h with rfl | rfl
  · cases hway
  · obtain ⟨hmem, husable⟩ := List.mem_filter.1 hway
    obtain ⟨-, ⟨bytes, hfile⟩, hvisible⟩ := FileTree.mem_visibleFiles_iff.1 hmem
    exact ⟨by rw [FileTree.content_of_file? hfile, hfile], hvisible, husable⟩

theorem all_isFileName_of_mem_sourceFiles (h : sourceFiles t source = .ok ways) {way : Location}
    (hway : way ∈ ways) : way.all isFileName = true :=
  FileTree.all_isFileName_of_file? (sees_of_mem_sourceFiles h hway).file

theorem mem_sourceFiles_iff (hsource : t.hasDirectory source = true)
    (h : sourceFiles t source = .ok ways) {way : Location} :
    way ∈ ways ↔ ∃ bytes, t.Sees source way bytes := by
  constructor
  · intro hway
    exact ⟨_, sees_of_mem_sourceFiles h hway⟩
  · rintro ⟨bytes, hfile, hvisible, husable⟩
    have hne : way ≠ [] := by
      rintro rfl
      have hdir := FileTree.file?_of_isDirectory (FileTree.isDirectory_of_hasDirectory hsource)
      rw [List.append_nil, hdir] at hfile
      cases hfile
    rw [sourceFiles_of_hasDirectory hsource] at h
    rw [← Except.ok.inj h]
    exact List.mem_filter.2
      ⟨FileTree.mem_visibleFiles_iff.2 ⟨hne, ⟨bytes, hfile⟩, hvisible⟩, husable⟩

end

namespace Manifest

def ofWays (g : Location → Location) (ways : List Location) : Manifest :=
  ways.foldl (fun m way => m.add (slashPath way) (slashPath (g way))) .empty

theorem entries_ofWays_perm {g : Location → Location} {ways : List Location} (hn : ways.Nodup)
    (hne : ∀ way ∈ ways, way ≠ []) (hnames : ∀ way ∈ ways, way.all isFileName = true) :
    (ofWays g ways).entries.Perm (ways.map fun way => (slashPath way, slashPath (g way))) := by
  rw [entries, ofWays, assets_foldl_add]
  apply SortedMap.entries_ofList_perm
  rw [List.map_map]
  refine hn.map_on ?_
  intro way hway way' hway' he
  exact slashPath_inj (hne way hway) (hne way' hway') (hnames way hway) (hnames way' hway') he

theorem mem_keys_ofWays {t : FileTree} {source : Place} {ways : List Location}
    (h : sourceFiles t source = .ok ways) (g : Location → Location) (name : String) :
    name ∈ (ofWays g ways).entries.map Prod.fst ↔ ∃ way ∈ ways, slashPath way = name := by
  have hperm := entries_ofWays_perm (g := g) (nodup_of_sourceFiles h)
    (fun way hway => ne_nil_of_mem_sourceFiles h hway)
    (fun way hway => all_isFileName_of_mem_sourceFiles h hway)
  rw [(hperm.map Prod.fst).mem_iff, List.map_map, List.mem_map]
  rfl

end Manifest

/-- The way below the output to the copy of a file that stands in a tree. -/
def FileTree.copyWay (t : FileTree) (f : Fingerprinting) (source : Place) (way : Location) :
    Location :=
  deployedWay f way (t.content (source.location ++ way))

section

variable {f : Fingerprinting} {source dest : Place} {t t' : FileTree} {m m' : Manifest}

theorem runs_deployFile {way : Location} (hapart : source.Apart dest)
    (h : (deployFile f source dest m way).Runs t m' t') :
    m' = m.add (slashPath way) (slashPath (t.copyWay f source way)) ∧
      (∀ l, t'.file? l = if l = dest.location ++ t.copyWay f source way then
        some (t.content (source.location ++ way)) else t.file? l) ∧
      (t.hasDirectory dest = true → t.SameOutside dest.location t' ∧
        t'.hasDirectory dest = true) := by
  rw [deployFile, Disk.runs_bind] at h
  obtain ⟨_, _, htree, h⟩ := h
  obtain ⟨rfl, rfl⟩ := Disk.runs_tree.1 htree
  rw [Disk.runs_bind] at h
  obtain ⟨bytes, t₀, hbytes, h⟩ := h
  obtain ⟨hread, rfl⟩ := Disk.runs_liftM.1 hbytes
  have hfile := (FileTree.read_eq_ok hread).2
  rw [Place.location_below] at hfile
  obtain rfl := FileTree.content_of_file? hfile
  rw [Disk.runs_bind] at h
  obtain ⟨_, t₂, hcopy, h⟩ := h
  obtain ⟨rfl, rfl⟩ := Disk.runs_pure.1 h
  have hne : (source.below way).location ≠
      (dest.below (deployedWay f way (t.content (source.location ++ way)))).location := by
    rw [Place.location_below, Place.location_below]
    exact hapart.ne _ _
  obtain ⟨bytes, t₁, hcopied, hdirs, hwrite⟩ := Disk.runs_copy hne hcopy
  rw [Place.location_below, hfile] at hcopied
  obtain rfl := Option.some.inj hcopied
  refine ⟨rfl, ?_, ?_⟩
  · intro l
    rw [Disk.file?_of_runs_write hwrite, Disk.file?_of_runs_makeDirectories hdirs,
      Place.location_below]
    rfl
  · intro hd
    have hsame := Disk.sameOutside_makeDirectories hd hdirs
    exact ⟨hsame.trans (Disk.sameOutside_write hwrite), Disk.hasDirectory_of_runs_write hwrite
      (Disk.hasDirectory_of_runs_makeDirectories hdirs hd)⟩

/-- The files are copied one after another; none of the copies takes the place of another one. -/
theorem runs_deployFiles {ways : List Location} (hapart : source.Apart dest) (hn : ways.Nodup)
    (hne : ∀ way ∈ ways, way ≠ [])
    (h : (ways.foldlM (deployFile f source dest) m).Runs t m' t') :
    m' = ways.foldl
        (fun m way => m.add (slashPath way) (slashPath (t.copyWay f source way))) m ∧
      (∀ l bytes, t'.file? l = some bytes ↔
        (∃ way ∈ ways, l = dest.location ++ t.copyWay f source way ∧
          bytes = t.content (source.location ++ way)) ∨
        (∀ way ∈ ways, l ≠ dest.location ++ t.copyWay f source way) ∧ t.file? l = some bytes) ∧
      (t.hasDirectory dest = true → t.SameOutside dest.location t' ∧
        t'.hasDirectory dest = true) := by
  induction ways generalizing m t with
  | nil =>
    obtain ⟨rfl, rfl⟩ := Disk.runs_foldlM_nil.1 h
    exact ⟨rfl, by simp, fun hd => ⟨fun _ _ => rfl, hd⟩⟩
  | cons way ways ih =>
    obtain ⟨m₁, t₁, hstep, hrest⟩ := Disk.runs_foldlM_cons.1 h
    obtain ⟨rfl, hfiles, hframe⟩ := runs_deployFile hapart hstep
    obtain ⟨hnot, hn⟩ := List.nodup_cons.1 hn
    obtain ⟨hm, hfiles', hframe'⟩ :=
      ih hn (fun w hw => hne w (List.mem_cons_of_mem way hw)) hrest
    -- The step does not touch the source.
    have hcontent : ∀ w, t₁.content (source.location ++ w) = t.content (source.location ++ w) := by
      intro w
      rw [FileTree.content, hfiles, if_neg (hapart.ne _ _), FileTree.content]
    have hcopyWay : ∀ w, t₁.copyWay f source w = t.copyWay f source w := by
      intro w
      rw [FileTree.copyWay, hcontent, FileTree.copyWay]
    simp only [hcontent, hcopyWay, hfiles] at hm hfiles'
    refine ⟨hm, ?_, ?_⟩
    · intro l bytes
      rw [hfiles']
      by_cases hl : l = dest.location ++ t.copyWay f source way
      · -- No later copy has the place of this one.
        have hother : ∀ w ∈ ways, l ≠ dest.location ++ t.copyWay f source w := by
          intro w hw he
          have hway : way = w := eq_of_deployedWay_eq (hne way List.mem_cons_self)
            (hne w (List.mem_cons_of_mem way hw)) (List.append_cancel_left (hl.symm.trans he))
          exact hnot (hway ▸ hw)
        constructor
        · rintro (⟨w, hw, he, -⟩ | ⟨-, hbytes⟩)
          · exact absurd he (hother w hw)
          · rw [if_pos hl] at hbytes
            exact Or.inl ⟨way, List.mem_cons_self, hl, (Option.some.inj hbytes).symm⟩
        · rintro (⟨w, hw, he, hbytes⟩ | ⟨hall, -⟩)
          · rcases List.mem_cons.1 hw with rfl | hw
            · exact Or.inr ⟨hother, by rw [if_pos hl, hbytes]⟩
            · exact absurd he (hother w hw)
          · exact absurd hl (hall way List.mem_cons_self)
      · simp [hl]
    · intro hd
      obtain ⟨hsame, hd₁⟩ := hframe hd
      obtain ⟨hsame', hd'⟩ := hframe' hd₁
      exact ⟨hsame.trans hsame', hd'⟩

theorem runs_deploy (hapart : source.Apart dest) (h : (deploy f source dest).Runs t m t') :
    ∃ ways, sourceFiles t source = .ok ways ∧ m = .ofWays (t.copyWay f source) ways ∧
      (∀ l bytes, t'.file? l = some bytes ↔
        (∃ way ∈ ways, l = dest.location ++ t.copyWay f source way ∧
          bytes = t.content (source.location ++ way)) ∨
        (∀ way ∈ ways, l ≠ dest.location ++ t.copyWay f source way) ∧ t.file? l = some bytes) ∧
      (t.hasDirectory dest = true → t.SameOutside dest.location t' ∧
        t'.hasDirectory dest = true) := by
  rw [deploy, Disk.runs_bind] at h
  obtain ⟨_, _, htree, h⟩ := h
  obtain ⟨rfl, rfl⟩ := Disk.runs_tree.1 htree
  rw [Disk.runs_bind] at h
  obtain ⟨ways, t₀, hfound, h⟩ := h
  obtain ⟨hways, rfl⟩ := Disk.runs_liftM.1 hfound
  exact ⟨ways, hways, runs_deployFiles hapart (nodup_of_sourceFiles hways)
    (fun way hway => ne_nil_of_mem_sourceFiles hways hway) h⟩

end

/-- The visible files of a source are deployed, each of them once and under a name of its own. -/
structure Deployed (f : Fingerprinting) (source dest : Place) (t t' : FileTree) (m : Manifest) :
    Prop where
  logical : ∀ name, name ∈ m.entries.map Prod.fst ↔
    ∃ way bytes, t.Sees source way bytes ∧ name = slashPath way
  size : m.size = Set.ncard {way | ∃ bytes, t.Sees source way bytes}
  distinct : (m.entries.map Prod.snd).Nodup
  entry : ∀ way bytes, t.Sees source way bytes →
    m.deployed? (slashPath way) = some (slashPath (deployedWay f way bytes))
  /-- The files in the output are the copies. -/
  files : ∀ way bytes, t'.file? (dest.location ++ way) = some bytes ↔
    ∃ w, t.Sees source w bytes ∧ way = deployedWay f w bytes
  renamed : ∀ way bytes, t.Sees source way bytes →
    (slashPath (deployedWay f way bytes) ≠ slashPath way ↔ f.enabled = true ∧
      ∃ dir name stem extension, way = dir ++ [name] ∧ HasExtension name stem extension ∧
        extension ∈ f.extensions)
  /-- They stay in their directories, and get the beginning of their hash before the extension. -/
  fingerprinted : ∀ dir name stem extension bytes, t.Sees source (dir ++ [name]) bytes →
    f.enabled = true → HasExtension name stem extension → extension ∈ f.extensions →
    ∃ digits, IsHash bytes digits ∧ deployedWay f (dir ++ [name]) bytes =
      dir ++ [stem ++ "." ++ String.ofList (digits.take 8) ++ "." ++ extension]

theorem deployedWay_ne_iff {f : Fingerprinting} {way : Location} (hne : way ≠ [])
    (bytes : List UInt8) : deployedWay f way bytes ≠ way ↔ f.enabled = true ∧
      ∃ dir name stem extension, way = dir ++ [name] ∧ HasExtension name stem extension ∧
        extension ∈ f.extensions := by
  obtain ⟨dir, name, rfl⟩ : ∃ dir name, way = dir ++ [name] :=
    ⟨_, _, (List.dropLast_append_getLast hne).symm⟩
  have hname : deployedWay f (dir ++ [name]) bytes ≠ dir ++ [name] ↔ f.appliesTo name = true := by
    rw [deployedWay_concat, ← Fingerprinting.deployedName_ne_iff bytes]
    simp
  rw [hname, Fingerprinting.appliesTo_iff]
  refine and_congr_right fun _ => ?_
  constructor
  · rintro ⟨stem, extension, hs, he⟩
    exact ⟨dir, name, stem, extension, rfl, hs, he⟩
  · rintro ⟨dir', name', stem, extension, hway, hs, he⟩
    obtain ⟨-, hnames⟩ := List.append_inj' hway rfl
    exact ⟨stem, extension, List.singleton_inj.1 hnames ▸ hs, he⟩

theorem deployedWay_of_hasExtension {f : Fingerprinting} {name stem extension : String}
    (henabled : f.enabled = true) (hext : HasExtension name stem extension)
    (hlisted : extension ∈ f.extensions) (dir : Location) (bytes : List UInt8) :
    ∃ digits, IsHash bytes digits ∧ deployedWay f (dir ++ [name]) bytes =
      dir ++ [stem ++ "." ++ String.ofList (digits.take 8) ++ "." ++ extension] := by
  obtain ⟨digits, hhash, he⟩ := fingerprint_spec bytes
  have happlies := Fingerprinting.appliesTo_iff.2 ⟨henabled, stem, extension, hext, hlisted⟩
  refine ⟨digits, hhash, ?_⟩
  rw [deployedWay_concat, Fingerprinting.deployedName_of_appliesTo happlies hext, he]

theorem eq_of_slashPath_deployedWay {f : Fingerprinting} {way way' : Location}
    {bytes bytes' : List UInt8} (hne : way ≠ []) (hne' : way' ≠ [])
    (hnames : (deployedWay f way bytes).all isFileName = true)
    (hnames' : (deployedWay f way' bytes').all isFileName = true)
    (h : slashPath (deployedWay f way bytes) = slashPath (deployedWay f way' bytes')) :
    way = way' :=
  eq_of_deployedWay_eq hne hne'
    (slashPath_inj (deployedWay_ne_nil hne) (deployedWay_ne_nil hne') hnames hnames' h)

theorem slashPath_deployedWay_eq_iff {f : Fingerprinting} {way : Location} {bytes : List UInt8}
    (hne : way ≠ []) (hnames : way.all isFileName = true)
    (hdeployed : (deployedWay f way bytes).all isFileName = true) :
    slashPath (deployedWay f way bytes) = slashPath way ↔ deployedWay f way bytes = way :=
  ⟨slashPath_inj (deployedWay_ne_nil hne) hne hdeployed hnames, congrArg slashPath⟩

/-- Deploying a directory to where no file is deploys its visible files. -/
theorem deploy_visible_files {f : Fingerprinting} {source dest : Place} {t t' : FileTree}
    {m : Manifest} (hsource : t.hasDirectory source = true)
    (hempty : ∀ way, t.file? (dest.location ++ way) = none) (hapart : source.Apart dest)
    (h : (deploy f source dest).Runs t m t') : Deployed f source dest t t' m := by
  obtain ⟨ways, hways, rfl, hfiles, -⟩ := runs_deploy hapart h
  have hmem : ∀ {way}, way ∈ ways ↔ ∃ bytes, t.Sees source way bytes :=
    mem_sourceFiles_iff hsource hways
  have hn : ways.Nodup := nodup_of_sourceFiles hways
  have hne : ∀ way ∈ ways, way ≠ [] := fun way hway => ne_nil_of_mem_sourceFiles hways hway
  have hnames : ∀ way ∈ ways, way.all isFileName = true :=
    fun way hway => all_isFileName_of_mem_sourceFiles hways hway
  have hperm := Manifest.entries_ofWays_perm (g := t.copyWay f source) hn hne hnames
  have hcopyWay : ∀ {way bytes}, t.Sees source way bytes →
      t.copyWay f source way = deployedWay f way bytes := by
    intro way bytes hs
    rw [FileTree.copyWay, FileTree.content_of_file? hs.file]
  -- A copy stands in the output, so its name is a proper one.
  have hcopies : ∀ way ∈ ways, (t.copyWay f source way).all isFileName = true :=
    fun way hway => FileTree.all_isFileName_of_file?
      ((hfiles _ _).2 (Or.inl ⟨way, hway, rfl, rfl⟩))
  constructor
  case logical =>
    intro name
    rw [Manifest.mem_keys_ofWays hways]
    constructor
    · rintro ⟨way, hway, rfl⟩
      obtain ⟨bytes, hs⟩ := hmem.1 hway
      exact ⟨way, bytes, hs, rfl⟩
    · rintro ⟨way, bytes, hs, rfl⟩
      exact ⟨way, hmem.2 ⟨bytes, hs⟩, rfl⟩
  case size =>
    have hset : {way | ∃ bytes, t.Sees source way bytes} = (ways.toFinset : Set Location) := by
      ext way
      simp [hmem]
    rw [hset, Set.ncard_coe_finset, List.toFinset_card_of_nodup hn]
    exact hperm.length_eq.trans (List.length_map _)
  case distinct =>
    rw [(hperm.map Prod.snd).nodup_iff, List.map_map]
    exact hn.map_on fun way hway way' hway' => eq_of_slashPath_deployedWay (hne way hway)
      (hne way' hway') (hcopies way hway) (hcopies way' hway')
  case entry =>
    intro way bytes hs
    apply SortedMap.get?_eq_some_iff.2
    rw [← hcopyWay hs]
    exact hperm.mem_iff.2 (List.mem_map.2 ⟨way, hmem.2 ⟨bytes, hs⟩, rfl⟩)
  case files =>
    intro way bytes
    rw [hfiles, hempty]
    constructor
    · rintro (⟨w, hw, he, rfl⟩ | ⟨-, hnone⟩)
      · have hs := sees_of_mem_sourceFiles hways hw
        exact ⟨w, hs, (List.append_cancel_left he).trans (hcopyWay hs)⟩
      · cases hnone
    · rintro ⟨w, hs, rfl⟩
      refine Or.inl ⟨w, hmem.2 ⟨bytes, hs⟩, by rw [hcopyWay hs], ?_⟩
      rw [FileTree.content_of_file? hs.file]
  case renamed =>
    intro way bytes hs
    have hway := hmem.2 ⟨bytes, hs⟩
    rw [← deployedWay_ne_iff (hne way hway) bytes]
    exact not_congr (slashPath_deployedWay_eq_iff (hne way hway) (hnames way hway)
      (hcopyWay hs ▸ hcopies way hway))
  case fingerprinted =>
    intro dir name stem extension bytes _ henabled hext hlisted
    exact deployedWay_of_hasExtension henabled hext hlisted dir bytes

/-- A source with a hidden directory, a name with two dots and a name without an extension. -/
theorem deploy_visible_files_nested :
    let t := FileTree.ofRecords
      [(["s", ".git"], .directory), (["s", ".git", "a.png"], .file [1]),
        (["s", "img"], .directory), (["s", "img", "a.min.png"], .file [97]),
        (["s", "robots"], .file []), (["d"], .directory)]
    let source : Place := Path.place [] "s"
    let dest : Place := Path.place [] "d"
    t.hasDirectory source = true ∧ (∀ way, t.file? (dest.location ++ way) = none) ∧
      source.Apart dest ∧ ∃ m t', (deploy { enabled := true } source dest).Runs t m t' ∧
        m.entries = [("img/a.min.png", "img/a.min.af63dc4c.png"), ("robots", "robots")] ∧
        Deployed { enabled := true } source dest t t' m := by
  intro t source dest
  have hsource : t.hasDirectory source = true := by decide +kernel
  have hempty : ∀ way, t.file? (dest.location ++ way) = none :=
    FileTree.file?_append_of_below_nil (by decide +kernel) (by decide +kernel)
  have hapart : source.Apart dest := by decide +kernel
  have hentries : ((deploy { enabled := true } source dest).outcome t).1.toOption.map
      Manifest.entries =
        some [("img/a.min.png", "img/a.min.af63dc4c.png"), ("robots", "robots")] := by
    decide +kernel
  obtain ⟨m, hm, he⟩ := Option.map_eq_some_iff.1 hentries
  have hrun := Disk.runs_of_outcome hm
  exact ⟨hsource, hempty, hapart, m, _, hrun, he, deploy_visible_files hsource hempty hapart hrun⟩

theorem null_not_mem_of_isFileName {name : String} (h : isFileName name = true) :
    '\x00' ∉ name.toList := by
  simp only [isFileName, Bool.and_eq_true, List.all_eq_true] at h
  intro hnull
  simpa using h.2 _ hnull

theorem isUsable_stays_iff (n : Nat) {way : Location} (hne : way ≠ [])
    (hn : way.all isFileName = true) :
    (Place.mk [] false (List.replicate n .stay ++ way.map .name) 0).isUsable = true ↔
      n * 2 + stepBytes (way.map .name) ≤ 4096 := by
  let p : Place := ⟨[], false, List.replicate n .stay ++ way.map .name, 0⟩
  have hsize : p.path.utf8ByteSize + 1 = n * 2 + stepBytes (way.map .name) := by
    have hsteps : p.steps ≠ [] := by simp [p, hne]
    have hbytes : stepBytes p.steps = n * 2 + stepBytes (way.map .name) := by
      rw [stepBytes_append, stepBytes_replicate]
      rfl
    rw [Place.utf8ByteSize_path hsteps, hbytes]
    exact Nat.zero_add _
  have hchars : '\x00' ∉ p.path.toList := by
    intro hnull
    rcases Place.mem_path hnull with hslash | ⟨s, hs, hnull⟩
    · cases hslash
    · rcases List.mem_append.1 hs with hs | hs
      · rw [List.eq_of_mem_replicate hs] at hnull
        exact absurd hnull (by decide)
      · obtain ⟨name, hname, rfl⟩ := List.mem_map.1 hs
        exact null_not_mem_of_isFileName (List.all_eq_true.1 hn name hname) hnull
  show p.isUsable = true ↔ _
  rw [Place.isUsable_iff, ← hsize]
  exact ⟨fun h => h.1, fun h => ⟨h, hchars⟩⟩

/-- A visible file is passed over if the path to it is too long to be used, here because of the
steps of the source that stay. -/
theorem deploy_passes_over_unusable :
    let t := FileTree.ofRecords
      [(["s"], .directory), (["s", "a.txt"], .file [120]), (["d"], .directory)]
    let source : Place := ⟨[], false, List.replicate 2045 .stay ++ [.name "s"], 0⟩
    let dest : Place := Path.place [] "d"
    t.hasDirectory source = true ∧ (∀ way, t.file? (dest.location ++ way) = none) ∧
      source.Apart dest ∧ t.file? (source.location ++ ["a.txt"]) = some [120] ∧
      isHidden "a.txt" = false ∧
      ∃ m t', (deploy { enabled := false } source dest).Runs t m t' ∧ m.entries = [] ∧
        t'.file? (dest.location ++ ["a.txt"]) = none := by
  intro t source dest
  have hempty : ∀ way, t.file? (dest.location ++ way) = none :=
    FileTree.file?_append_of_below_nil (by decide +kernel) (by decide +kernel)
  have husable : source.isUsable = true := by
    have hnames : ["s"].all isFileName = true := by decide +kernel
    exact (isUsable_stays_iff 2045 (by decide) hnames).2 (by decide +kernel)
  have hlong : (source.below ["a.txt"]).isUsable = false := by
    have hnames : ["s", "a.txt"].all isFileName = true := by decide +kernel
    have hbelow : source.below ["a.txt"] =
        ⟨[], false, List.replicate 2045 .stay ++ ["s", "a.txt"].map .name, 0⟩ := by
      rw [Place.below, List.append_assoc]
      rfl
    rw [hbelow, ← Bool.not_eq_true, isUsable_stays_iff 2045 (by decide) hnames]
    decide +kernel
  have hsource : t.hasDirectory source = true := FileTree.hasDirectory_iff.2
    ⟨FileTree.reaches_iff.2 ⟨by decide +kernel, husable, by decide +kernel⟩, by decide +kernel⟩
  have hfound : sourceFiles t source = .ok [] := by
    have hvisible : t.visibleFiles source.location = [["a.txt"]] := by decide +kernel
    rw [sourceFiles_of_hasDirectory hsource, hvisible, List.filter_singleton, hlong]
    rfl
  have hrun : (deploy { enabled := false } source dest).Runs t .empty t := by
    rw [deploy, Disk.runs_bind]
    refine ⟨t, t, Disk.runs_tree.2 ⟨rfl, rfl⟩, ?_⟩
    rw [Disk.runs_bind, hfound]
    exact ⟨[], t, Disk.runs_liftM.2 ⟨rfl, rfl⟩, Disk.runs_foldlM_nil.2 ⟨rfl, rfl⟩⟩
  exact ⟨hsource, hempty, by decide +kernel, by decide +kernel, by decide +kernel, _, t, hrun, rfl,
    hempty _⟩

end StaticSite
