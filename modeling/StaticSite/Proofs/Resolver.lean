import StaticSite.Proofs.Text.Trim
import StaticSite.Resolver

/-!
# References that do not resolve

Whether a link resolves depends on its target alone, and whether an asset resolves on the names in
the list of assets. Where the assets are deployed, and below which base path, does not matter. What
does not resolve is kept as it was written.
-/

namespace StaticSite

theorem siteRelative_eq_self {s : String} (h : s.toList.head? ≠ some '/') : siteRelative s = s :=
  Text.trimStart_eq_self fun _ hc => beq_eq_false_iff_ne.2 fun hslash => h (hslash ▸ hc)

theorem siteRelative_slash_append (s : String) : siteRelative ("/" ++ s) = siteRelative s := by
  rw [siteRelative, siteRelative, ← String.toList_inj, Text.toList_trimStart,
    Text.toList_trimStart, String.toList_append]
  rfl

def Resolved.reference? : Resolved → Option String
  | .url _ => none
  | .broken reference => some reference

theorem Resolved.isBroken_eq (x : Resolved) : x.isBroken = x.reference?.isSome := by
  cases x <;> rfl

theorem eq_of_link_broken {r : Resolver} {target reference : String}
    (h : r.link target = .broken reference) : reference = target := by
  unfold Resolver.link at h
  simp only at h
  split at h
  · exact (Resolved.broken.inj h).symm
  · split at h
    · cases h
    · split at h
      · cases h
      · exact (Resolved.broken.inj h).symm

theorem Resolver.reference?_link (r r' : Resolver) (target : String) :
    (r.link target).reference? = (r'.link target).reference? := by
  unfold link
  simp only
  split
  · rfl
  split
  · rfl
  split <;> rfl

theorem eq_of_asset_broken {r : Resolver} {name reference : String}
    (h : r.asset name = .broken reference) : reference = name := by
  unfold Resolver.asset at h
  simp only at h
  split at h
  · exact (Resolved.broken.inj h).symm
  · split at h
    · cases h
    · split at h
      · cases h
      · exact (Resolved.broken.inj h).symm

namespace Resolver

def assetNames (entries : List (String × String)) : List String :=
  entries.map fun e => siteRelative e.1

theorem assetNames_eq (entries : List (String × String)) :
    assetNames entries = (entries.map Prod.fst).map siteRelative := by
  rw [assetNames, List.map_map]
  rfl

theorem deployed?_eq_none_iff {entries : List (String × String)} {name : String} :
    deployed? entries name = none ↔ name ∉ entries.map Prod.fst := by
  rw [deployed?, List.lookup_eq_none_iff, List.mem_map]
  constructor
  · rintro h ⟨e, he, rfl⟩
    simpa using h e (List.mem_reverse.2 he)
  · intro h e he
    rw [bne_iff_ne]
    rintro rfl
    exact h ⟨e, List.mem_reverse.1 he, rfl⟩

theorem deployed?_eq_some_iff {entries : List (String × String)} {name deployed : String} :
    deployed? entries name = some deployed ↔
      ∃ before after, entries = before ++ (name, deployed) :: after ∧
        name ∉ after.map Prod.fst := by
  rw [deployed?, List.lookup_eq_some_iff]
  constructor
  · rintro ⟨front, back, h, hfront⟩
    refine ⟨back.reverse, front.reverse, ?_, ?_⟩
    · rw [← List.reverse_inj, h]
      simp
    · rw [List.mem_map]
      rintro ⟨e, he, rfl⟩
      simpa using hfront e (List.mem_reverse.1 he)
  · rintro ⟨before, after, rfl, hafter⟩
    refine ⟨after.reverse, before.reverse, by simp, fun e he => ?_⟩
    rw [bne_iff_ne]
    rintro rfl
    exact hafter (List.mem_map_of_mem (List.mem_reverse.1 he))

theorem isBroken_asset_ofBase (base name : String) :
    ((ofBase base).asset name).isBroken = true ↔ logicalName name = "" := by
  unfold asset
  by_cases hempty : logicalName name = ""
  · simp [hempty, Resolved.isBroken]
  · simp [hempty, ofBase, Resolved.isBroken]

theorem reference?_asset_restrict (r : Resolver) (entries : List (String × String))
    (name : String) :
    ((r.restrict entries).asset name).reference? =
      if logicalName name ≠ "" ∧ logicalName name ∈ assetNames entries then none
      else some name := by
  have hkeys : (entries.map fun e => (siteRelative e.1, siteRelative e.2)).map Prod.fst =
      assetNames entries := by simp [assetNames]
  rw [← hkeys]
  unfold asset
  by_cases hempty : logicalName name = ""
  · simp [hempty, Resolved.reference?]
  · simp only [restrict, if_neg hempty]
    cases hfound : deployed? (entries.map fun e => (siteRelative e.1, siteRelative e.2))
        (logicalName name) with
    | none => rw [if_neg fun h => deployed?_eq_none_iff.1 hfound h.2, Resolved.reference?]
    | some deployed =>
      have hmem : logicalName name ∈
          (entries.map fun e => (siteRelative e.1, siteRelative e.2)).map Prod.fst := by
        refine Decidable.byContradiction fun hnot => ?_
        rw [deployed?_eq_none_iff.2 hnot] at hfound
        cases hfound
      rw [if_pos ⟨hempty, hmem⟩, Resolved.reference?]

theorem isBroken_asset_restrict (r : Resolver) (entries : List (String × String))
    (name : String) :
    ((r.restrict entries).asset name).isBroken = true ↔
      logicalName name = "" ∨ logicalName name ∉ assetNames entries := by
  rw [Resolved.isBroken_eq, reference?_asset_restrict]
  by_cases hempty : logicalName name = ""
  · simp [hempty]
  · by_cases hmem : logicalName name ∈ assetNames entries <;> simp [hempty, hmem]

/-- The last entry with a logical name leads to a path. -/
def LeadsTo (entries : List (String × String)) (name path : String) : Prop :=
  ∃ before key after, entries = before ++ (key, path) :: after ∧ siteRelative key = name ∧
    name ∉ assetNames after

theorem exists_leadsTo_iff {entries : List (String × String)} {name : String} :
    (∃ path, LeadsTo entries name path) ↔ name ∈ assetNames entries := by
  constructor
  · rintro ⟨path, before, key, after, rfl, rfl, -⟩
    exact List.mem_map.2 ⟨(key, path), by simp, rfl⟩
  · intro h
    induction entries with
    | nil => cases h
    | cons e rest ih =>
      by_cases hrest : name ∈ assetNames rest
      · obtain ⟨path, before, key, after, rfl, hkey, hafter⟩ := ih hrest
        exact ⟨path, e :: before, key, after, rfl, hkey, hafter⟩
      · have hname := (List.mem_cons.1 h).resolve_right hrest
        exact ⟨e.2, [], e.1, rest, rfl, hname.symm, hrest⟩

theorem asset_restrict_of_leadsTo (r : Resolver) {entries : List (String × String)}
    {name path : String} (hne : logicalName name ≠ "")
    (h : LeadsTo entries (logicalName name) path) :
    (r.restrict entries).asset name = .url (r.basePath ++ siteRelative path) := by
  obtain ⟨before, key, after, rfl, hkey, hafter⟩ := h
  have hnames : assetNames after =
      (after.map fun e => (siteRelative e.1, siteRelative e.2)).map Prod.fst := by
    simp [assetNames]
  have hfound : deployed? ((before ++ (key, path) :: after).map fun e =>
      (siteRelative e.1, siteRelative e.2)) (logicalName name) = some (siteRelative path) := by
    rw [deployed?_eq_some_iff]
    refine ⟨before.map fun e => (siteRelative e.1, siteRelative e.2),
      after.map fun e => (siteRelative e.1, siteRelative e.2), ?_, ?_⟩
    · rw [List.map_append, List.map_cons, hkey]
    · rwa [← hnames]
  simp only [asset, restrict, if_neg hne, hfound]

theorem asset_restrict_of_not_mem (r : Resolver) {entries : List (String × String)}
    {name : String} (h : logicalName name ∉ assetNames entries) :
    (r.restrict entries).asset name = .broken name := by
  have hreference := reference?_asset_restrict r entries name
  rw [if_neg fun hmem => h hmem.2] at hreference
  cases hasset : (r.restrict entries).asset name with
  | url address =>
    rw [hasset] at hreference
    cases hreference
  | broken reference => rw [eq_of_asset_broken hasset]

end Resolver

end StaticSite
