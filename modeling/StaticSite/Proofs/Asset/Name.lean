import StaticSite.Proofs.Page.Emitted

/-!
# Names of assets

A resolver that trusts every name and one that checks names against a list read a name in the same
way: blanks around it and slashes before it do not matter. So a name that is in a list which maps
names to themselves resolves as if it were trusted, and any other name is kept as it was written.
What a name resolves to stands below the base path and never names another host.
-/

namespace StaticSite

open Text

/-- Where a reference leads, if it resolves. -/
def Resolved.address? : Resolved → Option String
  | .url address => some address
  | .broken _ => none

namespace Resolver

theorem logicalName_append_of_blank {before after : String} (hbefore : isBlankText before = true)
    (hafter : isBlankText after = true) (name : String) :
    logicalName (before ++ name ++ after) = logicalName name := by
  rw [isBlankText, List.all_eq_true] at hbefore hafter
  rw [logicalName, logicalName, trim, trim, trimBoth_append_of_all hbefore hafter]

theorem logicalName_append_of_slashes {slashes : String}
    (hslashes : ∀ c ∈ slashes.toList, isSlash c = true) {name : String}
    (hname : ∀ c ∈ name.toList.head?, isBlank c = false) :
    logicalName (slashes ++ name) = logicalName name := by
  have hsolid : ∀ c ∈ slashes.toList, isBlank c = false := by
    intro c hc
    obtain rfl : c = '/' := beq_iff_eq.1 (hslashes c hc)
    rfl
  have hhead : ∀ c ∈ (slashes ++ name).toList.head?, isBlank c = false := by
    intro c hc
    rw [String.toList_append, List.head?_append] at hc
    rcases Option.or_eq_some_iff.1 hc with hc | ⟨-, hc⟩
    · exact hsolid c (List.mem_of_mem_head? hc)
    · exact hname c hc
  have htrim : trim (slashes ++ name) = slashes ++ trim name := by
    rw [trim, trim, trimBoth, trimBoth, trimStart_eq_self hhead, trimStart_eq_self hname,
      trimEnd_append_of_last fun c hc => hsolid c (List.mem_of_getLast? hc)]
  rw [logicalName, logicalName, htrim, siteRelative, trimStart_append_of_all hslashes, siteRelative]

theorem address?_asset_congr (r : Resolver) {name name' : String}
    (h : logicalName name = logicalName name') :
    (r.asset name).address? = (r.asset name').address? := by
  unfold asset
  simp only [h]
  split
  · rfl
  · split
    · rfl
    · split <;> rfl

theorem asset_ofBase {base name : String} (hne : logicalName name ≠ "") :
    (ofBase base).asset name = .url ((ofBase base).basePath ++ logicalName name) := by
  simp only [asset, if_neg hne, ofBase]

theorem Made.exists_siteRelative_of_asset {r : Resolver} (hr : r.Made) {name address : String}
    (h : r.asset name = .url address) : ∃ path, address = r.basePath ++ siteRelative path := by
  cases hr with
  | ofBase base =>
    by_cases hempty : logicalName name = ""
    · simp only [asset, if_pos hempty] at h
      cases h
    · rw [asset_ofBase hempty] at h
      exact ⟨trim name, (Resolved.url.inj h).symm⟩
  | @restrict r hr entries =>
    have hfound : ¬((r.restrict entries).asset name).isBroken = true := by
      rw [h]
      exact Bool.false_ne_true
    rw [isBroken_asset_restrict, not_or, Decidable.not_not] at hfound
    obtain ⟨path, hleads⟩ := exists_leadsTo_iff.2 hfound.2
    rw [asset_restrict_of_leadsTo r hfound.1 hleads] at h
    exact ⟨path, (Resolved.url.inj h).symm⟩

theorem siteRelative_eq_of_leadsTo {entries : List (String × String)}
    (hself : ∀ e ∈ entries, e.2 = e.1) {name path : String} (h : LeadsTo entries name path) :
    siteRelative path = name := by
  obtain ⟨before, key, after, rfl, hkey, -⟩ := h
  have hpath : path = key := hself (key, path) (by simp)
  rw [hpath, hkey]

theorem asset_restrict_self (base : String) {entries : List (String × String)}
    (hself : ∀ e ∈ entries, e.2 = e.1) (name : String) :
    ((ofBase base).restrict entries).asset name =
      if logicalName name ≠ "" ∧ logicalName name ∈ assetNames entries then
        (ofBase base).asset name
      else .broken name := by
  split
  · rename_i hlisted
    obtain ⟨path, hleads⟩ := exists_leadsTo_iff.2 hlisted.2
    rw [asset_restrict_of_leadsTo (ofBase base) hlisted.1 hleads,
      siteRelative_eq_of_leadsTo hself hleads, asset_ofBase hlisted.1]
  · rename_i hlisted
    by_cases hempty : logicalName name = ""
    · simp only [asset, if_pos hempty]
    · exact asset_restrict_of_not_mem (ofBase base) fun hmem => hlisted ⟨hempty, hmem⟩

end Resolver

open Resolver

/-- Whatever a resolver is made of, a name that does not resolve is kept as it was written, and one
that does leads below the base path and to no other host. Blanks around a name do not change whether
and where it leads, and neither do further slashes before a name that does not begin with a blank.
Under a list that maps names to themselves, a name resolves as if it were trusted, or not at all,
and it resolves if and only if something is left of it without blanks and slashes and this is in the
list. -/
theorem asset_resolves_stably {r : Resolver} (hr : r.Made) (name : String) :
    (∀ reference, r.asset name = .broken reference → reference = name) ∧
    (∀ address, r.asset name = .url address →
      beginsWith r.basePath address = true ∧ beginsWith "//" address = false) ∧
    (∀ before after, isBlankText before = true → isBlankText after = true →
      (r.asset (before ++ name ++ after)).address? = (r.asset name).address?) ∧
    (∀ slashes, (∀ c ∈ slashes.toList, c = '/') → (∀ c ∈ name.toList.head?, isBlank c = false) →
      (r.asset (slashes ++ name)).address? = (r.asset name).address?) ∧
    ∀ base entries, (∀ e ∈ entries, e.2 = e.1) →
      (((ofBase base).restrict entries).asset name = .broken name ∨
        ((ofBase base).restrict entries).asset name = (ofBase base).asset name) ∧
      ((∃ address, ((ofBase base).restrict entries).asset name = .url address) ↔
        siteRelative (trim name) ≠ "" ∧
          siteRelative (trim name) ∈ entries.map fun e => siteRelative e.1) := by
  refine ⟨fun reference => eq_of_asset_broken, fun address h => ?_, fun before after hb ha => ?_,
    fun slashes hs hn => ?_, fun base entries hself => ?_⟩
  · obtain ⟨path, rfl⟩ := hr.exists_siteRelative_of_asset h
    have hpath : beginsWith "/" (siteRelative path) = false :=
      siteRelative_eq_self_iff.1 (trimStart_trimStart isSlash path)
    refine ⟨?_, Bool.not_eq_true _ ▸ fun hslashes => ?_⟩
    · rw [beginsWith, String.toList_append, List.isPrefixOf_iff_prefix]
      exact List.prefix_append _ _
    · rw [(hr.isBase.beginsWith_slashes_append _).1 hslashes |>.2] at hpath
      cases hpath
  · exact address?_asset_congr r (logicalName_append_of_blank hb ha name)
  · have hslash : ∀ c ∈ slashes.toList, isSlash c = true := fun c hc => beq_iff_eq.2 (hs c hc)
    exact address?_asset_congr r (logicalName_append_of_slashes hslash hn)
  · have hasset := asset_restrict_self base hself name
    by_cases hlisted : logicalName name ≠ "" ∧ logicalName name ∈ assetNames entries
    · rw [if_pos hlisted] at hasset
      rw [hasset, asset_ofBase hlisted.1]
      exact ⟨.inr rfl, fun _ => hlisted, fun _ => ⟨_, rfl⟩⟩
    · rw [if_neg hlisted] at hasset
      rw [hasset]
      refine ⟨.inl rfl, ?_, fun h => (hlisted h).elim⟩
      rintro ⟨address, h⟩
      cases h

/-- A listed name with a blank inside, and one that is not listed and has blanks around it. -/
theorem asset_resolves_stably_listed :
    let r := (ofBase "docs").restrict [("//img/a b.png", "/img/a b.1234abcd.png")]
    let entries := [("/img/a b.png", "/img/a b.png")]
    r.Made ∧ (∀ e ∈ entries, e.2 = e.1) ∧
      r.asset " img/a.png" = .broken " img/a.png" ∧
      (beginsWith "/docs/" "/docs/img/a b.1234abcd.png" = true ∧
        beginsWith "//" "/docs/img/a b.1234abcd.png" = false) ∧
      (r.asset "\t img/a b.png\u3000").address? = some "/docs/img/a b.1234abcd.png" ∧
      (r.asset "//img/a b.png").address? = some "/docs/img/a b.1234abcd.png" ∧
      ∃ address, ((ofBase "docs").restrict entries).asset "img/a b.png" = .url address := by
  intro r entries
  have hr : r.Made := (Resolver.Made.ofBase "docs").restrict _
  have hself : ∀ e ∈ entries, e.2 = e.1 := by decide +kernel
  have hurl : r.asset "img/a b.png" = .url "/docs/img/a b.1234abcd.png" := by decide +kernel
  obtain ⟨-, haddress, hblank, hslash, hlisted⟩ := asset_resolves_stably hr "img/a b.png"
  have hmissing : (r.asset " img/a.png").isBroken = true := by decide +kernel
  refine ⟨hr, hself, ?_, ?_, ?_, ?_, ?_⟩
  · cases hasset : r.asset " img/a.png" with
    | url address =>
      rw [hasset] at hmissing
      cases hmissing
    | broken reference => rw [(asset_resolves_stably hr " img/a.png").1 reference hasset]
  · have hbase : r.basePath = "/docs/" := by decide +kernel
    rw [← hbase]
    exact haddress _ hurl
  · have hspaced := hblank "\t " "\u3000" (by decide +kernel) (by decide +kernel)
    rw [hurl] at hspaced
    exact hspaced
  · have hall : "//".toList.all (· == '/') = true := by decide +kernel
    have hhead : "img/a b.png".toList.head? = some 'i' := by decide +kernel
    have hslashed := hslash "//" (fun c hc => beq_iff_eq.1 (List.all_eq_true.1 hall c hc))
      fun c hc => Option.some.inj (hhead.symm.trans hc) ▸ rfl
    rw [hurl] at hslashed
    exact hslashed
  · exact (hlisted "docs" entries hself).2.2 ⟨by decide +kernel, by decide +kernel⟩

end StaticSite
