import StaticSite.Proofs.Markup.Query
import StaticSite.Proofs.Page.References
import StaticSite.Proofs.Settings.Address

/-!
# Tags of the preview image

The settings name the preview image of a site by a file among its images. The document of a page
names it twice in its head, by the full address of the deployed file, and nowhere else. An image
that is not deployed is named by no tag; it is the last reference that is reported for the page.
-/

namespace StaticSite

open Html

def previewAsset (image : String) : String := "img/" ++ siteRelative (Text.trim image)

theorem logicalName_previewAsset (image : String) :
    Resolver.logicalName (previewAsset image) = previewAsset image := by
  have hlist : (previewAsset image).toList =
      'i' :: 'm' :: 'g' :: '/' :: (siteRelative (Text.trim image)).toList := by
    rw [previewAsset, String.toList_append]
    rfl
  have htrim : Text.trim (previewAsset image) = previewAsset image := by
    refine Text.IsTrimmed.trimBoth_eq ⟨fun c hc => ?_, fun c hc => ?_⟩
    · rw [hlist] at hc
      cases hc
      rfl
    · have himage := (Text.isTrimmed_trimBoth Text.isBlank image).last
      rw [previewAsset, String.toList_append, List.getLast?_append] at hc
      rcases Option.or_eq_some_iff.1 hc with hc | ⟨-, hc⟩
      · exact himage c (Text.getLast?_trimStart c hc)
      · cases hc
        rfl
  rw [Resolver.logicalName, htrim, siteRelative_eq_self]
  rw [hlist]
  simp

theorem previewAsset_ne_empty (image : String) : previewAsset image ≠ "" := by
  intro h
  rw [← String.toList_inj, previewAsset, String.toList_append] at h
  cases h

theorem previewName_of_blank {image : String} (h : Text.isBlankText image = true) :
    previewName (some image) = none := by
  have htrim := Text.trim_eq_empty_iff.2 h
  simp only [previewName, htrim, if_true]

theorem previewName_of_not_blank {image : String} (h : Text.isBlankText image = false) :
    previewName (some image) = some (previewAsset image) := by
  have htrim : Text.trim image ≠ "" := by
    rw [ne_eq, Text.trim_eq_empty_iff, h]
    exact Bool.false_ne_true
  simp only [previewName, if_neg htrim, previewAsset]

namespace Html

def Opening.IsMeta (o : Opening) (key : String) : Prop :=
  o.tag = "meta" ∧ (("name", key) ∈ o.attributes ∨ ("property", key) ∈ o.attributes)

instance (o : Opening) (key : String) : Decidable (o.IsMeta key) :=
  inferInstanceAs (Decidable (_ ∧ _))

def metadata (key : String) (ts : List Token) : List Opening :=
  (openings ts).filter fun o => o.IsMeta key

section

variable {key : String}

theorem metadata_append (l₁ l₂ : List Token) :
    metadata key (l₁ ++ l₂) = metadata key l₁ ++ metadata key l₂ := by
  rw [metadata, openings_append, List.filter_append, metadata, metadata]

theorem metadata_tags (ts : List Token) : metadata key (tags ts) = metadata key ts := by
  rw [metadata, openings_tags, metadata]

theorem metadata_eq_nil {ts : List Token} (h : ∀ as, .opening "meta" as ∉ ts) :
    metadata key ts = [] := by
  rw [metadata, List.filter_eq_nil_iff]
  intro o ho hmeta
  obtain ⟨t, ht, hopening⟩ := List.mem_filterMap.1 ho
  obtain ⟨htag, -⟩ := of_decide_eq_true hmeta
  cases t with
  | opening tag as =>
    obtain rfl := Option.some.inj hopening
    obtain rfl : tag = "meta" := htag
    exact h as ht
  | closing tag => cases hopening
  | text s => cases hopening

end

end Html

def previewKeys : List String := ["og:image", "twitter:image"]

theorem metadata_shellTags {key : String} (hkey : key ∈ previewKeys)
    (lang title description keywords url : String) (preview icon navbar content : List Html.Token) :
    metadata key (shellTags lang title description keywords url preview icon navbar content) =
      metadata key preview ++ metadata key icon ++ metadata key navbar ++ metadata key content := by
  have hshell :
      metadata key (shellTags lang title description keywords url [] [] [] []) = [] := by
    rcases List.mem_cons.1 hkey with rfl | hkey
    · rfl
    · obtain rfl := List.mem_singleton.1 hkey
      rfl
  simp only [shellTags, metadata_append, List.append_eq_nil_iff] at hshell
  simp only [shellTags, metadata_append, hshell, List.nil_append, List.append_nil]

section

variable (s : Settings) (r : Resolver)

/-- In the document of a page, the preview image is named by the tags that are made for it only. -/
theorem document_metadata (route : Route) :
    ∃ d ts, (document s Templates.standard r (route.assemble ⟨s, r⟩).value).value = .ok d ∧
      readTokens d = some ts ∧
      ∀ key ∈ previewKeys, metadata key ts =
        metadata key (previewTokens s r (route.assemble ⟨s, r⟩).value.descriptor) := by
  obtain ⟨d, ts, hd, hread, hts⟩ :=
    tags_document s r (route.assemble ⟨s, r⟩).value (body_alike route r s s).wellNamed
  refine ⟨d, ts, hd, hread, fun key hkey => ?_⟩
  have htag : "meta" ∉ partTags ++ spanTags := by decide
  have hnavbar : metadata key (navbar s r).value.tokens = [] :=
    metadata_eq_nil ((isPart_navbar s r).opening_not_mem htag)
  have hbody : metadata key (route.assemble ⟨s, r⟩).value.body.tokens = [] :=
    metadata_eq_nil ((isPart_body route s r).opening_not_mem htag)
  have hicon : metadata key (faviconTokens s r) = [] := by
    unfold faviconTokens
    split <;> rfl
  rw [← metadata_tags, hts, documentTags, metadata_shellTags hkey, metadata_tags, metadata_tags,
    hnavbar, hbody, hicon, List.append_nil, List.append_nil, List.append_nil]

variable {d : Descriptor}

theorem previewTokens_of_url {name path : String} (hname : d.previewImage = some name)
    (h : r.asset name = .url path) :
    metadata "og:image" (previewTokens s r d) =
        [⟨"meta", [("property", "og:image"), ("content", s.absoluteUrl path)]⟩] ∧
      metadata "twitter:image" (previewTokens s r d) =
        [⟨"meta", [("name", "twitter:image"), ("content", s.absoluteUrl path)]⟩] ∧
      brokenPreview r d = [] := by
  have htokens : previewTokens s r d = tags (previewTags (s.absoluteUrl path)).tokens := by
    simp only [previewTokens, hname, Option.map_some, h]
  rw [htokens, metadata_tags, metadata_tags]
  refine ⟨rfl, rfl, ?_⟩
  simp only [brokenPreview, hname, Option.map_some, h]

theorem previewTokens_of_broken {name : String} (hname : d.previewImage = some name)
    (h : r.asset name = .broken name) :
    previewTokens s r d = [] ∧ brokenPreview r d = [name] := by
  simp [previewTokens, brokenPreview, hname, h]

theorem previewTokens_of_none (hname : d.previewImage = none) :
    previewTokens s r d = [] ∧ brokenPreview r d = [] := by
  simp [previewTokens, brokenPreview, hname]

end

/-- The preview tags of a document name the deployed file, or there are none. If the settings have
an image, and the last entry of the manifest with its logical name leads to a path, then one tag for
each of the two kinds has the full address of that path. If it leads nowhere, there is no tag of
either kind, and the name is the last reference that is reported. Without an image there is no
tag, and only what the navigation bar and the body mark is reported. -/
theorem preview_names_deployed (s : Settings) (entries : List (String × String)) (route : Route) :
    let r := (Resolver.ofSettings s).restrict entries
    let page := (route.assemble ⟨s, r⟩).value
    let marked := brokenReferences (navbar s r).value ++ brokenReferences page.body
    let reported := unresolvedReferences s r page
    ∃ d ts, (document s Templates.standard r page).value = .ok d ∧ readTokens d = some ts ∧
      (∀ image ∈ s.site.image, Text.isBlankText image = false →
        (∀ path, Resolver.LeadsTo entries (previewAsset image) path →
          let url := Text.trimEnd Text.isSlash s.site.url ++ s.basePath ++ siteRelative path
          metadata "og:image" ts = [⟨"meta", [("property", "og:image"), ("content", url)]⟩] ∧
          metadata "twitter:image" ts =
            [⟨"meta", [("name", "twitter:image"), ("content", url)]⟩] ∧
          reported = marked) ∧
        ((¬∃ path, Resolver.LeadsTo entries (previewAsset image) path) →
          metadata "og:image" ts = [] ∧ metadata "twitter:image" ts = [] ∧
          reported = marked ++ [previewAsset image])) ∧
      ((∀ image ∈ s.site.image, Text.isBlankText image = true) →
        metadata "og:image" ts = [] ∧ metadata "twitter:image" ts = [] ∧ reported = marked) := by
  intro r page marked reported
  obtain ⟨d, ts, hd, hread, hmeta⟩ := document_metadata s r route
  have hog := hmeta "og:image" (by decide)
  have htwitter := hmeta "twitter:image" (by decide)
  have hreported : reported = marked ++ brokenPreview r page.descriptor := rfl
  refine ⟨d, ts, hd, hread, fun image himage hblank => ?_, fun hblank => ?_⟩
  · have hpreview : page.descriptor.previewImage = some (previewAsset image) := by
      show previewName s.site.image = _
      rw [himage]
      exact previewName_of_not_blank hblank
    have hlogical : Resolver.logicalName (previewAsset image) = previewAsset image :=
      logicalName_previewAsset image
    refine ⟨fun path hpath => ?_, fun hmissing => ?_⟩
    · have hne : Resolver.logicalName (previewAsset image) ≠ "" := by
        rw [hlogical]
        exact previewAsset_ne_empty image
      have hasset : r.asset (previewAsset image) =
          .url ((Resolver.ofSettings s).basePath ++ siteRelative path) :=
        Resolver.asset_restrict_of_leadsTo _ hne (hlogical.symm ▸ hpath)
      obtain ⟨hog', htwitter', hbroken⟩ := previewTokens_of_url s r hpreview hasset
      rw [basePath_ofSettings, absoluteUrl_below, ← String.append_assoc] at hog' htwitter'
      exact ⟨hog.trans hog', htwitter.trans htwitter', by rw [hreported, hbroken, List.append_nil]⟩
    · have hname : previewAsset image ∉ Resolver.assetNames entries :=
        mt Resolver.exists_leadsTo_iff.2 hmissing
      have hasset : r.asset (previewAsset image) = .broken (previewAsset image) :=
        Resolver.asset_restrict_of_not_mem _ (hlogical.symm ▸ hname)
      obtain ⟨htokens, hbroken⟩ := previewTokens_of_broken s r hpreview hasset
      rw [htokens] at hog htwitter
      exact ⟨hog, htwitter, by rw [hreported, hbroken]⟩
  · have hpreview : page.descriptor.previewImage = none := by
      show previewName s.site.image = none
      cases himage : s.site.image with
      | none => rfl
      | some image => exact previewName_of_blank (hblank image himage)
    obtain ⟨htokens, hbroken⟩ := previewTokens_of_none s r hpreview
    rw [htokens] at hog htwitter
    exact ⟨hog, htwitter, by rw [hreported, hbroken, List.append_nil]⟩

/-- An image that is written with blanks and a slash and is listed twice, an image that is not
listed, and a blank one. -/
theorem preview_names_deployed_twice :
    let entries := [("img/hero.png", "img/hero.png"), ("//img/hero.png", "/img/hero.1a2b.png")]
    let site : String → Settings := fun image =>
      { site := { title := "T", url := "https://t.example//", baseUrl := "docs"
                  image := some image } }
    let page : String → Page := fun image =>
      (Route.home.assemble ⟨site image, (Resolver.ofSettings (site image)).restrict entries⟩).value
    let Read : String → List Html.Token → Prop := fun image ts =>
      ∃ d, (document (site image) Templates.standard
        ((Resolver.ofSettings (site image)).restrict entries) (page image)).value = .ok d ∧
          readTokens d = some ts
    let url := "https://t.example/docs/img/hero.1a2b.png"
    (Text.isBlankText " /hero.png " = false ∧
      Resolver.LeadsTo entries "img/hero.png" "/img/hero.1a2b.png" ∧
      ∃ ts, Read " /hero.png " ts ∧
        metadata "og:image" ts = [⟨"meta", [("property", "og:image"), ("content", url)]⟩] ∧
        metadata "twitter:image" ts = [⟨"meta", [("name", "twitter:image"), ("content", url)]⟩]) ∧
    (Text.isBlankText "gone.png" = false ∧ (¬∃ path, Resolver.LeadsTo entries "img/gone.png" path) ∧
      ∃ ts, Read "gone.png" ts ∧ metadata "og:image" ts = [] ∧
        (unresolvedReferences (site "gone.png")
          ((Resolver.ofSettings (site "gone.png")).restrict entries)
          (page "gone.png")).getLast? = some "img/gone.png") ∧
    (Text.isBlankText " " = true ∧
      ∃ ts, Read " " ts ∧ metadata "og:image" ts = [] ∧ metadata "twitter:image" ts = []) := by
  intro entries site page Read url
  have hleads : Resolver.LeadsTo entries "img/hero.png" "/img/hero.1a2b.png" :=
    ⟨[("img/hero.png", "img/hero.png")], "//img/hero.png", [], rfl, by decide +kernel, by decide⟩
  have hmissing : ¬∃ path, Resolver.LeadsTo entries "img/gone.png" path :=
    mt Resolver.exists_leadsTo_iff.1 (by decide +kernel)
  refine ⟨⟨by decide +kernel, hleads, ?_⟩, ⟨by decide +kernel, hmissing, ?_⟩,
    ⟨by decide +kernel, ?_⟩⟩
  · obtain ⟨d, ts, hd, hread, hsome, -⟩ := preview_names_deployed (site " /hero.png ") entries .home
    have hname : previewAsset " /hero.png " = "img/hero.png" := by decide +kernel
    have hurl : Text.trimEnd Text.isSlash (site " /hero.png ").site.url ++
        (site " /hero.png ").basePath ++ siteRelative "/img/hero.1a2b.png" = url := by
      decide +kernel
    obtain ⟨hog, htwitter, -⟩ :=
      (hsome " /hero.png " rfl (by decide +kernel)).1 _ (hname.symm ▸ hleads)
    rw [hurl] at hog htwitter
    exact ⟨ts, ⟨d, hd, hread⟩, hog, htwitter⟩
  · obtain ⟨d, ts, hd, hread, hsome, -⟩ := preview_names_deployed (site "gone.png") entries .home
    have hname : previewAsset "gone.png" = "img/gone.png" := by decide +kernel
    obtain ⟨hog, -, hreported⟩ :=
      (hsome "gone.png" rfl (by decide +kernel)).2 (hname.symm ▸ hmissing)
    refine ⟨ts, ⟨d, hd, hread⟩, hog, ?_⟩
    rw [hreported, hname, List.getLast?_concat]
  · obtain ⟨d, ts, hd, hread, -, hnone⟩ := preview_names_deployed (site " ") entries .home
    have hblank : ∀ image ∈ (site " ").site.image, Text.isBlankText image = true := by
      intro image himage
      cases himage
      decide +kernel
    obtain ⟨hog, htwitter, -⟩ := hnone hblank
    exact ⟨ts, ⟨d, hd, hread⟩, hog, htwitter⟩

end StaticSite
