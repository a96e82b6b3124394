import StaticSite.Proofs.Page.Sitemap
import StaticSite.Proofs.Page.Tags
import StaticSite.Proofs.Settings.Address

/-!
# The address of a page

The document of a page names the address of the page twice in its head, the sitemap lists it, and
links of other pages lead to it. All of them are made from the settings in ways of their own, and
they are one address.
-/

namespace StaticSite

open Html

section

variable (s : Settings) (r : Resolver) {page : Page}

theorem canonical_documentTags (hbody : page.body.IsPart) :
    valuesWhere "link" "rel" "canonical" "href" (documentTags s r page) =
      [s.urlFor page.route.path] := by
  have htag : "link" ∉ partTags ++ spanTags := by decide
  rw [valuesWhere_documentTags s r hbody htag (fun _ => rfl) (fun _ => rfl)]
  rfl

theorem property_documentTags (hbody : page.body.IsPart) :
    valuesWhere "meta" "property" "og:url" "content" (documentTags s r page) =
      [s.urlFor page.route.path] := by
  have htag : "meta" ∉ partTags ++ spanTags := by decide
  rw [valuesWhere_documentTags s r hbody htag (fun _ => rfl) (fun _ => rfl)]
  rfl

end

theorem document_addresses (s : Settings) (r : Resolver) (route : Route) :
    ∃ d ts, (document s Templates.standard r (route.assemble ⟨s, r⟩).value).value = .ok d ∧
      readTokens d = some ts ∧
      valuesWhere "link" "rel" "canonical" "href" ts = [s.urlFor route.path] ∧
      valuesWhere "meta" "property" "og:url" "content" ts = [s.urlFor route.path] := by
  obtain ⟨d, ts, hd, hread, hts⟩ :=
    tags_document s r (route.assemble ⟨s, r⟩).value (body_alike route r s s).wellNamed
  have hbody := isPart_body route s r
  refine ⟨d, ts, hd, hread, ?_, ?_⟩
  · rw [← valuesWhere_tags, hts]
    exact canonical_documentTags s r hbody
  · rw [← valuesWhere_tags, hts]
    exact property_documentTags s r hbody

theorem locations_sitemap (s : Settings) (date : Option Calendar.Date) (routes : List Route) :
    (readSitemap? (sitemap s date routes)).map (List.map Listed.location) =
      some (routes.map (sitemapLocation s)) := by
  have hread : readSitemap? (sitemap s date routes) =
      some ((routes.map (sitemapEntry s date)).map SitemapEntry.listed) := by
    rw [← readSitemap?_entries, List.map_map]
    rfl
  rw [hread, Option.map_some, List.map_map, List.map_map]
  rfl

/-- All addresses of a page are one. An address is the origin and a path below the base path, so it
does not matter whether the origin is put before the path or before the site path; links and assets
are resolved below the same base path, which begins and ends with a slash and is normal. The
document of a page, whatever it is resolved with, has as its canonical address and in its preview
the origin before the target of a link to the page, and the sitemap has the same address, with one
slash at its end if the site wants one there. -/
theorem addresses_agree (s : Settings) :
    let address : Route → String := fun route =>
      Text.trimEnd Text.isSlash s.site.url ++ s.assetPath route.path
    (∀ path, s.urlFor path = s.absoluteUrl (s.assetPath path)) ∧
    ((Resolver.ofSettings s).basePath = s.basePath ∧ s.basePath.toList.head? = some '/' ∧
      s.basePath.toList.getLast? = some '/' ∧ normalizeBase s.basePath = s.basePath) ∧
    (∀ name, Text.trim name = name → (∃ c ∈ name.toList, c ≠ '/') →
      (Resolver.ofSettings s).asset name = .url (s.assetPath name)) ∧
    (∀ route, (Resolver.ofSettings s).link route.path = .url (s.assetPath route.path) ∧
      ∀ r, ∃ d ts,
        (document s Templates.standard r (route.assemble ⟨s, r⟩).value).value = .ok d ∧
        readTokens d = some ts ∧
        valuesWhere "link" "rel" "canonical" "href" ts = [address route] ∧
        valuesWhere "meta" "property" "og:url" "content" ts = [address route]) ∧
    ∀ date routes, (readSitemap? (sitemap s date routes)).map (List.map Listed.location) =
      some (routes.map fun route =>
        if s.sitemap.trailingSlash then Text.trimEnd Text.isSlash (address route) ++ "/"
        else address route) := by
  intro address
  have hbase := isBase_basePath s
  refine ⟨urlFor_eq_absoluteUrl s, ⟨basePath_ofSettings s, hbase.head?_eq, hbase.getLast?_eq,
    hbase.normalizeBase_eq⟩, fun name => asset_ofSettings s, fun route => ⟨link_path s route,
    fun r => document_addresses s r route⟩, fun date routes => ?_⟩
  rw [locations_sitemap]
  exact congrArg some (List.map_congr_left fun route _ => sitemapLocation_eq s route)

/-- An origin and a base path that are written with too many slashes, and an asset below them. -/
theorem addresses_agree_slashes :
    let s : Settings :=
      { site := { title := "T", url := "https://t.example//", baseUrl := "//docs//v1//" }
        sitemap := { trailingSlash := true } }
    Text.trim "//img//logo.png" = "//img//logo.png" ∧
      (∃ c ∈ "//img//logo.png".toList, c ≠ '/') ∧
      (Resolver.ofSettings s).asset "//img//logo.png" = .url "/docs//v1/img//logo.png" ∧
      (Resolver.ofSettings s).link "/community" = .url "/docs//v1/community" ∧
      (readSitemap? (sitemap s none Route.all)).map (List.map Listed.location) =
        some ["https://t.example/docs//v1/", "https://t.example/docs//v1/community/"] := by
  intro s
  obtain ⟨-, -, hasset, hroutes, hsitemap⟩ := addresses_agree s
  have htrim : Text.trim "//img//logo.png" = "//img//logo.png" := by decide +kernel
  have hname : ∃ c ∈ "//img//logo.png".toList, c ≠ '/' := ⟨'i', by decide, by decide⟩
  have hpath : s.assetPath "//img//logo.png" = "/docs//v1/img//logo.png" := by decide +kernel
  have hroute : s.assetPath Route.community.path = "/docs//v1/community" := by decide +kernel
  refine ⟨htrim, hname, ?_, ?_, ?_⟩
  · rw [hasset _ htrim hname, hpath]
  · rw [← hroute]
    exact (hroutes .community).1
  · rw [hsitemap]
    decide +kernel

end StaticSite
