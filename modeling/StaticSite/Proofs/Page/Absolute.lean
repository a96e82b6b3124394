import StaticSite.Proofs.Page.Address
import StaticSite.Proofs.Page.Link

/-!
# Absolute addresses

Every address of a site is its origin followed by a path that begins with one slash. Validation asks
for an address of the site that is not blank. The origin is what is left of it without the slashes
at its end, and that may be nothing: the address `/` is accepted, and all addresses made from it
lead to paths. An address made from accepted settings leads to a path of whichever site it is read
on if and only if the address in the settings does.
-/

namespace StaticSite

open Text Html

/-- A path that begins with exactly one slash. -/
def IsRooted (path : String) : Prop := ∃ rest, path = "/" ++ rest ∧ beginsWith "/" rest = false

/-- Whether an address names a path and no site: after blanks, it begins with a slash. -/
def isSiteRelative (address : String) : Bool := beginsWith "/" (trimStart isBlank address)

theorem IsBase.isRooted_append {b : String} (h : IsBase b) (path : String) :
    IsRooted (b ++ siteRelative path) := by
  have hpath : siteRelative (siteRelative path) = siteRelative path := trimStart_trimStart _ path
  exact ⟨_, (h.slash_siteRelative_append hpath).symm,
    siteRelative_eq_self_iff.1 (trimStart_trimStart _ _)⟩

theorem isSiteRelative_append_of_blank {blanks : String} (h : isBlankText blanks = true)
    (rest : String) : isSiteRelative (blanks ++ ("/" ++ rest)) = true := by
  have hslash : trimStart isBlank ("/" ++ rest) = "/" ++ rest := by
    refine trimStart_eq_self fun c hc => ?_
    rw [String.toList_append] at hc
    cases hc
    rfl
  rw [isBlankText, List.all_eq_true] at h
  rw [isSiteRelative, trimStart_append_of_all h, hslash, beginsWith, String.toList_append]
  rfl

theorem isSiteRelative_append_of_not_blank {start : String} (h : isBlankText start = false)
    (rest : String) : isSiteRelative (start ++ rest) = isSiteRelative start := by
  have hexists : ∃ c ∈ start.toList, isBlank c = false := by simpa [isBlankText] using h
  obtain ⟨c, hc, hblank⟩ := hexists
  have hne : (trimStart isBlank start).toList ≠ [] := by
    rw [toList_trimStart, Ne, List.dropWhile_eq_nil_iff]
    intro hall
    rw [hall c hc] at hblank
    cases hblank
  obtain ⟨d, ds, hd⟩ := List.exists_cons_of_ne_nil hne
  rw [isSiteRelative, isSiteRelative, trimStart_append_of_exists ⟨c, hc, hblank⟩, beginsWith,
    beginsWith, String.toList_append, hd]
  rfl

namespace Settings

variable {s : Settings}

/-- The slashes after the origin are the only thing that the address of the site has and the origin
has not. -/
theorem isBlankText_origin_iff :
    isBlankText s.origin = true ↔
      ∃ blanks slashes, s.site.url = blanks ++ slashes ∧ isBlankText blanks = true ∧
        ∀ c ∈ slashes.toList, c = '/' := by
  constructor
  · intro h
    obtain ⟨slashes, hurl, hslashes⟩ := exists_eq_trimEnd_append isSlash s.site.url
    exact ⟨s.origin, slashes, hurl, h, fun c hc => beq_iff_eq.1 (hslashes c hc)⟩
  · rintro ⟨blanks, slashes, hurl, hblanks, hslashes⟩
    have hlast : ∀ c ∈ blanks.toList.getLast?, isSlash c = false := by
      intro c hc
      rw [isBlankText, List.all_eq_true] at hblanks
      have hblank := hblanks c (List.mem_of_getLast? hc)
      rw [isSlash, beq_eq_false_iff_ne]
      rintro rfl
      cases hblank
    have hall : ∀ c ∈ slashes.toList, isSlash c = true := fun c hc => beq_iff_eq.2 (hslashes c hc)
    rw [origin, hurl, trimEnd_append_of_all hall, trimEnd_eq_self hlast]
    exact hblanks

theorem isSiteRelative_origin_append (hurl : isBlankText s.site.url = false) (rest : String) :
    isSiteRelative (s.origin ++ ("/" ++ rest)) = isSiteRelative s.site.url := by
  obtain ⟨slashes, hslashes, hall⟩ := exists_eq_trimEnd_append isSlash s.site.url
  rw [← origin] at hslashes
  cases horigin : isBlankText s.origin with
  | false =>
    rw [hslashes, isSiteRelative_append_of_not_blank horigin,
      isSiteRelative_append_of_not_blank horigin]
  | true =>
    -- The address is not blank, so it has a slash after the blanks.
    have hne : slashes.toList ≠ [] := by
      intro hnil
      rw [String.toList_eq_nil_iff.1 hnil, String.append_empty] at hslashes
      rw [hslashes, horigin] at hurl
      cases hurl
    obtain ⟨c, cs, hc⟩ := List.exists_cons_of_ne_nil hne
    obtain rfl : c = '/' := beq_iff_eq.1 (hall c (by rw [hc]; exact List.mem_cons_self))
    have hcons : slashes = "/" ++ String.ofList cs := by
      rw [← String.toList_inj]
      simp [hc]
    rw [hslashes, hcons, isSiteRelative_append_of_blank horigin,
      isSiteRelative_append_of_blank horigin]

theorem isRooted_assetPath (s : Settings) (path : String) : IsRooted (s.assetPath path) :=
  (isBase_basePath s).isRooted_append path

theorem isSiteRelative_urlFor (hurl : isBlankText s.site.url = false) (path : String) :
    isSiteRelative (s.urlFor path) = isSiteRelative s.site.url := by
  obtain ⟨rest, hrest, -⟩ := s.isRooted_assetPath path
  rw [urlFor, hrest, isSiteRelative_origin_append hurl]

theorem isSiteRelative_absoluteUrl (hurl : isBlankText s.site.url = false) (path : String) :
    isSiteRelative (s.absoluteUrl path) = isSiteRelative s.site.url := by
  rw [absoluteUrl, String.append_assoc, isSiteRelative_origin_append hurl]

theorem isBlankText_origin_of_not_siteRelative (hurl : isBlankText s.site.url = false)
    (h : isSiteRelative s.site.url = false) : isBlankText s.origin = false := by
  rw [← isSiteRelative_origin_append hurl ""] at h
  refine Bool.not_eq_true _ ▸ fun horigin => ?_
  rw [isSiteRelative_append_of_blank horigin] at h
  cases h

end Settings

theorem exists_sitemapLocation_eq (s : Settings) (route : Route) :
    ∃ rest, sitemapLocation s route = s.origin ++ ("/" ++ rest) := by
  obtain ⟨rest, hrest, -⟩ := s.isRooted_assetPath route.path
  have hurl : s.urlFor route.path = s.origin ++ ("/" ++ rest) := by rw [Settings.urlFor, hrest]
  by_cases htrailing : s.sitemap.trailingSlash
  · simp only [sitemapLocation, if_pos htrailing, withSlash]
    split
    · exact ⟨rest, hurl⟩
    · exact ⟨rest ++ "/", by rw [hurl]; simp only [String.append_assoc]⟩
  · rw [sitemapLocation_eq, if_neg htrailing]
    exact ⟨rest, hurl⟩

theorem isSiteRelative_sitemapLocation {s : Settings} (hurl : isBlankText s.site.url = false)
    (route : Route) : isSiteRelative (sitemapLocation s route) = isSiteRelative s.site.url := by
  obtain ⟨rest, hrest⟩ := exists_sitemapLocation_eq s route
  rw [hrest, Settings.isSiteRelative_origin_append hurl]

/-- Addresses made from accepted settings are the origin, which does not end in a slash, and a path
that begins with exactly one. The origin is blank if and only if the address of the site has nothing
but slashes after blanks. Whether an address has a site is decided by the address of the site: the
addresses of paths, the canonical address of a document and the addresses in a sitemap name a path
and no site if and only if the address in the settings does, and where it does not, the origin is
not blank. -/
theorem accepted_addresses {s : Settings} (h : s.validate.isOk = true) :
    let relative := isSiteRelative s.site.url
    (∀ c ∈ s.origin.toList.getLast?, c ≠ '/') ∧
    (∀ path, ∃ p q, IsRooted p ∧ s.urlFor path = s.origin ++ p ∧
      IsRooted q ∧ s.absoluteUrl path = s.origin ++ q) ∧
    (isBlankText s.origin = true ↔
      ∃ blanks slashes, s.site.url = blanks ++ slashes ∧ isBlankText blanks = true ∧
        ∀ c ∈ slashes.toList, c = '/') ∧
    (relative = false → isBlankText s.origin = false) ∧
    (∀ path, isSiteRelative (s.urlFor path) = relative ∧
      isSiteRelative (s.absoluteUrl path) = relative) ∧
    (∀ (route : Route) (r : Resolver), ∃ d ts address,
      (document s Templates.standard r (route.assemble ⟨s, r⟩).value).value = .ok d ∧
      readTokens d = some ts ∧ valuesWhere "link" "rel" "canonical" "href" ts = [address] ∧
      isSiteRelative address = relative) ∧
    ∀ date routes, ∃ addresses,
      (readSitemap? (sitemap s date routes)).map (List.map Listed.location) = some addresses ∧
      ∀ address ∈ addresses, isSiteRelative address = relative := by
  intro relative
  have hurl := (Settings.isOk_validate_iff.1 h).2.1
  refine ⟨fun c hc => ?_, fun path => ?_, Settings.isBlankText_origin_iff,
    Settings.isBlankText_origin_of_not_siteRelative hurl, fun path => ?_, fun route r => ?_,
    fun date routes => ?_⟩
  · exact beq_eq_false_iff_ne.1 (getLast?_trimEnd isSlash s.site.url c hc)
  · have habsolute : s.absoluteUrl path = s.origin ++ ("/" ++ siteRelative path) := by
      rw [Settings.absoluteUrl, String.append_assoc, siteRelative]
    exact ⟨s.assetPath path, "/" ++ siteRelative path, s.isRooted_assetPath path, rfl,
      IsBase.root.isRooted_append path, habsolute⟩
  · exact ⟨Settings.isSiteRelative_urlFor hurl path, Settings.isSiteRelative_absoluteUrl hurl path⟩
  · obtain ⟨d, ts, hd, hts, hcanonical, -⟩ := document_addresses s r route
    exact ⟨d, ts, s.urlFor route.path, hd, hts, hcanonical,
      Settings.isSiteRelative_urlFor hurl route.path⟩
  · refine ⟨_, locations_sitemap s date routes, fun address haddress => ?_⟩
    obtain ⟨route, -, rfl⟩ := List.mem_map.1 haddress
    exact isSiteRelative_sitemapLocation hurl route

/-- With slashes at the end of its address and a base path that is not normal, a site has absolute
addresses. -/
theorem accepted_addresses_slashes :
    let s : Settings := { site := { title := "T", url := "https://t.example//", baseUrl := "//v1" } }
    s.validate.isOk = true ∧ isSiteRelative s.site.url = false ∧
      isBlankText s.origin = false ∧ isSiteRelative (s.urlFor "img/a.png") = false ∧
      ∃ addresses, (readSitemap? (sitemap s none Route.all)).map (List.map Listed.location) =
          some addresses ∧ ∀ address ∈ addresses, isSiteRelative address = false := by
  intro s
  have hvalid : s.validate.isOk = true := by decide +kernel
  have hrelative : isSiteRelative s.site.url = false := by decide +kernel
  obtain ⟨-, -, -, horigin, hpaths, -, hsitemap⟩ := accepted_addresses hvalid
  obtain ⟨addresses, hread, haddresses⟩ := hsitemap none Route.all
  exact ⟨hvalid, hrelative, horigin hrelative, (hpaths "img/a.png").1.trans hrelative, addresses,
    hread, fun address h => (haddresses address h).trans hrelative⟩

/-- The address of a site may be a slash. No origin is left of it then, and the address of a page is
a path. -/
theorem accepted_address_without_origin :
    let s : Settings := { site := { title := "T", url := "/" } }
    s.validate.isOk = true ∧ s.origin = "" ∧
      (¬∃ origin path, isBlankText origin = false ∧ (∀ c ∈ origin.toList.getLast?, c ≠ '/') ∧
        IsRooted path ∧ s.urlFor "/community" = origin ++ path) ∧
      s.absoluteUrl "/community" = "/community" ∧
      (∃ d ts, (document s Templates.standard (.ofSettings s)
          (Route.community.assemble ⟨s, .ofSettings s⟩).value).value = .ok d ∧
        readTokens d = some ts ∧
        valuesWhere "link" "rel" "canonical" "href" ts = ["/community"]) ∧
      (readSitemap? (sitemap s none Route.all)).map (List.map Listed.location) =
        some ["/", "/community"] := by
  intro s
  have hurl : s.urlFor "/community" = "/community" := by decide +kernel
  refine ⟨by decide +kernel, by decide +kernel, ?_, by decide +kernel, ?_, ?_⟩
  · rintro ⟨origin, path, hblank, -, ⟨rest, rfl, -⟩, heq⟩
    have hchars : "/community".toList = origin.toList ++ '/' :: rest.toList := by
      rw [← hurl, heq]
      simp
    cases horigin : origin.toList with
    | nil =>
      rw [isBlankText, horigin] at hblank
      cases hblank
    | cons c cs =>
      -- The address has one slash, and it is the first character.
      have hcount := congrArg (List.count '/') hchars
      rw [horigin] at hchars hcount
      obtain rfl : '/' = c := (List.cons.inj hchars).1
      have hone : "/community".toList.count '/' = 1 := by decide +kernel
      rw [hone, List.count_append, List.count_cons_self, List.count_cons_self] at hcount
      omega
  · obtain ⟨d, ts, hd, hts, hcanonical, -⟩ := document_addresses s (.ofSettings s) .community
    exact ⟨d, ts, hd, hts, hcanonical.trans (congrArg (fun a => [a]) hurl)⟩
  · rw [locations_sitemap]
    decide +kernel

end StaticSite
