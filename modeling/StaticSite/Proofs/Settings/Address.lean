import StaticSite.Page.Sitemap
import StaticSite.Proofs.Resolver

/-!
# Addresses below a base path

A base path is one slash, or a path between two slashes that has no further ones at its ends. All
ways to make an address join such a path, and the origin of the site, which ends in no slash, with a
path that begins with none; so they give one address.
-/

namespace StaticSite

open Text

theorem singleton_slash : String.singleton '/' = "/" := rfl

/-- A slash, or a path between two slashes. -/
inductive IsBase : String → Prop
  | root : IsBase "/"
  | below {path : String} (hne : path ≠ "") (h : IsTrimmed isSlash path) :
    IsBase ("/" ++ path ++ "/")

theorem head?_append_of_isTrimmed {path : String} (hne : path ≠ "") (h : IsTrimmed isSlash path)
    (s : String) : ∀ c ∈ (path ++ s).toList.head?, isSlash c = false := by
  obtain ⟨d, ds, hd⟩ := List.exists_cons_of_ne_nil fun hnil => hne (String.toList_eq_nil_iff.1 hnil)
  intro c hc
  apply h.head c
  rw [String.toList_append, hd] at hc
  rw [hd]
  exact hc

theorem isBase_normalizeBase (base : String) : IsBase (normalizeBase base) := by
  simp only [normalizeBase]
  split
  · exact .root
  · rename_i hne
    exact .below hne (isTrimmed_trimBoth isSlash base)

namespace IsBase

variable {b : String}

theorem exists_eq_slash_append (h : IsBase b) :
    ∃ rest, b = "/" ++ rest ∧ ∀ c ∈ rest.toList.head?, isSlash c = false := by
  cases h with
  | root => exact ⟨"", rfl, fun c hc => by cases hc⟩
  | @below path hne h =>
    exact ⟨path ++ "/", String.append_assoc, head?_append_of_isTrimmed hne h "/"⟩

theorem exists_eq_append_slash (h : IsBase b) :
    ∃ front, b = front ++ "/" ∧ ∀ c ∈ front.toList.getLast?, isSlash c = false := by
  cases h with
  | root => exact ⟨"", rfl, fun c hc => by cases hc⟩
  | @below path hne h =>
    refine ⟨"/" ++ path, rfl, fun c hc => h.last c ?_⟩
    have hpath : path.toList ≠ [] := fun hnil => hne (String.toList_eq_nil_iff.1 hnil)
    rwa [String.toList_append, List.getLast?_append_of_ne_nil _ hpath] at hc

theorem head?_eq (h : IsBase b) : b.toList.head? = some '/' := by
  obtain ⟨rest, rfl, -⟩ := h.exists_eq_slash_append
  rw [String.toList_append]
  rfl

theorem getLast?_eq (h : IsBase b) : b.toList.getLast? = some '/' := by
  obtain ⟨front, rfl, -⟩ := h.exists_eq_append_slash
  rw [String.toList_append]
  exact List.getLast?_concat

theorem normalizeBase_eq (h : IsBase b) : normalizeBase b = b := by
  cases h with
  | root => decide
  | @below path hne h =>
    have hstart : trimStart isSlash ("/" ++ path ++ "/") = path ++ "/" := by
      rw [String.append_assoc, ← siteRelative, siteRelative_slash_append, siteRelative,
        trimStart_eq_self (head?_append_of_isTrimmed hne h "/")]
    have hend : trimEnd isSlash (path ++ "/") = path := by
      rw [← singleton_slash, trimEnd_append_of_pos rfl, trimEnd_eq_self h.last]
    simp only [normalizeBase, trimBoth, hstart, hend, if_neg hne]

/-- Below a base path there is one slash to take away from the start. -/
theorem slash_siteRelative_append (h : IsBase b) {path : String} (hp : siteRelative path = path) :
    "/" ++ siteRelative (b ++ path) = b ++ path := by
  obtain ⟨rest, rfl, hrest⟩ := h.exists_eq_slash_append
  have hhead : ∀ c ∈ (rest ++ path).toList.head?, isSlash c = false := by
    have hpath := head?_trimStart isSlash path
    rw [← siteRelative, hp] at hpath
    intro c hc
    rw [String.toList_append, List.head?_append] at hc
    rcases Option.or_eq_some_iff.1 hc with hc | ⟨-, hc⟩
    · exact hrest c hc
    · exact hpath c hc
  rw [String.append_assoc, siteRelative_slash_append, siteRelative, trimStart_eq_self hhead]

theorem trimEnd_append (h : IsBase b) {origin : String}
    (ho : ∀ c ∈ origin.toList.getLast?, isSlash c = false) :
    trimEnd isSlash (origin ++ b) ++ "/" = origin ++ b := by
  obtain ⟨front, rfl, hfront⟩ := h.exists_eq_append_slash
  have hlast : ∀ c ∈ (origin ++ front).toList.getLast?, isSlash c = false := by
    intro c hc
    rw [String.toList_append, List.getLast?_append] at hc
    rcases Option.or_eq_some_iff.1 hc with hc | ⟨-, hc⟩
    · exact hfront c hc
    · exact ho c hc
  rw [← String.append_assoc, ← singleton_slash, trimEnd_append_of_pos rfl, trimEnd_eq_self hlast]

end IsBase

theorem isBase_basePath (s : Settings) : IsBase s.basePath := isBase_normalizeBase s.site.baseUrl

theorem basePath_ofSettings (s : Settings) : (Resolver.ofSettings s).basePath = s.basePath := by
  simp only [Resolver.ofSettings, Resolver.ofBase, (isBase_basePath s).normalizeBase_eq]

theorem absoluteUrl_below (s : Settings) (path : String) :
    s.absoluteUrl (s.basePath ++ siteRelative path) =
      s.origin ++ (s.basePath ++ siteRelative path) := by
  have hpath : siteRelative (siteRelative path) = siteRelative path := trimStart_trimStart _ path
  have hjoin := (isBase_basePath s).slash_siteRelative_append hpath
  rw [Settings.absoluteUrl, String.append_assoc]
  exact congrArg (s.origin ++ ·) hjoin

theorem urlFor_eq_absoluteUrl (s : Settings) (path : String) :
    s.urlFor path = s.absoluteUrl (s.assetPath path) :=
  (absoluteUrl_below s path).symm

theorem asset_ofSettings (s : Settings) {name : String} (htrim : trim name = name)
    (hname : ∃ c ∈ name.toList, c ≠ '/') :
    (Resolver.ofSettings s).asset name = .url (s.assetPath name) := by
  obtain ⟨c, hc, hslash⟩ := hname
  have hlogical : Resolver.logicalName name = siteRelative name := by
    rw [Resolver.logicalName, htrim]
  have hne : siteRelative name ≠ "" := by
    intro hempty
    rw [← String.toList_inj, siteRelative, toList_trimStart] at hempty
    have hall := List.dropWhile_eq_nil_iff.1 hempty c hc
    exact hslash (beq_iff_eq.1 hall)
  simp only [Resolver.asset, hlogical, if_neg hne]
  rw [basePath_ofSettings]
  rfl

theorem not_external_of_slash (path : List Char) :
    externalSchemes.any (fun scheme => scheme.toList.isPrefixOf ('/' :: path)) = false := rfl

theorem link_of_slash (r : Resolver) {target : String} {path : List Char}
    (hpath : target.toList = '/' :: path) (hsolid : IsSolid target) :
    r.link target = .url (r.basePath ++ String.ofList path) := by
  have htrim : trim target = target := hsolid.trim
  have hne : target ≠ "" := by
    rintro rfl
    cases hpath
  have hblank : ('/' :: path).any isBlank = false := by
    rw [← hpath, List.any_eq_false]
    intro c hc
    rw [hsolid c hc]
    exact Bool.false_ne_true
  have hfragment : beginsWith "#" target = false := by
    rw [beginsWith, hpath]
    rfl
  have hexternal : externalSchemes.any (fun scheme => beginsWith scheme target) = false := by
    simp only [beginsWith, hpath]
    exact not_external_of_slash path
  simp only [Resolver.link, htrim, hne, hblank, hexternal, hfragment, hpath, false_or,
    Bool.false_eq_true, if_false]

theorem link_path (s : Settings) (route : Route) :
    (Resolver.ofSettings s).link route.path = .url (s.assetPath route.path) := by
  have hlink : ∀ path, route.path.toList = '/' :: path → IsSolid route.path →
      (Resolver.ofSettings s).link route.path = .url (s.basePath ++ String.ofList path) := by
    intro path hpath hsolid
    rw [link_of_slash _ hpath hsolid, basePath_ofSettings]
  cases route with
  | home => exact hlink [] rfl (by decide)
  | community => exact hlink "community".toList rfl (by decide)

theorem sitemapLocation_eq (s : Settings) (route : Route) :
    sitemapLocation s route =
      if s.sitemap.trailingSlash then trimEnd isSlash (s.urlFor route.path) ++ "/"
      else s.urlFor route.path := by
  cases route with
  | home =>
    have hurl : s.urlFor Route.home.path = s.origin ++ s.basePath := by
      show s.origin ++ (s.basePath ++ "") = _
      rw [String.append_empty]
    have hend : trimEnd isSlash (s.origin ++ s.basePath) ++ "/" = s.origin ++ s.basePath :=
      (isBase_basePath s).trimEnd_append (getLast?_trimEnd isSlash s.site.url)
    have hlast : (s.origin ++ s.basePath).toList.getLast? = some '/' := by
      rw [String.toList_append, List.getLast?_append, (isBase_basePath s).getLast?_eq]
      rfl
    simp only [sitemapLocation, hurl, withSlash, hlast, hend, if_true]
  | community =>
    have hlast : (s.urlFor Route.community.path).toList.getLast? = some 'y' := by
      show (s.origin ++ (s.basePath ++ "community")).toList.getLast? = some 'y'
      rw [← String.append_assoc, String.toList_append, List.getLast?_append]
      rfl
    have hend : trimEnd isSlash (s.urlFor Route.community.path) =
        s.urlFor Route.community.path := by
      refine trimEnd_eq_self fun c hc => ?_
      rw [hlast] at hc
      obtain rfl := Option.some.inj hc
      rfl
    have hne : ¬some 'y' = some '/' := by decide
    have hroute : ¬Route.community = Route.home := by decide
    simp only [sitemapLocation, withSlash, hlast, hend, if_neg hne, if_neg hroute]

end StaticSite
