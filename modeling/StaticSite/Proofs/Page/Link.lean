import StaticSite.Page.Document
import StaticSite.Proofs.Settings.Address

/-!
# Links to site paths

A target that begins with a slash is a site path: a link to it is the base path and what follows the
slash. Further slashes that the target begins with are kept, unlike those of assets and of routes.
-/

namespace StaticSite

open Text

theorem exists_of_beginsWith {start s : String} (h : beginsWith start s = true) :
    ∃ rest, s = start ++ rest := by
  obtain ⟨rest, hrest⟩ := List.isPrefixOf_iff_prefix.1 h
  exact ⟨String.ofList rest, by
    rw [← String.toList_inj, String.toList_append, String.toList_ofList, hrest]⟩

theorem beginsWith_slashes (s : String) : beginsWith "//" ("/" ++ s) = beginsWith "/" s := by
  rw [beginsWith, beginsWith, String.toList_append]
  rfl

theorem beginsWith_slash_eq_false_iff {s : String} :
    beginsWith "/" s = false ↔ ∀ c ∈ s.toList.head?, isSlash c = false := by
  have hslash : "/".toList = ['/'] := rfl
  rw [beginsWith, hslash]
  cases s.toList with
  | nil => exact ⟨fun _ c hc => (by cases hc), fun _ => rfl⟩
  | cons d ds =>
    have hhead : ['/'].isPrefixOf (d :: ds) = isSlash d := by
      rw [List.isPrefixOf, List.isPrefixOf, Bool.and_true, isSlash]
      exact BEq.comm
    rw [hhead]
    exact ⟨fun h c hc => Option.some.inj hc ▸ h, fun h => h d rfl⟩

theorem siteRelative_eq_self_iff {s : String} :
    siteRelative s = s ↔ beginsWith "/" s = false := by
  rw [beginsWith_slash_eq_false_iff, siteRelative]
  exact ⟨fun h => h ▸ head?_trimStart isSlash s, trimStart_eq_self⟩

namespace IsBase

variable {b : String}

theorem beginsWith_slashes_append (h : IsBase b) (path : String) :
    beginsWith "//" (b ++ path) = true ↔ b = "/" ∧ beginsWith "/" path = true := by
  cases h with
  | root => rw [beginsWith_slashes, eq_self_iff_true, true_and]
  | @below inner hne h =>
    have hinner : beginsWith "/" (inner ++ ("/" ++ path)) = false :=
      beginsWith_slash_eq_false_iff.2 (head?_append_of_isTrimmed hne h _)
    have hroot : "/" ++ inner ++ "/" ≠ "/" := by
      intro hroot
      have hlength := congrArg String.length hroot
      rw [String.length_append, String.length_append] at hlength
      have hinnerLength : inner.length = 0 := by
        have hone : "/".length = 1 := rfl
        omega
      exact hne (String.length_eq_zero_iff.1 hinnerLength)
    rw [String.append_assoc, String.append_assoc, beginsWith_slashes, hinner]
    exact ⟨fun h => (Bool.false_ne_true h).elim, fun h => (hroot h.1).elim⟩

/-- A path below a base path is taken for a part of the site. -/
theorem not_isExternal_append (h : IsBase b) {path : String} (hsolid : IsSolid path) :
    isExternal (b ++ path) = false := by
  obtain ⟨rest, hrest, -⟩ := h.exists_eq_slash_append
  have hlist : (b ++ path).toList = '/' :: (rest ++ path).toList := by
    rw [hrest, String.append_assoc, String.toList_append]
    rfl
  have htrim : trim (b ++ path) = b ++ path := by
    refine IsTrimmed.trimBoth_eq ⟨fun c hc => ?_, fun c hc => ?_⟩
    · rw [hlist] at hc
      cases hc
      rfl
    · rw [String.toList_append, List.getLast?_append, h.getLast?_eq] at hc
      rcases Option.or_eq_some_iff.1 hc with hc | ⟨-, hc⟩
      · exact hsolid c (List.mem_of_getLast? hc)
      · cases hc
        rfl
  simp only [isExternal, htrim, beginsWith, hlist]
  exact not_external_of_slash _

end IsBase

theorem anchorElement_eq {className : String} (hne : className ≠ "") (hclass : IsSolid className)
    (address : String) : anchorElement className address =
      { tag := "a"
        attributes := ("class", className) :: ("href", address) ::
          if isExternal address then [("target", "_blank"), ("rel", "noopener noreferrer")]
          else [] } := by
  simp only [anchorElement]
  split <;> simp [Element.addClass, hclass.trim, hne, Element.setAttribute,
    Element.updateAttribute]

theorem anchorElement_of_not_isExternal {className address : String} (hne : className ≠ "")
    (hclass : IsSolid className) (h : isExternal address = false) :
    anchorElement className address =
      { tag := "a", attributes := [("class", className), ("href", address)] } := by
  rw [anchorElement_eq hne hclass, h]
  rfl

theorem navLink_of_not_isExternal {r : Resolver} {item : NavItem} {address : String}
    (hlink : r.link item.target = .url address) (h : isExternal address = false) :
    navLink r item =
      pure (.element "a" [("class", "navbar__link"), ("href", address)] [.text item.label]) := by
  unfold navLink
  simp only [hlink,
    anchorElement_of_not_isExternal (by decide : "navbar__link" ≠ "") (by decide) h]
  rfl

theorem renderItem_of_not_isExternal {r : Resolver} {item : ContentItem} {target address : String}
    (hitem : item.link = some target) (hlink : r.link target = .url address)
    (h : isExternal address = false) :
    (FooterSection.renderItem r item).value =
      block "shift-footer__item"
        [.element "a" [("class", "shift-footer__link"), ("href", address)]
          [(FooterSection.icon r item).value, FooterSection.label item,
            arrow FooterSection.component .right]] := by
  have hclass : elementClass FooterSection.component "link" = "shift-footer__link" := by
    decide +kernel
  have hblock : elementClass FooterSection.component "item" = "shift-footer__item" := by
    decide +kernel
  simp only [FooterSection.renderItem, Logged.value_bind, Logged.value_pure, hitem,
    Option.getD_some, hlink, anchor, hclass, hblock,
    anchorElement_of_not_isExternal (by decide : "shift-footer__link" ≠ "") (by decide) h]
  rfl

/-- A link to a site path leads to the base path with what follows the first slash of the target.
This is the address of the target on the site, unless the target begins with two slashes: then the
further slashes are kept, and below the root the address begins with two slashes as well, which is
the address of another host. Links to it are still drawn as links to the site. -/
theorem link_of_site_path (s : Settings) {target : String} (hslash : beginsWith "/" target = true)
    (hsolid : IsSolid target) :
    ∃ path, target = "/" ++ path ∧
      let r := Resolver.ofSettings s
      let address := s.basePath ++ path
      r.link target = .url address ∧
      (address = s.assetPath target ↔ beginsWith "//" target = false) ∧
      (beginsWith "//" address = true ↔ s.basePath = "/" ∧ beginsWith "//" target = true) ∧
      isExternal address = false ∧
      (∀ item : NavItem, item.target = target →
        navLink r item =
          pure (.element "a" [("class", "navbar__link"), ("href", address)]
            [.text item.label])) ∧
      ∀ item : ContentItem, item.link = some target →
        (FooterSection.renderItem r item).value =
          block "shift-footer__item"
            [.element "a" [("class", "shift-footer__link"), ("href", address)]
              [(FooterSection.icon r item).value, FooterSection.label item,
                arrow FooterSection.component .right]] := by
  obtain ⟨path, rfl⟩ := exists_of_beginsWith hslash
  have hbase := isBase_basePath s
  have hpath : IsSolid path := by
    intro c hc
    exact hsolid c (by rw [String.toList_append]; exact List.mem_append_right _ hc)
  have hlink : (Resolver.ofSettings s).link ("/" ++ path) = .url (s.basePath ++ path) := by
    have hlist : ("/" ++ path).toList = '/' :: path.toList := String.toList_append
    rw [link_of_slash _ hlist hsolid, basePath_ofSettings, String.ofList_toList]
  have hlocal : isExternal (s.basePath ++ path) = false := hbase.not_isExternal_append hpath
  refine ⟨path, rfl, hlink, ?_, ?_, hlocal, ?_, ?_⟩
  · have hsame : ∀ b : String, b ++ path = b ++ siteRelative path ↔ siteRelative path = path := by
      intro b
      rw [String.append_right_inj]
      exact eq_comm
    rw [Settings.assetPath, ← siteRelative, siteRelative_slash_append, beginsWith_slashes,
      ← siteRelative_eq_self_iff]
    exact hsame s.basePath
  · rw [beginsWith_slashes]
    exact hbase.beginsWith_slashes_append path
  · intro item hitem
    rw [← hitem] at hlink
    exact navLink_of_not_isExternal hlink hlocal
  · intro item hitem
    exact renderItem_of_not_isExternal hitem hlink hlocal

/-- A target below a base path that is not the root keeps its second slash. -/
theorem link_of_site_path_below :
    let s : Settings :=
      { site := { title := "T", url := "https://t.example", baseUrl := "site" }
        navbar := { items := [⟨"//docs", "Docs", .left⟩] } }
    beginsWith "/" "//docs" = true ∧ IsSolid "//docs" ∧
      (Resolver.ofSettings s).link "//docs" = .url "/site//docs" ∧
      s.assetPath "//docs" = "/site/docs" ∧ beginsWith "//" "/site//docs" = false ∧
      (navLink (Resolver.ofSettings s) ⟨"//docs", "Docs", .left⟩).value =
        .element "a" [("class", "navbar__link"), ("href", "/site//docs")] [.text "Docs"] := by
  intro s
  have hslash : beginsWith "/" "//docs" = true := by decide +kernel
  have hsolid : IsSolid "//docs" := by decide +kernel
  obtain ⟨path, hpath, hlink, -, -, -, hitem, -⟩ := link_of_site_path s hslash hsolid
  have hbase : s.basePath = "/site/" := by decide +kernel
  obtain rfl : path = "/docs" := by
    have hsplit : "//docs" = "/" ++ "/docs" := by decide +kernel
    rw [hsplit, String.append_right_inj] at hpath
    exact hpath.symm
  have haddress : s.basePath ++ "/docs" = "/site//docs" := by
    rw [hbase]
    decide +kernel
  rw [haddress] at hlink hitem
  refine ⟨hslash, hsolid, hlink, by decide +kernel, by decide +kernel, ?_⟩
  rw [hitem _ rfl]
  rfl

/-- At the root a target with two slashes leads to another host, and its link is drawn as one of the
site. The site path of the same target stays on the site. -/
theorem link_leaves_site :
    let s : Settings := { site := { title := "T", url := "https://t.example" } }
    beginsWith "/" "//host/docs" = true ∧ IsSolid "//host/docs" ∧
      (Resolver.ofSettings s).link "//host/docs" = .url "//host/docs" ∧
      isExternal "//host/docs" = false ∧ s.assetPath "//host/docs" = "/host/docs" ∧
      (Resolver.ofSettings s).link "//host/docs" ≠ .url (s.assetPath "//host/docs") := by
  decide +kernel

end StaticSite
