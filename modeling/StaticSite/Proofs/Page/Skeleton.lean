import StaticSite.Page.Document
import StaticSite.Proofs.Section.Alike
import StaticSite.Proofs.Template.Shell

/-!
# Free text and the structure of documents

The free texts of the settings are the title, tagline, address, language and keywords of the site,
the labels of the navigation bar, and the text in place of the logo. Settings that differ in nothing
else give documents with the same skeleton, whatever characters the free texts hold.
-/

namespace StaticSite

open Html

def Site.withoutFreeText (s : Site) : Site :=
  { s with title := "", tagline := "", url := "", language := "", keywords := [] }

def Logo.withoutFreeText (l : Logo) : Logo := { l with alt := "" }

def NavItem.withoutFreeText (i : NavItem) : NavItem := { i with label := "" }

def Settings.withoutFreeText (s : Settings) : Settings :=
  { s with
    site := s.site.withoutFreeText
    navbar :=
      { logo := s.navbar.logo.map Logo.withoutFreeText
        items := s.navbar.items.map NavItem.withoutFreeText } }

section

variable {s s' : Settings}

theorem logo_of_withoutFreeText (h : s.withoutFreeText = s'.withoutFreeText) :
    s.navbar.logo.map Logo.withoutFreeText = s'.navbar.logo.map Logo.withoutFreeText :=
  congrArg (fun t => t.navbar.logo) h

theorem items_of_withoutFreeText (h : s.withoutFreeText = s'.withoutFreeText) :
    s.navbar.items.map NavItem.withoutFreeText = s'.navbar.items.map NavItem.withoutFreeText :=
  congrArg (fun t => t.navbar.items) h

theorem favicon_of_withoutFreeText (h : s.withoutFreeText = s'.withoutFreeText) :
    s.site.favicon = s'.site.favicon :=
  congrArg (fun t => t.site.favicon) h

theorem image_of_withoutFreeText (h : s.withoutFreeText = s'.withoutFreeText) :
    s.site.image = s'.site.image :=
  congrArg (fun t => t.site.image) h

end

/-- The body of a page has the same tags for all settings. -/
theorem body_alike (route : Route) (resolver : Resolver) (s s' : Settings) :
    (route.assemble ⟨s, resolver⟩).value.body.Alike (route.assemble ⟨s', resolver⟩).value.body := by
  have hsections : Node.AllAlike
      (Logged.each (PageSection.render ⟨s, resolver⟩) route.sections).value
      (Logged.each (PageSection.render ⟨s', resolver⟩) route.sections).value := by
    rw [Logged.value_each, Logged.value_each]
    exact Node.AllAlike.map fun p _ => pageSection_alike p s s' resolver
  exact block_alike "page" hsections

theorem navLink_alike (resolver : Resolver) {item item' : NavItem}
    (h : item.target = item'.target) :
    (navLink resolver item).value.Alike (navLink resolver item').value := by
  unfold navLink
  rw [← h]
  split
  · rename_i address _
    exact ((anchorElement_alike "navbar__link" address).append
      (Node.Alike.text item.label item'.label)).node
  · rename_i reference _
    exact placeholder_alike "navbar" reference

theorem navLinks_alike (resolver : Resolver) (side : Side) {items items' : List NavItem}
    (h : items.map NavItem.withoutFreeText = items'.map NavItem.withoutFreeText) :
    Node.AllAlike
        ((items.filter fun i => i.side = side).map fun i => (navLink resolver i).value)
        ((items'.filter fun i => i.side = side).map fun i => (navLink resolver i).value) ∧
      (items.filter fun i => i.side = side).length =
        (items'.filter fun i => i.side = side).length := by
  induction items generalizing items' with
  | nil =>
    cases items' with
    | nil => exact ⟨Node.AllAlike.nil, rfl⟩
    | cons item' items' => cases h
  | cons item items ih =>
    cases items' with
    | nil => cases h
    | cons item' items' =>
      rw [List.map_cons, List.map_cons, List.cons.injEq] at h
      obtain ⟨hitem, hrest⟩ := h
      obtain ⟨hlinks, hlength⟩ := ih hrest
      have htarget : item.target = item'.target := congrArg (fun i => i.target) hitem
      have hside : item.side = item'.side := congrArg (fun i => i.side) hitem
      by_cases hs : item.side = side
      · have hs' : item'.side = side := hside ▸ hs
        simp only [List.filter_cons, hs, hs', decide_true, if_true, List.map_cons,
          List.length_cons, hlength, and_true]
        exact hlinks.cons (navLink_alike resolver htarget)
      · have hs' : ¬ item'.side = side := hside ▸ hs
        simp only [List.filter_cons, hs, hs', decide_false, Bool.false_eq_true, if_false]
        exact ⟨hlinks, hlength⟩

theorem navGroup_alike (resolver : Resolver) (side : Side) {s s' : Settings}
    (h : s.withoutFreeText = s'.withoutFreeText) :
    Node.AllAlike (navGroup s resolver side).value (navGroup s' resolver side).value := by
  obtain ⟨hlinks, hlength⟩ := navLinks_alike resolver side (items_of_withoutFreeText h)
  simp only [navGroup, Logged.value_bind, Logged.value_each]
  -- Whether there is a group at all depends on the number of links, which labels do not change.
  by_cases hnone : (s.navbar.items.filter fun i => i.side = side).length = 0
  · have hnone' := hlength ▸ hnone
    rw [List.length_eq_zero_iff] at hnone hnone'
    simp only [hnone, hnone', List.map_nil, List.isEmpty_nil, if_true, Logged.value_pure]
    exact Node.AllAlike.nil
  · have hnone' := hlength ▸ hnone
    rw [List.length_eq_zero_iff] at hnone hnone'
    simp only [List.isEmpty_iff, List.map_eq_nil_iff, hnone, hnone', if_false, Logged.value_pure]
    have hgroup := ((Element.Alike.ofTag "div" (by decide)).addClass "navbar__items").addClass
      ("navbar__items--" ++ side.name)
    exact Node.AllAlike.singleton (hgroup.appendAll hlinks).node

theorem brandContent_alike (resolver : Resolver) {s s' : Settings}
    (h : s.withoutFreeText = s'.withoutFreeText) :
    (brandContent s resolver).value.Alike (brandContent s' resolver).value := by
  have hlogo := logo_of_withoutFreeText h
  unfold brandContent
  cases hl : s.navbar.logo with
  | none =>
    cases hl' : s'.navbar.logo with
    | none => exact Node.Alike.text s.site.title s'.site.title
    | some logo' =>
      rw [hl, hl'] at hlogo
      cases hlogo
  | some logo =>
    cases hl' : s'.navbar.logo with
    | none =>
      rw [hl, hl'] at hlogo
      cases hlogo
    | some logo' =>
      rw [hl, hl', Option.map_some, Option.map_some, Option.some.injEq] at hlogo
      have hsrc : logo.src = logo'.src := congrArg (fun l => l.src) hlogo
      show (image "navbar" "navbar__logo" (resolver.asset logo.src) logo.alt).value.Alike
        (image "navbar" "navbar__logo" (resolver.asset logo'.src) logo'.alt).value
      rw [← hsrc]
      exact image_alike "navbar" "navbar__logo" (resolver.asset logo.src) logo.alt logo'.alt

theorem navbar_alike (resolver : Resolver) {s s' : Settings}
    (h : s.withoutFreeText = s'.withoutFreeText) :
    (navbar s resolver).value.Alike (navbar s' resolver).value := by
  have hhref : IsName "href" := by decide
  have hlink := ((Element.Alike.ofTag "a" (by decide)).addClass "navbar__brand").setAttribute
    hhref (homeAddress resolver) (homeAddress resolver)
  have hbrand := (hlink.append (brandContent_alike resolver h)).node
  have hgroups : Node.AllAlike (Logged.each (navGroup s resolver) Side.all).value.flatten
      (Logged.each (navGroup s' resolver) Side.all).value.flatten := by
    rw [Logged.value_each, Logged.value_each]
    exact Node.AllAlike.flatten_map fun side _ => navGroup_alike resolver side h
  exact ((((Element.Alike.ofTag "nav" (by decide)).addClass "navbar").append hbrand).appendAll
    hgroups).node

theorem headElement_alike {tag name₁ name₂ : String} (ht : IsName tag) (h₁ : IsName name₁)
    (h₂ : IsName name₂) (v₁ v₁' v₂ v₂' : String) :
    (headElement tag name₁ v₁ name₂ v₂).Alike (headElement tag name₁ v₁' name₂ v₂') :=
  (((Element.Alike.ofTag tag ht).setAttribute h₁ v₁ v₁').setAttribute h₂ v₂ v₂').node

theorem previewTags_alike (url url' : String) : (previewTags url).Alike (previewTags url') := by
  have hmeta : IsName "meta" := by decide
  have hproperty : IsName "property" := by decide
  have hname : IsName "name" := by decide
  have hcontent : IsName "content" := by decide
  have himage := headElement_alike hmeta hproperty hcontent "og:image" "og:image" url url'
  have htwitter := headElement_alike hmeta hname hcontent "twitter:image" "twitter:image" url url'
  have hcard := headElement_alike hmeta hname hcontent "twitter:card" "twitter:card"
    "summary_large_image" "summary_large_image"
  exact Node.Alike.fragment (((Node.AllAlike.singleton hcard).cons htwitter).cons himage)

theorem preview_sameTags (s s' : Settings) (resolver : Resolver) {d d' : Descriptor}
    (h : d.previewImage = d'.previewImage) :
    SameTags ((previewHtml s resolver d).value.getD "")
      ((previewHtml s' resolver d').value.getD "") := by
  unfold previewHtml
  rw [← h]
  cases d.previewImage with
  | none => exact SameTags.empty
  | some name =>
    dsimp only
    cases resolver.asset name with
    | broken reference => exact SameTags.empty
    | url path => exact (previewTags_alike (s.absoluteUrl path) (s'.absoluteUrl path)).sameTags

theorem favicon_sameTags (resolver : Resolver) {s s' : Settings}
    (h : s.site.favicon = s'.site.favicon) :
    SameTags ((faviconHtml s resolver).getD "") ((faviconHtml s' resolver).getD "") := by
  have hlink : IsName "link" := by decide
  have hrel : IsName "rel" := by decide
  have hhref : IsName "href" := by decide
  unfold faviconHtml
  rw [← h]
  cases s.site.favicon with
  | none => exact SameTags.empty
  | some favicon =>
    dsimp only
    cases resolver.asset favicon with
    | broken reference => exact SameTags.empty
    | url address =>
      exact (headElement_alike hlink hrel hhref "icon" "icon" address address).sameTags

namespace Bindings

theorem value?_set (b : Bindings) (n v m : String) :
    (b.set n v).value? m = if m = n then some v else b.value? m := by
  rw [set, value?, List.lookup_cons]
  by_cases h : m = n
  · simp [h]
  · have hb : (m == n) = false := beq_eq_false_iff_ne.2 h
    simp [h, hb, value?]

theorem value?_setSome (b : Bindings) (n : String) (v : Option String) (m : String) :
    (b.setSome n v).value? m = if m = n then v.or (b.value? m) else b.value? m := by
  cases v with
  | none => simp [setSome]
  | some v =>
    rw [setSome, value?_set, Option.some_or]

end Bindings

theorem value?_nil (name : String) : Bindings.value? [] name = none := rfl

section

variable (s : Settings) (resolver : Resolver) (page : Page)

theorem inserted_content :
    (shellBindings s resolver page).value.inserted "content" = page.body.html := by
  simp [shellBindings, Bindings.inserted, Bindings.value?_set, Bindings.value?_setSome]

theorem inserted_navbar :
    (shellBindings s resolver page).value.inserted "navbar" = (navbar s resolver).value.html := by
  simp [shellBindings, Bindings.inserted, Bindings.value?_set, Bindings.value?_setSome]

theorem inserted_preview :
    (shellBindings s resolver page).value.inserted "meta_image_tags" =
      (previewHtml s resolver page.descriptor).value.getD "" := by
  simp [shellBindings, Bindings.inserted, Bindings.value?_set, Bindings.value?_setSome, value?_nil]

theorem inserted_favicon :
    (shellBindings s resolver page).value.inserted "favicon_link" =
      (faviconHtml s resolver).getD "" := by
  simp [shellBindings, Bindings.inserted, Bindings.value?_set, Bindings.value?_setSome, value?_nil]

theorem error?_shellBindings :
    ∀ seg ∈ shellSegments, seg.error? (shellBindings s resolver page).value = none := by
  apply error?_shellSegments <;>
    simp [shellBindings, Bindings.value?_set, Bindings.value?_setSome]

end

/-- Settings that differ in free texts only give documents with the same skeleton. -/
theorem document_same_skeleton (route : Route) (resolver : Resolver) {s s' : Settings}
    (h : s.withoutFreeText = s'.withoutFreeText) :
    ∃ d d' ms,
      (document s Templates.standard resolver
        (route.assemble ⟨s, resolver⟩).value).value = .ok d ∧
      (document s' Templates.standard resolver
        (route.assemble ⟨s', resolver⟩).value).value = .ok d' ∧
      skeleton d = some ms ∧ skeleton d' = some ms := by
  have hpreview : (route.descriptor s).previewImage = (route.descriptor s').previewImage := by
    show previewName s.site.image = previewName s'.site.image
    rw [image_of_withoutFreeText h]
  have hnames : shellSegments.filterMap Segment.rawName? =
      ["meta_image_tags", "favicon_link", "navbar", "content"] := rfl
  apply Template.skeleton_render_of_guarded cuts_shell guarded_shellSegments
  case hb => exact error?_shellBindings s resolver _
  case hb' => exact error?_shellBindings s' resolver _
  case hraw =>
    rw [hnames]
    simp only [List.forall_mem_cons, List.not_mem_nil, false_imp_iff, implies_true, and_true]
    rw [inserted_preview, inserted_preview, inserted_favicon, inserted_favicon, inserted_navbar,
      inserted_navbar, inserted_content, inserted_content]
    exact ⟨preview_sameTags s s' resolver hpreview,
      favicon_sameTags resolver (favicon_of_withoutFreeText h), (navbar_alike resolver h).sameTags,
      (body_alike route resolver s s').sameTags⟩

/-- Two settings of which one has markup and placeholders in all its free texts. -/
theorem document_same_skeleton_markup :
    let s : Settings :=
      { site := { title := "Site", url := "https://example.com" }
        navbar := { logo := some ⟨"Logo", "img/logo.png"⟩, items := [⟨"/docs", "Docs", .left⟩] } }
    let s' : Settings :=
      { site :=
          { title := "<b title=\"\">", tagline := "\x7b\x7b content | raw \x7d\x7d"
            url := "\"><script>", language := "\" x=\"&", keywords := ["</head>", "&lt;"] }
        navbar :=
          { logo := some ⟨"\"><i>", "img/logo.png"⟩, items := [⟨"/docs", "</nav>", .left⟩] } }
    s.withoutFreeText = s'.withoutFreeText ∧
      ∃ d d' ms,
        (document s Templates.standard (Resolver.ofSettings s)
          (Route.home.assemble ⟨s, Resolver.ofSettings s⟩).value).value = .ok d ∧
        (document s' Templates.standard (Resolver.ofSettings s)
          (Route.home.assemble ⟨s', Resolver.ofSettings s⟩).value).value = .ok d' ∧
        skeleton d = some ms ∧ skeleton d' = some ms := by
  intro s s'
  have h : s.withoutFreeText = s'.withoutFreeText := rfl
  exact ⟨h, document_same_skeleton .home (Resolver.ofSettings s) h⟩

end StaticSite
