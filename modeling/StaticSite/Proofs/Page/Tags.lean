import StaticSite.Proofs.Page.Skeleton
import StaticSite.Proofs.Section.Part
import StaticSite.Proofs.Template.Tags

/-!
# Tags of documents

The document of a page has the tags of the shell, with the values of the settings in them, the tags
of the preview image and of the icon in its head, and those of the navigation bar and of the page in
its body. Links and metadata stand in the head only.
-/

namespace StaticSite

open Html

theorem isPart_body (route : Route) (s : Settings) (r : Resolver) :
    (route.assemble ⟨s, r⟩).value.body.IsPart := by
  simp [Route.assemble, Logged.value_each, PageSection.isPart_render]

theorem isPart_navLink (r : Resolver) (item : NavItem) : (navLink r item).value.IsPart := by
  unfold navLink
  split <;> simp

theorem isPart_navGroup (s : Settings) (r : Resolver) (side : Side) :
    ∀ n ∈ (navGroup s r side).value, n.IsPart := by
  simp only [navGroup, Logged.value_bind, Logged.value_each]
  split
  · simp
  · simp only [Logged.value_pure, List.forall_mem_singleton, Element.isPart_node,
      Element.isPart_appendAll, Element.isPart_addClass, List.forall_mem_map]
    exact ⟨by simp [partTags], fun item _ => isPart_navLink r item⟩

theorem isPart_navbar (s : Settings) (r : Resolver) : (navbar s r).value.IsPart := by
  have hbrand : (brandContent s r).value.IsPart := by
    unfold brandContent
    split <;> simp
  have hgroups : ∀ n ∈ (Logged.each (navGroup s r) Side.all).value.flatten, n.IsPart := by
    rw [Logged.value_each]
    intro n hn
    obtain ⟨group, hgroup, hn⟩ := List.mem_flatten.1 hn
    obtain ⟨side, -, rfl⟩ := List.mem_map.1 hgroup
    exact isPart_navGroup s r side n hn
  simp only [navbar, Logged.value_bind, Logged.value_pure, Element.isPart_node,
    Element.isPart_appendAll, Element.isPart_append, Element.isPart_addClass]
  exact ⟨⟨by simp [partTags], by simp [hbrand, partTags]⟩, hgroups⟩

theorem Node.IsPart.opening_not_mem {n : Node} (h : n.IsPart) {tag : String}
    (htag : tag ∉ partTags ++ spanTags) (as : List (String × String)) :
    .opening tag as ∉ n.tokens := by
  intro hopening
  apply htag
  rcases n.tag_of_opening hopening with ⟨e, he, rfl⟩ | hspan
  · exact List.mem_append_left _ (h e he)
  · exact List.mem_append_right _ hspan

section

variable (s : Settings) (r : Resolver)

def previewTokens (d : Descriptor) : List Html.Token :=
  match d.previewImage.map r.asset with
  | some (.url path) => tags (previewTags (s.absoluteUrl path)).tokens
  | _ => []

def faviconTokens : List Html.Token :=
  match s.site.favicon.map r.asset with
  | some (.url address) => [.opening "link" [("rel", "icon"), ("href", address)]]
  | _ => []

theorem meets_preview (d : Descriptor) :
    Html.Place.Meets (.content []) ((previewHtml s r d).value.getD "").toList (.content [])
      (previewTokens s r d) := by
  unfold previewHtml previewTokens
  cases d.previewImage with
  | none => exact Html.Place.Meets.nil rfl
  | some name =>
    dsimp only [Option.map_some]
    cases r.asset name with
    | broken reference => exact Html.Place.Meets.nil rfl
    | url path =>
      exact Node.meets_html (previewTags_alike (s.absoluteUrl path) (s.absoluteUrl path)).wellNamed

theorem meets_favicon :
    Html.Place.Meets (.content []) ((faviconHtml s r).getD "").toList (.content [])
      (faviconTokens s r) := by
  have hlink : IsName "link" := by decide
  have hrel : IsName "rel" := by decide
  have hhref : IsName "href" := by decide
  unfold faviconHtml faviconTokens
  cases s.site.favicon with
  | none => exact Html.Place.Meets.nil rfl
  | some favicon =>
    dsimp only [Option.map_some]
    cases r.asset favicon with
    | broken reference => exact Html.Place.Meets.nil rfl
    | url address =>
      exact Node.meets_html (headElement_alike hlink hrel hhref "icon" "icon" address
        address).wellNamed

variable (page : Page)

theorem inserted_lang :
    (shellBindings s r page).value.inserted "lang" = s.site.language := by
  simp [shellBindings, Bindings.inserted, Bindings.value?_set, Bindings.value?_setSome]

theorem inserted_title :
    (shellBindings s r page).value.inserted "title" = documentTitle s page.descriptor.title := by
  simp [shellBindings, Bindings.inserted, Bindings.value?_set, Bindings.value?_setSome]

theorem inserted_address :
    (shellBindings s r page).value.inserted "canonical_url" = s.urlFor page.route.path := by
  simp [shellBindings, Bindings.inserted, Bindings.value?_set, Bindings.value?_setSome]

theorem inserted_description :
    (shellBindings s r page).value.inserted "description" =
      (descriptionValue page.descriptor).getD "" := by
  simp [shellBindings, Bindings.inserted, Bindings.value?_set, Bindings.value?_setSome, value?_nil]

theorem inserted_keywords :
    (shellBindings s r page).value.inserted "keywords" =
      (keywordsValue page.descriptor).getD "" := by
  simp [shellBindings, Bindings.inserted, Bindings.value?_set, Bindings.value?_setSome, value?_nil]

end

def documentTags (s : Settings) (r : Resolver) (page : Page) : List Html.Token :=
  shellTags s.site.language (documentTitle s page.descriptor.title)
    ((descriptionValue page.descriptor).getD "") ((keywordsValue page.descriptor).getD "")
    (s.urlFor page.route.path) (previewTokens s r page.descriptor) (faviconTokens s r)
    (tags (navbar s r).value.tokens) (tags page.body.tokens)

theorem tags_document (s : Settings) (r : Resolver) (page : Page)
    (hbody : page.body.WellNamed) :
    ∃ d ts, (document s Templates.standard r page).value = .ok d ∧ readTokens d = some ts ∧
      tags ts = documentTags s r page := by
  let vs : String → List Html.Token := fun name =>
    if name = "meta_image_tags" then previewTokens s r page.descriptor
    else if name = "favicon_link" then faviconTokens s r
    else if name = "navbar" then tags (navbar s r).value.tokens
    else tags page.body.tokens
  have hnames : shellSegments.filterMap Segment.rawName? =
      ["meta_image_tags", "favicon_link", "navbar", "content"] := rfl
  have hnavbar : (navbar s r).value.WellNamed :=
    (navbar_alike r (rfl : s.withoutFreeText = s.withoutFreeText)).wellNamed
  have hraw : ∀ name ∈ shellSegments.filterMap Segment.rawName?,
      Html.Place.Meets (.content []) ((shellBindings s r page).value.inserted name).toList
        (.content []) (vs name) := by
    rw [hnames]
    simp only [List.forall_mem_cons, List.not_mem_nil, false_imp_iff, implies_true, and_true]
    rw [inserted_preview, inserted_favicon, inserted_navbar, inserted_content]
    exact ⟨meets_preview s r _, meets_favicon s r, Node.meets_html hnavbar,
      Node.meets_html hbody⟩
  obtain ⟨d, ts, hd, hread, hts⟩ := Template.tags_render_of_guarded cuts_shell
    guarded_shellSegments (error?_shellBindings s r page) hraw
  refine ⟨d, ts, hd, hread, ?_⟩
  rw [hts, tagsFrom_shellSegments, inserted_lang, inserted_title, inserted_description,
    inserted_keywords, inserted_address]
  rfl

/-- Values in start tags that neither the parts of a page nor the preview and the icon have are
those in the shell. -/
theorem valuesWhere_documentTags (s : Settings) (r : Resolver) {page : Page}
    (hbody : page.body.IsPart) {tag key value name : String} (htag : tag ∉ partTags ++ spanTags)
    (hpreview : ∀ url, valuesWhere tag key value name (previewTags url).tokens = [])
    (hicon : ∀ address, valuesWhere tag key value name
      [.opening "link" [("rel", "icon"), ("href", address)]] = []) :
    valuesWhere tag key value name (documentTags s r page) =
      valuesWhere tag key value name
        (shellTags s.site.language (documentTitle s page.descriptor.title)
          ((descriptionValue page.descriptor).getD "") ((keywordsValue page.descriptor).getD "")
          (s.urlFor page.route.path) [] [] [] []) := by
  have hnavbar : valuesWhere tag key value name (navbar s r).value.tokens = [] :=
    valuesWhere_eq_nil ((isPart_navbar s r).opening_not_mem htag)
  have hcontent : valuesWhere tag key value name page.body.tokens = [] :=
    valuesWhere_eq_nil (hbody.opening_not_mem htag)
  have hpreview' : valuesWhere tag key value name (previewTokens s r page.descriptor) = [] := by
    unfold previewTokens
    split
    · rw [valuesWhere_tags, hpreview]
    · rfl
  have hicon' : valuesWhere tag key value name (faviconTokens s r) = [] := by
    unfold faviconTokens
    split
    · exact hicon _
    · rfl
  simp only [documentTags, shellTags, valuesWhere_append, valuesWhere_tags, hnavbar, hcontent,
    hpreview', hicon', List.append_nil]

end StaticSite
