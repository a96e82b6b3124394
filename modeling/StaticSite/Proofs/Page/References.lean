import StaticSite.Proofs.Page.Tags

/-!
# References of pages

A page refers to the logo and the targets of the navigation bar, to the assets and links of its
sections, and to the preview image. The references that are reported as unresolved are those of this
list that do not resolve, and they are the ones marked in the document that is written, in the same
order. Texts of the settings neither add nor hide one.
-/

namespace StaticSite

open Html

def navbarReferences (s : Settings) (r : Resolver) : List Resolved :=
  (s.navbar.logo.map fun logo => r.asset logo.src).toList ++
    Side.all.flatMap fun side =>
      (s.navbar.items.filter fun i => i.side = side).map fun item => r.link item.target

def previewReferences (s : Settings) (r : Resolver) : List Resolved :=
  ((previewName s.site.image).map r.asset).toList

/-- What the page of a route refers to: in the navigation bar, in its sections, and in its head. -/
def Route.references (route : Route) (s : Settings) (r : Resolver) : List Resolved :=
  navbarReferences s r ++ route.sections.flatMap (PageSection.references r) ++
    previewReferences s r

theorem body_shows (route : Route) (s : Settings) (r : Resolver) :
    (route.assemble ⟨s, r⟩).value.body.Shows
      (unresolved (route.sections.flatMap (PageSection.references r))) := by
  have hpage : IsPlainClass "page" := by decide
  have hsections : Node.AllShow (Logged.each (PageSection.render ⟨s, r⟩) route.sections).value
      (unresolved (route.sections.flatMap (PageSection.references r))) := by
    rw [Logged.value_each, unresolved_flatMap]
    exact Node.AllShow.map fun p _ => pageSection_shows p ⟨s, r⟩
  exact block_shows hpage hsections

theorem navLink_shows (r : Resolver) (item : NavItem) :
    (navLink r item).value.Shows (unresolved [r.link item.target]) := by
  have hlink : IsPlainClass "navbar__link" := by decide
  unfold navLink
  cases r.link item.target with
  | url address => exact ((anchorElement_shows hlink address).append (Node.Shows.text _)).node
  | broken reference => exact placeholder_shows "navbar" reference

theorem navGroup_shows (s : Settings) (r : Resolver) (side : Side) :
    Node.AllShow (navGroup s r side).value
      (unresolved ((s.navbar.items.filter fun i => i.side = side).map fun item =>
        r.link item.target)) := by
  have hitems : IsPlainClass "navbar__items" := by decide
  have hside : IsPlainClass ("navbar__items--" ++ side.name) := by cases side <;> decide
  simp only [navGroup, Logged.value_bind, Logged.value_each]
  generalize s.navbar.items.filter (fun i => i.side = side) = items
  have hlinks : Node.AllShow (items.map fun item => (navLink r item).value)
      (unresolved (items.map fun item => r.link item.target)) := by
    rw [unresolved_map]
    exact Node.AllShow.map fun item _ => navLink_shows r item
  by_cases hnone : items = []
  · subst hnone
    exact Node.AllShow.nil
  · have hgroup := ((((Element.Shows.ofTag "div" (by decide)).addClass hitems).addClass
      hside).appendAll hlinks).node
    rw [List.nil_append] at hgroup
    rw [if_neg (by simp [hnone]), Logged.value_pure]
    exact Node.AllShow.singleton hgroup

theorem brandContent_shows (s : Settings) (r : Resolver) :
    (brandContent s r).value.Shows
      (unresolved (s.navbar.logo.map fun logo => r.asset logo.src).toList) := by
  have hlogo : IsPlainClass "navbar__logo" := by decide
  unfold brandContent
  cases s.navbar.logo with
  | none => exact Node.Shows.text _
  | some logo => exact image_shows "navbar" hlogo (r.asset logo.src) logo.alt

theorem navbar_shows (s : Settings) (r : Resolver) :
    (navbar s r).value.Shows (unresolved (navbarReferences s r)) := by
  have hclass : IsPlainClass "navbar" := by decide
  have hbrandClass : IsPlainClass "navbar__brand" := by decide
  have hhref : "href" ≠ "data-broken-ref" := by decide
  have hhrefClass : "href" ≠ "class" := by decide
  have hbrand := ((((Element.Shows.ofTag "a" (by decide)).addClass hbrandClass).setAttribute hhref
    hhrefClass (homeAddress r)).append (brandContent_shows s r)).node
  have hgroups : Node.AllShow (Logged.each (navGroup s r) Side.all).value.flatten
      (unresolved (Side.all.flatMap fun side =>
        (s.navbar.items.filter fun i => i.side = side).map fun item => r.link item.target)) := by
    rw [Logged.value_each, unresolved_flatMap]
    exact Node.AllShow.flatten_map fun side _ => navGroup_shows s r side
  have hnav := ((((Element.Shows.ofTag "nav" (by decide)).addClass hclass).append
    hbrand).appendAll hgroups).node
  rw [List.nil_append, List.nil_append] at hnav
  rw [navbarReferences, unresolved_append]
  exact hnav

theorem markers_previewTokens (s : Settings) (r : Resolver) (d : Descriptor) :
    markerValues (previewTokens s r d) = [] := by
  unfold previewTokens
  split <;> rfl

theorem markers_faviconTokens (s : Settings) (r : Resolver) :
    markerValues (faviconTokens s r) = [] := by
  unfold faviconTokens
  split <;> rfl

theorem brokenPreview_eq (s : Settings) (r : Resolver) (route : Route) :
    brokenPreview r (route.descriptor s) = unresolved (previewReferences s r) := by
  have hname : (route.descriptor s).previewImage = previewName s.site.image := rfl
  unfold brokenPreview previewReferences
  rw [hname]
  generalize (previewName s.site.image).map r.asset = preview
  cases preview with
  | none => rfl
  | some resolved => cases resolved <;> rfl

theorem unresolved_previewReferences (s : Settings) (r : Resolver) :
    unresolved (previewReferences s r) =
      ((previewName s.site.image).filter fun name => (r.asset name).isBroken).toList := by
  unfold previewReferences
  cases previewName s.site.image with
  | none => rfl
  | some name =>
    show unresolved [r.asset name] = _
    rw [unresolved, List.filterMap_cons, List.filterMap_nil]
    cases h : r.asset name with
    | url address => simp [h, Resolved.reference?, Resolved.isBroken, Option.filter]
    | broken reference =>
      rw [eq_of_asset_broken h]
      simp [h, Resolved.reference?, Resolved.isBroken, Option.filter]

/-- The references that are reported for a page are those that it cannot resolve. -/
theorem unresolvedReferences_eq (route : Route) (s : Settings) (r : Resolver) :
    unresolvedReferences s r (route.assemble ⟨s, r⟩).value = unresolved (route.references s r) := by
  have hpreview : brokenPreview r (route.assemble ⟨s, r⟩).value.descriptor =
      unresolved (previewReferences s r) := brokenPreview_eq s r route
  rw [unresolvedReferences, (navbar_shows s r).found, (body_shows route s r).found, hpreview,
    Route.references, unresolved_append, unresolved_append]

theorem document_markers (s : Settings) (r : Resolver) (route : Route) :
    ∃ d ts, (document s Templates.standard r (route.assemble ⟨s, r⟩).value).value = .ok d ∧
      readTokens d = some ts ∧
      markerValues ts = unresolved (navbarReferences s r) ++
        unresolved (route.sections.flatMap (PageSection.references r)) := by
  obtain ⟨d, ts, hd, hread, hts⟩ :=
    tags_document s r (route.assemble ⟨s, r⟩).value (body_alike route r s s).wellNamed
  refine ⟨d, ts, hd, hread, ?_⟩
  rw [← markerValues_tags, hts, documentTags, shellTags]
  simp only [markerValues_append, markerValues_tags, markers_previewTokens, markers_faviconTokens,
    (navbar_shows s r).written, (body_shows route s r).written]
  simp [markerValues, Html.Token.markers, markersOf]

/-- The references that are reported for a page are those marked in its document, read from start to
end, and then the name of the preview image if it does not resolve. They are those of the references
of the page that do not resolve, so no text of the settings adds or hides one. -/
theorem document_marks_unresolved (s : Settings) (r : Resolver) (route : Route) :
    ∃ d ts, (document s Templates.standard r (route.assemble ⟨s, r⟩).value).value = .ok d ∧
      readTokens d = some ts ∧
      markerValues ts ++ ((previewName s.site.image).filter fun name =>
        (r.asset name).isBroken).toList =
          unresolvedReferences s r (route.assemble ⟨s, r⟩).value ∧
      unresolvedReferences s r (route.assemble ⟨s, r⟩).value =
        unresolved (route.references s r) := by
  obtain ⟨d, ts, hd, hread, hvs⟩ := document_markers s r route
  refine ⟨d, ts, hd, hread, ?_, unresolvedReferences_eq route s r⟩
  rw [unresolvedReferences_eq, hvs, ← unresolved_previewReferences, Route.references,
    unresolved_append, unresolved_append]

end StaticSite
