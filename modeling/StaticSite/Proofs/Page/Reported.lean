import StaticSite.Proofs.Page.References

/-!
# Reports of references that do not resolve

What a page refers to is named by the settings and by its sections, whatever resolver it is rendered
with. The report for a page has the names that its resolver cannot resolve, in order and as often as
the page refers to them: nothing that a marker stands for, and no preview image that is left out, is
missing from it. The icon of the site is the exception: it is left out of the document where it does
not resolve, and no report has it.
-/

namespace StaticSite

open Html

/-- A name that a page asks its resolver for. -/
inductive Reference where
  | asset (name : String)
  | link (target : String)
  deriving DecidableEq, Repr

namespace Reference

def text : Reference → String
  | .asset name => name
  | .link target => target

def resolve (r : Resolver) : Reference → Resolved
  | .asset name => r.asset name
  | .link target => r.link target

def isBroken (r : Resolver) (x : Reference) : Bool := (x.resolve r).isBroken

theorem eq_of_resolve_broken {r : Resolver} {x : Reference} {reference : String}
    (h : x.resolve r = .broken reference) : reference = x.text := by
  cases x with
  | asset name =>
    rw [resolve] at h
    exact eq_of_asset_broken h
  | link target =>
    rw [resolve] at h
    exact eq_of_link_broken h

theorem unresolved_map_resolve (r : Resolver) (l : List Reference) :
    unresolved (l.map (resolve r)) = (l.filter (isBroken r)).map text := by
  induction l with
  | nil => rfl
  | cons x l ih =>
    rw [List.map_cons, unresolved, List.filterMap_cons, ← unresolved, ih, List.filter_cons,
      isBroken]
    cases h : x.resolve r with
    | url address => simp [Resolved.reference?, Resolved.isBroken]
    | broken reference =>
      simp [Resolved.reference?, Resolved.isBroken, eq_of_resolve_broken h]

end Reference

def FooterSection.itemNamed (item : ContentItem) : List Reference :=
  (match item.icon.treatment with
    | .glyph asset => [.asset asset]
    | _ => []) ++ [.link (item.link.getD "")]

def PageSection.named : PageSection → List Reference
  | .hero s => [.asset s.artwork, .link s.actionTarget]
  | .pitch s => [.asset s.wideImage, .asset s.narrowImage]
  | .cards _ => []
  | .footer s => s.items.flatMap FooterSection.itemNamed
  | .credits s => [.link s.authorTarget, .link s.contactTarget]

def navbarNamed (s : Settings) : List Reference :=
  (s.navbar.logo.map fun logo => .asset logo.src).toList ++
    Side.all.flatMap fun side =>
      (s.navbar.items.filter fun i => i.side = side).map fun item => .link item.target

def Route.named (route : Route) (s : Settings) : List Reference :=
  navbarNamed s ++ route.sections.flatMap PageSection.named ++
    ((previewName s.site.image).map .asset).toList

section

variable (r : Resolver)

theorem FooterSection.itemReferences_eq (item : ContentItem) :
    itemReferences r item = (itemNamed item).map (Reference.resolve r) := by
  unfold itemReferences glyphReferences itemNamed
  cases item.icon.treatment <;> rfl

theorem PageSection.references_eq (p : PageSection) :
    p.references r = p.named.map (Reference.resolve r) := by
  cases p with
  | footer s =>
    show s.items.flatMap (FooterSection.itemReferences r) = _
    rw [named, List.map_flatMap, funext (FooterSection.itemReferences_eq r)]
  | _ => rfl

theorem navbarReferences_eq (s : Settings) :
    navbarReferences s r = (navbarNamed s).map (Reference.resolve r) := by
  have hlogo : (s.navbar.logo.map fun logo => r.asset logo.src).toList =
      ((s.navbar.logo.map fun logo => Reference.asset logo.src).toList).map
        (Reference.resolve r) := by
    cases s.navbar.logo <;> rfl
  rw [navbarReferences, navbarNamed, List.map_append, hlogo, List.map_flatMap]
  simp only [List.map_map, Function.comp_def, Reference.resolve]

theorem previewReferences_eq (s : Settings) :
    previewReferences s r =
      (((previewName s.site.image).map Reference.asset).toList).map (Reference.resolve r) := by
  unfold previewReferences
  cases previewName s.site.image <;> rfl

theorem Route.references_eq (route : Route) (s : Settings) :
    route.references s r = (route.named s).map (Reference.resolve r) := by
  rw [references, named, navbarReferences_eq, previewReferences_eq, List.map_append,
    List.map_append, List.map_flatMap, funext (PageSection.references_eq r)]

/-- The report for a page has exactly the names that do not resolve, in order. -/
theorem unresolvedReferences_eq_named (route : Route) (s : Settings) :
    unresolvedReferences s r (route.assemble ⟨s, r⟩).value =
      ((route.named s).filter (Reference.isBroken r)).map Reference.text := by
  rw [unresolvedReferences_eq, Route.references_eq, Reference.unresolved_map_resolve]

end

section

variable {s : Settings} {route : Route}

theorem logo_mem_named {logo : Logo} (h : logo ∈ s.navbar.logo) :
    .asset logo.src ∈ route.named s := by
  apply List.mem_append_left
  apply List.mem_append_left
  apply List.mem_append_left
  rw [h]
  exact List.mem_singleton_self _

theorem target_mem_named {item : NavItem} (h : item ∈ s.navbar.items) :
    .link item.target ∈ route.named s := by
  -- The bar is made side by side, and there is no third side.
  have hside : item.side ∈ Side.all := by cases item.side <;> decide
  apply List.mem_append_left
  apply List.mem_append_left
  apply List.mem_append_right
  rw [List.mem_flatMap]
  exact ⟨item.side, hside, List.mem_map.2 ⟨item, List.mem_filter.2 ⟨h, by simp⟩, rfl⟩⟩

theorem section_mem_named {p : PageSection} (hp : p ∈ route.sections) {x : Reference}
    (hx : x ∈ p.named) : x ∈ route.named s :=
  List.mem_append_left _ (List.mem_append_right _ (List.mem_flatMap.2 ⟨p, hp, hx⟩))

theorem preview_mem_named {name : String} (h : name ∈ previewName s.site.image) :
    .asset name ∈ route.named s := by
  apply List.mem_append_right
  rw [h]
  exact List.mem_singleton_self _

end

theorem isBroken_of_previewHtml {s : Settings} {r : Resolver} {d : Descriptor} {name : String}
    (hname : name ∈ d.previewImage) (h : (previewHtml s r d).value = none) :
    Reference.isBroken r (.asset name) = true := by
  unfold previewHtml at h
  rw [hname] at h
  show (r.asset name).isBroken = true
  cases hasset : r.asset name with
  | broken reference => rfl
  | url path =>
    simp only [hasset] at h
    cases h

/-- Whatever the document of a page leaves out or marks because it does not resolve is reported for
the page: every marker that a reader of the document finds, a preview image without its tags, the
logo and every target of the navigation bar, and all that the sections refer to. A page without
reports refers to nothing of these that does not resolve. -/
theorem reports_unresolved (s : Settings) (r : Resolver) (route : Route) :
    let page := (route.assemble ⟨s, r⟩).value
    let reported := unresolvedReferences s r page
    (∃ d ts, (document s Templates.standard r page).value = .ok d ∧ readTokens d = some ts ∧
      ∀ reference ∈ markerValues ts, reference ∈ reported) ∧
    (∀ name ∈ page.descriptor.previewImage, (previewHtml s r page.descriptor).value = none →
      name ∈ reported) ∧
    (∀ logo ∈ s.navbar.logo, (r.asset logo.src).isBroken = true → logo.src ∈ reported) ∧
    (∀ item ∈ s.navbar.items, (r.link item.target).isBroken = true → item.target ∈ reported) ∧
    (∀ p ∈ route.sections, ∀ x ∈ p.named, x.isBroken r = true → x.text ∈ reported) ∧
    (reported = [] ↔ ∀ x ∈ route.named s, x.isBroken r = false) := by
  intro page reported
  have hreported : reported = ((route.named s).filter (Reference.isBroken r)).map Reference.text :=
    unresolvedReferences_eq_named r route s
  have hmem : ∀ x ∈ route.named s, x.isBroken r = true → x.text ∈ reported := by
    intro x hx hbroken
    rw [hreported]
    exact List.mem_map_of_mem (List.mem_filter.2 ⟨hx, hbroken⟩)
  obtain ⟨d, ts, hd, hread, hmarkers, -⟩ := document_marks_unresolved s r route
  refine ⟨⟨d, ts, hd, hread, fun reference h => ?_⟩, fun name hname hnone => ?_, ?_, ?_, ?_, ?_⟩
  · show reference ∈ unresolvedReferences s r page
    rw [← hmarkers]
    exact List.mem_append_left _ h
  · exact hmem _ (preview_mem_named hname) (isBroken_of_previewHtml hname hnone)
  · exact fun logo hlogo hbroken => hmem _ (logo_mem_named hlogo) hbroken
  · exact fun item hitem hbroken => hmem _ (target_mem_named hitem) hbroken
  · exact fun p hp x hx hbroken => hmem x (section_mem_named hp hx) hbroken
  · rw [hreported, List.map_eq_nil_iff, List.filter_eq_nil_iff]
    simp only [Bool.not_eq_true]

/-- The icon of a site is not among its assets. The document has no link to it, and nothing is
reported for any page. -/
theorem favicon_unreported :
    let s : Settings :=
      { site := { title := "T", url := "https://t.example", favicon := some "img/favicon.png" } }
    let assets := ["img/023.png", "img/img-why-boilerplate@2x.png",
      "img/img-why-boilerplate-mobile@2x.png", "img/ic-boilerplate.svg",
      "img/ic-boilerplate-plugin.svg", "img/ic-frontend-libs.svg", "img/ic-libs.svg"]
    let r := (Resolver.ofBase "/").restrict (assets.map fun name => (name, name))
    Reference.isBroken r (.asset "img/favicon.png") = true ∧ faviconHtml s r = none ∧
      ∀ route : Route, unresolvedReferences s r (route.assemble ⟨s, r⟩).value = [] := by
  intro s assets r
  refine ⟨by decide +kernel, by decide +kernel, fun route => ?_⟩
  rw [unresolvedReferences_eq_named]
  cases route <;> decide +kernel

end StaticSite
