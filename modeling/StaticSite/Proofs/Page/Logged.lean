import StaticSite.Proofs.Page.References

/-!
# Warnings about references

Rendering warns about a reference when it draws the marker for it, and about a preview image when it
leaves it out. What is drawn and what is warned about are made by the same steps, and these follow
one another as their trees do: the warnings name the references in the order of the markers, each of
them as often as it is marked.
-/

namespace StaticSite

open Html

theorem Warning.reference?_eq (w : Warning) : w.reference? = w.fields.lookup "reference" := by
  cases w <;> rfl

/-- The warnings that a component gives for those of its references that it marks. -/
def marked (component : String) (references : List Resolved) : List Warning :=
  (unresolved references).map (.placeholder component)

section

variable (component : String)

theorem marked_append (l l' : List Resolved) :
    marked component (l ++ l') = marked component l ++ marked component l' := by
  rw [marked, unresolved_append, List.map_append, marked, marked]

theorem marked_flatMap (f : α → List Resolved) (l : List α) :
    marked component (l.flatMap f) = l.flatMap fun a => marked component (f a) := by
  rw [marked, unresolved_flatMap, List.map_flatMap]
  rfl

theorem filterMap_reference?_marked (l : List Resolved) :
    (marked component l).filterMap Warning.reference? = unresolved l := by
  rw [marked, List.filterMap_map]
  exact List.filterMap_some

theorem warnings_button (label : String) (target : Resolved) :
    (button component label target).warnings = marked component [target] := by
  cases target <;> rfl

theorem warnings_image (classes : String) (source : Resolved) (alt : String) :
    (image component classes source alt).warnings = marked component [source] := by
  cases source <;> rfl

theorem warnings_anchor (className : String) (target : Resolved) (children : List Node) :
    (anchor component className target children).warnings = marked component [target] := by
  cases target <;> rfl

end

theorem HeroSection.warnings_render (s : HeroSection) (ctx : RenderContext) :
    (s.render ctx).warnings = marked SectionId.intro.className (s.references ctx.resolver) := by
  simp only [render, Logged.warnings_bind, Logged.warnings_pure, warnings_image, warnings_button,
    List.append_nil]
  exact (marked_append _ [_] [_]).symm

theorem PitchSection.warnings_render (s : PitchSection) (ctx : RenderContext) :
    (s.render ctx).warnings = marked SectionId.why.className (s.references ctx.resolver) := by
  simp only [render, Logged.warnings_bind, Logged.warnings_pure, warnings_image, List.append_nil]
  exact (marked_append _ [_] [_]).symm

theorem CreditSection.warnings_render (s : CreditSection) (ctx : RenderContext) :
    (s.render ctx).warnings = marked SectionId.foot.className (s.references ctx.resolver) := by
  simp only [render, Logged.warnings_bind, Logged.warnings_pure, warnings_anchor, List.append_nil]
  exact (marked_append _ [_] [_]).symm

namespace FooterSection

theorem warnings_icon (r : Resolver) (item : ContentItem) :
    (icon r item).warnings = marked component (glyphReferences r item) := by
  unfold icon glyphReferences
  cases item.icon.treatment with
  | glyph asset =>
    simp only [Logged.warnings_bind, Logged.warnings_pure, warnings_image, List.append_nil]
  | color name => rfl
  | plain => rfl

/-- The glyph of a card is drawn before its link is. -/
theorem warnings_renderItem (r : Resolver) (item : ContentItem) :
    (renderItem r item).warnings = marked component (itemReferences r item) := by
  rw [itemReferences, marked_append, ← warnings_icon]
  simp only [renderItem, Logged.warnings_bind, Logged.warnings_pure, warnings_anchor,
    List.append_nil]

theorem warnings_render (s : FooterSection) (r : Resolver) :
    (s.render r).warnings = marked component (s.references r) := by
  rw [references, marked_flatMap]
  simp only [render, Logged.warnings_bind, Logged.warnings_pure, Logged.warnings_each,
    warnings_renderItem, List.append_nil]

end FooterSection

theorem warnings_warnIcon (component : String) (item : ContentItem) :
    (warnIcon component item).warnings =
      if item.icon.isKnown then [] else [.unknownIcon component item.icon.name item.title] := by
  unfold warnIcon
  split <;> rfl

theorem CardSection.warnings_render (s : CardSection) : s.render.warnings =
    (s.items.filter fun item => !item.icon.isKnown).map fun item =>
      .unknownIcon s.id.className item.icon.name item.title := by
  simp only [render, cards, card, Logged.warnings_bind, Logged.warnings_pure,
    Logged.warnings_each, warnings_warnIcon, List.append_nil]
  induction s.items with
  | nil => rfl
  | cons item l ih =>
    rw [List.flatMap_cons, ih]
    cases hknown : item.icon.isKnown <;> simp [hknown]

theorem CardSection.reference?_warnings_render (s : CardSection) :
    s.render.warnings.filterMap Warning.reference? = [] := by
  rw [s.warnings_render, List.filterMap_map]
  exact List.filterMap_eq_nil_iff.2 fun _ _ => rfl

theorem PageSection.reference?_warnings_render (p : PageSection) (ctx : RenderContext) :
    (p.render ctx).warnings.filterMap Warning.reference? =
      unresolved (p.references ctx.resolver) := by
  cases p with
  | hero s => rw [render, s.warnings_render, filterMap_reference?_marked, references]
  | pitch s => rw [render, s.warnings_render, filterMap_reference?_marked, references]
  | cards s => rw [render, s.reference?_warnings_render, references]; rfl
  | footer s => rw [render, s.warnings_render, filterMap_reference?_marked, references]
  | credits s => rw [render, s.warnings_render, filterMap_reference?_marked, references]

theorem reference?_warnings_assemble (route : Route) (s : Settings) (r : Resolver) :
    (route.assemble ⟨s, r⟩).warnings.filterMap Warning.reference? =
      unresolved (route.sections.flatMap (PageSection.references r)) := by
  simp only [Route.assemble, Logged.warnings_bind, Logged.warnings_pure, Logged.warnings_each,
    List.append_nil, List.filterMap_flatMap, PageSection.reference?_warnings_render,
    unresolved_flatMap]

section

variable (s : Settings) (r : Resolver)

theorem warnings_navLink (item : NavItem) :
    (navLink r item).warnings = marked "navbar" [r.link item.target] := by
  unfold navLink
  cases r.link item.target <;> rfl

theorem warnings_navGroup (side : Side) :
    (navGroup s r side).warnings =
      marked "navbar" ((s.navbar.items.filter fun i => i.side = side).map fun item =>
        r.link item.target) := by
  have hlinks : (Logged.each (navLink r) (s.navbar.items.filter fun i => i.side = side)).warnings =
      marked "navbar" ((s.navbar.items.filter fun i => i.side = side).map fun item =>
        r.link item.target) := by
    rw [Logged.warnings_each, List.map_eq_flatMap, marked_flatMap]
    simp only [warnings_navLink]
  rw [navGroup, Logged.warnings_bind, hlinks]
  split <;> exact List.append_nil _

theorem warnings_navbar :
    (navbar s r).warnings = marked "navbar" (navbarReferences s r) := by
  have hbrand : (brandContent s r).warnings =
      marked "navbar" (s.navbar.logo.map fun logo => r.asset logo.src).toList := by
    unfold brandContent
    cases s.navbar.logo with
    | none => rfl
    | some logo => exact warnings_image ..
  rw [navbarReferences, marked_append, ← hbrand, marked_flatMap]
  simp only [navbar, Logged.warnings_bind, Logged.warnings_pure, Logged.warnings_each,
    warnings_navGroup, List.append_nil]

theorem warnings_previewHtml (d : Descriptor) :
    (previewHtml s r d).warnings = (brokenPreview r d).map .missingPreview := by
  unfold previewHtml brokenPreview
  cases d.previewImage with
  | none => rfl
  | some name =>
    dsimp only [Option.map_some]
    cases r.asset name <;> rfl

theorem warnings_document (templates : Templates) (page : Page) :
    (document s templates r page).warnings =
      marked "navbar" (navbarReferences s r) ++
        (brokenPreview r page.descriptor).map .missingPreview := by
  simp only [document, shellBindings, Logged.warnings_bind, Logged.warnings_pure, warnings_navbar,
    warnings_previewHtml, List.append_nil]

end

/-- Each reference that does not resolve is warned about once in each rendering, in order. The
warnings of a page name what the markers of its body stand for, read from start to end. The warnings
of its document are those for the markers of the navigation bar and then one for the preview image
if it is left out. So what is reported for a page has been warned about: in the navigation bar, in
the page, and for its preview. -/
theorem warnings_name_markers (s : Settings) (templates : Templates) (r : Resolver)
    (route : Route) :
    let page := route.assemble ⟨s, r⟩
    let drawn := document s templates r page.value
    let named : List Warning → List String := List.filterMap fun w => w.fields.lookup "reference"
    let preview := (page.value.descriptor.previewImage.filter fun name =>
      (r.asset name).isBroken).toList
    ∃ body bar, readTokens page.value.body.html = some body ∧
      readTokens (navbar s r).value.html = some bar ∧
      named page.warnings = markerValues body ∧
      drawn.warnings =
        (markerValues bar).map (.placeholder "navbar") ++ preview.map .missingPreview ∧
      named drawn.warnings = markerValues bar ++ preview ∧
      unresolvedReferences s r page.value = markerValues bar ++ named page.warnings ++ preview := by
  intro page drawn named preview
  have hnamed : named = List.filterMap Warning.reference? := by
    rw [funext Warning.reference?_eq]
  have hpreview : brokenPreview r page.value.descriptor = preview :=
    (brokenPreview_eq s r route).trans (unresolved_previewReferences s r)
  have hpage : named page.warnings =
      unresolved (route.sections.flatMap (PageSection.references r)) := by
    rw [hnamed]
    exact reference?_warnings_assemble route s r
  have hsame : s.withoutFreeText = s.withoutFreeText := rfl
  obtain ⟨bar, hbar, hbarValues⟩ := (navbar_shows s r).markers (navbar_alike r hsame).wellNamed
  obtain ⟨body, hbody, hbodyValues⟩ :=
    (body_shows route s r).markers (body_alike route r s s).wellNamed
  have hdrawn : drawn.warnings =
      (markerValues bar).map (.placeholder "navbar") ++ preview.map .missingPreview := by
    show (document s templates r page.value).warnings = _
    rw [warnings_document, hpreview, hbarValues]
    rfl
  refine ⟨body, bar, hbody, hbar, hpage.trans hbodyValues.symm, hdrawn, ?_, ?_⟩
  · rw [hdrawn, hnamed, List.filterMap_append, List.filterMap_map, List.filterMap_map]
    exact congrArg₂ (· ++ ·) List.filterMap_some List.filterMap_some
  · rw [unresolvedReferences, (navbar_shows s r).found, (body_shows route s r).found, hpreview,
      hbarValues, hpage]

end StaticSite
