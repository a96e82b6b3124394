import StaticSite.Proofs.Markup.Shown
import StaticSite.Proofs.Resolver
import StaticSite.Section.Catalog

/-!
# References of sections

Each section refers to a fixed list of assets and links. Whatever its texts are, its tree shows
exactly those of them that do not resolve, in order and as often as they occur.
-/

namespace StaticSite

open Html

def unresolved (references : List Resolved) : List String :=
  references.filterMap Resolved.reference?

theorem unresolved_append (l l' : List Resolved) :
    unresolved (l ++ l') = unresolved l ++ unresolved l' := List.filterMap_append

theorem unresolved_flatMap (f : α → List Resolved) (l : List α) :
    unresolved (l.flatMap f) = l.flatMap fun a => unresolved (f a) := by
  induction l with
  | nil => rfl
  | cons a l ih => rw [List.flatMap_cons, unresolved_append, ih, List.flatMap_cons]

theorem unresolved_map (f : α → Resolved) (l : List α) :
    unresolved (l.map f) = l.flatMap fun a => unresolved [f a] := by
  induction l with
  | nil => rfl
  | cons a l ih =>
    rw [List.map_cons, List.flatMap_cons, ← ih]
    exact unresolved_append [f a] _

theorem isSolid_className (id : SectionId) : IsSolid id.className := by
  cases id <;> decide

theorem block_shows {className : String} (hc : IsPlainClass className) {l : List Node}
    {refs : List String} (h : Node.AllShow l refs) : (block className l).Shows refs :=
  (((Element.Shows.ofTag "div" (by decide)).addClass hc).appendAll h).node

theorem container_shows {layout : Layout} (hc : IsSolid layout.component) {l : List Node}
    {refs : List String} (h : Node.AllShow l refs) : (container layout l).Shows refs := by
  have hbase : IsPlainClass "container" := by decide
  have hsize : IsPlainClass (optionClass "container--" Size.name layout.size) := by
    cases layout.size with
    | none => decide
    | some size => cases size <;> decide
  have hcentered : IsPlainClass
      (if layout.align = some .center then "container--centered" else "") := by
    split <;> decide
  have hname : IsPlainClass (elementClass layout.component "container") :=
    isPlainClass_elementClass hc (by decide)
  exact ((((((Element.Shows.ofTag "div" (by decide)).addClass hbase).addClass hsize).addClass
    hcentered).addClass hname).appendAll h).node

theorem titleNodes_show {layout : Layout} (hc : IsSolid layout.component) :
    Node.AllShow (titleNodes layout) [] := by
  have hbase : IsPlainClass "heading__title" := by decide
  have hname : IsPlainClass (elementClass layout.component "heading-title") :=
    isPlainClass_elementClass hc (by decide)
  unfold titleNodes
  split
  · exact Node.AllShow.nil
  · have h := ((Element.Shows.ofTag "h2" (by decide)).addClass hbase).addClass hname
    exact Node.AllShow.singleton (h.append (Node.Shows.text _)).node

theorem subtitleNodes_show {layout : Layout} (hc : IsSolid layout.component) :
    Node.AllShow (subtitleNodes layout) [] := by
  have hbase : IsPlainClass "heading__subtitle" := by decide
  have hname : IsPlainClass (elementClass layout.component "heading-subtitle") :=
    isPlainClass_elementClass hc (by decide)
  unfold subtitleNodes
  split
  · exact Node.AllShow.nil
  · split
    · exact Node.AllShow.nil
    · have h := ((Element.Shows.ofTag "div" (by decide)).addClass hbase).addClass hname
      exact Node.AllShow.singleton (h.append (Node.Shows.rich _)).node

theorem heading_shows {layout : Layout} (hc : IsSolid layout.component) :
    (heading layout).Shows [] := by
  have hbase : IsPlainClass "heading" := by decide
  have halign : IsPlainClass (optionClass "heading--align-" Align.name layout.align) := by
    cases layout.align with
    | none => decide
    | some align => cases align <;> decide
  have hsize : IsPlainClass (optionClass "heading--size-" Size.name layout.size) := by
    cases layout.size with
    | none => decide
    | some size => cases size <;> decide
  have hname : IsPlainClass (elementClass layout.component "heading") :=
    isPlainClass_elementClass hc (by decide)
  exact ((((((Element.Shows.ofTag "div" (by decide)).addClass hbase).addClass halign).addClass
    hsize).addClass hname).appendAll ((titleNodes_show hc).append (subtitleNodes_show hc))).node

theorem arrow_shows {component : String} (hc : IsSolid component) (direction : Direction) :
    (arrow component direction).Shows [] := by
  have hbase : IsPlainClass "arrow" := by decide
  have hdirection : IsPlainClass ("arrow--" ++ direction.name) := by cases direction <;> decide
  have hname : IsPlainClass (elementClass component "arrow") :=
    isPlainClass_elementClass hc (by decide)
  exact (((((Element.Shows.ofTag "span" (by decide)).addClass hbase).addClass hdirection).addClass
    hname).setAttribute (by decide) (by decide) "true").node

theorem placeholder_shows (component reference : String) :
    (placeholder component reference).value.Shows [reference] := by
  apply Element.shows_marker
  case hc =>
    have hword : "broken-ref" ∈ Text.words (Text.trim "broken-ref") := by decide
    rw [Element.hasClass_addClass, Element.hasClass_addClass]
    simp [hword]
  case hm =>
    rw [Element.markersOf_addClass, Element.markersOf_addClass]
    rfl
  case ht =>
    rw [Element.tag_addClass, Element.tag_addClass]
    decide
  case hn => rw [Element.children_addClass, Element.children_addClass]

theorem button_shows {component : String} (hc : IsSolid component) (label : String)
    (target : Resolved) :
    (button component label target).value.Shows (unresolved [target]) := by
  cases target with
  | broken reference => exact placeholder_shows component reference
  | url address =>
    have hbase : IsPlainClass "btn" := by decide
    have hname : IsPlainClass (elementClass component "btn") :=
      isPlainClass_elementClass hc (by decide)
    exact (((((Element.Shows.ofTag "a" (by decide)).addClass hbase).addClass hname).setAttribute
      (by decide) (by decide) address).append (Node.Shows.text label)).node

theorem image_shows (component : String) {classes : String} (hc : IsPlainClass classes)
    (source : Resolved) (alt : String) :
    (image component classes source alt).value.Shows (unresolved [source]) := by
  cases source with
  | broken reference => exact placeholder_shows component reference
  | url address =>
    refine ((((Element.Plain.ofTag "img").addClass hc).setAttribute (by decide) (by decide)
      address).setAttribute (by decide) (by decide) alt).node_of_empty ?_
    rw [Element.children_setAttribute, Element.children_setAttribute, Element.children_addClass]

theorem anchorElement_shows {className : String} (hc : IsPlainClass className) (address : String) :
    (anchorElement className address).Shows [] := by
  have h : ((Element.mk "a" [] [] |>.addClass className).setAttribute "href" address).Shows [] :=
    ((Element.Shows.ofTag "a" (by decide)).addClass hc).setAttribute (by decide) (by decide) _
  simp only [anchorElement]
  split
  · exact (h.setAttribute (by decide) (by decide) "_blank").setAttribute (by decide) (by decide) _
  · exact h

/-- A link that does not resolve shows its reference after what its children show. -/
theorem anchor_shows (component : String) {className : String} (hc : IsPlainClass className)
    (hb : IsPlainClass (className ++ "--broken")) (target : Resolved) {l : List Node}
    {refs : List String} (h : Node.AllShow l refs) :
    (anchor component className target l).value.Shows (refs ++ unresolved [target]) := by
  cases target with
  | url address =>
    rw [show unresolved [.url address] = [] from rfl, List.append_nil]
    exact ((anchorElement_shows hc address).appendAll h).node
  | broken reference =>
    have hdiv := ((Element.Shows.ofTag "div" (by decide)).addClass hc).addClass hb
    exact ((hdiv.appendAll h).append (placeholder_shows component reference)).node

def HeroSection.references (s : HeroSection) (r : Resolver) : List Resolved :=
  [r.asset s.artwork, r.link s.actionTarget]

def PitchSection.references (s : PitchSection) (r : Resolver) : List Resolved :=
  [r.asset s.wideImage, r.asset s.narrowImage]

def FooterSection.glyphReferences (r : Resolver) (item : ContentItem) : List Resolved :=
  match item.icon.treatment with
  | .glyph asset => [r.asset asset]
  | _ => []

def FooterSection.itemReferences (r : Resolver) (item : ContentItem) : List Resolved :=
  glyphReferences r item ++ [r.link (item.link.getD "")]

def FooterSection.references (s : FooterSection) (r : Resolver) : List Resolved :=
  s.items.flatMap (itemReferences r)

def CreditSection.references (s : CreditSection) (r : Resolver) : List Resolved :=
  [r.link s.authorTarget, r.link s.contactTarget]

def PageSection.references (r : Resolver) : PageSection → List Resolved
  | .hero s => s.references r
  | .pitch s => s.references r
  | .cards _ => []
  | .footer s => s.references r
  | .credits s => s.references r

theorem isPlainClass_element (id : SectionId) (element : String) (h : IsSolid element) :
    IsPlainClass (id.element element) :=
  isPlainClass_elementClass (isSolid_className id) h

theorem isPlainClass_className (id : SectionId) : IsPlainClass id.className := by
  cases id <;> decide

theorem isSolid_modifier (i : Icon) : IsSolid i.modifier := by
  have hdefault : IsSolid "default" := by decide
  cases i with
  | unknown tag => exact hdefault
  | _ => decide

theorem heroSection_shows (h : HeroSection) (ctx : RenderContext) :
    (h.render ctx).value.Shows (unresolved (h.references ctx.resolver)) := by
  have hartwork := image_shows SectionId.intro.className
    (isPlainClass_element .intro "image-img" (by decide)) (ctx.resolver.asset h.artwork) ""
  have haction := button_shows (isSolid_className .intro) h.actionLabel
    (ctx.resolver.link h.actionTarget)
  have htitle := block_shows (isPlainClass_element .intro "title" (by decide))
    (Node.AllShow.singleton (Node.Shows.rich h.headline))
  have himage := block_shows (isPlainClass_element .intro "image" (by decide))
    (Node.AllShow.singleton hartwork)
  have htagline := block_shows (isPlainClass_element .intro "content" (by decide))
    (Node.AllShow.singleton (Node.Shows.text ctx.settings.site.tagline))
  have hinner :=
    (((Node.AllShow.singleton haction).cons_silent htagline).cons himage).cons_silent htitle
  have hrefs : unresolved (h.references ctx.resolver) =
      unresolved [ctx.resolver.asset h.artwork] ++ unresolved [ctx.resolver.link h.actionTarget] :=
    unresolved_append [_] [_]
  rw [hrefs]
  exact block_shows (isPlainClass_className .intro)
    (Node.AllShow.singleton (container_shows (isSolid_className .intro) hinner))

theorem pitchSection_shows (p : PitchSection) (ctx : RenderContext) :
    (p.render ctx).value.Shows (unresolved (p.references ctx.resolver)) := by
  have hsolid := isSolid_className .why
  have hwideClass : IsPlainClass
      (SectionId.why.element "image" ++ " " ++ SectionId.why.element "image--desktop") := by decide
  have hnarrowClass : IsPlainClass
      (SectionId.why.element "image" ++ " " ++ SectionId.why.element "image--mobile") := by decide
  have hwide := image_shows SectionId.why.className hwideClass (ctx.resolver.asset p.wideImage) ""
  have hnarrow := image_shows SectionId.why.className hnarrowClass
    (ctx.resolver.asset p.narrowImage) ""
  have himages := block_shows (isPlainClass_element .why "content" (by decide))
    ((Node.AllShow.singleton hnarrow).cons hwide)
  let intro : Layout :=
    { component := SectionId.why.className, size := some .small, title := some p.title,
      subtitle := some p.subtitle, align := some .left }
  let below : Layout := { component := SectionId.why.className, size := some .medium }
  have hheading : (heading { intro with size := some .medium }).Shows [] := heading_shows hsolid
  have habove : (container intro [heading { intro with size := some .medium }]).Shows [] :=
    container_shows hsolid (Node.AllShow.singleton hheading)
  have hbelow : (container below _).Shows _ :=
    container_shows hsolid (Node.AllShow.singleton himages)
  have hrefs : unresolved (p.references ctx.resolver) =
      unresolved [ctx.resolver.asset p.wideImage] ++
        unresolved [ctx.resolver.asset p.narrowImage] :=
    unresolved_append [_] [_]
  rw [hrefs]
  exact block_shows (isPlainClass_className .why)
    ((Node.AllShow.singleton hbelow).cons_silent habove)

theorem card_shows (id : SectionId) (item : ContentItem) :
    (card id.className item).value.Shows [] := by
  have hmodifier : IsPlainClass (elementClass id.className "title--" ++ item.icon.modifier) := by
    have he : elementClass id.className "title--" ++ item.icon.modifier =
        elementClass id.className ("title--" ++ item.icon.modifier) := by
      rw [elementClass, elementClass, String.append_assoc]
    have htitle : IsSolid "title--" := by decide
    rw [he]
    exact isPlainClass_elementClass (isSolid_className id)
      (htitle.append (isSolid_modifier item.icon))
  have htitle : (cardTitle id.className item).Shows [] :=
    ((((Element.Shows.ofTag "div" (by decide)).addClass
      (isPlainClass_element id "title" (by decide))).addClass hmodifier).append
      (Node.Shows.text item.title)).node
  have hdesc := block_shows (isPlainClass_element id "desc" (by decide))
    (Node.AllShow.singleton (Node.Shows.text item.description))
  exact block_shows (isPlainClass_element id "item" (by decide))
    ((Node.AllShow.singleton hdesc).cons_silent htitle)

theorem cardSection_shows (s : CardSection) : s.render.value.Shows [] := by
  have hsolid := isSolid_className s.id
  have hcards : Node.AllShow (cards s.id.className s.items).value [] := by
    rw [cards, Logged.value_each]
    apply Node.AllShow.of_silent
    intro n hn
    obtain ⟨item, -, rfl⟩ := List.mem_map.1 hn
    exact card_shows s.id item
  have hblocks := block_shows (isPlainClass_element s.id "content" (by decide)) hcards
  have hheading : (heading s.layout).Shows [] := heading_shows hsolid
  have hinner : (container s.layout _).Shows [] :=
    container_shows hsolid ((Node.AllShow.singleton hblocks).cons_silent hheading)
  exact block_shows (isPlainClass_className s.id) (Node.AllShow.singleton hinner)

theorem icon_shows (r : Resolver) (item : ContentItem) :
    (FooterSection.icon r item).value.Shows
      (unresolved (FooterSection.glyphReferences r item)) := by
  have hicon := isPlainClass_element .footer "icon" (by decide)
  have hmodifier : IsPlainClass (elementClass FooterSection.component
      ("icon--" ++ item.icon.modifier)) := by
    have hstart : IsSolid "icon--" := by decide
    exact isPlainClass_elementClass (isSolid_className .footer)
      (hstart.append (isSolid_modifier item.icon))
  have hplain := (((Element.Shows.ofTag "div" (by decide)).addClass hicon).addClass hmodifier).node
  have hempty : IsPlainClass "" := by decide
  unfold FooterSection.icon FooterSection.glyphReferences
  cases item.icon.treatment with
  | glyph asset =>
    have hglyph := image_shows FooterSection.component hempty (r.asset asset) ""
    exact block_shows hicon (Node.AllShow.singleton hglyph)
  | color name => exact hplain
  | plain => exact hplain

theorem renderItem_shows (r : Resolver) (item : ContentItem) :
    (FooterSection.renderItem r item).value.Shows
      (unresolved (FooterSection.itemReferences r item)) := by
  have hlabel : (FooterSection.label item).Shows [] :=
    block_shows (isPlainClass_element .footer "label" (by decide))
      (Node.AllShow.singleton (Node.Shows.rich _))
  have harrow : (arrow FooterSection.component .right).Shows [] :=
    arrow_shows (isSolid_className .footer) .right
  have hbody := Node.AllShow.cons (icon_shows r item)
    ((Node.AllShow.singleton harrow).cons_silent hlabel)
  have hbroken : IsPlainClass (elementClass FooterSection.component "link" ++ "--broken") := by
    decide
  have hlink := anchor_shows FooterSection.component
    (isPlainClass_element .footer "link" (by decide)) hbroken (r.link (item.link.getD "")) hbody
  rw [List.append_nil] at hlink
  rw [FooterSection.itemReferences, unresolved_append]
  exact block_shows (isPlainClass_element .footer "item" (by decide))
    (Node.AllShow.singleton hlink)

theorem footerSection_shows (s : FooterSection) (r : Resolver) :
    (s.render r).value.Shows (unresolved (s.references r)) := by
  have hsolid := isSolid_className .footer
  have hitems : Node.AllShow (Logged.each (FooterSection.renderItem r) s.items).value
      (unresolved (s.references r)) := by
    rw [Logged.value_each, FooterSection.references, unresolved_flatMap]
    exact Node.AllShow.map fun item _ => renderItem_shows r item
  have hblocks := block_shows (isPlainClass_element .footer "content" (by decide)) hitems
  have hheading : (heading s.layout).Shows [] := heading_shows hsolid
  have hinner : (container s.layout _).Shows _ :=
    container_shows hsolid ((Node.AllShow.singleton hblocks).cons_silent hheading)
  exact block_shows (isPlainClass_className .footer) (Node.AllShow.singleton hinner)

theorem creditColumn_shows {side : String} (hside : IsSolid side) {l : List Node}
    {refs : List String} (h : Node.AllShow l refs) : (CreditSection.column side l).Shows refs := by
  have hstart : IsSolid "column--" := by decide
  exact ((((Element.Shows.ofTag "div" (by decide)).addClass
    (isPlainClass_element .foot "column" (by decide))).addClass
    (isPlainClass_element .foot ("column--" ++ side) (hstart.append hside))).appendAll h).node

theorem creditSection_shows (c : CreditSection) (ctx : RenderContext) :
    (c.render ctx).value.Shows (unresolved (c.references ctx.resolver)) := by
  have hbroken : IsPlainClass (SectionId.foot.element "link" ++ "--broken") := by decide
  have hlink := isPlainClass_element .foot "link" (by decide)
  have hauthor := anchor_shows SectionId.foot.className hlink hbroken
    (ctx.resolver.link c.authorTarget) (Node.AllShow.singleton (Node.Shows.text c.author))
  have hcontact := anchor_shows SectionId.foot.className hlink hbroken
    (ctx.resolver.link c.contactTarget) (Node.AllShow.singleton (Node.Shows.text c.contact))
  rw [List.nil_append] at hauthor hcontact
  have hleft : (CreditSection.column "left" _).Shows _ := creditColumn_shows (by decide)
    ((Node.AllShow.singleton hauthor).cons_silent (Node.Shows.text c.credit))
  have hright : (CreditSection.column "right" _).Shows _ := creditColumn_shows (by decide)
    (Node.AllShow.singleton hcontact)
  have hcolumns := block_shows (isPlainClass_element .foot "columns" (by decide))
    ((Node.AllShow.singleton hright).cons hleft)
  have hrefs : unresolved (c.references ctx.resolver) =
      unresolved [ctx.resolver.link c.authorTarget] ++
        unresolved [ctx.resolver.link c.contactTarget] := unresolved_append [_] [_]
  let layout : Layout := { component := SectionId.foot.className }
  have hinner : (container layout _).Shows _ :=
    container_shows (isSolid_className .foot) (Node.AllShow.singleton hcolumns)
  rw [hrefs]
  exact block_shows (isPlainClass_className .foot) (Node.AllShow.singleton hinner)

/-- A section shows those of its references that do not resolve, in order. -/
theorem pageSection_shows (p : PageSection) (ctx : RenderContext) :
    (p.render ctx).value.Shows (unresolved (p.references ctx.resolver)) := by
  cases p with
  | hero h => exact heroSection_shows h ctx
  | pitch p => exact pitchSection_shows p ctx
  | cards c => exact cardSection_shows c
  | footer f => exact footerSection_shows f ctx.resolver
  | credits c => exact creditSection_shows c ctx

end StaticSite
