import StaticSite.Proofs.Markup.Alike
import StaticSite.Section.Catalog

/-!
# Sections with the same tags

Blocks, primitives and sections write names that can be read back, and which tags they write does
not depend on the texts that they show. The only text of the settings that a section shows is the
tagline, in the hero.
-/

namespace StaticSite

open Html

theorem block_alike (className : String) {l l' : List Node} (h : Node.AllAlike l l') :
    (block className l).Alike (block className l') :=
  (((Element.Alike.ofTag "div" (by decide)).addClass className).appendAll h).node

theorem container_alike (layout : Layout) {l l' : List Node} (h : Node.AllAlike l l') :
    (container layout l).Alike (container layout l') :=
  ((((((Element.Alike.ofTag "div" (by decide)).addClass _).addClass _).addClass _).addClass
    _).appendAll h).node

theorem titleNodes_alike (layout : Layout) :
    Node.AllAlike (titleNodes layout) (titleNodes layout) := by
  unfold titleNodes
  split
  · exact Node.AllAlike.nil
  · rename_i title _
    have h := ((Element.Alike.ofTag "h2" (by decide)).addClass "heading__title").addClass
      (elementClass layout.component "heading-title")
    exact Node.AllAlike.singleton (h.append (Node.Alike.text title title)).node

theorem subtitleNodes_alike (layout : Layout) :
    Node.AllAlike (subtitleNodes layout) (subtitleNodes layout) := by
  unfold subtitleNodes
  split
  · exact Node.AllAlike.nil
  · rename_i subtitle _
    split
    · exact Node.AllAlike.nil
    · have h := ((Element.Alike.ofTag "div" (by decide)).addClass "heading__subtitle").addClass
        (elementClass layout.component "heading-subtitle")
      exact Node.AllAlike.singleton (h.append (Node.Alike.rich subtitle)).node

theorem heading_alike (layout : Layout) : (heading layout).Alike (heading layout) :=
  ((((((Element.Alike.ofTag "div" (by decide)).addClass _).addClass _).addClass _).addClass
    _).appendAll ((titleNodes_alike layout).append (subtitleNodes_alike layout))).node

theorem arrow_alike (component : String) (direction : Direction) :
    (arrow component direction).Alike (arrow component direction) :=
  (((((Element.Alike.ofTag "span" (by decide)).addClass _).addClass _).addClass _).setAttribute
    (by decide) _ _).node

theorem placeholder_alike (component reference : String) :
    (placeholder component reference).value.Alike (placeholder component reference).value :=
  (((((Element.Alike.ofTag "span" (by decide)).addClass _).addClass _).setAttribute
    (by decide) _ _).append (Node.Alike.text _ _)).node

theorem button_alike (component label : String) (target : Resolved) :
    (button component label target).value.Alike (button component label target).value := by
  cases target with
  | broken reference => exact placeholder_alike component reference
  | url address =>
    exact (((((Element.Alike.ofTag "a" (by decide)).addClass _).addClass _).setAttribute
      (by decide) _ _).append (Node.Alike.text label label)).node

theorem image_alike (component classes : String) (source : Resolved) (alt alt' : String) :
    (image component classes source alt).value.Alike
      (image component classes source alt').value := by
  cases source with
  | broken reference => exact placeholder_alike component reference
  | url address =>
    have hsrc : IsName "src" := by decide
    have halt : IsName "alt" := by decide
    exact ((((Element.Alike.ofTag "img" (by decide)).addClass classes).setAttribute hsrc address
      address).setAttribute halt alt alt').node

theorem anchorElement_alike (className address : String) :
    (anchorElement className address).Alike (anchorElement className address) := by
  have hhref : IsName "href" := by decide
  have htarget : IsName "target" := by decide
  have hrel : IsName "rel" := by decide
  have h := ((Element.Alike.ofTag "a" (by decide)).addClass className).setAttribute hhref address
    address
  simp only [anchorElement]
  split
  · exact (h.setAttribute htarget _ _).setAttribute hrel _ _
  · exact h

theorem anchor_alike (component className : String) (target : Resolved) {l l' : List Node}
    (h : Node.AllAlike l l') :
    (anchor component className target l).value.Alike
      (anchor component className target l').value := by
  cases target with
  | url address => exact ((anchorElement_alike className address).appendAll h).node
  | broken reference =>
    have hb := ((Element.Alike.ofTag "div" (by decide)).addClass className).addClass
      (className ++ "--broken")
    exact ((hb.appendAll h).append (placeholder_alike component reference)).node

theorem cardTitle_alike (component : String) (item : ContentItem) :
    (cardTitle component item).Alike (cardTitle component item) :=
  ((((Element.Alike.ofTag "div" (by decide)).addClass _).addClass _).append
    (Node.Alike.text _ _)).node

theorem card_alike (component : String) (item : ContentItem) :
    (card component item).value.Alike (card component item).value := by
  have hdesc := block_alike (elementClass component "desc")
    (Node.AllAlike.singleton (Node.Alike.text item.description item.description))
  exact block_alike (elementClass component "item")
    ((Node.AllAlike.singleton hdesc).cons (cardTitle_alike component item))

theorem cards_alike (component : String) (items : List ContentItem) :
    Node.AllAlike (cards component items).value (cards component items).value := by
  rw [cards, Logged.value_each]
  exact Node.AllAlike.map fun item _ => card_alike component item

theorem cardSection_alike (s : CardSection) : s.render.value.Alike s.render.value := by
  have hblocks := block_alike (s.id.element "content") (cards_alike s.id.className s.items)
  have hinner := (Node.AllAlike.singleton hblocks).cons (heading_alike s.layout)
  exact block_alike s.id.className (Node.AllAlike.singleton (container_alike s.layout hinner))

theorem icon_alike (resolver : Resolver) (item : ContentItem) :
    (FooterSection.icon resolver item).value.Alike (FooterSection.icon resolver item).value := by
  have hplain := (((Element.Alike.ofTag "div" (by decide)).addClass
    (elementClass FooterSection.component "icon")).addClass
    (elementClass FooterSection.component ("icon--" ++ item.icon.modifier))).node
  unfold FooterSection.icon
  split
  · rename_i asset _
    have hglyph := image_alike FooterSection.component "" (resolver.asset asset) "" ""
    exact block_alike (elementClass FooterSection.component "icon")
      (Node.AllAlike.singleton hglyph)
  · exact hplain

theorem label_alike (item : ContentItem) :
    (FooterSection.label item).Alike (FooterSection.label item) :=
  block_alike _ (Node.AllAlike.singleton (Node.Alike.rich _))

theorem renderItem_alike (resolver : Resolver) (item : ContentItem) :
    (FooterSection.renderItem resolver item).value.Alike
      (FooterSection.renderItem resolver item).value := by
  have harrow := arrow_alike FooterSection.component .right
  have hbody := ((Node.AllAlike.singleton harrow).cons (label_alike item)).cons
    (icon_alike resolver item)
  have hlink := anchor_alike FooterSection.component (elementClass FooterSection.component "link")
    (resolver.link (item.link.getD "")) hbody
  exact block_alike (elementClass FooterSection.component "item") (Node.AllAlike.singleton hlink)

theorem footerSection_alike (s : FooterSection) (resolver : Resolver) :
    (s.render resolver).value.Alike (s.render resolver).value := by
  have hitems : Node.AllAlike (Logged.each (FooterSection.renderItem resolver) s.items).value
      (Logged.each (FooterSection.renderItem resolver) s.items).value := by
    rw [Logged.value_each]
    exact Node.AllAlike.map fun item _ => renderItem_alike resolver item
  have hblocks := block_alike (elementClass FooterSection.component "content") hitems
  have hinner := (Node.AllAlike.singleton hblocks).cons (heading_alike s.layout)
  exact block_alike FooterSection.component
    (Node.AllAlike.singleton (container_alike s.layout hinner))

theorem heroSection_alike (h : HeroSection) (s s' : Settings) (resolver : Resolver) :
    (h.render ⟨s, resolver⟩).value.Alike (h.render ⟨s', resolver⟩).value := by
  have hartwork := image_alike SectionId.intro.className (SectionId.intro.element "image-img")
    (resolver.asset h.artwork) "" ""
  have haction := button_alike SectionId.intro.className h.actionLabel
    (resolver.link h.actionTarget)
  have htagline := block_alike (SectionId.intro.element "content")
    (Node.AllAlike.singleton (Node.Alike.text s.site.tagline s'.site.tagline))
  have himage := block_alike (SectionId.intro.element "image") (Node.AllAlike.singleton hartwork)
  have htitle := block_alike (SectionId.intro.element "title")
    (Node.AllAlike.singleton (Node.Alike.rich h.headline))
  have hinner := (((Node.AllAlike.singleton haction).cons htagline).cons himage).cons htitle
  exact block_alike SectionId.intro.className (Node.AllAlike.singleton (container_alike _ hinner))

theorem pitchSection_alike (p : PitchSection) (s s' : Settings) (resolver : Resolver) :
    (p.render ⟨s, resolver⟩).value.Alike (p.render ⟨s', resolver⟩).value := by
  have hwide := image_alike SectionId.why.className
    (SectionId.why.element "image" ++ " " ++ SectionId.why.element "image--desktop")
    (resolver.asset p.wideImage) "" ""
  have hnarrow := image_alike SectionId.why.className
    (SectionId.why.element "image" ++ " " ++ SectionId.why.element "image--mobile")
    (resolver.asset p.narrowImage) "" ""
  have himages := block_alike (SectionId.why.element "content")
    ((Node.AllAlike.singleton hnarrow).cons hwide)
  have hbelow := container_alike { component := SectionId.why.className, size := some .medium }
    (Node.AllAlike.singleton himages)
  let intro : Layout :=
    { component := SectionId.why.className, size := some .small, title := some p.title,
      subtitle := some p.subtitle, align := some .left }
  have habove := container_alike intro
    (Node.AllAlike.singleton (heading_alike { intro with size := some .medium }))
  exact block_alike SectionId.why.className ((Node.AllAlike.singleton hbelow).cons habove)

theorem creditColumn_alike (side : String) {l l' : List Node} (h : Node.AllAlike l l') :
    (CreditSection.column side l).Alike (CreditSection.column side l') :=
  ((((Element.Alike.ofTag "div" (by decide)).addClass _).addClass _).appendAll h).node

theorem creditSection_alike (c : CreditSection) (s s' : Settings) (resolver : Resolver) :
    (c.render ⟨s, resolver⟩).value.Alike (c.render ⟨s', resolver⟩).value := by
  have hauthor := anchor_alike SectionId.foot.className (SectionId.foot.element "link")
    (resolver.link c.authorTarget)
    (Node.AllAlike.singleton (Node.Alike.text c.author c.author))
  have hcontact := anchor_alike SectionId.foot.className (SectionId.foot.element "link")
    (resolver.link c.contactTarget)
    (Node.AllAlike.singleton (Node.Alike.text c.contact c.contact))
  have hleft := creditColumn_alike "left"
    ((Node.AllAlike.singleton hauthor).cons (Node.Alike.text c.credit c.credit))
  have hright := creditColumn_alike "right" (Node.AllAlike.singleton hcontact)
  have hcolumns := block_alike (SectionId.foot.element "columns")
    ((Node.AllAlike.singleton hright).cons hleft)
  exact block_alike SectionId.foot.className
    (Node.AllAlike.singleton (container_alike _ (Node.AllAlike.singleton hcolumns)))

theorem pageSection_alike (p : PageSection) (s s' : Settings) (resolver : Resolver) :
    (p.render ⟨s, resolver⟩).value.Alike (p.render ⟨s', resolver⟩).value := by
  cases p with
  | hero h => exact heroSection_alike h s s' resolver
  | pitch p => exact pitchSection_alike p s s' resolver
  | cards c => exact cardSection_alike c
  | footer f => exact footerSection_alike f resolver
  | credits c => exact creditSection_alike c s s' resolver

end StaticSite
