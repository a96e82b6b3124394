import StaticSite.RichText.Parse
import StaticSite.Section.Basic

/-!
# Link cards

The footer is a grid of cards, each a link around a glyph, a label of rich text, and an arrow. A
card whose link does not resolve is a block with a marker in place of the link.
-/

namespace StaticSite

structure FooterSection where
  title : String
  items : List ContentItem

namespace FooterSection

def component : String := SectionId.footer.className

def required : List Field := [.icon, .title, .link]

/-- The icon of a card: a glyph image inside a block, or a block marked with the treatment. -/
def icon (resolver : Resolver) (item : ContentItem) : Logged Node :=
  match item.icon.treatment with
  | .glyph asset => do
    let glyph ← image component "" (resolver.asset asset) ""
    return block (elementClass component "icon") [glyph]
  | _ =>
    return Element.node <| (Element.mk "div" [] []
      |>.addClass (elementClass component "icon")
      |>.addClass (elementClass component ("icon--" ++ item.icon.modifier)))

def label (item : ContentItem) : Node :=
  block (elementClass component "label") [.rich (RichText.parse item.title)]

def renderItem (resolver : Resolver) (item : ContentItem) : Logged Node := do
  let picture ← icon resolver item
  let body := [picture, label item, arrow component .right]
  let target := resolver.link (item.link.getD "")
  let link ← anchor component (elementClass component "link") target body
  return block (elementClass component "item") [link]

def layout (s : FooterSection) : Layout :=
  { component := component, size := some .medium, title := some s.title }

def render (s : FooterSection) (resolver : Resolver) : Logged Node := do
  let blocks ← Logged.each (renderItem resolver) s.items
  return block component
    [container s.layout [heading s.layout, block (elementClass component "content") blocks]]

end FooterSection

end StaticSite
