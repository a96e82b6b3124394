import StaticSite.Section.Basic

/-!
# Card sections

A card section is a heading and one block for each item of its content, in order. An item with an
icon that is not known is drawn with the default treatment, and a warning is given.
-/

namespace StaticSite

structure CardSection where
  id : SectionId
  title : String
  items : List ContentItem

def cardTitle (component : String) (item : ContentItem) : Node :=
  Element.node <| (Element.mk "div" [] []
    |>.addClass (elementClass component "title")
    |>.addClass (elementClass component "title--" ++ item.icon.modifier)
    |>.append (.text item.title))

def warnIcon (component : String) (item : ContentItem) : Logged Unit :=
  if item.icon.isKnown then pure ()
  else Logged.warn (.unknownIcon component item.icon.name item.title)

def card (component : String) (item : ContentItem) : Logged Node := do
  warnIcon component item
  return block (elementClass component "item")
    [cardTitle component item, block (elementClass component "desc") [.text item.description]]

def cards (component : String) (items : List ContentItem) : Logged (List Node) :=
  Logged.each (card component) items

namespace CardSection

def required : List Field := [.icon, .title, .description]

def layout (s : CardSection) : Layout :=
  { component := s.id.className, size := some .medium, title := some s.title, align := some .left }

def render (s : CardSection) : Logged Node := do
  let blocks ← cards s.id.className s.items
  return block s.id.className
    [container s.layout [heading s.layout, block (s.id.element "content") blocks]]

end CardSection

end StaticSite
