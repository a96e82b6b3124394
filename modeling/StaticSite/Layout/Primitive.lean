import StaticSite.Markup.Node
import StaticSite.Resolver
import StaticSite.Warning

/-!
# Layout primitives

The building blocks that all sections share: sized containers, headings, buttons, arrows, images,
links, and the visible marker for a reference that does not resolve.
-/

namespace StaticSite

inductive Size where
  | small
  | medium
  deriving DecidableEq, Repr

inductive Align where
  | left
  | center
  deriving DecidableEq, Repr

inductive Direction where
  | right
  | left
  deriving DecidableEq, Repr

def Size.name : Size → String
  | .small => "small"
  | .medium => "medium"

def Align.name : Align → String
  | .left => "left"
  | .center => "center"

def Direction.name : Direction → String
  | .right => "right"
  | .left => "left"

structure UnknownOption where
  kind : String
  value : String
  expected : String
  deriving DecidableEq, Repr

def UnknownOption.message (e : UnknownOption) : String :=
  "invalid " ++ e.kind ++ " '" ++ e.value ++ "', expected one of: " ++ e.expected

def Size.read (s : String) : Except UnknownOption Size :=
  if s = "small" then .ok .small
  else if s = "medium" then .ok .medium
  else .error ⟨"size", s, "small, medium"⟩

def Align.read (s : String) : Except UnknownOption Align :=
  if s = "left" then .ok .left
  else if s = "center" then .ok .center
  else .error ⟨"alignment", s, "left, center"⟩

def Direction.read? (s : String) : Option Direction :=
  if s = "right" then some .right else if s = "left" then some .left else none

/-- What a container or a heading looks like. Class names are made from the component's name. -/
structure Layout where
  component : String
  size : Option Size := none
  align : Option Align := none
  title : Option String := none
  subtitle : Option RichText := none

def elementClass (component element : String) : String := component ++ "__" ++ element

def optionClass (start : String) (name : α → String) : Option α → String
  | none => ""
  | some a => start ++ name a

def container (layout : Layout) (children : List Node) : Node :=
  Element.node <| (Element.mk "div" [] []
    |>.addClass "container"
    |>.addClass (optionClass "container--" Size.name layout.size)
    |>.addClass (if layout.align = some .center then "container--centered" else "")
    |>.addClass (elementClass layout.component "container")
    |>.appendAll children)

def titleNodes (layout : Layout) : List Node :=
  match layout.title with
  | none => []
  | some title =>
    [Element.node <| (Element.mk "h2" [] []
      |>.addClass "heading__title"
      |>.addClass (elementClass layout.component "heading-title")
      |>.append (.text title))]

def subtitleNodes (layout : Layout) : List Node :=
  match layout.subtitle with
  | none => []
  | some subtitle =>
    if subtitle.isEmpty then []
    else
      [Element.node <| (Element.mk "div" [] []
        |>.addClass "heading__subtitle"
        |>.addClass (elementClass layout.component "heading-subtitle")
        |>.append (.rich subtitle))]

def heading (layout : Layout) : Node :=
  Element.node <| (Element.mk "div" [] []
    |>.addClass "heading"
    |>.addClass (optionClass "heading--align-" Align.name layout.align)
    |>.addClass (optionClass "heading--size-" Size.name layout.size)
    |>.addClass (elementClass layout.component "heading")
    |>.appendAll (titleNodes layout ++ subtitleNodes layout))

def arrow (component : String) (direction : Direction) : Node :=
  Element.node <| (Element.mk "span" [] []
    |>.addClass "arrow"
    |>.addClass ("arrow--" ++ direction.name)
    |>.addClass (elementClass component "arrow")
    |>.setAttribute "aria-hidden" "true")

def placeholder (component reference : String) : Logged Node := do
  Logged.warn (.placeholder component reference)
  return Element.node <| (Element.mk "span" [] []
    |>.addClass "broken-ref"
    |>.addClass (elementClass component "broken")
    |>.setAttribute "data-broken-ref" reference
    |>.append (.text ("[missing: " ++ reference ++ "]")))

def button (component label : String) : Resolved → Logged Node
  | .url address =>
    return Element.node <| (Element.mk "a" [] []
      |>.addClass "btn"
      |>.addClass (elementClass component "btn")
      |>.setAttribute "href" address
      |>.append (.text label))
  | .broken reference => placeholder component reference

def image (component classes : String) (source : Resolved) (alt : String) : Logged Node :=
  match source with
  | .url address =>
    return Element.node <| (Element.mk "img" [] []
      |>.addClass classes
      |>.setAttribute "src" address
      |>.setAttribute "alt" alt)
  | .broken reference => placeholder component reference

def anchorElement (className address : String) : Element :=
  let a := Element.mk "a" [] [] |>.addClass className |>.setAttribute "href" address
  if isExternal address then
    a |>.setAttribute "target" "_blank" |>.setAttribute "rel" "noopener noreferrer"
  else a

/-- An anchor around children, or a marked block with a placeholder after them. -/
def anchor (component className : String) (target : Resolved) (children : List Node) :
    Logged Node :=
  match target with
  | .url address => return ((anchorElement className address).appendAll children).node
  | .broken reference => do
    -- The children stay to be seen, outside of any link.
    let marker ← placeholder component reference
    return Element.node <| (Element.mk "div" [] []
      |>.addClass className
      |>.addClass (className ++ "--broken")
      |>.appendAll children
      |>.append marker)

end StaticSite
