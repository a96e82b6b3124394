import StaticSite.Content.Item
import StaticSite.Layout.Primitive

/-!
# Sections

A page is a sequence of sections. Each section has a class name that all its elements' class names
begin with. Rendering a section reads the settings and the resolver and changes neither.
-/

namespace StaticSite

inductive SectionId where
  | intro
  | why
  | features
  | community
  | footer
  | foot
  deriving DecidableEq, Repr

def SectionId.className : SectionId → String
  | .intro => "shift-intro"
  | .why => "shift-why"
  | .features => "shift-features"
  | .community => "shift-community"
  | .footer => "shift-footer"
  | .foot => "shift-foot"

def SectionId.all : List SectionId := [.intro, .why, .features, .community, .footer, .foot]

def SectionId.element (id : SectionId) (name : String) : String := elementClass id.className name

structure RenderContext where
  settings : Settings
  resolver : Resolver

def block (className : String) (children : List Node) : Node :=
  Element.node (Element.mk "div" [] [] |>.addClass className |>.appendAll children)

end StaticSite
