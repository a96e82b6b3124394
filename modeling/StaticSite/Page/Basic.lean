import StaticSite.Page.Descriptor
import StaticSite.Section.Catalog

/-!
# Pages

A route has a fixed sequence of sections. Assembling it renders the sections in order, and pairs
the result with the descriptor of the site under the route's own title, if it has one.
-/

namespace StaticSite

inductive Route where
  | home
  | community
  deriving DecidableEq, Repr

namespace Route

def all : List Route := [.home, .community]

def path : Route → String
  | .home => "/"
  | .community => "/community"

def sectionIds : Route → List SectionId
  | .home => [.intro, .why, .features, .footer, .foot]
  | .community => [.community]

def sections (r : Route) : List PageSection := r.sectionIds.map Catalog.sectionOf

def title? : Route → Option String
  | .home => none
  | .community => some "Get Started"

def validate (r : Route) : Except ContentDefect Unit :=
  r.sections.forM PageSection.validate

end Route

structure Page where
  route : Route
  descriptor : Descriptor
  body : Node

def Route.descriptor (r : Route) (s : Settings) : Descriptor :=
  let d := Descriptor.ofSettings s
  { d with title := r.title?.getD d.title }

def Route.assemble (r : Route) (ctx : RenderContext) : Logged Page := do
  let sections ← Logged.each (PageSection.render ctx) r.sections
  return { route := r, descriptor := r.descriptor ctx.settings, body := block "page" sections }

end StaticSite
