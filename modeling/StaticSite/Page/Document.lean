import StaticSite.Markup.Html
import StaticSite.Markup.Query
import StaticSite.Page.Basic
import StaticSite.Template.Shell

/-!
# Documents

A document is a page in its shell: the head from the page's descriptor, the navigation bar from the
settings, and the body. References that do not resolve show as placeholders in the navigation bar
and the body; a preview image that does not resolve is left out. `unresolvedReferences` lists them.
-/

namespace StaticSite

def navLink (resolver : Resolver) (item : NavItem) : Logged Node :=
  match resolver.link item.target with
  | .url address =>
    return ((anchorElement "navbar__link" address).append (.text item.label)).node
  | .broken reference => placeholder "navbar" reference

def brandContent (s : Settings) (resolver : Resolver) : Logged Node :=
  match s.navbar.logo with
  | none => return .text s.site.title
  | some logo => image "navbar" "navbar__logo" (resolver.asset logo.src) logo.alt

def homeAddress (resolver : Resolver) : String :=
  match resolver.link "/" with
  | .url address => address
  | .broken reference => reference

def navGroup (s : Settings) (resolver : Resolver) (side : Side) : Logged (List Node) := do
  let links ← Logged.each (navLink resolver) (s.navbar.items.filter fun i => i.side = side)
  if links.isEmpty then return []
  else
    return [Element.node <| (Element.mk "div" [] []
      |>.addClass "navbar__items"
      |>.addClass ("navbar__items--" ++ side.name)
      |>.appendAll links)]

def navbar (s : Settings) (resolver : Resolver) : Logged Node := do
  let content ← brandContent s resolver
  let brand := Element.node <| (Element.mk "a" [] []
    |>.addClass "navbar__brand"
    |>.setAttribute "href" (homeAddress resolver)
    |>.append content)
  let groups ← Logged.each (navGroup s resolver) Side.all
  return Element.node <| (Element.mk "nav" [] []
    |>.addClass "navbar"
    |>.append brand
    |>.appendAll groups.flatten)

def documentTitle (s : Settings) (title : String) : String :=
  if title = "" ∨ title = s.site.title then s.site.title else title ++ " | " ++ s.site.title

def headElement (tag name₁ value₁ name₂ value₂ : String) : Node :=
  Element.node <|
    (Element.mk tag [] [] |>.setAttribute name₁ value₁ |>.setAttribute name₂ value₂)

def previewTags (url : String) : Node :=
  .fragment
    [headElement "meta" "property" "og:image" "content" url,
      headElement "meta" "name" "twitter:image" "content" url,
      headElement "meta" "name" "twitter:card" "content" "summary_large_image"]

/-- A value for a name, or no change where there is none. -/
def Bindings.setSome (b : Bindings) (name : String) : Option String → Bindings
  | none => b
  | some value => b.set name value

def descriptionValue (d : Descriptor) : Option String :=
  if d.description = "" then none else some d.description

def keywordsValue (d : Descriptor) : Option String :=
  if d.keywords = [] then none else some (", ".intercalate d.keywords)

def previewHtml (s : Settings) (resolver : Resolver) (d : Descriptor) : Logged (Option String) :=
  match d.previewImage with
  | none => return none
  | some name =>
    match resolver.asset name with
    | .url path => return some (previewTags (s.absoluteUrl path)).html
    | .broken reference => do
      Logged.warn (.missingPreview reference)
      return none

def faviconHtml (s : Settings) (resolver : Resolver) : Option String :=
  match s.site.favicon with
  | none => none
  | some favicon =>
    match resolver.asset favicon with
    | .url address => some (headElement "link" "rel" "icon" "href" address).html
    -- Nothing marks the icon that is left out, and nothing reports it.
    | .broken _ => none

def shellBindings (s : Settings) (resolver : Resolver) (page : Page) : Logged Bindings := do
  let nav ← navbar s resolver
  let preview ← previewHtml s resolver page.descriptor
  -- Names that are left out here are optional in the shell.
  return Bindings.set [] "lang" s.site.language
    |>.set "title" (documentTitle s page.descriptor.title)
    |>.set "canonical_url" (s.urlFor page.route.path)
    |>.set "navbar" nav.html
    |>.set "content" page.body.html
    |>.setSome "description" (descriptionValue page.descriptor)
    |>.setSome "keywords" (keywordsValue page.descriptor)
    |>.setSome "meta_image_tags" preview
    |>.setSome "favicon_link" (faviconHtml s resolver)

def document (s : Settings) (templates : Templates) (resolver : Resolver) (page : Page) :
    Logged (Except TemplateError String) := do
  let bindings ← shellBindings s resolver page
  return templates.render shellName bindings

def brokenReferences (n : Node) : List String :=
  (n.findByClass "broken-ref").filterMap fun e => e.attribute? "data-broken-ref"

def brokenPreview (resolver : Resolver) (d : Descriptor) : List String :=
  match d.previewImage.map resolver.asset with
  | some (.broken reference) => [reference]
  | _ => []

/-- The references that the document of a page cannot resolve: those marked in the navigation bar,
those marked in the body, and the preview image. -/
def unresolvedReferences (s : Settings) (resolver : Resolver) (page : Page) : List String :=
  brokenReferences (navbar s resolver).value ++ brokenReferences page.body ++
    brokenPreview resolver page.descriptor

structure BrokenReference where
  route : Route
  reference : String
  deriving DecidableEq, Repr

def siteBrokenReferences (s : Settings) (resolver : Resolver) : List BrokenReference :=
  Route.all.flatMap fun route =>
    let page := (route.assemble ⟨s, resolver⟩).value
    (unresolvedReferences s resolver page).map fun reference => ⟨route, reference⟩

end StaticSite
