import StaticSite.Resolver

/-!
# Page descriptors

What the head of a document says about its page: the title, a description, keywords and the preview
image. The descriptor of a site has its keywords without blanks around them, each one once and in
the order in which they first occur.
-/

namespace StaticSite

structure Descriptor where
  title : String
  description : String := ""
  keywords : List String := []
  previewImage : Option String := none
  deriving DecidableEq, Repr

/-- A keyword without blanks around it is added at the end, unless it is blank or there already. -/
def addKeyword (present : List String) (keyword : String) : List String :=
  let k := Text.trim keyword
  if k = "" ∨ k ∈ present then present else present ++ [k]

def distinctKeywords (keywords : List String) : List String := keywords.foldl addKeyword []

/-- The logical name of the preview image; a blank setting names none. -/
def previewName : Option String → Option String
  | none => none
  | some image =>
    let image := Text.trim image
    if image = "" then none else some ("img/" ++ siteRelative image)

def Descriptor.ofSettings (s : Settings) : Descriptor where
  title := s.site.title
  description := s.site.tagline
  keywords := distinctKeywords s.site.keywords
  previewImage := previewName s.site.image

end StaticSite
