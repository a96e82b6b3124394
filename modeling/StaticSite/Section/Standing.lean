import StaticSite.RichText.Parse
import StaticSite.Section.Basic

/-!
# Sections with a template of their own

The hero of the home page, the pitch with its illustration, and the credit strip at the bottom.
-/

namespace StaticSite

/-- The hero: a headline, artwork, the site's tagline, and a call to action. -/
structure HeroSection where
  headline : RichText
  artwork : String
  actionLabel : String
  actionTarget : String

def HeroSection.render (s : HeroSection) (ctx : RenderContext) : Logged Node := do
  let id := SectionId.intro
  let component := id.className
  let artwork ← image component (id.element "image-img") (ctx.resolver.asset s.artwork) ""
  let action ← button component s.actionLabel (ctx.resolver.link s.actionTarget)
  return block component
    [container { component := component, size := some .medium }
      [block (id.element "title") [.rich s.headline],
        block (id.element "image") [artwork],
        block (id.element "content") [.text ctx.settings.site.tagline],
        action]]

structure PitchSection where
  title : String
  subtitle : RichText
  wideImage : String
  narrowImage : String

def PitchSection.render (s : PitchSection) (ctx : RenderContext) : Logged Node := do
  let id := SectionId.why
  let component := id.className
  let intro : Layout :=
    { component := component, size := some .small, title := some s.title,
      subtitle := some s.subtitle, align := some .left }
  let wide ← image component (id.element "image" ++ " " ++ id.element "image--desktop")
    (ctx.resolver.asset s.wideImage) ""
  let narrow ← image component (id.element "image" ++ " " ++ id.element "image--mobile")
    (ctx.resolver.asset s.narrowImage) ""
  return block component
    [container intro [heading { intro with size := some .medium }],
      container { component := component, size := some .medium }
        [block (id.element "content") [wide, narrow]]]

structure CreditSection where
  credit : String
  author : String
  authorTarget : String
  contact : String
  contactTarget : String

def CreditSection.column (side : String) (children : List Node) : Node :=
  Element.node <| (Element.mk "div" [] []
    |>.addClass (SectionId.foot.element "column")
    |>.addClass (SectionId.foot.element ("column--" ++ side))
    |>.appendAll children)

def CreditSection.render (s : CreditSection) (ctx : RenderContext) : Logged Node := do
  let id := SectionId.foot
  let component := id.className
  let author ← anchor component (id.element "link") (ctx.resolver.link s.authorTarget)
    [.text s.author]
  let contact ← anchor component (id.element "link") (ctx.resolver.link s.contactTarget)
    [.text s.contact]
  return block component
    [container { component := component }
      [block (id.element "columns")
        [CreditSection.column "left" [.text s.credit, author],
          CreditSection.column "right" [contact]]]]

end StaticSite
