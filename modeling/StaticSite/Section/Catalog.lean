import StaticSite.Section.Card
import StaticSite.Section.Footer
import StaticSite.Section.Standing

/-!
# The sections of the site

Every section with its content, and the functions that treat all of them alike: identity,
validation and rendering.
-/

namespace StaticSite

inductive PageSection where
  | hero (s : HeroSection)
  | pitch (s : PitchSection)
  | cards (s : CardSection)
  | footer (s : FooterSection)
  | credits (s : CreditSection)

namespace PageSection

def id : PageSection → SectionId
  | .hero _ => .intro
  | .pitch _ => .why
  | .cards s => s.id
  | .footer _ => .footer
  | .credits _ => .foot

def validate : PageSection → Except ContentDefect Unit
  | .cards s => validateItems s.id.className CardSection.required s.items
  | .footer s => validateItems FooterSection.component FooterSection.required s.items
  | _ => .ok ()

def render (ctx : RenderContext) : PageSection → Logged Node
  | .hero s => s.render ctx
  | .pitch s => s.render ctx
  | .cards s => s.render
  | .footer s => s.render ctx.resolver
  | .credits s => s.render ctx

end PageSection

namespace Catalog

def hero : HeroSection where
  headline := RichText.parse "State<br/>Machines</br>Made Easy"
  artwork := "img/023.png"
  actionLabel := "Get Started"
  actionTarget := "/docs/welcome"

def pitchText : String :=
  "OpenState is adopted from and designed for production environments seeking flexible, low-code " ++
  "workflow management. Declarative task definitions mean you can spend more time elsewhere, " ++
  "while OpenState makes light work of your ETL jobs, automation, and closed loop control planes."

def pitch : PitchSection where
  title := "Why use OpenState?"
  subtitle := RichText.parse pitchText
  wideImage := "img/img-why-boilerplate@2x.png"
  narrowImage := "img/img-why-boilerplate-mobile@2x.png"

def features : CardSection where
  id := .features
  title := "What you need, and nothing more"
  items :=
    [{ icon := .red
       title := "Language Agnostic"
       description := "Define workflows on your own terms. Callbacks as containers means the " ++
        "sky's the limit for libraries and languages." },
     { icon := .purple
       title := "Low Code"
       description := "Don't overthink workflows with serialized, declarative configurations. " ++
        "Creating tasks is as easy as writing a YAML file." },
     { icon := .yellow
       title := "Pluggable Runtimes"
       description := "OpenState can deploy into any runtime environment, including your " ++
        "existing Kubernetes cluster." },
     { icon := .green
       title := "HA and Fault Tolerant"
       description := "Built on top of Raft and backed by the Serf gossip protocol, OpenState " ++
        "puts fault tolerance and strong consistency." }]

def community : CardSection where
  id := .community
  title := "Community Resources"
  items :=
    [{ icon := .green
       title := "Slack"
       description := "Low-priority, high volume communications. Come and ask questions!" },
     { icon := .purple
       title := "Email List"
       description := "High-priority, low volume annoucements. Includes release information, " ++
        "security notices, and urgent bulletins." },
     { icon := .blue
       title := "Bug Tracker"
       description := "Use GitHub's Issue Tracker. Please only use this for reporting bugs. Do " ++
        "not ask for general help here; use the Slack workspace instead." }]

def footerCards : FooterSection where
  title := "Start exploring"
  items :=
    [{ icon := .boilerplate, title := "OpenState<br />Documentation",
       link := some "/docs/welcome" },
     { icon := .boilerplatePlugin, title := "OpenState<br />Documentation",
       link := some "/docs/welcome" },
     { icon := .frontendLibs, title := "OpenState<br />Source Code",
       link := some "https://github.com/walkergriggs/openstate" },
     { icon := .libs, title := "OpenState<br />Community", link := some "/community" }]

def creditStrip : CreditSection where
  credit := "Made with 🧡 by "
  author := "Walker Griggs"
  authorTarget := "https://walkergriggs.com"
  contact := "Contact Me"
  contactTarget := "https://github.com/walkergriggs"

def sectionOf : SectionId → PageSection
  | .intro => .hero hero
  | .why => .pitch pitch
  | .features => .cards features
  | .community => .cards community
  | .footer => .footer footerCards
  | .foot => .credits creditStrip

end Catalog

end StaticSite
