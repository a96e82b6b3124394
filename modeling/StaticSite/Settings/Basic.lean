import StaticSite.Number.Decimal
import StaticSite.Text.Blank
import StaticSite.Warning

/-!
# Settings of a site

The settings are read once, checked, and not changed by rendering. `Settings.validate` finds the
first of four defects; a site address that ends in a slash is only worth a warning.
-/

namespace StaticSite

structure Site where
  title : String
  tagline : String := ""
  url : String
  language : String := "en"
  baseUrl : String := "/"
  favicon : Option String := none
  keywords : List String := []
  image : Option String := none
  deriving DecidableEq, Repr

structure Logo where
  alt : String
  src : String
  deriving DecidableEq, Repr

inductive Side where
  | left
  | right
  deriving DecidableEq, Repr

def Side.name : Side → String
  | .left => "left"
  | .right => "right"

def Side.all : List Side := [.left, .right]

structure NavItem where
  target : String
  label : String
  side : Side := .right
  deriving DecidableEq, Repr

structure Navbar where
  logo : Option Logo := none
  items : List NavItem := []
  deriving DecidableEq, Repr

structure BuildSettings where
  outputDir : String := "build"
  staticDir : String := "static"
  fingerprint : Bool := false
  deriving DecidableEq, Repr

inductive ChangeFrequency where
  | always
  | hourly
  | daily
  | weekly
  | monthly
  | yearly
  | never
  deriving DecidableEq, Repr

def ChangeFrequency.name : ChangeFrequency → String
  | .always => "always"
  | .hourly => "hourly"
  | .daily => "daily"
  | .weekly => "weekly"
  | .monthly => "monthly"
  | .yearly => "yearly"
  | .never => "never"

def ChangeFrequency.all : List ChangeFrequency :=
  [.always, .hourly, .daily, .weekly, .monthly, .yearly, .never]

structure SitemapSettings where
  enabled : Bool := true
  changeFrequency : ChangeFrequency := .weekly
  priority : Number.Binary32 := .half
  trailingSlash : Bool := false
  deriving DecidableEq, Repr

structure Settings where
  site : Site
  navbar : Navbar := {}
  build : BuildSettings := {}
  sitemap : SitemapSettings := {}
  deriving DecidableEq, Repr

inductive SettingsDefect where
  | emptyTitle
  | emptyUrl
  | relativeBaseUrl
  | priorityOutOfRange
  deriving DecidableEq, Repr

def SettingsDefect.message : SettingsDefect → String
  | .emptyTitle => "site.title cannot be empty"
  | .emptyUrl => "site.url cannot be empty"
  | .relativeBaseUrl => "site.base_url must start with '/'"
  | .priorityOutOfRange => "sitemap.priority must be between 0.0 and 1.0"

namespace Settings

def defect? (s : Settings) : Option SettingsDefect :=
  if Text.isBlankText s.site.title then some .emptyTitle
  else if Text.isBlankText s.site.url then some .emptyUrl
  else if s.site.baseUrl.toList.head? ≠ some '/' then some .relativeBaseUrl
  else if !s.sitemap.priority.toDatum.inUnitInterval then some .priorityOutOfRange
  else none

def validate (s : Settings) : Except SettingsDefect (Logged Unit) :=
  match s.defect? with
  | some d => .error d
  | none =>
    .ok (if s.site.url.toList.getLast? = some '/' then Logged.warn .trailingSlash else pure ())

theorem isOk_validate_iff {s : Settings} :
    s.validate.isOk = true ↔
      Text.isBlankText s.site.title = false ∧ Text.isBlankText s.site.url = false ∧
        s.site.baseUrl.toList.head? = some '/' ∧
        s.sitemap.priority.toDatum.inUnitInterval = true := by
  have hdefect : s.validate.isOk = true ↔ s.defect? = none := by
    unfold validate
    cases s.defect? <;> simp [Except.isOk, Except.toBool]
  rw [hdefect, defect?]
  cases Text.isBlankText s.site.title <;> cases Text.isBlankText s.site.url <;>
    by_cases hbase : s.site.baseUrl.toList.head? = some '/' <;>
    cases s.sitemap.priority.toDatum.inUnitInterval <;> simp [hbase]

end Settings

end StaticSite
