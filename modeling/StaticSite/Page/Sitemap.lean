import StaticSite.Calendar.Date
import StaticSite.Markup.Escape
import StaticSite.Page.Basic

/-!
# Sitemaps

A sitemap lists the address of each route with the date of its last change, if one is given, how
often it changes, and its priority with one decimal.
-/

namespace StaticSite

structure SitemapEntry where
  location : String
  lastModified : Option Calendar.Date
  changeFrequency : ChangeFrequency
  priority : Number.Binary32
  deriving DecidableEq, Repr

def withSlash (s : String) : String := if s.toList.getLast? = some '/' then s else s ++ "/"

/-- The address of a route under the slash policy of the site. The address of the home page keeps
the slashes that it has. -/
def sitemapLocation (s : Settings) (route : Route) : String :=
  let url := s.urlFor route.path
  if s.sitemap.trailingSlash then withSlash url
  -- Without its slash the address of the root would name the site and no page.
  else if route = .home then url
  else Text.trimEnd Text.isSlash url

def sitemapEntry (s : Settings) (date : Option Calendar.Date) (route : Route) : SitemapEntry where
  location := sitemapLocation s route
  lastModified := date
  changeFrequency := s.sitemap.changeFrequency
  priority := s.sitemap.priority

def xmlLine (tag content : String) : String :=
  "    <" ++ tag ++ ">" ++ content ++ "</" ++ tag ++ ">\n"

def lastModifiedLine : Option Calendar.Date → String
  | none => ""
  | some date => xmlLine "lastmod" date.iso

def SitemapEntry.xml (e : SitemapEntry) : String :=
  "  <url>\n" ++ xmlLine "loc" (Escape.forXml e.location) ++ lastModifiedLine e.lastModified ++
    xmlLine "changefreq" e.changeFrequency.name ++
    xmlLine "priority" e.priority.toDatum.oneDecimal ++ "  </url>\n"

def sitemapHeader : String :=
  "<?xml version=\"1.0\" encoding=\"UTF-8\"?>\n" ++
    "<urlset xmlns=\"http://www.sitemaps.org/schemas/sitemap/0.9\">\n"

def sitemap (s : Settings) (date : Option Calendar.Date) (routes : List Route) : String :=
  sitemapHeader ++ String.join (routes.map fun r => (sitemapEntry s date r).xml) ++ "</urlset>\n"

end StaticSite
