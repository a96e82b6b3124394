import StaticSite.Data.Reading
import StaticSite.Settings.Basic

/-!
# Settings from values

The settings as a record of records. The site with its title and address has to be there, a logo
has both of its fields, and a link of the navigation bar has a target and a label; all else has
defaults. Names that are not known are ignored.
-/

namespace StaticSite

open Reading

def Site.decode (r : Reading) (v : Value) : Option Site := do
  let es ← r.fields
    ["title", "tagline", "url", "language", "base_url", "favicon", "keywords", "image"] v
  return {
    title := ← required es "title" r.text
    tagline := ← defaulted es "tagline" r.text ""
    url := ← required es "url" r.text
    language := ← defaulted es "language" r.text "en"
    baseUrl := ← defaulted es "base_url" r.text "/"
    favicon := ← defaulted es "favicon" (r.optional r.text) none
    keywords := ← defaulted es "keywords" (list r.text) []
    image := ← defaulted es "image" (r.optional r.text) none }

def Logo.decode (r : Reading) (v : Value) : Option Logo := do
  let es ← r.fields ["alt", "src"] v
  return { alt := ← required es "alt" r.text, src := ← required es "src" r.text }

def NavItem.decode (r : Reading) (v : Value) : Option NavItem := do
  let es ← r.fields ["to", "label", "position"] v
  return {
    target := ← required es "to" r.text
    label := ← required es "label" r.text
    side := ← defaulted es "position" (r.choice Side.all Side.name) .right }

def Navbar.decode (r : Reading) (v : Value) : Option Navbar := do
  let es ← r.fields ["logo", "items"] v
  return {
    logo := ← defaulted es "logo" (r.optional (Logo.decode r)) none
    items := ← defaulted es "items" (list (NavItem.decode r)) [] }

def BuildSettings.decode (r : Reading) (v : Value) : Option BuildSettings := do
  let es ← r.fields ["output_dir", "static_dir", "fingerprint"] v
  return {
    outputDir := ← defaulted es "output_dir" r.text "build"
    staticDir := ← defaulted es "static_dir" r.text "static"
    fingerprint := ← defaulted es "fingerprint" r.flag false }

def SitemapSettings.decode (r : Reading) (v : Value) : Option SitemapSettings := do
  let es ← r.fields ["enabled", "changefreq", "priority", "trailing_slash"] v
  return {
    enabled := ← defaulted es "enabled" r.flag true
    changeFrequency := ←
      defaulted es "changefreq" (r.choice ChangeFrequency.all ChangeFrequency.name) .weekly
    priority := ← defaulted es "priority" r.number .half
    trailingSlash := ← defaulted es "trailing_slash" r.flag false }

def Settings.decode (r : Reading) (v : Value) : Option Settings := do
  let es ← r.fields ["site", "navbar", "build", "sitemap"] v
  return {
    site := ← required es "site" (Site.decode r)
    navbar := ← defaulted es "navbar" (Navbar.decode r) {}
    build := ← defaulted es "build" (BuildSettings.decode r) {}
    sitemap := ← defaulted es "sitemap" (SitemapSettings.decode r) {} }

end StaticSite
