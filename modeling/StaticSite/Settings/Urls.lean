import StaticSite.Settings.Basic

/-!
# Addresses of a site

The base path begins and ends with one slash, and so does every base path that is normalized.
Addresses are the site's origin without slashes at its end, followed by a path with one slash at
its start.
-/

namespace StaticSite

/-- A base path with one slash at each end. -/
def normalizeBase (base : String) : String :=
  let inner := Text.trimBoth Text.isSlash base
  if inner = "" then "/" else "/" ++ inner ++ "/"

namespace Settings

def basePath (s : Settings) : String := normalizeBase s.site.baseUrl

def assetPath (s : Settings) (path : String) : String :=
  s.basePath ++ Text.trimStart Text.isSlash path

def origin (s : Settings) : String := Text.trimEnd Text.isSlash s.site.url

def absoluteUrl (s : Settings) (path : String) : String :=
  s.origin ++ "/" ++ Text.trimStart Text.isSlash path

def urlFor (s : Settings) (path : String) : String := s.origin ++ s.assetPath path

end Settings

end StaticSite
