import StaticSite.Template.Basic

/-!
# The document shell

The template that every document is made with, unless another one is registered under its name. Its
lines are kept in a list. Braces are written by their code points.
-/

namespace StaticSite

def braced (inner : String) : String := "\x7b\x7b " ++ inner ++ " \x7d\x7d"

def shellLines : List String :=
  ["<!DOCTYPE html>",
    "<html lang=\"" ++ braced "lang" ++ "\">",
    "<head>",
    "    <meta charset=\"UTF-8\">",
    "    <meta name=\"viewport\" content=\"width=device-width, initial-scale=1.0\">",
    "    <title>" ++ braced "title" ++ "</title>",
    "    <meta name=\"description\" content=\"" ++ braced "description?" ++ "\">",
    "    <meta name=\"keywords\" content=\"" ++ braced "keywords?" ++ "\">",
    "    <meta property=\"og:title\" content=\"" ++ braced "title" ++ "\">",
    "    <meta property=\"og:description\" content=\"" ++ braced "description?" ++ "\">",
    "    <meta property=\"og:url\" content=\"" ++ braced "canonical_url" ++ "\">",
    "    " ++ braced "meta_image_tags? | raw",
    "    " ++ braced "favicon_link? | raw",
    "    <link rel=\"canonical\" href=\"" ++ braced "canonical_url" ++ "\">",
    "</head>",
    "<body>",
    "    " ++ braced "navbar? | raw",
    "    <main>",
    braced "content | raw",
    "    </main>",
    "</body>",
    "</html>"]

def shell : String := String.join (shellLines.map (· ++ "\n"))

def shellName : String := "base"

def Templates.standard : Templates := Templates.register [] shellName shell

end StaticSite
