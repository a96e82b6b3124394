/-!
# Escaping reserved characters

Text, attribute values, XML text and JSON strings are written with their reserved characters
replaced. Each escaper is a chain of replacements of one character by a text. The ampersand (for
JSON the backslash) is replaced first, so that the characters that later steps introduce are not
replaced again.
-/

namespace StaticSite.Escape

def replace (c : Char) (new : String) (s : String) : String :=
  String.ofList (s.toList.flatMap fun x => if x = c then new.toList else [x])

def forText (s : String) : String :=
  replace '>' "&gt;" (replace '<' "&lt;" (replace '&' "&amp;" s))

def forAttribute (s : String) : String := replace '"' "&quot;" (forText s)

def forXml (s : String) : String :=
  replace '\'' "&apos;" (replace '"' "&quot;"
    (replace '>' "&gt;" (replace '<' "&lt;" (replace '&' "&amp;" s))))

def forQuotes (s : String) : String := replace '"' "\\\"" (replace '\\' "\\\\" s)

end StaticSite.Escape
