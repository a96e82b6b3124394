import StaticSite.Markup.Escape
import StaticSite.Resolver
import StaticSite.SortedMap

/-!
# Asset manifests

A manifest maps the logical name of each asset to the path under which it is deployed. It is written
as a JSON object, with one name a line in ascending order.
-/

namespace StaticSite

structure Manifest where
  assets : SortedMap String String := .empty

namespace Manifest

def empty : Manifest := {}

def add (m : Manifest) (logical deployed : String) : Manifest := ⟨m.assets.insert logical deployed⟩

def deployed? (m : Manifest) (logical : String) : Option String := m.assets.get? logical

def entries (m : Manifest) : List (String × String) := m.assets.entries

def size (m : Manifest) : Nat := m.assets.size

def restrict (m : Manifest) (r : Resolver) : Resolver := r.restrict m.entries

def quoted (s : String) : String := "\"" ++ Escape.forQuotes s ++ "\""

def line (e : String × String) : String := "  " ++ quoted e.1 ++ ": " ++ quoted e.2

def json (m : Manifest) : String :=
  if m.entries = [] then "\x7b\x7d\n"
  else "\x7b\n" ++ ",\n".intercalate (m.entries.map line) ++ "\n\x7d\n"

end Manifest

end StaticSite
