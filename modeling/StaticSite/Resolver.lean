import StaticSite.Settings.Urls

/-!
# Resolving references

Pages name assets and link targets by logical names. A resolver maps them to the paths under which
they are deployed. With a list of deployed assets it accepts only the names in that list; without
one it trusts every name. A reference that does not resolve is kept as it was written.
-/

namespace StaticSite

inductive Resolved where
  | url (address : String)
  | broken (reference : String)
  deriving DecidableEq, Repr

def Resolved.isBroken : Resolved → Bool
  | .broken _ => true
  | .url _ => false

def siteRelative (s : String) : String := Text.trimStart Text.isSlash s

def beginsWith (start s : String) : Bool := start.toList.isPrefixOf s.toList

def externalSchemes : List String := ["http://", "https://", "mailto:"]

def isExternal (target : String) : Bool :=
  externalSchemes.any fun scheme => beginsWith scheme (Text.trim target)

structure Resolver where
  basePath : String
  assets : Option (List (String × String)) := none
  deriving Repr

namespace Resolver

def ofBase (base : String) : Resolver := { basePath := normalizeBase base }

def ofSettings (s : Settings) : Resolver := ofBase s.basePath

/-- A resolver that accepts only listed assets. Slashes at the start of names and of deployed paths
are ignored. -/
def restrict (r : Resolver) (entries : List (String × String)) : Resolver :=
  { r with assets := some (entries.map fun e => (siteRelative e.1, siteRelative e.2)) }

def deployed? (entries : List (String × String)) (name : String) : Option String :=
  entries.reverse.lookup name

def logicalName (name : String) : String := siteRelative (Text.trim name)

def asset (r : Resolver) (name : String) : Resolved :=
  let logical := logicalName name
  if logical = "" then .broken name
  else
    match r.assets with
    | none => .url (r.basePath ++ logical)
    | some entries =>
      -- Neither name of an entry begins with a slash.
      match deployed? entries logical with
      | some deployed => .url (r.basePath ++ deployed)
      | none => .broken name

/-- A link resolves if it is external, a fragment of the page, or a site path; site paths get the
base path in front. Targets with blanks inside do not resolve. -/
def link (r : Resolver) (target : String) : Resolved :=
  let t := Text.trim target
  if t = "" ∨ t.toList.any Text.isBlank then .broken target
  else if externalSchemes.any (fun scheme => beginsWith scheme t) ∨ beginsWith "#" t then .url t
  else
    match t.toList with
    -- One slash is taken away, also from a target that begins with several.
    | '/' :: path => .url (r.basePath ++ String.ofList path)
    | _ => .broken target

end Resolver

end StaticSite
