import StaticSite.Text.Blank

/-!
# Icon tags

An item of content names the icon that it is drawn with. Nine names are known, in any letter case
and with blanks around them; any other text is kept as it was written.
-/

namespace StaticSite

inductive Icon where
  | red
  | purple
  | yellow
  | green
  | blue
  | boilerplate
  | boilerplatePlugin
  | frontendLibs
  | libs
  | unknown (tag : String)
  deriving DecidableEq, Repr

inductive Treatment where
  | color (name : String)
  | glyph (asset : String)
  | plain
  deriving DecidableEq, Repr

namespace Icon

def name : Icon → String
  | .red => "red"
  | .purple => "purple"
  | .yellow => "yellow"
  | .green => "green"
  | .blue => "blue"
  | .boilerplate => "boilerplate"
  | .boilerplatePlugin => "boilerplate-plugin"
  | .frontendLibs => "frontend-libs"
  | .libs => "libs"
  | .unknown tag => tag

def known : List Icon :=
  [.red, .purple, .yellow, .green, .blue, .boilerplate, .boilerplatePlugin, .frontendLibs, .libs]

def isKnown : Icon → Bool
  | .unknown _ => false
  | _ => true

def read (s : String) : Icon :=
  let wanted := Text.lower (Text.trim s)
  (known.find? fun i => i.name = wanted).getD (.unknown s)

def treatment : Icon → Treatment
  | .red => .color "red"
  | .purple => .color "purple"
  | .yellow => .color "yellow"
  | .green => .color "green"
  | .blue => .color "blue"
  | .boilerplate => .glyph "img/ic-boilerplate.svg"
  | .boilerplatePlugin => .glyph "img/ic-boilerplate-plugin.svg"
  | .frontendLibs => .glyph "img/ic-frontend-libs.svg"
  | .libs => .glyph "img/ic-libs.svg"
  | .unknown _ => .plain

def modifier (i : Icon) : String :=
  match i.treatment with
  | .plain => "default"
  | _ => i.name

end Icon

end StaticSite
