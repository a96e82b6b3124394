import StaticSite.Markup.Escape
import StaticSite.Text.Blank

/-!
# Templates

A template is text with placeholders between double braces. Rendering goes through the text once,
from left to right: the text before a placeholder is kept, the placeholder is read and its value put
in its place, and the rest follows. Values are never read as templates themselves, and rendering
stops at the first placeholder that is malformed or has no value.
-/

namespace StaticSite

structure Placeholder where
  name : String
  optional : Bool
  raw : Bool
  deriving DecidableEq, Repr

inductive TemplateDefect where
  | unclosed
  | unknownFilter (name : String)
  | tooManyFilters (inner : String)
  | emptyName
  deriving DecidableEq, Repr

def TemplateDefect.message : TemplateDefect → String
  | .unclosed => "unclosed \x7b\x7b delimiter"
  | .unknownFilter name => "unknown filter '" ++ name ++ "'"
  | .tooManyFilters inner => "too many filters in '" ++ inner ++ "'"
  | .emptyName => "empty placeholder"

def Placeholder.splitName (name : String) : String × Bool :=
  match name.toList.getLast? with
  | some '?' => (Text.trimEnd Text.isBlank (String.ofList name.toList.dropLast), true)
  | _ => (name, false)

def Placeholder.ofParts (inner name : String) (raw : Bool) (rest : List String) :
    Except TemplateDefect Placeholder :=
  if rest ≠ [] then .error (.tooManyFilters inner)
  else
    let (name, optional) := splitName name
    if name = "" then .error .emptyName else .ok ⟨name, optional, raw⟩

def Placeholder.parts (inner : List Char) : List String :=
  (Text.splitOn (· == '|') inner).map fun part => Text.trim (String.ofList part)

def Placeholder.read (inner : List Char) : Except TemplateDefect Placeholder :=
  match parts inner with
  | [] => .error .emptyName
  | [name] => ofParts (String.ofList inner) name false []
  | name :: filter :: rest =>
    if filter = "raw" then ofParts (String.ofList inner) name true rest
    else .error (.unknownFilter filter)

def openingBraces : List Char := ['\x7b', '\x7b']

def closingBraces : List Char := ['\x7d', '\x7d']

theorem Text.length_of_cut {pat s before after : List Char}
    (h : Text.cut pat s = some (before, after)) (hp : pat ≠ []) : after.length < s.length := by
  have hl : 0 < pat.length := List.length_pos_iff.2 hp
  rw [Text.eq_append_of_cut h]
  simp only [List.length_append]
  omega

/-- The values of names; the first value of a name counts. -/
abbrev Bindings := List (String × String)

def Bindings.set (b : Bindings) (name value : String) : Bindings := (name, value) :: b

def Bindings.value? (b : Bindings) (name : String) : Option String := b.lookup name

inductive TemplateError where
  | missing (name : String)
  | notFound (template : String)
  | malformed (defect : TemplateDefect)
  deriving DecidableEq, Repr

def TemplateError.message : TemplateError → String
  | .missing name => "missing required variable: " ++ name
  | .notFound name => "template not found: " ++ name
  | .malformed defect => "invalid template syntax: " ++ defect.message

def Placeholder.render (b : Bindings) (p : Placeholder) : Except TemplateError String :=
  match b.value? p.name with
  | some value => .ok (if p.raw then value else Escape.forAttribute value)
  | none => if p.optional then .ok "" else .error (.missing p.name)

/-- What is left of a template, rendered after the text that there is already. -/
def Template.renderFrom (b : Bindings) (out : String) (s : List Char) :
    Except TemplateError String :=
  match _h : Text.cut openingBraces s with
  | none => .ok (out ++ String.ofList s)
  | some (before, after) =>
    -- The first closing braces count, so no placeholder stands inside another one.
    match _h' : Text.cut closingBraces after with
    | none => .error (.malformed .unclosed)
    | some (inner, rest) =>
      match Placeholder.read inner with
      | .error e => .error (.malformed e)
      | .ok p =>
        match p.render b with
        | .error e => .error e
        | .ok value => Template.renderFrom b (out ++ String.ofList before ++ value) rest
termination_by s.length
decreasing_by
  have h1 := Text.length_of_cut _h (by simp [openingBraces])
  have h2 := Text.length_of_cut _h' (by simp [closingBraces])
  omega

def Template.render (b : Bindings) (template : String) : Except TemplateError String :=
  Template.renderFrom b "" template.toList

abbrev Templates := List (String × String)

def Templates.register (t : Templates) (name text : String) : Templates := (name, text) :: t

def Templates.get? (t : Templates) (name : String) : Option String := t.lookup name

def Templates.render (t : Templates) (name : String) (b : Bindings) :
    Except TemplateError String :=
  match t.get? name with
  | none => .error (.notFound name)
  | some text => Template.render b text

end StaticSite
