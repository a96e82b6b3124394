import StaticSite.Content.Icon
import StaticSite.Number.Decimal

/-!
# Content of sections

A section that lists things is driven by a list of items. All items have the same fields; which of
them may not be blank depends on the section. Validation names the first item that lacks a required
field, and the first required field that it lacks.
-/

namespace StaticSite

structure ContentItem where
  icon : Icon
  title : String
  description : String := ""
  link : Option String := none
  deriving DecidableEq, Repr

inductive Field where
  | icon
  | title
  | description
  | link
  deriving DecidableEq, Repr

def Field.name : Field → String
  | .icon => "icon"
  | .title => "title"
  | .description => "description"
  | .link => "link"

def Field.all : List Field := [.icon, .title, .description, .link]

def ContentItem.has (item : ContentItem) : Field → Bool
  | .icon => !Text.isBlankText item.icon.name
  | .title => !Text.isBlankText item.title
  | .description => !Text.isBlankText item.description
  | .link =>
    match item.link with
    | none => false
    | some link => !Text.isBlankText link

structure ContentDefect where
  sectionName : String
  index : Nat
  field : Field
  deriving DecidableEq, Repr

def ContentDefect.message (d : ContentDefect) : String :=
  "Content error in section " ++ d.sectionName ++ ", item " ++ Number.digits d.index ++
    ": missing " ++ d.field.name

/-- The index of the first item that lacks a required field, with the first field that it lacks;
the first item of the list has the index `start`. -/
def firstDefect (required : List Field) : Nat → List ContentItem → Option (Nat × Field)
  | _, [] => none
  | start, item :: rest =>
    match required.find? fun f => !item.has f with
    | some f => some (start, f)
    | none => firstDefect required (start + 1) rest

def validateItems (sectionName : String) (required : List Field) (items : List ContentItem) :
    Except ContentDefect Unit :=
  match firstDefect required 0 items with
  | none => .ok ()
  | some (index, field) => .error ⟨sectionName, index, field⟩

end StaticSite
