import StaticSite.RichText.Basic
import StaticSite.Text.Blank

/-!
# Trees of markup

Pages are built as trees of nodes and serialized afterwards, so that their structure can be looked
at first. An `Element` is the part of a tree that is built step by step: classes are added, other
attributes are set, children are appended.
-/

namespace StaticSite

/-- A node of a tree: an element, text, rich text, or a sequence of nodes without a wrapper. -/
inductive Node where
  | element (tag : String) (attributes : List (String × String)) (children : List Node)
  | text (content : String)
  | rich (content : RichText)
  | fragment (nodes : List Node)
  deriving Repr

structure Element where
  tag : String
  attributes : List (String × String) := []
  children : List Node := []
  deriving Repr

def Element.node (e : Element) : Node := .element e.tag e.attributes e.children

def Node.empty : Node := .fragment []

namespace Element

def attribute? (e : Element) (name : String) : Option String := e.attributes.lookup name

/-- Attributes in which the value of a name is `f` of its present value; a new name goes to the
end. -/
def updateAttribute (name : String) (f : Option String → String) :
    List (String × String) → List (String × String)
  | [] => [(name, f none)]
  | (n, v) :: rest =>
    if n = name then (n, f (some v)) :: rest else (n, v) :: updateAttribute name f rest

def setAttribute (e : Element) (name value : String) : Element :=
  { e with attributes := updateAttribute name (fun _ => value) e.attributes }

/-- Class names are added after those that are there; a blank text adds none. -/
def addClass (e : Element) (names : String) : Element :=
  let names := Text.trim names
  let extended : Option String → String := fun
    | none => names
    | some present => present ++ " " ++ names
  -- An element without class names has no class attribute.
  if names = "" then e else { e with attributes := updateAttribute "class" extended e.attributes }

def hasClass (e : Element) (name : String) : Bool :=
  match e.attribute? "class" with
  | none => false
  | some names => decide (name ∈ Text.words names)

def append (e : Element) (child : Node) : Element := { e with children := e.children ++ [child] }

def appendAll (e : Element) (children : List Node) : Element :=
  { e with children := e.children ++ children }

end Element

end StaticSite
