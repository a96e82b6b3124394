import StaticSite.Markup.Node

/-!
# Looking for elements in a tree

The elements of a tree in document order, each before the elements inside it, and the searches by
class and by tag.
-/

namespace StaticSite

mutual

def Node.elements : Node → List Element
  | .element tag attributes children => ⟨tag, attributes, children⟩ :: Node.elementsOf children
  | .text _ => []
  | .rich _ => []
  | .fragment nodes => Node.elementsOf nodes

def Node.elementsOf : List Node → List Element
  | [] => []
  | n :: rest => n.elements ++ Node.elementsOf rest

end

def Node.findByClass (n : Node) (name : String) : List Element :=
  n.elements.filter fun e => e.hasClass name

def Node.findByTag (n : Node) (tag : String) : List Element :=
  n.elements.filter fun e => e.tag = tag

def Node.root? : Node → Option Element
  | .element tag attributes children => some ⟨tag, attributes, children⟩
  | _ => none

end StaticSite
