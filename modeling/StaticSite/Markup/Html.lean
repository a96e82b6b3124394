import StaticSite.Markup.Escape
import StaticSite.Markup.Node

/-!
# Trees as HTML

The HTML of a tree is its start tags, escaped texts and end tags in order. Void elements have no
end tag, and children that they may have been given are not written.
-/

namespace StaticSite

/-- The elements that are written without content and end tag. -/
def voidTags : List String := ["br", "hr", "img", "input", "link", "meta"]

mutual

def Span.html : Span → String
  | .text s => Escape.forText s
  | .lineBreak => "<br>"
  | .styled style inner =>
    "<" ++ style.tag ++ ">" ++ Span.htmls inner ++ "</" ++ style.tag ++ ">"

def Span.htmls : List Span → String
  | [] => ""
  | s :: rest => s.html ++ Span.htmls rest

end

def RichText.html (r : RichText) : String := Span.htmls r.spans

def attributesHtml : List (String × String) → String
  | [] => ""
  | (name, value) :: rest =>
    " " ++ name ++ "=\"" ++ Escape.forAttribute value ++ "\"" ++ attributesHtml rest

def startTag (tag : String) (attributes : List (String × String)) : String :=
  "<" ++ tag ++ attributesHtml attributes ++ ">"

def endTag (tag : String) : String := "</" ++ tag ++ ">"

mutual

def Node.html : Node → String
  | .element tag attributes children =>
    -- Children of a void element would be read as its neighbours.
    if tag ∈ voidTags then startTag tag attributes
    else startTag tag attributes ++ Node.htmls children ++ endTag tag
  | .text s => Escape.forText s
  | .rich r => r.html
  | .fragment nodes => Node.htmls nodes

def Node.htmls : List Node → String
  | [] => ""
  | n :: rest => n.html ++ Node.htmls rest

end

mutual

def Node.textContent : Node → String
  | .element _ _ children => Node.textContents children
  | .text s => s
  | .rich r => r.plainText
  | .fragment nodes => Node.textContents nodes

def Node.textContents : List Node → String
  | [] => ""
  | n :: rest => n.textContent ++ Node.textContents rest

end

def Element.html (e : Element) : String := e.node.html

def Element.textContent (e : Element) : String := e.node.textContent

end StaticSite
