/-!
# Rich text

A headline or a label carries a closed set of inline styles: line breaks, emphasis and strong runs.
A rich text is a list of spans, nested where styles nest.
-/

namespace StaticSite

inductive Style where
  | emphasis
  | strong
  deriving DecidableEq, Repr

def Style.tag : Style → String
  | .emphasis => "em"
  | .strong => "strong"

inductive Span where
  | text (content : String)
  | lineBreak
  | styled (style : Style) (inner : List Span)
  deriving Repr

structure RichText where
  spans : List Span := []
  deriving Repr

namespace RichText

def plain (s : String) : RichText := if s = "" then ⟨[]⟩ else ⟨[.text s]⟩

def isEmpty (r : RichText) : Bool := r.spans.isEmpty

end RichText

mutual

/-- The characters of a span without formatting; a line break reads as a space. -/
def Span.plainText : Span → String
  | .text s => s
  | .lineBreak => " "
  | .styled _ inner => Span.plainTexts inner

def Span.plainTexts : List Span → String
  | [] => ""
  | s :: rest => s.plainText ++ Span.plainTexts rest

end

mutual

/-- How deeply styles nest in a span, counted from one. -/
def Span.depth : Span → Nat
  | .text _ => 1
  | .lineBreak => 1
  | .styled _ inner => 1 + Span.depths inner

def Span.depths : List Span → Nat
  | [] => 0
  | s :: rest => max s.depth (Span.depths rest)

end

def RichText.plainText (r : RichText) : String := Span.plainTexts r.spans

def RichText.depth (r : RichText) : Nat := Span.depths r.spans

end StaticSite
