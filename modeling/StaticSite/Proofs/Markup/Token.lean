import StaticSite.Markup.Html

/-!
# Tokens of a tree

What a tree is made of when it is written: start tags, end tags and texts, in order. `Gathered`
holds tokens as a reader of a document meets them: texts that follow one another are one text, and
an empty text is none.
-/

namespace StaticSite

namespace Html

inductive Token where
  | opening (tag : String) (attributes : List (String × String))
  | closing (tag : String)
  | text (content : String)
  deriving DecidableEq, Repr

def isNameChar (c : Char) : Bool := c.isAlphanum || c = '-' || c = '_' || c = ':'

/-- Names of tags and attributes: not empty, and made of these characters only. -/
def IsName (s : String) : Prop := s ≠ "" ∧ ∀ c ∈ s.toList, isNameChar c = true

instance : DecidablePred IsName := fun s =>
  decidable_of_iff (s ≠ "" ∧ s.toList.all isNameChar = true) (by rw [IsName, List.all_eq_true])

theorem ne_of_isNameChar {c d : Char} (hd : isNameChar d = false) (h : isNameChar c = true) :
    c ≠ d := by
  rintro rfl
  rw [hd] at h
  cases h

theorem not_isWhitespace_of_isNameChar {c : Char} (h : isNameChar c = true) :
    c.isWhitespace = false := by
  have hs : c ≠ ' ' := ne_of_isNameChar (by decide) h
  have ht : c ≠ '\t' := ne_of_isNameChar (by decide) h
  have hr : c ≠ '\r' := ne_of_isNameChar (by decide) h
  have hn : c ≠ '\n' := ne_of_isNameChar (by decide) h
  simp [Char.isWhitespace, hs, ht, hr, hn]

theorem IsName.head {s : String} (h : IsName s) :
    ∃ c rest, s.toList = c :: rest ∧ isNameChar c = true := by
  cases hs : s.toList with
  | nil =>
    have he : s = "" := String.toList_inj.1 (by rw [hs]; rfl)
    exact absurd he h.1
  | cons c rest => exact ⟨c, rest, rfl, h.2 c (by simp [hs])⟩

theorem isName_styleTag (style : Style) : IsName style.tag := by
  cases style <;> decide

end Html

open Html

mutual

def Node.WellNamed : Node → Prop
  | .element tag attributes children =>
    IsName tag ∧ (∀ a ∈ attributes, IsName a.1) ∧ Node.WellNamedAll children
  | .text _ => True
  | .rich _ => True
  | .fragment nodes => Node.WellNamedAll nodes

def Node.WellNamedAll : List Node → Prop
  | [] => True
  | n :: rest => n.WellNamed ∧ Node.WellNamedAll rest

end

theorem Node.wellNamedAll_iff {l : List Node} :
    Node.WellNamedAll l ↔ ∀ n ∈ l, n.WellNamed := by
  induction l with
  | nil => simp [Node.WellNamedAll]
  | cons n l ih => simp [Node.WellNamedAll, ih]

theorem Node.wellNamedAll_append {l₁ l₂ : List Node} (h₁ : Node.WellNamedAll l₁)
    (h₂ : Node.WellNamedAll l₂) : Node.WellNamedAll (l₁ ++ l₂) := by
  rw [Node.wellNamedAll_iff] at *
  intro n hn
  rcases List.mem_append.1 hn with hn | hn
  · exact h₁ n hn
  · exact h₂ n hn

theorem Span.html_styled (style : Style) (inner : List Span) :
    (Span.styled style inner).html =
      startTag style.tag [] ++ Span.htmls inner ++ endTag style.tag := by
  simp [Span.html, startTag, attributesHtml, endTag, String.append_assoc]

mutual

def Span.tokens : Span → List Token
  | .text s => [.text s]
  | .lineBreak => [.opening "br" []]
  | .styled style inner => .opening style.tag [] :: (Span.tokensOf inner ++ [.closing style.tag])

def Span.tokensOf : List Span → List Token
  | [] => []
  | s :: rest => s.tokens ++ Span.tokensOf rest

end

mutual

def Node.tokens : Node → List Token
  | .element tag attributes children =>
    .opening tag attributes ::
      (if tag ∈ voidTags then [] else Node.tokensOf children ++ [.closing tag])
  | .text s => [.text s]
  | .rich r => Span.tokensOf r.spans
  | .fragment nodes => Node.tokensOf nodes

def Node.tokensOf : List Node → List Token
  | [] => []
  | n :: rest => n.tokens ++ Node.tokensOf rest

end

theorem Node.tokensOf_append (l₁ l₂ : List Node) :
    Node.tokensOf (l₁ ++ l₂) = Node.tokensOf l₁ ++ Node.tokensOf l₂ := by
  induction l₁ with
  | nil => rfl
  | cons n l₁ ih => rw [List.cons_append, Node.tokensOf, Node.tokensOf, ih, List.append_assoc]

namespace Html

def textTokens (s : List Char) : List Token := if s = [] then [] else [.text (String.ofList s)]

/-- Tokens that are complete, and the text after them, which may go on. -/
structure Gathered where
  tokens : List Token := []
  pending : List Char := []

namespace Gathered

def flush (g : Gathered) : List Token := g.tokens ++ textTokens g.pending

def add (g : Gathered) : Token → Gathered
  | .text s => { g with pending := g.pending ++ s.toList }
  | t => { tokens := g.flush ++ [t], pending := [] }

/-- Further tokens, in order. -/
def addAll (g : Gathered) (ts : List Token) : Gathered := ts.foldl add g

@[simp] theorem addAll_nil (g : Gathered) : g.addAll [] = g := rfl

theorem addAll_cons (g : Gathered) (t : Token) (ts : List Token) :
    g.addAll (t :: ts) = (g.add t).addAll ts := rfl

theorem addAll_append (g : Gathered) (l₁ l₂ : List Token) :
    g.addAll (l₁ ++ l₂) = (g.addAll l₁).addAll l₂ := List.foldl_append

end Gathered

end Html

end StaticSite
