import StaticSite.Proofs.Markup.Escape
import StaticSite.Proofs.Markup.Token

/-!
# Reading HTML

A reader goes through a document one character at a time. A tag runs from `<` to `>`, its attributes
have double-quoted values, and the references of texts and values are read. Run over the HTML of a
tree whose names can be read back, a reader between two tags meets exactly the tokens of the tree,
whatever characters its texts and values hold.
-/

namespace StaticSite

namespace Html

/-- Where a reader stands, with what it has read of the text or the tag there. -/
inductive Place where
  | content (raw : List Char)
  | name (tag : List Char)
  | inside (tag : List Char) (attributes : List (String × String))
  | attribute (tag : List Char) (attributes : List (String × String)) (name : List Char)
  | equals (tag : List Char) (attributes : List (String × String)) (name : List Char)
  | value (tag : List Char) (attributes : List (String × String)) (name raw : List Char)
  | lost
  deriving DecidableEq, Repr

/-- A reader: the tokens that it has met, and where it stands. -/
structure Reader where
  tokens : List Token := []
  place : Place := .content []
  deriving DecidableEq, Repr

def rawTokens (raw : List Char) : List Token :=
  textTokens (Escape.decode Escape.References.ofAttribute raw)

/-- A complete tag; a slash before its name makes it an end tag. -/
def tagToken (tag : List Char) (attributes : List (String × String)) : Token :=
  if tag.head? = some '/' then .closing (String.ofList tag.tail)
  else .opening (String.ofList tag) attributes

def attributeOf (name raw : List Char) : String × String :=
  (String.ofList name, String.ofList (Escape.decode Escape.References.ofAttribute raw))

namespace Reader

def endTag (r : Reader) (tag : List Char) (attributes : List (String × String)) : Reader :=
  { tokens := r.tokens ++ [tagToken tag attributes], place := .content [] }

def step (r : Reader) (c : Char) : Reader :=
  match r.place with
  | .content raw =>
    if c = '<' then { tokens := r.tokens ++ rawTokens raw, place := .name [] }
    else { r with place := .content (raw ++ [c]) }
  | .name tag =>
    if c = '>' then r.endTag tag []
    else if c.isWhitespace then { r with place := .inside tag [] }
    else { r with place := .name (tag ++ [c]) }
  | .inside tag attributes =>
    if c = '>' then r.endTag tag attributes
    else if c.isWhitespace then r
    else { r with place := .attribute tag attributes [c] }
  | .attribute tag attributes name =>
    if c = '>' then r.endTag tag (attributes ++ [attributeOf name []])
    else if c.isWhitespace then
      { r with place := .inside tag (attributes ++ [attributeOf name []]) }
    else if c = '=' then { r with place := .equals tag attributes name }
    else { r with place := .attribute tag attributes (name ++ [c]) }
  | .equals tag attributes name =>
    if c = '"' then { r with place := .value tag attributes name [] } else { r with place := .lost }
  | .value tag attributes name raw =>
    if c = '"' then { r with place := .inside tag (attributes ++ [attributeOf name raw]) }
    else { r with place := .value tag attributes name (raw ++ [c]) }
  | .lost => r

def run (r : Reader) (s : List Char) : Reader := s.foldl step r

def finish? (r : Reader) : Option (List Token) :=
  match r.place with
  | .content raw => some (r.tokens ++ rawTokens raw)
  | _ => none

theorem run_nil (r : Reader) : r.run [] = r := rfl

theorem run_cons (r : Reader) (c : Char) (s : List Char) : r.run (c :: s) = (r.step c).run s := rfl

theorem run_append (r : Reader) (s t : List Char) : r.run (s ++ t) = (r.run s).run t :=
  List.foldl_append

end Reader

def readTokens (s : String) : Option (List Token) := (Reader.run {} s.toList).finish?

namespace Reader

theorem run_of_step {f : List Char → Reader} {s : List Char}
    (h : ∀ raw, ∀ c ∈ s, (f raw).step c = f (raw ++ [c])) (raw : List Char) :
    (f raw).run s = f (raw ++ s) := by
  induction s generalizing raw with
  | nil => rw [run_nil, List.append_nil]
  | cons c s ih =>
    have hs : ∀ raw, ∀ d ∈ s, (f raw).step d = f (raw ++ [d]) :=
      fun raw d hd => h raw d (List.mem_cons_of_mem c hd)
    rw [run_cons, h raw c List.mem_cons_self, ih hs, List.append_assoc, List.singleton_append]

theorem run_content (ts : List Token) (raw : List Char) {s : List Char} (h : '<' ∉ s) :
    run ⟨ts, .content raw⟩ s = ⟨ts, .content (raw ++ s)⟩ := by
  refine run_of_step (f := fun raw => ⟨ts, .content raw⟩) ?_ raw
  intro raw c hc
  have hne : c ≠ '<' := fun he => h (he ▸ hc)
  simp [step, hne]

theorem run_name (ts : List Token) (tag : List Char) {s : List Char}
    (h : ∀ c ∈ s, c ≠ '>' ∧ c.isWhitespace = false) :
    run ⟨ts, .name tag⟩ s = ⟨ts, .name (tag ++ s)⟩ := by
  refine run_of_step (f := fun tag => ⟨ts, .name tag⟩) ?_ tag
  intro tag c hc
  simp [step, h c hc]

theorem run_attribute (ts : List Token) (tag : List Char) (as : List (String × String))
    (name : List Char) {s : List Char} (h : ∀ c ∈ s, isNameChar c = true) :
    run ⟨ts, .attribute tag as name⟩ s = ⟨ts, .attribute tag as (name ++ s)⟩ := by
  refine run_of_step (f := fun name => ⟨ts, .attribute tag as name⟩) ?_ name
  intro name c hc
  have hgt : c ≠ '>' := ne_of_isNameChar (by decide) (h c hc)
  have heq : c ≠ '=' := ne_of_isNameChar (by decide) (h c hc)
  simp [step, hgt, heq, not_isWhitespace_of_isNameChar (h c hc)]

theorem run_value (ts : List Token) (tag : List Char) (as : List (String × String))
    (name raw : List Char) {s : List Char} (h : '"' ∉ s) :
    run ⟨ts, .value tag as name raw⟩ s = ⟨ts, .value tag as name (raw ++ s)⟩ := by
  refine run_of_step (f := fun raw => ⟨ts, .value tag as name raw⟩) ?_ raw
  intro raw c hc
  have hne : c ≠ '"' := fun he => h (he ▸ hc)
  simp [step, hne]

end Reader

theorem lt_not_mem_forText (s : String) : '<' ∉ (Escape.forText s).toList := by
  rw [Escape.toList_forText]
  exact Escape.not_mem_encode (by decide) (by decide) s.toList

theorem lt_not_mem_forAttribute (s : String) : '<' ∉ (Escape.forAttribute s).toList := by
  rw [Escape.toList_forAttribute]
  exact Escape.not_mem_encode (by decide) (by decide) s.toList

theorem quote_not_mem_forAttribute (s : String) : '"' ∉ (Escape.forAttribute s).toList := by
  rw [Escape.toList_forAttribute]
  exact Escape.not_mem_encode (by decide) (by decide) s.toList

theorem rawTokens_encode (s : List Char) :
    rawTokens (Escape.encode Escape.References.ofText.entries s) = textTokens s := by
  rw [rawTokens, Escape.decode_encode (by decide) (by decide)]

theorem attributeOf_forAttribute (name value : String) :
    attributeOf name.toList (Escape.forAttribute value).toList = (name, value) := by
  rw [attributeOf, Escape.toList_forAttribute, Escape.decode_encode (fun _ h => h) (by decide),
    String.ofList_toList, String.ofList_toList]

namespace Reader

theorem run_attributeHtml (ts : List Token) (tag : List Char) (as : List (String × String))
    {name : String} (hn : IsName name) (value : String) :
    run ⟨ts, .inside tag as⟩ (" " ++ name ++ "=\"" ++ Escape.forAttribute value ++ "\"").toList =
      ⟨ts, .inside tag (as ++ [(name, value)])⟩ := by
  obtain ⟨c, rest, hname, hc⟩ := hn.head
  have hrest : ∀ d ∈ rest, isNameChar d = true := fun d hd => hn.2 d (by simp [hname, hd])
  have hgt : c ≠ '>' := ne_of_isNameChar (by decide) hc
  have hws := not_isWhitespace_of_isNameChar hc
  have hblank : step ⟨ts, .inside tag as⟩ ' ' = ⟨ts, .inside tag as⟩ := rfl
  have hfirst : step ⟨ts, .inside tag as⟩ c = ⟨ts, .attribute tag as [c]⟩ := by
    simp [step, hgt, hws]
  have hequals : run ⟨ts, .attribute tag as name.toList⟩ "=\"".toList =
      ⟨ts, .value tag as name.toList []⟩ := rfl
  have hquote : run ⟨ts, .value tag as name.toList (Escape.forAttribute value).toList⟩ "\"".toList =
      ⟨ts, .inside tag (as ++ [(name, value)])⟩ := by
    rw [← attributeOf_forAttribute]
    rfl
  have hall : run ⟨ts, .attribute tag as [c]⟩ rest = ⟨ts, .attribute tag as name.toList⟩ := by
    rw [run_attribute ts tag as [c] hrest, hname, List.singleton_append]
  rw [String.toList_append, String.toList_append, String.toList_append, String.toList_append,
    run_append, run_append, run_append, run_append, hname]
  show run (run (run (run (step ⟨ts, .inside tag as⟩ ' ') (c :: rest)) _) _) _ = _
  rw [hblank, run_cons, hfirst, hall, hequals,
    run_value ts tag as name.toList [] (quote_not_mem_forAttribute value), List.nil_append, hquote]

theorem run_attributesHtml (ts : List Token) (tag : List Char) (done as : List (String × String))
    (h : ∀ a ∈ as, IsName a.1) :
    run ⟨ts, .inside tag done⟩ (attributesHtml as).toList = ⟨ts, .inside tag (done ++ as)⟩ := by
  induction as generalizing done with
  | nil => simp [attributesHtml, run_nil]
  | cons a as ih =>
    obtain ⟨name, value⟩ := a
    have hn : IsName name := h (name, value) List.mem_cons_self
    have has : ∀ a ∈ as, IsName a.1 := fun a ha => h a (List.mem_cons_of_mem _ ha)
    rw [attributesHtml, String.toList_append, run_append, run_attributeHtml ts tag done hn,
      ih _ has, List.append_assoc, List.singleton_append]

theorem run_startTag (ts : List Token) {tag : String} (ht : IsName tag)
    {as : List (String × String)} (h : ∀ a ∈ as, IsName a.1) :
    run ⟨ts, .name []⟩ (tag ++ attributesHtml as ++ ">").toList =
      ⟨ts ++ [.opening tag as], .content []⟩ := by
  have hchars : ∀ c ∈ tag.toList, c ≠ '>' ∧ c.isWhitespace = false := fun c hc =>
    ⟨ne_of_isNameChar (by decide) (ht.2 c hc), not_isWhitespace_of_isNameChar (ht.2 c hc)⟩
  obtain ⟨c, rest, htag, hc⟩ := ht.head
  have hslash : c ≠ '/' := ne_of_isNameChar (by decide) hc
  have htoken : tagToken tag.toList as = .opening tag as := by
    have hh : tag.toList.head? ≠ some '/' := by simpa [htag] using hslash
    rw [tagToken, if_neg hh, String.ofList_toList]
  rw [String.toList_append, String.toList_append, run_append, run_append, run_name ts [] hchars,
    List.nil_append]
  cases as with
  | nil =>
    show (endTag ⟨ts, .name tag.toList⟩ tag.toList []) = _
    rw [endTag, htoken]
  | cons a as =>
    -- The blank before the first attribute ends the name, and does nothing before an attribute.
    have hblank : run ⟨ts, .name tag.toList⟩ (attributesHtml (a :: as)).toList =
        run ⟨ts, .inside tag.toList []⟩ (attributesHtml (a :: as)).toList := by
      simp only [attributesHtml, String.toList_append]
      rfl
    rw [hblank, run_attributesHtml ts tag.toList [] (a :: as) h, List.nil_append]
    show (endTag ⟨ts, .inside tag.toList (a :: as)⟩ tag.toList (a :: as)) = _
    rw [endTag, htoken]

theorem run_endTag (ts : List Token) {tag : String} (ht : IsName tag) :
    run ⟨ts, .name []⟩ ("/" ++ tag ++ ">").toList = ⟨ts ++ [.closing tag], .content []⟩ := by
  have hchars : ∀ c ∈ '/' :: tag.toList, c ≠ '>' ∧ c.isWhitespace = false := by
    intro c hc
    rcases List.mem_cons.1 hc with rfl | hm
    · decide
    · exact ⟨ne_of_isNameChar (by decide) (ht.2 c hm), not_isWhitespace_of_isNameChar (ht.2 c hm)⟩
  have htoken : tagToken ('/' :: tag.toList) [] = .closing tag := by simp [tagToken]
  have hname : ("/" ++ tag).toList = '/' :: tag.toList := by simp
  rw [String.toList_append, hname, run_append, run_name ts [] hchars, List.nil_append]
  show (endTag ⟨ts, .name ('/' :: tag.toList)⟩ ('/' :: tag.toList) []) = _
  rw [endTag, htoken]

end Reader

namespace Gathered

def reader (g : Gathered) : Reader where
  tokens := g.tokens
  place := .content (Escape.encode Escape.References.ofText.entries g.pending)

theorem finish?_reader (g : Gathered) : g.reader.finish? = some g.flush := by
  simp [reader, Reader.finish?, rawTokens_encode, flush]

theorem run_text (g : Gathered) (s : String) :
    g.reader.run (Escape.forText s).toList = (g.add (.text s)).reader := by
  rw [reader, Reader.run_content _ _ (lt_not_mem_forText s), Escape.toList_forText,
    ← Escape.encode_append]
  rfl

theorem run_opening (g : Gathered) {tag : String} (ht : IsName tag) {as : List (String × String)}
    (h : ∀ a ∈ as, IsName a.1) :
    g.reader.run (startTag tag as).toList = (g.add (.opening tag as)).reader := by
  have hlt : g.reader.step '<' = ⟨g.flush, .name []⟩ := by
    simp [reader, Reader.step, rawTokens_encode, flush]
  have he : (startTag tag as).toList = '<' :: (tag ++ attributesHtml as ++ ">").toList := by
    simp [startTag]
  rw [he, Reader.run_cons, hlt, Reader.run_startTag g.flush ht h]
  rfl

theorem run_closing (g : Gathered) {tag : String} (ht : IsName tag) :
    g.reader.run (endTag tag).toList = (g.add (.closing tag)).reader := by
  have hlt : g.reader.step '<' = ⟨g.flush, .name []⟩ := by
    simp [reader, Reader.step, rawTokens_encode, flush]
  have he : (endTag tag).toList = '<' :: ("/" ++ tag ++ ">").toList := by
    simp [endTag]
  rw [he, Reader.run_cons, hlt, Reader.run_endTag g.flush ht]
  rfl

end Gathered

end Html

open Html

mutual

theorem Span.run_html (g : Gathered) : (s : Span) →
    g.reader.run s.html.toList = (g.addAll s.tokens).reader
  | .text s => g.run_text s
  | .lineBreak => by
    have hbr : IsName "br" := by decide
    exact g.run_opening hbr (fun a ha => absurd ha List.not_mem_nil)
  | .styled style inner => by
    have ht := isName_styleTag style
    have ho := g.run_opening ht (fun a ha => absurd ha List.not_mem_nil)
    have hi := Span.run_htmls (g.add (.opening style.tag [])) inner
    have hc := ((g.add (.opening style.tag [])).addAll (Span.tokensOf inner)).run_closing ht
    rw [Span.html_styled, String.toList_append, String.toList_append, Reader.run_append,
      Reader.run_append, ho, hi, hc, Span.tokens, Gathered.addAll_cons, Gathered.addAll_append]
    rfl

theorem Span.run_htmls (g : Gathered) : (l : List Span) →
    g.reader.run (Span.htmls l).toList = (g.addAll (Span.tokensOf l)).reader
  | [] => rfl
  | s :: rest => by
    rw [Span.htmls, String.toList_append, Reader.run_append, Span.run_html g s,
      Span.run_htmls _ rest, Span.tokensOf, Gathered.addAll_append]

end

mutual

/-- A reader between two tags that goes through the HTML of a tree meets its tokens. -/
theorem Node.run_html (g : Gathered) : (n : Node) → n.WellNamed →
    g.reader.run n.html.toList = (g.addAll n.tokens).reader
  | .element tag attributes children, h => by
    obtain ⟨ht, ha, hch⟩ := h
    have ho := g.run_opening ht ha
    have hi := Node.run_htmls (g.add (.opening tag attributes)) children hch
    have hc := ((g.add (.opening tag attributes)).addAll (Node.tokensOf children)).run_closing ht
    rw [Node.html, Node.tokens]
    split
    · rw [ho]
      rfl
    · rw [String.toList_append, String.toList_append, Reader.run_append, Reader.run_append, ho, hi,
        hc, Gathered.addAll_cons, Gathered.addAll_append]
      rfl
  | .text s, _ => g.run_text s
  | .rich r, _ => Span.run_htmls g r.spans
  | .fragment nodes, h => Node.run_htmls g nodes h

theorem Node.run_htmls (g : Gathered) : (l : List Node) → Node.WellNamedAll l →
    g.reader.run (Node.htmls l).toList = (g.addAll (Node.tokensOf l)).reader
  | [], _ => rfl
  | n :: rest, h => by
    rw [Node.htmls, String.toList_append, Reader.run_append, Node.run_html g n h.1,
      Node.run_htmls _ rest h.2, Node.tokensOf, Gathered.addAll_append]

end

end StaticSite
