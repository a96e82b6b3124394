import StaticSite.Proofs.Markup.Query
import StaticSite.Proofs.Markup.Reader

/-!
# Texts without their tags

What a document shows can be read off its HTML: the tags are left out, a line break is a space, and
the references of the texts are read. For the HTML of a tree this gives the text of the tree. Tags
and references that stand in its texts and values are escaped, and are not mixed up with those that
the tree is written with.
-/

namespace StaticSite

namespace Html

/-- Where tags are left out: in a text, or in a tag after some of its characters, which goes on
inside quotes or outside of them. -/
inductive Strip where
  | text
  | tag (raw : List Char) (quoted : Bool)

def shownTag (raw : List Char) : List Char := if raw = "br".toList then [' '] else []

/-- A document without its tags. A tag runs from a `<` to the next `>` that does not stand inside
double quotes. -/
def stripTags : Strip → List Char → List Char
  | _, [] => []
  | .text, c :: rest =>
    if c = '<' then stripTags (.tag [] false) rest else c :: stripTags .text rest
  | .tag raw quoted, c :: rest =>
    if c = '>' ∧ quoted = false then shownTag raw ++ stripTags .text rest
    else stripTags (.tag (raw ++ [c]) (if c = '"' then !quoted else quoted)) rest

/-- The text that a document shows. -/
def shownText (s : String) : String :=
  String.ofList (Escape.decode Escape.References.ofAttribute (stripTags .text s.toList))

theorem stripTags_text {s : List Char} (h : '<' ∉ s) (rest : List Char) :
    stripTags .text (s ++ rest) = s ++ stripTags .text rest := by
  induction s with
  | nil => rfl
  | cons c s ih =>
    rw [List.mem_cons, not_or] at h
    rw [List.cons_append, stripTags, if_neg (Ne.symm h.1), ih h.2, List.cons_append]

theorem stripTags_tag {s : List Char} {quoted : Bool}
    (h : ∀ c ∈ s, c ≠ '"' ∧ (quoted = true ∨ c ≠ '>')) (raw rest : List Char) :
    stripTags (.tag raw quoted) (s ++ rest) = stripTags (.tag (raw ++ s) quoted) rest := by
  induction s generalizing raw with
  | nil => rw [List.nil_append, List.append_nil]
  | cons c s ih =>
    obtain ⟨⟨hquote, hend⟩, hs⟩ := List.forall_mem_cons.1 h
    have hopen : ¬(c = '>' ∧ quoted = false) := by
      rintro ⟨rfl, rfl⟩
      simp at hend
    rw [List.cons_append, stripTags, if_neg hopen, if_neg hquote, ih hs, List.append_assoc,
      List.singleton_append]

theorem IsName.inTag {name : String} (h : IsName name) :
    ∀ c ∈ name.toList, c ≠ '"' ∧ (false = true ∨ c ≠ '>') := fun c hc =>
  ⟨ne_of_isNameChar (by decide) (h.2 c hc), .inr (ne_of_isNameChar (by decide) (h.2 c hc))⟩

theorem stripTags_attributesHtml {as : List (String × String)} (h : ∀ a ∈ as, IsName a.1)
    (raw rest : List Char) :
    stripTags (.tag raw false) ((attributesHtml as).toList ++ rest) =
      stripTags (.tag (raw ++ (attributesHtml as).toList) false) rest := by
  induction as generalizing raw with
  | nil =>
    have hnil : (attributesHtml []).toList = [] := rfl
    rw [hnil, List.nil_append, List.append_nil]
  | cons a as ih =>
    obtain ⟨name, value⟩ := a
    obtain ⟨hname, has⟩ := List.forall_mem_cons.1 h
    have hvalue : ∀ c ∈ (Escape.forAttribute value).toList,
        c ≠ '"' ∧ (true = true ∨ c ≠ '>') := fun c hc =>
      ⟨fun hquote => quote_not_mem_forAttribute value (hquote ▸ hc), .inl rfl⟩
    have hsplit : (attributesHtml ((name, value) :: as)).toList = ' ' :: (name.toList ++ ('=' ::
        '"' :: ((Escape.forAttribute value).toList ++ '"' :: (attributesHtml as).toList))) := by
      simp [attributesHtml]
    -- The first quote begins the value and the second one ends it.
    have hbegin : ∀ raw rest, stripTags (.tag raw false) ('=' :: '"' :: rest) =
        stripTags (.tag (raw ++ ['=', '"']) true) rest := fun raw rest => by simp [stripTags]
    have hend : ∀ raw rest, stripTags (.tag raw true) ('"' :: rest) =
        stripTags (.tag (raw ++ ['"']) false) rest := fun raw rest => by simp [stripTags]
    have hblank : ∀ raw rest, stripTags (.tag raw false) (' ' :: rest) =
        stripTags (.tag (raw ++ [' ']) false) rest := fun raw rest => by simp [stripTags]
    simp only [hsplit, List.cons_append, List.append_assoc]
    rw [hblank, stripTags_tag hname.inTag, hbegin, stripTags_tag hvalue, hend, ih has]
    simp

theorem stripTags_end (raw rest : List Char) :
    stripTags (.tag raw false) ('>' :: rest) = shownTag raw ++ stripTags .text rest := by
  rw [stripTags, if_pos ⟨rfl, rfl⟩]

/-- A start tag of another name is not taken for a line break. -/
theorem stripTags_startTag {tag : String} (ht : IsName tag) (hbreak : tag ≠ "br")
    {as : List (String × String)} (h : ∀ a ∈ as, IsName a.1) (rest : List Char) :
    stripTags .text ((startTag tag as).toList ++ rest) = stripTags .text rest := by
  have hsplit : (startTag tag as).toList =
      '<' :: (tag.toList ++ ((attributesHtml as).toList ++ ['>'])) := by simp [startTag]
  have hshown : shownTag (tag.toList ++ (attributesHtml as).toList) = [] := by
    refine if_neg fun hraw => ?_
    cases as with
    | nil =>
      have hnil : (attributesHtml []).toList = [] := rfl
      rw [hnil, List.append_nil, String.toList_inj] at hraw
      exact hbreak hraw
    | cons a as =>
      have hblank : ' ' ∈ tag.toList ++ (attributesHtml (a :: as)).toList := by
        simp [attributesHtml]
      rw [hraw] at hblank
      exact absurd hblank (by decide)
  rw [hsplit, List.cons_append, stripTags, if_pos rfl]
  simp only [List.append_assoc]
  rw [stripTags_tag ht.inTag, stripTags_attributesHtml h, List.nil_append,
    List.singleton_append, stripTags_end, hshown, List.nil_append]

theorem stripTags_endTag {tag : String} (ht : IsName tag) (rest : List Char) :
    stripTags .text ((endTag tag).toList ++ rest) = stripTags .text rest := by
  have hsplit : (endTag tag).toList = '<' :: '/' :: (tag.toList ++ ['>']) := by simp [endTag]
  have hslash : ∀ rest, stripTags (.tag [] false) ('/' :: rest) =
      stripTags (.tag ['/'] false) rest := fun rest => by simp [stripTags]
  have hshown : shownTag ('/' :: tag.toList) = [] := by simp [shownTag]
  simp only [hsplit, List.cons_append, List.append_assoc, List.nil_append]
  rw [stripTags, if_pos rfl, hslash, stripTags_tag ht.inTag, List.singleton_append,
    stripTags_end, hshown, List.nil_append]

theorem stripTags_forText (s : String) (rest : List Char) :
    stripTags .text ((Escape.forText s).toList ++ rest) =
      (Escape.forText s).toList ++ stripTags .text rest :=
  stripTags_text (lt_not_mem_forText s) rest

theorem toList_forText_append (s t : String) : (Escape.forText (s ++ t)).toList =
    (Escape.forText s).toList ++ (Escape.forText t).toList := by
  rw [Escape.forText_append, String.toList_append]

end Html

open Html

mutual

theorem Span.stripTags_html (rest : List Char) : (s : Span) →
    stripTags .text (s.html.toList ++ rest) =
      (Escape.forText s.plainText).toList ++ stripTags .text rest
  | .text s => stripTags_forText s rest
  | .lineBreak => by
    have hspace : (Escape.forText " ").toList = [' '] := by decide
    rw [Span.plainText, hspace]
    rfl
  | .styled style inner => by
    have ht := isName_styleTag style
    have hbreak : style.tag ≠ "br" := by cases style <;> decide
    rw [Span.html_styled, Span.plainText, String.toList_append, String.toList_append,
      List.append_assoc, List.append_assoc, stripTags_startTag ht hbreak (by simp),
      Span.stripTags_htmls _ inner, stripTags_endTag ht]

theorem Span.stripTags_htmls (rest : List Char) : (l : List Span) →
    stripTags .text ((Span.htmls l).toList ++ rest) =
      (Escape.forText (Span.plainTexts l)).toList ++ stripTags .text rest
  | [] => rfl
  | s :: l => by
    rw [Span.htmls, Span.plainTexts, String.toList_append, List.append_assoc,
      Span.stripTags_html _ s, Span.stripTags_htmls rest l, toList_forText_append,
      List.append_assoc]

end

mutual

/-- Without its tags, the HTML of a tree is the text of the tree, escaped. -/
theorem Node.stripTags_html (rest : List Char) : (n : Node) → n.WellNamed → n.VoidsBare →
    (∀ e ∈ n.elements, e.tag ≠ "br") →
    stripTags .text (n.html.toList ++ rest) =
      (Escape.forText n.textContent).toList ++ stripTags .text rest
  | .element tag as children, hnames, hvoid, hbreak => by
    obtain ⟨ht, has, hchildren⟩ := hnames
    obtain ⟨hbare, hvoids⟩ := List.forall_mem_cons.1 hvoid
    obtain ⟨htag, hbreaks⟩ := List.forall_mem_cons.1 hbreak
    rw [Node.html, Node.textContent]
    split
    · rename_i hv
      obtain rfl : children = [] := hbare hv
      exact stripTags_startTag ht htag has rest
    · rw [String.toList_append, String.toList_append, List.append_assoc, List.append_assoc,
        stripTags_startTag ht htag has, Node.stripTags_htmls _ children hchildren hvoids hbreaks,
        stripTags_endTag ht]
  | .text s, _, _, _ => stripTags_forText s rest
  | .rich r, _, _, _ => Span.stripTags_htmls rest r.spans
  | .fragment nodes, hnames, hvoid, hbreak => Node.stripTags_htmls rest nodes hnames hvoid hbreak

theorem Node.stripTags_htmls (rest : List Char) : (l : List Node) → Node.WellNamedAll l →
    (∀ e ∈ Node.elementsOf l, e.tag ∈ voidTags → e.children = []) →
    (∀ e ∈ Node.elementsOf l, e.tag ≠ "br") →
    stripTags .text ((Node.htmls l).toList ++ rest) =
      (Escape.forText (Node.textContents l)).toList ++ stripTags .text rest
  | [], _, _, _ => rfl
  | n :: l, hnames, hvoid, hbreak => by
    obtain ⟨hn, hl⟩ := List.forall_mem_append.1 hvoid
    obtain ⟨hnbreak, hlbreak⟩ := List.forall_mem_append.1 hbreak
    rw [Node.htmls, Node.textContents, String.toList_append, List.append_assoc,
      Node.stripTags_html _ n hnames.1 hn hnbreak,
      Node.stripTags_htmls rest l hnames.2 hl hlbreak, toList_forText_append, List.append_assoc]

end

/-- The HTML of a tree shows its text: with the tags left out, a space for each line break and the
references read, it is the text of all that the tree holds. Its names have to be names, its empty
elements have no children, and no element is a line break, since those of rich text are spaces. -/
theorem Node.html_shows_text {n : Node} (hnames : n.WellNamed) (hvoid : n.VoidsBare)
    (hbreak : ∀ e ∈ n.elements, e.tag ≠ "br") : shownText n.html = n.textContent := by
  have h := Node.stripTags_html [] n hnames hvoid hbreak
  have hnil : stripTags .text [] = [] := rfl
  rw [List.append_nil, hnil, List.append_nil, Escape.toList_forText] at h
  rw [shownText, h, Escape.decode_encode (by decide) (by decide), String.ofList_toList]

/-- Texts and values that look like tags, references and line breaks, beside a line break. -/
theorem Node.html_shows_text_lookalikes :
    let image : Element := ⟨"img", [("alt", "a>b \"<br>\""), ("data-x", "")], []⟩
    let quote : Element := ⟨"p", [("title", "<i>&amp;")],
      [.rich ⟨[.text "1 < 2", .lineBreak, .styled .strong [.text "&gt;", .lineBreak]]⟩, image.node]⟩
    let n := Node.fragment [.text "a &lt; <br>", quote.node, .fragment [], .text "\"&"]
    n.WellNamed ∧ n.VoidsBare ∧ (∀ e ∈ n.elements, e.tag ≠ "br") ∧
      n.textContent = "a &lt; <br>1 < 2 &gt; \"&" ∧
      shownText n.html = "a &lt; <br>1 < 2 &gt; \"&" := by
  intro image quote n
  have helements : n.elements = [quote, image] := rfl
  have hnames : n.WellNamed := by
    have himage : IsName "img" ∧ ∀ a ∈ image.attributes, IsName a.1 := by decide
    have hquote : IsName "p" ∧ ∀ a ∈ quote.attributes, IsName a.1 := by decide
    exact ⟨trivial, ⟨hquote.1, hquote.2, trivial, ⟨himage.1, himage.2, trivial⟩, trivial⟩,
      trivial, trivial, trivial⟩
  have hvoid : n.VoidsBare := by
    rw [Node.VoidsBare, helements]
    decide
  have hbreak : ∀ e ∈ n.elements, e.tag ≠ "br" := by
    rw [helements]
    decide
  have htext : n.textContent = "a &lt; <br>1 < 2 &gt; \"&" := by decide
  exact ⟨hnames, hvoid, hbreak, htext, (Node.html_shows_text hnames hvoid hbreak).trans htext⟩

end StaticSite
