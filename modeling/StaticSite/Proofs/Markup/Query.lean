import StaticSite.Proofs.Markup.Tag
import StaticSite.Proofs.SortedMap
import StaticSite.Proofs.Text.Word

/-!
# Elements and their start tags

Looking for elements in a tree and reading the start tags of its HTML find the same things: the
elements with a class are, in order, the start tags whose class attribute has it among its words,
and the elements with a tag are the start tags of that name. Rich text is written with tags of its
own, which have no attributes. Elements that are built step by step have no attribute twice, so that
the class attribute of a start tag is the only one.
-/

namespace StaticSite

/-- The elements that can be built: a bare tag, and what each step of building makes. -/
inductive Element.Built : Element → Prop where
  | new (tag : String) : Built ⟨tag, [], []⟩
  | addClass {e : Element} (h : Built e) (names : String) : Built (e.addClass names)
  | setAttribute {e : Element} (h : Built e) (name value : String) :
    Built (e.setAttribute name value)
  | append {e : Element} (h : Built e) (child : Node) : Built (e.append child)
  | appendAll {e : Element} (h : Built e) (children : List Node) : Built (e.appendAll children)

namespace Element

theorem keys_updateAttribute (name : String) (f : Option String → String)
    (as : List (String × String)) :
    (updateAttribute name f as).map Prod.fst =
      if name ∈ as.map Prod.fst then as.map Prod.fst else as.map Prod.fst ++ [name] := by
  induction as with
  | nil => simp [updateAttribute]
  | cons a as ih =>
    obtain ⟨n, v⟩ := a
    rw [updateAttribute]
    by_cases hn : n = name
    · simp [hn]
    · have hn' : name ≠ n := fun h => hn h.symm
      rw [if_neg hn, List.map_cons, ih]
      by_cases hm : name ∈ as.map Prod.fst <;> simp [hm, hn']

theorem nodup_updateAttribute (name : String) (f : Option String → String)
    {as : List (String × String)} (h : (as.map Prod.fst).Nodup) :
    ((updateAttribute name f as).map Prod.fst).Nodup := by
  rw [keys_updateAttribute]
  split
  · exact h
  · rename_i hn
    refine List.nodup_append.2 ⟨h, by simp, ?_⟩
    rintro n hm m hm' rfl
    rw [List.mem_singleton] at hm'
    exact hn (hm' ▸ hm)

theorem Built.nodup_attributes {e : Element} (h : e.Built) : (e.attributes.map Prod.fst).Nodup := by
  induction h with
  | new tag => exact List.nodup_nil
  | addClass h names ih =>
    simp only [Element.addClass]
    split
    · exact ih
    · exact nodup_updateAttribute _ _ ih
  | setAttribute h name value ih => exact nodup_updateAttribute _ _ ih
  | append h child ih => exact ih
  | appendAll h children ih => exact ih

end Element

namespace Node

def Built (n : Node) : Prop := ∀ e ∈ n.elements, e.Built

/-- A tree in which no void element has children. -/
def VoidsBare (n : Node) : Prop := ∀ e ∈ n.elements, e.tag ∈ voidTags → e.children = []

end Node

namespace Html

structure Opening where
  tag : String
  attributes : List (String × String)
  deriving DecidableEq, Repr

def Token.opening? : Token → Option Opening
  | .opening tag attributes => some ⟨tag, attributes⟩
  | _ => none

def openings (ts : List Token) : List Opening := ts.filterMap Token.opening?

def Opening.HasClass (o : Opening) (name : String) : Prop :=
  ∃ a ∈ o.attributes, a.1 = "class" ∧ Text.IsWordOf name a.2

instance (o : Opening) (name : String) : Decidable (o.HasClass name) :=
  inferInstanceAs (Decidable (∃ a ∈ o.attributes, _))

theorem openings_append (l₁ l₂ : List Token) :
    openings (l₁ ++ l₂) = openings l₁ ++ openings l₂ := List.filterMap_append ..

theorem openings_cons (tag : String) (as : List (String × String)) (ts : List Token) :
    openings (.opening tag as :: ts) = ⟨tag, as⟩ :: openings ts := rfl

theorem openings_tags (ts : List Token) : openings (tags ts) = openings ts := by
  rw [openings, tags, List.filterMap_filter]
  congr 1
  funext t
  cases t <;> rfl

end Html

open Html

def Element.opening (e : Element) : Opening := ⟨e.tag, e.attributes⟩

mutual

theorem Span.filter_openings {p : Opening → Bool} (hp : ∀ tag ∈ spanTags, p ⟨tag, []⟩ = false) :
    (s : Span) → (openings s.tokens).filter p = []
  | .text s => rfl
  | .lineBreak => by
    have hbr := hp "br" (by decide)
    rw [Span.tokens, openings_cons, List.filter_cons, hbr]
    rfl
  | .styled style inner => by
    have hstyle := hp style.tag (by cases style <;> decide)
    rw [Span.tokens, openings_cons, openings_append, List.filter_cons, hstyle, List.filter_append,
      Span.filter_openingsOf hp inner]
    rfl

theorem Span.filter_openingsOf {p : Opening → Bool} (hp : ∀ tag ∈ spanTags, p ⟨tag, []⟩ = false) :
    (l : List Span) → (openings (Span.tokensOf l)).filter p = []
  | [] => rfl
  | s :: rest => by
    rw [Span.tokensOf, openings_append, List.filter_append, Span.filter_openings hp s,
      Span.filter_openingsOf hp rest, List.append_nil]

end

mutual

/-- The start tags of a tree, looked through for something that no tag of rich text has, are those
of its elements. -/
theorem Node.filter_openings {p : Opening → Bool} (hp : ∀ tag ∈ spanTags, p ⟨tag, []⟩ = false) :
    (n : Node) → n.VoidsBare →
    (openings n.tokens).filter p = (n.elements.map Element.opening).filter p
  | .element tag attributes children, h => by
    obtain ⟨hvoid, hchildren⟩ := List.forall_mem_cons.1 h
    have hinner : (openings
          (if tag ∈ voidTags then [] else Node.tokensOf children ++ [.closing tag])).filter p =
        ((Node.elementsOf children).map Element.opening).filter p := by
      split
      · rename_i hv
        obtain rfl : children = [] := hvoid hv
        rfl
      · rw [openings_append, List.filter_append, Node.filter_openingsOf hp children hchildren]
        exact List.append_nil _
    rw [Node.tokens, Node.elements, openings_cons, List.map_cons, List.filter_cons,
      List.filter_cons, hinner]
    rfl
  | .text s, _ => rfl
  | .rich r, _ => Span.filter_openingsOf hp r.spans
  | .fragment nodes, h => Node.filter_openingsOf hp nodes h

theorem Node.filter_openingsOf {p : Opening → Bool} (hp : ∀ tag ∈ spanTags, p ⟨tag, []⟩ = false) :
    (l : List Node) → (∀ e ∈ Node.elementsOf l, e.tag ∈ voidTags → e.children = []) →
    (openings (Node.tokensOf l)).filter p = ((Node.elementsOf l).map Element.opening).filter p
  | [], _ => rfl
  | n :: rest, h => by
    obtain ⟨hn, hrest⟩ := List.forall_mem_append.1 h
    rw [Node.tokensOf, Node.elementsOf, openings_append, List.filter_append, List.map_append,
      List.filter_append, Node.filter_openings hp n hn, Node.filter_openingsOf hp rest hrest]

end

/-- The class names of a built element are the words of the class attribute in its start tag. -/
theorem Element.Built.hasClass_eq {e : Element} (h : e.Built) {name : String} (hs : IsSolid name)
    (hne : name ≠ "") : e.hasClass name = decide (e.opening.HasClass name) := by
  have hclass : e.opening.HasClass name ↔
      ∃ names, e.attribute? "class" = some names ∧ name ∈ Text.words names := by
    simp only [Element.attribute?, SortedMap.lookup_eq_some_iff_mem h.nodup_attributes,
      Text.mem_words_iff hs hne]
    constructor
    · rintro ⟨⟨_, names⟩, ha, rfl, hw⟩
      exact ⟨names, ha, hw⟩
    · rintro ⟨names, ha, hw⟩
      exact ⟨_, ha, rfl, hw⟩
  rw [Bool.eq_iff_iff, decide_eq_true_eq, hclass, Element.hasClass]
  cases e.attribute? "class" <;> simp

/-- Looking in a tree finds what a reader of its HTML finds. The elements with a class are the start
tags whose class attribute has it as a word, and the elements with a tag that rich text is not
written with are the start tags of that name: as many, in the same order, with the same tags and
attributes. -/
theorem Node.finds_start_tags {n : Node} (hbuilt : n.Built) (hnames : n.WellNamed)
    (hvoid : n.VoidsBare) :
    ∃ ts, readTokens n.html = some ts ∧
      (∀ name, name ≠ "" → IsSolid name → (n.findByClass name).map Element.opening =
        (openings ts).filter fun o => o.HasClass name) ∧
      ∀ tag, tag ∉ spanTags → (n.findByTag tag).map Element.opening =
        (openings ts).filter fun o => o.tag = tag := by
  obtain ⟨ts, hts, htags⟩ := readTokens_of_meets (Node.meets_html hnames)
  have hopenings : openings ts = openings n.tokens := by
    rw [← openings_tags, htags, openings_tags]
  refine ⟨ts, hts, ?byClass, ?byTag⟩
  case byClass =>
    intro name hne hs
    have hp : ∀ tag ∈ spanTags, decide (Opening.HasClass ⟨tag, []⟩ name) = false := by
      simp [Opening.HasClass]
    have hfound : n.findByClass name = n.elements.filter fun e => e.opening.HasClass name :=
      List.filter_congr fun e he => (hbuilt e he).hasClass_eq hs hne
    rw [hopenings, Node.filter_openings hp n hvoid, List.filter_map, hfound]
    rfl
  case byTag =>
    intro tag htag
    have hp : ∀ t ∈ spanTags, decide (t = tag) = false := by
      intro t ht
      refine decide_eq_false ?_
      rintro rfl
      exact htag ht
    rw [hopenings, Node.filter_openings hp n hvoid, List.filter_map]
    rfl

/-- A link and an image, with a text and a value that look like tags with the class. -/
theorem Node.finds_start_tags_lookalikes :
    let link := (((Element.mk "a" [] []).addClass " nav\tbig").setAttribute "title"
      "<p class=\"nav\">&").append (.rich ⟨[.styled .strong [.text "nav"]]⟩)
    let image := (Element.mk "img" [] []).setAttribute "class" "navy"
    let n := Node.fragment [.text "<p class=\"nav\">", link.node, image.node]
    n.Built ∧ n.WellNamed ∧ n.VoidsBare ∧ "nav" ≠ "" ∧ IsSolid "nav" ∧ "img" ∉ spanTags ∧
      ∃ ts, readTokens n.html = some ts ∧
        ((openings ts).filter fun o => o.HasClass "nav") =
          [⟨"a", [("class", "nav\tbig"), ("title", "<p class=\"nav\">&")]⟩] ∧
        ((openings ts).filter fun o => o.tag = "img") = [⟨"img", [("class", "navy")]⟩] := by
  intro link image n
  have helements : n.elements = [link, image] := rfl
  have hbuilt : n.Built := by
    have hlink : link.Built := (((Element.Built.new "a").addClass _).setAttribute _ _).append _
    have himage : image.Built := (Element.Built.new "img").setAttribute _ _
    rw [Node.Built, helements]
    exact List.forall_mem_cons.2 ⟨hlink, List.forall_mem_singleton.2 himage⟩
  have hnames : n.WellNamed := by
    have hlink : IsName "a" ∧ ∀ a ∈ link.attributes, IsName a.1 := by decide
    have himage : IsName "img" ∧ ∀ a ∈ image.attributes, IsName a.1 := by decide
    exact ⟨trivial, ⟨hlink.1, hlink.2, trivial, trivial⟩, ⟨himage.1, himage.2, trivial⟩, trivial⟩
  have hvoid : n.VoidsBare := by
    rw [Node.VoidsBare, helements]
    decide
  have hsolid : IsSolid "nav" := by decide
  obtain ⟨ts, hts, hclass, htag⟩ := Node.finds_start_tags hbuilt hnames hvoid
  refine ⟨hbuilt, hnames, hvoid, by decide, hsolid, by decide, ts, hts, ?_, ?_⟩
  · rw [← hclass "nav" (by decide) hsolid]
    decide
  · rw [← htag "img" (by decide)]
    decide

end StaticSite
