import StaticSite.Markup.Query
import StaticSite.Page.Document
import StaticSite.Proofs.Markup.Tag
import StaticSite.Proofs.Text.Split
import StaticSite.Proofs.Text.Trim
import StaticSite.SortedMap

/-!
# References that trees show

The references that a tree shows can be found in two ways: by looking for elements with the class of
markers, and by reading the marker attributes of its tags. The two agree on trees that are built
from markers and from elements that have neither the class nor the attribute, and this is shown
along the steps of building.
-/

namespace StaticSite

open Html

def IsPlainClass (names : String) : Prop := "broken-ref" ∉ Text.words (Text.trim names)

instance (names : String) : Decidable (IsPlainClass names) :=
  inferInstanceAs (Decidable (_ ∉ _))

theorem IsSolid.words_trim {s : String} (h : IsSolid s) (hs : s ≠ "") :
    Text.words (Text.trim s) = [s] := by
  have hne : s.toList ≠ [] := fun he => hs (String.toList_inj.1 (he.trans rfl))
  rw [h.trim, Text.words, Text.splitOn_of_none h]
  simp [hne]

theorem isPlainClass_elementClass {component element : String} (hc : IsSolid component)
    (he : IsSolid element) : IsPlainClass (elementClass component element) := by
  have hsolid : IsSolid (elementClass component element) :=
    (hc.append (by decide)).append he
  have hmem : '_' ∈ (elementClass component element).toList := by simp [elementClass]
  have hne : elementClass component element ≠ "" := by
    intro h
    rw [h] at hmem
    cases hmem
  rw [IsPlainClass, hsolid.words_trim hne, List.mem_singleton]
  intro h
  rw [← h] at hmem
  exact absurd hmem (by decide)

namespace Element

theorem lookup_updateAttribute (name : String) (f : Option String → String)
    (as : List (String × String)) (n : String) :
    (updateAttribute name f as).lookup n =
      if n = name then some (f (as.lookup name)) else as.lookup n := by
  induction as with
  | nil => simp [updateAttribute, lookup_entry]
  | cons a as ih =>
    obtain ⟨m, v⟩ := a
    rw [updateAttribute]
    by_cases hm : m = name
    · subst hm
      by_cases hn : n = m <;> simp [lookup_entry, hn]
    · have hm' : name ≠ m := fun h => hm h.symm
      simp only [if_neg hm, lookup_entry, ih, if_neg hm']
      by_cases hn : n = m
      · simp [hn, hm]
      · simp [hn]

theorem markersOf_updateAttribute {name : String} (hn : name ≠ "data-broken-ref")
    (f : Option String → String) (as : List (String × String)) :
    markersOf (updateAttribute name f as) = markersOf as := by
  induction as with
  | nil => simp [updateAttribute, markersOf, hn]
  | cons a as ih =>
    obtain ⟨m, v⟩ := a
    rw [updateAttribute]
    by_cases hm : m = name
    · simp [markersOf, hm, hn]
    · rw [if_neg hm]
      simp only [markersOf, List.filterMap_cons] at ih ⊢
      rw [ih]

theorem markersOf_setMarker {as : List (String × String)} (h : markersOf as = [])
    (value : String) :
    markersOf (updateAttribute "data-broken-ref" (fun _ => value) as) = [value] := by
  induction as with
  | nil => simp [updateAttribute, markersOf]
  | cons a as ih =>
    obtain ⟨m, v⟩ := a
    by_cases hm : m = "data-broken-ref"
    · simp [markersOf, hm] at h
    · simp only [markersOf, List.filterMap_cons, if_neg hm] at h ih ⊢
      simp only [updateAttribute, if_neg hm, List.filterMap_cons, ih h]

def classNames (e : Element) : List String :=
  ((e.attribute? "class").map Text.words).getD []

theorem hasClass_eq (e : Element) (name : String) :
    e.hasClass name = decide (name ∈ e.classNames) := by
  rw [hasClass, classNames]
  cases e.attribute? "class" <;> simp

theorem classNames_addClass (e : Element) (names : String) :
    (e.addClass names).classNames = e.classNames ++ Text.words (Text.trim names) := by
  have hempty : Text.words "" = [] := by decide
  simp only [addClass]
  split
  · rename_i h
    rw [h, hempty, List.append_nil]
  · simp only [classNames, attribute?, lookup_updateAttribute, if_true]
    cases e.attributes.lookup "class" with
    | none => simp
    | some present => simp [Text.words_append_blank]

theorem hasClass_addClass (e : Element) (names name : String) :
    (e.addClass names).hasClass name =
      (e.hasClass name || decide (name ∈ Text.words (Text.trim names))) := by
  simp only [hasClass_eq, classNames_addClass, List.mem_append, Bool.decide_or]

theorem hasClass_setAttribute (e : Element) {name : String} (hn : name ≠ "class")
    (value c : String) : (e.setAttribute name value).hasClass c = e.hasClass c := by
  simp only [hasClass, attribute?, setAttribute, lookup_updateAttribute, if_neg (Ne.symm hn)]

theorem classNames_setAttribute (e : Element) {name : String} (hn : name ≠ "class")
    (value : String) : (e.setAttribute name value).classNames = e.classNames := by
  simp only [classNames, attribute?, setAttribute, lookup_updateAttribute, if_neg (Ne.symm hn)]

theorem attribute?_addClass (e : Element) (names : String) {name : String} (hn : name ≠ "class") :
    (e.addClass names).attribute? name = e.attribute? name := by
  simp only [addClass]
  split
  · rfl
  · simp only [attribute?, lookup_updateAttribute, if_neg hn]

theorem attribute?_setAttribute (e : Element) (n value name : String) :
    (e.setAttribute n value).attribute? name =
      if name = n then some value else e.attribute? name := by
  simp only [attribute?, setAttribute, lookup_updateAttribute]

theorem attribute?_append (e : Element) (n : Node) (name : String) :
    (e.append n).attribute? name = e.attribute? name := rfl

theorem attribute?_appendAll (e : Element) (l : List Node) (name : String) :
    (e.appendAll l).attribute? name = e.attribute? name := rfl

theorem tag_addClass (e : Element) (names : String) : (e.addClass names).tag = e.tag := by
  simp only [addClass]
  split <;> rfl

theorem tag_setAttribute (e : Element) (name value : String) :
    (e.setAttribute name value).tag = e.tag := rfl

theorem tag_append (e : Element) (n : Node) : (e.append n).tag = e.tag := rfl

theorem tag_appendAll (e : Element) (l : List Node) : (e.appendAll l).tag = e.tag := rfl

theorem children_setAttribute (e : Element) (name value : String) :
    (e.setAttribute name value).children = e.children := rfl

theorem children_appendAll (e : Element) (l : List Node) :
    (e.appendAll l).children = e.children ++ l := rfl

theorem children_append (e : Element) (n : Node) :
    (e.append n).children = e.children ++ [n] := rfl

theorem children_addClass (e : Element) (names : String) :
    (e.addClass names).children = e.children := by
  simp only [addClass]
  split <;> rfl

theorem markersOf_addClass (e : Element) (names : String) :
    markersOf (e.addClass names).attributes = markersOf e.attributes := by
  simp only [addClass]
  split
  · rfl
  · exact markersOf_updateAttribute (by decide) _ _

end Element

/-- A tree shows references: they are found by class and by attribute. -/
structure Node.Shows (n : Node) (refs : List String) : Prop where
  found : brokenReferences n = refs
  written : markerValues n.tokens = refs

structure Node.AllShow (l : List Node) (refs : List String) : Prop where
  found : brokenReferences (.fragment l) = refs
  written : markerValues (Node.tokensOf l) = refs

/-- The reference that an element stands for, if it is found by its class. -/
def Element.found? (e : Element) : Option String :=
  if e.hasClass "broken-ref" then e.attribute? "data-broken-ref" else none

theorem brokenReferences_eq (n : Node) :
    brokenReferences n = n.elements.filterMap Element.found? := by
  rw [brokenReferences, Node.findByClass, List.filterMap_filter]
  rfl

theorem brokenReferences_fragment (l : List Node) :
    brokenReferences (.fragment l) = (Node.elementsOf l).filterMap Element.found? :=
  brokenReferences_eq _

theorem Node.elementsOf_append (l l' : List Node) :
    Node.elementsOf (l ++ l') = Node.elementsOf l ++ Node.elementsOf l' := by
  induction l with
  | nil => rfl
  | cons n l ih => rw [List.cons_append, elementsOf, elementsOf, ih, List.append_assoc]

theorem Node.elementsOf_map (f : α → Node) (l : List α) :
    Node.elementsOf (l.map f) = l.flatMap fun a => (f a).elements := by
  induction l with
  | nil => rfl
  | cons a l ih => rw [List.map_cons, elementsOf, ih, List.flatMap_cons]

namespace Node.AllShow

theorem nil : AllShow [] [] := ⟨rfl, rfl⟩

theorem append {l l' : List Node} {refs refs' : List String} (h : AllShow l refs)
    (h' : AllShow l' refs') : AllShow (l ++ l') (refs ++ refs') where
  found := by
    rw [brokenReferences_fragment, elementsOf_append, List.filterMap_append,
      ← brokenReferences_fragment, ← brokenReferences_fragment, h.found, h'.found]
  written := by rw [tokensOf_append, markerValues_append, h.written, h'.written]

theorem singleton {n : Node} {refs : List String} (h : n.Shows refs) : AllShow [n] refs where
  found := by
    rw [brokenReferences_fragment, elementsOf, elementsOf, List.append_nil, ← brokenReferences_eq,
      h.found]
  written := by rw [tokensOf, tokensOf, List.append_nil, h.written]

theorem cons {n : Node} {l : List Node} {refs refs' : List String} (h : n.Shows refs)
    (hl : AllShow l refs') : AllShow (n :: l) (refs ++ refs') :=
  (singleton h).append hl

/-- A tree that shows nothing can stand anywhere. -/
theorem cons_silent {n : Node} {l : List Node} {refs : List String} (h : n.Shows [])
    (hl : AllShow l refs) : AllShow (n :: l) refs :=
  cons h hl

theorem of_silent {l : List Node} (h : ∀ n ∈ l, n.Shows []) : AllShow l [] := by
  induction l with
  | nil => exact nil
  | cons n l ih =>
    exact cons_silent (h n List.mem_cons_self) (ih fun m hm => h m (List.mem_cons_of_mem n hm))

theorem map {f : α → Node} {g : α → List String} {l : List α}
    (h : ∀ a ∈ l, (f a).Shows (g a)) : AllShow (l.map f) (l.flatMap g) := by
  induction l with
  | nil => exact nil
  | cons a l ih =>
    exact cons (h a List.mem_cons_self) (ih fun b hb => h b (List.mem_cons_of_mem a hb))

theorem flatten_map {f : α → List Node} {g : α → List String} {l : List α}
    (h : ∀ a ∈ l, AllShow (f a) (g a)) : AllShow (l.map f).flatten (l.flatMap g) := by
  induction l with
  | nil => exact nil
  | cons a l ih =>
    exact append (h a List.mem_cons_self) (ih fun b hb => h b (List.mem_cons_of_mem a hb))

end Node.AllShow

namespace Node.Shows

theorem text (s : String) : (Node.text s).Shows [] := ⟨rfl, rfl⟩

mutual

theorem markerValues_span : (s : Span) → markerValues s.tokens = []
  | .text _ => rfl
  | .lineBreak => rfl
  | .styled style inner => by
    have hopen : ∀ ts, markerValues (.opening style.tag [] :: ts) = markerValues ts := fun _ => rfl
    rw [Span.tokens, hopen, markerValues_append, markerValues_spans inner]
    rfl

theorem markerValues_spans : (l : List Span) → markerValues (Span.tokensOf l) = []
  | [] => rfl
  | s :: rest => by
    rw [Span.tokensOf, markerValues_append, markerValues_span s, markerValues_spans rest]
    rfl

end

theorem rich (r : RichText) : (Node.rich r).Shows [] := ⟨rfl, markerValues_spans r.spans⟩

theorem fragment {l : List Node} {refs : List String} (h : Node.AllShow l refs) :
    (Node.fragment l).Shows refs := ⟨h.found, h.written⟩

/-- A reader of the HTML of a tree meets the markers of the references that it shows. -/
theorem markers {n : Node} {refs : List String} (h : n.Shows refs) (hn : n.WellNamed) :
    ∃ ts, readTokens n.html = some ts ∧ markerValues ts = refs := by
  obtain ⟨ts, hread, hts⟩ := readTokens_of_meets (Node.meets_html hn)
  refine ⟨ts, hread, ?_⟩
  rw [← markerValues_tags, hts, markerValues_tags, h.written]

end Node.Shows

structure Element.Plain (e : Element) : Prop where
  noClass : e.hasClass "broken-ref" = false
  noMarker : markersOf e.attributes = []

namespace Element.Plain

variable {e : Element}

theorem ofTag (tag : String) : Element.Plain ⟨tag, [], []⟩ := ⟨rfl, rfl⟩

theorem addClass (h : e.Plain) {names : String} (hn : IsPlainClass names) :
    (e.addClass names).Plain where
  noClass := by
    rw [hasClass_addClass, h.noClass, Bool.false_or]
    exact decide_eq_false hn
  noMarker := by rw [markersOf_addClass, h.noMarker]

theorem setAttribute (h : e.Plain) {name : String} (hn : name ≠ "data-broken-ref")
    (hc : name ≠ "class") (value : String) : (e.setAttribute name value).Plain where
  noClass := by rw [hasClass_setAttribute e hc, h.noClass]
  noMarker := (markersOf_updateAttribute hn _ _).trans h.noMarker

theorem node (h : e.Plain) {refs : List String} (hc : Node.AllShow e.children refs)
    (hv : e.tag ∈ voidTags → e.children = []) : e.node.Shows refs where
  found := by
    have hchildren := hc.found
    have hnone : Element.found? ⟨e.tag, e.attributes, e.children⟩ = none := by
      rw [found?, h.noClass]
      rfl
    rw [brokenReferences_fragment] at hchildren
    rw [brokenReferences_eq, Element.node, Node.elements, List.filterMap_cons_none hnone, hchildren]
  written := by
    have hopen : ∀ ts, markerValues (.opening e.tag e.attributes :: ts) = markerValues ts := by
      intro ts
      show markersOf e.attributes ++ markerValues ts = markerValues ts
      rw [h.noMarker, List.nil_append]
    rw [Element.node, Node.tokens, hopen, ← hc.written]
    split
    · rename_i hvoid
      rw [hv hvoid]
      rfl
    · rw [markerValues_append]
      exact List.append_nil _

theorem node_of_empty (h : e.Plain) (hc : e.children = []) : e.node.Shows [] :=
  h.node (hc ▸ Node.AllShow.nil) fun _ => hc

end Element.Plain

/-- An element with the class and the attribute of markers shows the reference in its attribute. -/
theorem Element.shows_marker {e : Element} (hc : e.hasClass "broken-ref" = true)
    (hm : markersOf e.attributes = []) (ht : e.tag ∉ voidTags) (hn : e.children = [])
    (reference text : String) :
    ((e.setAttribute "data-broken-ref" reference).append (.text text)).node.Shows [reference] := by
  let marker := (e.setAttribute "data-broken-ref" reference).append (.text text)
  have hclass : marker.hasClass "broken-ref" = true :=
    (hasClass_setAttribute e (by decide) reference _).trans hc
  have hvalue : marker.attribute? "data-broken-ref" = some reference :=
    (lookup_updateAttribute _ _ _ _).trans (if_pos rfl)
  have hmarker : markersOf marker.attributes = [reference] := markersOf_setMarker hm reference
  have hchildren : marker.children = [.text text] := by
    show e.children ++ [.text text] = _
    rw [hn, List.nil_append]
  have htext : Node.AllShow marker.children [] :=
    hchildren ▸ Node.AllShow.singleton (Node.Shows.text text)
  constructor
  case found =>
    have hfound : Element.found? ⟨marker.tag, marker.attributes, marker.children⟩ =
        some reference := by
      rw [found?, hclass, if_pos rfl]
      exact hvalue
    have hrest := htext.found
    rw [brokenReferences_fragment] at hrest
    rw [brokenReferences_eq, node, Node.elements, List.filterMap_cons_some hfound, hrest]
  case written =>
    have hopen : ∀ ts, markerValues (.opening marker.tag marker.attributes :: ts) =
        reference :: markerValues ts := by
      intro ts
      show markersOf marker.attributes ++ markerValues ts = _
      rw [hmarker, List.singleton_append]
    have htag : marker.tag ∉ voidTags := ht
    rw [node, Node.tokens, if_neg htag, hopen, markerValues_append, htext.written]
    rfl

structure Element.Shows (e : Element) (refs : List String) : Prop extends e.Plain where
  closed : e.tag ∉ voidTags
  children : Node.AllShow e.children refs

namespace Element.Shows

variable {e : Element} {refs : List String}

theorem ofTag (tag : String) (h : tag ∉ voidTags) : Element.Shows ⟨tag, [], []⟩ [] where
  toPlain := Plain.ofTag tag
  closed := h
  children := Node.AllShow.nil

theorem addClass (h : e.Shows refs) {names : String} (hn : IsPlainClass names) :
    (e.addClass names).Shows refs where
  toPlain := h.toPlain.addClass hn
  closed := by
    rw [tag_addClass]
    exact h.closed
  children := by
    rw [children_addClass]
    exact h.children

theorem setAttribute (h : e.Shows refs) {name : String} (hn : name ≠ "data-broken-ref")
    (hc : name ≠ "class") (value : String) : (e.setAttribute name value).Shows refs where
  toPlain := h.toPlain.setAttribute hn hc value
  closed := h.closed
  children := h.children

theorem appendAll (h : e.Shows refs) {l : List Node} {refs' : List String}
    (hl : Node.AllShow l refs') : (e.appendAll l).Shows (refs ++ refs') where
  noClass := h.noClass
  noMarker := h.noMarker
  closed := h.closed
  children := h.children.append hl

theorem append (h : e.Shows refs) {n : Node} {refs' : List String} (hn : n.Shows refs') :
    (e.append n).Shows (refs ++ refs') :=
  h.appendAll (Node.AllShow.singleton hn)

theorem node (h : e.Shows refs) : e.node.Shows refs :=
  h.toPlain.node h.children fun hv => absurd hv h.closed

end Element.Shows

end StaticSite
