import Mathlib.Data.List.Forall2
import StaticSite.Proofs.Page.Logged

/-!
# Blocks of card sections

A card section has a block for each of its items, in order, inside its only content block. The
blocks are found by class. The names of a section's own elements begin with its class name, so that
they are not mixed up with those that containers and headings share between sections, and two of
them differ if their elements do. A known icon is drawn without a warning.
-/

namespace StaticSite

namespace SectionId

variable (id : SectionId) {x y : String}

theorem element_inj : id.element x = id.element y ↔ x = y := by
  rw [element, element, elementClass, elementClass, String.append_right_inj]

theorem element_append (x y : String) : id.element x ++ y = id.element (x ++ y) := by
  rw [element, element, elementClass, elementClass, String.append_assoc]

theorem element_ne_className : id.element x ≠ id.className := by
  intro h
  have hlength := congrArg String.length h
  rw [element, elementClass, String.length_append, String.length_append] at hlength
  have hmark : "__".length = 2 := rfl
  omega

theorem words_element (hx : IsSolid x) :
    Text.words (Text.trim (id.element x)) = [id.element x] := by
  have hsolid : IsSolid (id.element x) := ((isSolid_className id).append (by decide)).append hx
  have hmark : '_' ∈ (id.element x).toList := by simp [element, elementClass]
  have hne : id.element x ≠ "" := by
    intro h
    rw [h] at hmark
    cases hmark
  exact hsolid.words_trim hne

def sharedClasses : List String :=
  ["container", "container--medium", "heading", "heading--align-left", "heading--size-medium",
    "heading__title"]

theorem className_append_not_mem_sharedClasses (x : String) :
    id.className ++ x ∉ sharedClasses := by
  have hshared : ∀ name ∈ sharedClasses, name.toList.head? ≠ some 's' := by decide
  intro h
  refine hshared _ h ?_
  rw [String.toList_append, List.head?_append]
  cases id <;> rfl

theorem element_not_mem_sharedClasses (x : String) : id.element x ∉ sharedClasses := by
  rw [element, elementClass, String.append_assoc]
  exact id.className_append_not_mem_sharedClasses _

theorem className_not_mem_sharedClasses : id.className ∉ sharedClasses := by
  have h := id.className_append_not_mem_sharedClasses ""
  rwa [String.append_empty] at h

end SectionId

namespace Element

theorem classNames_append (e : Element) (n : Node) : (e.append n).classNames = e.classNames := rfl

theorem classNames_appendAll (e : Element) (l : List Node) :
    (e.appendAll l).classNames = e.classNames := rfl

theorem children_mk_addClass_appendAll (tag names : String) (as : List (String × String))
    (l : List Node) : (((Element.mk tag as []).addClass names).appendAll l).children = l := by
  rw [appendAll, children_addClass, List.nil_append]

theorem elements_node (e : Element) : e.node.elements = e :: Node.elementsOf e.children := rfl

theorem root?_node (e : Element) : e.node.root? = some e := rfl

theorem textContent_eq (e : Element) : e.textContent = Node.textContents e.children := rfl

end Element

/-- The class names of an element are shared ones and then those of a section for some names. -/
def Element.NamedIn (e : Element) (id : SectionId) (names : List String) : Prop :=
  ∃ shared ⊆ SectionId.sharedClasses, e.classNames = shared ++ names.map id.element

namespace Element.NamedIn

variable {e : Element} {id : SectionId} {names : List String}

theorem of_shared (h : e.classNames ⊆ SectionId.sharedClasses) : e.NamedIn id [] :=
  ⟨e.classNames, h, (List.append_nil _).symm⟩

theorem addClass (h : e.NamedIn id names) {x : String} (hx : IsSolid x) :
    (e.addClass (id.element x)).NamedIn id (names ++ [x]) := by
  obtain ⟨shared, hsub, hnames⟩ := h
  refine ⟨shared, hsub, ?_⟩
  rw [classNames_addClass, hnames, id.words_element hx, List.append_assoc,
    List.map_append, List.map_singleton]

theorem appendAll (h : e.NamedIn id names) (children : List Node) :
    (e.appendAll children).NamedIn id names := h

theorem hasClass_element (h : e.NamedIn id names) (x : String) :
    e.hasClass (id.element x) = decide (x ∈ names) := by
  obtain ⟨shared, hsub, hnames⟩ := h
  have hshared : id.element x ∉ shared := fun hx => id.element_not_mem_sharedClasses x (hsub hx)
  rw [hasClass_eq, hnames, decide_eq_decide, List.mem_append, List.mem_map]
  simp [hshared, id.element_inj]

theorem hasClass_className (h : e.NamedIn id names) : e.hasClass id.className = false := by
  obtain ⟨shared, hsub, hnames⟩ := h
  have hshared : id.className ∉ shared := fun hx => id.className_not_mem_sharedClasses (hsub hx)
  rw [hasClass_eq, hnames, decide_eq_false_iff_not, List.mem_append, List.mem_map]
  simp [hshared, id.element_ne_className]

end Element.NamedIn

inductive CardPart where
  | item
  | title
  | desc

def CardPart.all : List CardPart := [.item, .title, .desc]

def CardPart.name : CardPart → String
  | .item => "item"
  | .title => "title"
  | .desc => "desc"

def IsUnmarkedName (x : String) : Prop := ¬"title--".toList <+: x.toList

instance (x : String) : Decidable (IsUnmarkedName x) := inferInstanceAs (Decidable (¬_))

theorem IsUnmarkedName.ne_append {x : String} (h : IsUnmarkedName x) (modifier : String) :
    x ≠ "title--" ++ modifier := by
  rintro rfl
  exact h ⟨modifier.toList, String.toList_append.symm⟩

theorem CardPart.isUnmarkedName_name (part : CardPart) : IsUnmarkedName part.name := by
  cases part <;> decide

namespace CardSection

variable (s : CardSection) (item : ContentItem)

def titleBlock : Element :=
  Element.mk "div" [] []
    |>.addClass (s.id.element "title")
    |>.addClass (s.id.element ("title--" ++ item.icon.modifier))
    |>.append (.text item.title)

def descBlock : Element :=
  Element.mk "div" [] [] |>.addClass (s.id.element "desc") |>.append (.text item.description)

def itemBlock : Element :=
  Element.mk "div" [] []
    |>.addClass (s.id.element "item")
    |>.appendAll [(s.titleBlock item).node, (s.descBlock item).node]

def cardPart : CardPart → Element
  | .item => s.itemBlock item
  | .title => s.titleBlock item
  | .desc => s.descBlock item

def contentBlock : Element :=
  Element.mk "div" [] []
    |>.addClass (s.id.element "content")
    |>.appendAll (s.items.map fun item => (s.itemBlock item).node)

def headline : Element :=
  Element.mk "h2" [("class", "heading__title")] []
    |>.addClass (s.id.element "heading-title")
    |>.append (.text s.title)

def headingBlock : Element :=
  Element.mk "div" [("class", "heading heading--align-left heading--size-medium")] []
    |>.addClass (s.id.element "heading")
    |>.append s.headline.node

def containerBlock : Element :=
  Element.mk "div" [("class", "container container--medium")] []
    |>.addClass (s.id.element "container")
    |>.appendAll [s.headingBlock.node, s.contentBlock.node]

def root : Element :=
  Element.mk "div" [] [] |>.addClass s.id.className |>.append s.containerBlock.node

theorem value_card : (card s.id.className item).value = (s.itemBlock item).node := by
  have hmodifier : elementClass s.id.className "title--" ++ item.icon.modifier =
      s.id.element ("title--" ++ item.icon.modifier) := s.id.element_append _ _
  simp only [card, Logged.value_bind, cardTitle, hmodifier]
  rfl

theorem heading_layout : heading s.layout = s.headingBlock.node := by
  have hstart : (((Element.mk "div" [] []).addClass "heading").addClass
      "heading--align-left").addClass "heading--size-medium" =
      ⟨"div", [("class", "heading heading--align-left heading--size-medium")], []⟩ := rfl
  have htitle : (Element.mk "h2" [] []).addClass "heading__title" =
      ⟨"h2", [("class", "heading__title")], []⟩ := rfl
  rw [headingBlock, headline, ← hstart, ← htitle]
  rfl

theorem container_layout (l : List Node) : container s.layout l =
    (((Element.mk "div" [("class", "container container--medium")] []).addClass
      (s.id.element "container")).appendAll l).node := by
  have hstart : (((Element.mk "div" [] []).addClass "container").addClass
      "container--medium").addClass "" =
      ⟨"div", [("class", "container container--medium")], []⟩ := rfl
  rw [← hstart]
  rfl

theorem value_render : s.render.value = s.root.node := by
  simp only [render, cards, Logged.value_bind, Logged.value_each, value_card, heading_layout,
    container_layout]
  rfl

theorem namedIn_div : (Element.mk "div" [] []).NamedIn s.id [] := .of_shared (by decide)

theorem namedIn_titleBlock :
    (s.titleBlock item).NamedIn s.id ["title", "title--" ++ item.icon.modifier] := by
  have hstart : IsSolid "title--" := by decide
  exact ((s.namedIn_div.addClass (by decide)).addClass
    (hstart.append (isSolid_modifier item.icon))).appendAll _

theorem namedIn_cardPart (part : CardPart) : ∃ names, (s.cardPart item part).NamedIn s.id names ∧
    ∀ x, IsUnmarkedName x → (x ∈ names ↔ x = part.name) := by
  cases part with
  | item =>
    refine ⟨["item"], (s.namedIn_div.addClass (by decide)).appendAll _, fun x _ => ?_⟩
    exact List.mem_singleton
  | title =>
    refine ⟨_, s.namedIn_titleBlock item, fun x hx => ?_⟩
    simp [hx.ne_append, CardPart.name]
  | desc =>
    refine ⟨["desc"], (s.namedIn_div.addClass (by decide)).appendAll _, fun x _ => ?_⟩
    exact List.mem_singleton

theorem hasClass_cardPart (part : CardPart) {x : String} (hx : IsUnmarkedName x) :
    (s.cardPart item part).hasClass (s.id.element x) = decide (x = part.name) := by
  obtain ⟨names, hnames, hiff⟩ := s.namedIn_cardPart item part
  rw [hnames.hasClass_element, decide_eq_decide, hiff x hx]

theorem hasClass_className_cardPart (part : CardPart) :
    (s.cardPart item part).hasClass s.id.className = false := by
  obtain ⟨names, hnames, -⟩ := s.namedIn_cardPart item part
  exact hnames.hasClass_className

theorem namedIn_contentBlock : s.contentBlock.NamedIn s.id ["content"] :=
  (s.namedIn_div.addClass (by decide)).appendAll _

theorem namedIn_headline : s.headline.NamedIn s.id ["heading-title"] := by
  have hstart : (Element.mk "h2" [("class", "heading__title")] []).NamedIn s.id [] :=
    .of_shared (by decide)
  exact (hstart.addClass (by decide)).appendAll _

theorem namedIn_headingBlock : s.headingBlock.NamedIn s.id ["heading"] := by
  have hstart : (Element.mk "div"
      [("class", "heading heading--align-left heading--size-medium")] []).NamedIn s.id [] :=
    .of_shared (by decide)
  exact (hstart.addClass (by decide)).appendAll _

theorem namedIn_containerBlock : s.containerBlock.NamedIn s.id ["container"] := by
  have hstart : (Element.mk "div" [("class", "container container--medium")] []).NamedIn
      s.id [] := .of_shared (by decide)
  exact (hstart.addClass (by decide)).appendAll _

theorem classNames_root : s.root.classNames = [s.id.className] := by
  have hne : s.id.className ≠ "" := by cases s.id <;> decide
  have hbare : (Element.mk "div" [] []).classNames = [] := rfl
  rw [root, Element.classNames_append, Element.classNames_addClass, hbare,
    (isSolid_className s.id).words_trim hne, List.nil_append]

theorem children_titleBlock : (s.titleBlock item).children = [.text item.title] := by
  rw [titleBlock, Element.append, Element.children_addClass, Element.children_addClass,
    List.nil_append]

theorem children_descBlock : (s.descBlock item).children = [.text item.description] :=
  Element.children_mk_addClass_appendAll ..

theorem children_itemBlock :
    (s.itemBlock item).children = [(s.titleBlock item).node, (s.descBlock item).node] :=
  Element.children_mk_addClass_appendAll ..

theorem children_contentBlock :
    s.contentBlock.children = s.items.map fun item => (s.itemBlock item).node :=
  Element.children_mk_addClass_appendAll ..

theorem elements_itemBlock :
    (s.itemBlock item).node.elements = CardPart.all.map (s.cardPart item) := by
  rw [Element.elements_node, children_itemBlock, Node.elementsOf, Node.elementsOf,
    Element.elements_node, Element.elements_node, children_titleBlock, children_descBlock]
  rfl

theorem elements_contentBlock : s.contentBlock.node.elements =
    s.contentBlock :: s.items.flatMap fun item => CardPart.all.map (s.cardPart item) := by
  rw [Element.elements_node, children_contentBlock, Node.elementsOf_map]
  simp only [elements_itemBlock]

theorem elements_root : s.root.node.elements =
    s.root :: s.containerBlock :: s.headingBlock :: s.headline :: s.contentBlock.node.elements := by
  have hroot : s.root.children = [s.containerBlock.node] :=
    Element.children_mk_addClass_appendAll ..
  have hcontainer : s.containerBlock.children = [s.headingBlock.node, s.contentBlock.node] :=
    Element.children_mk_addClass_appendAll ..
  have hheading : s.headingBlock.children = [s.headline.node] :=
    Element.children_mk_addClass_appendAll ..
  have hheadline : s.headline.children = [.text s.title] :=
    Element.children_mk_addClass_appendAll ..
  simp only [Element.elements_node s.root, Element.elements_node s.containerBlock,
    Element.elements_node s.headingBlock, Element.elements_node s.headline, hroot, hcontainer,
    hheading, hheadline, Node.elementsOf, Node.elements, List.append_nil, List.cons_append,
    List.nil_append]

/-- What has a name that is not one of those of the heading and of what is around it stands in the
content block. -/
theorem findByClass_root {x : String} (hx : x ∉ ["container", "heading", "heading-title"]) :
    s.root.node.findByClass (s.id.element x) =
      s.contentBlock.node.findByClass (s.id.element x) := by
  have hroot : s.root.hasClass (s.id.element x) = false := by
    rw [Element.hasClass_eq, classNames_root]
    simp [s.id.element_ne_className]
  simp only [List.mem_cons, List.not_mem_nil, or_false, not_or] at hx
  simp [Node.findByClass, elements_root, hroot, s.namedIn_containerBlock.hasClass_element,
    s.namedIn_headingBlock.hasClass_element, s.namedIn_headline.hasClass_element, hx]

theorem findByClass_contentBlock {x : String} (hx : IsUnmarkedName x) :
    s.contentBlock.node.findByClass (s.id.element x) =
      (if x = "content" then [s.contentBlock] else []) ++ s.items.flatMap fun item =>
        (CardPart.all.filter fun part => x = part.name).map (s.cardPart item) := by
  have hparts : ∀ item, (CardPart.all.map (s.cardPart item)).filter
      (fun e => e.hasClass (s.id.element x)) =
      (CardPart.all.filter fun part => x = part.name).map (s.cardPart item) := by
    intro item
    rw [List.filter_map]
    simp only [Function.comp_def, s.hasClass_cardPart item _ hx]
  have hself : s.contentBlock.hasClass (s.id.element x) = decide (x = "content") := by
    rw [s.namedIn_contentBlock.hasClass_element, decide_eq_decide, List.mem_singleton]
  rw [Node.findByClass, elements_contentBlock, List.filter_cons, List.filter_flatMap, hself]
  simp only [hparts, decide_eq_true_eq]
  split <;> rfl

theorem findByClass_content :
    s.contentBlock.node.findByClass (s.id.element "content") = [s.contentBlock] := by
  have hnone : (CardPart.all.filter fun part => "content" = part.name) = [] := rfl
  rw [s.findByClass_contentBlock (by decide), if_pos rfl, hnone]
  simp

theorem findByClass_part (part : CardPart) :
    s.contentBlock.node.findByClass (s.id.element part.name) =
      s.items.map fun item => s.cardPart item part := by
  have hcontent : part.name ≠ "content" := by cases part <;> decide
  -- The names of the parts differ, so that one of them is found for each item.
  have hself : (CardPart.all.filter fun other => part.name = other.name) = [part] := by
    cases part <;> rfl
  rw [s.findByClass_contentBlock part.isUnmarkedName_name, if_neg hcontent, hself,
    List.map_eq_flatMap, List.nil_append]
  rfl

theorem findByClass_className : s.root.node.findByClass s.id.className = [s.root] := by
  have hself : s.root.hasClass s.id.className = true := by
    rw [Element.hasClass_eq, classNames_root]
    simp
  have hrest : ∀ e ∈ s.containerBlock :: s.headingBlock :: s.headline :: s.contentBlock ::
      s.items.flatMap fun item => CardPart.all.map (s.cardPart item),
      ¬e.hasClass s.id.className = true := by
    intro e he
    simp only [List.mem_cons, List.mem_flatMap, List.mem_map] at he
    rw [Bool.not_eq_true]
    obtain rfl | rfl | rfl | rfl | ⟨item, -, part, -, rfl⟩ := he
    · exact s.namedIn_containerBlock.hasClass_className
    · exact s.namedIn_headingBlock.hasClass_className
    · exact s.namedIn_headline.hasClass_className
    · exact s.namedIn_contentBlock.hasClass_className
    · exact s.hasClass_className_cardPart item part
  rw [Node.findByClass, elements_root, elements_contentBlock, List.filter_cons, if_pos hself,
    List.filter_eq_nil_iff.2 hrest]

theorem classNames_titleBlock : (s.titleBlock item).classNames =
    [s.id.element "title", s.id.element ("title--" ++ item.icon.modifier)] := by
  have hstart : IsSolid "title--" := by decide
  have hbare : (Element.mk "div" [] []).classNames = [] := rfl
  rw [titleBlock, Element.classNames_append, Element.classNames_addClass,
    Element.classNames_addClass, hbare, s.id.words_element (by decide),
    s.id.words_element (hstart.append (isSolid_modifier item.icon)), List.nil_append,
    List.singleton_append]

end CardSection

theorem Icon.modifier_eq (i : Icon) : i.modifier = if i.isKnown then i.name else "default" := by
  cases i <;> rfl

/-- The parts of the block of an item: the block has the title and the description in it and
nothing else, both with the texts of the item, and the title is marked for its icon. -/
structure IsCard (id : SectionId) (item : ContentItem) (block : CardPart → Element) : Prop where
  children : (block .item).children = [(block .title).node, (block .desc).node]
  title : (block .title).textContent = item.title
  description : (block .desc).textContent = item.description
  mark : (block .title).classNames = [id.element "title",
    id.element ("title--" ++ if item.icon.isKnown then item.icon.name else "default")]

theorem CardSection.isCard_cardPart (s : CardSection) (item : ContentItem) :
    IsCard s.id item (s.cardPart item) where
  children := s.children_itemBlock item
  title := by
    show (s.titleBlock item).textContent = item.title
    rw [Element.textContent_eq, children_titleBlock]
    exact String.append_empty
  description := by
    show (s.descBlock item).textContent = item.description
    rw [Element.textContent_eq, children_descBlock]
    exact String.append_empty
  mark := by
    rw [← Icon.modifier_eq]
    exact s.classNames_titleBlock item

/-- A card section has its own class name at its root only, and one content block. The blocks of
items, their titles and their descriptions are as many as the items, found by their names, and stand
in the content block. They are those of the items in order, with the texts of the items and the
marks of their icons. There is one warning for each icon that is not known, in order. -/
theorem cardSection_shows_items (s : CardSection) (ctx : RenderContext) :
    let rendered := (PageSection.cards s).render ctx
    let found (name : String) := rendered.value.findByClass (s.id.element name)
    (∃ root, rendered.value.root? = some root ∧
      rendered.value.findByClass s.id.className = [root]) ∧
    (∃ content, found "content" = [content] ∧
      ∀ part : CardPart, content.node.findByClass (s.id.element part.name) = found part.name) ∧
    (∃ blocks : List (CardPart → Element),
      (∀ part, (found part.name).length = s.items.length ∧
        found part.name = blocks.map fun block => block part) ∧
      List.Forall₂ (IsCard s.id) s.items blocks) ∧
    rendered.warnings = (s.items.filter fun item => !item.icon.isKnown).map fun item =>
      .unknownIcon s.id.className item.icon.name item.title := by
  intro rendered found
  have hvalue : rendered.value = s.root.node := s.value_render
  -- None of these names is one of the heading or of what is around it, so that looking through the
  -- whole tree and through the content block is the same.
  have hfound : ∀ {x}, x ∉ ["container", "heading", "heading-title"] →
      found x = s.contentBlock.node.findByClass (s.id.element x) := by
    intro x hx
    rw [← s.findByClass_root hx, ← hvalue]
  have hpart : ∀ part : CardPart,
      found part.name = s.contentBlock.node.findByClass (s.id.element part.name) :=
    fun part => hfound (by cases part <;> decide)
  have hcontent : found "content" = [s.contentBlock] :=
    (hfound (by decide)).trans s.findByClass_content
  refine ⟨⟨s.root, ?_, ?_⟩, ⟨s.contentBlock, hcontent, fun part => (hpart part).symm⟩,
    ⟨s.items.map s.cardPart, fun part => ⟨?_, ?_⟩, ?_⟩, s.warnings_render⟩
  · rw [hvalue, Element.root?_node]
  · rw [hvalue]
    exact s.findByClass_className
  · rw [hpart, s.findByClass_part, List.length_map]
  · rw [hpart, s.findByClass_part, List.map_map]
    rfl
  · rw [List.forall₂_map_right_iff, List.forall₂_same]
    exact fun item _ => s.isCard_cardPart item

end StaticSite
