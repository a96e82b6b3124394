import StaticSite.Proofs.Page.Link
import StaticSite.Proofs.Section.Cards

/-!
# Link cards

The footer has a link card for each of its items, in order: a block around a link, and in the link
an icon, a label and an arrow. The glyph of the icon and the link may each fail to resolve. A glyph
is then a marker inside the icon, and a link that fails is a block with its marker at the end, so
that the markers stand in the order of the references. The parts are told apart by their class
names, which no image, marker or heading has.
-/

namespace StaticSite

theorem Element.append_appendAll (e : Element) (l : List Node) (n : Node) :
    (e.appendAll l).append n = e.appendAll (l ++ [n]) := by
  simp only [append, appendAll, List.append_assoc]

theorem Node.elementsOf_map_node {l : List Element}
    (h : ∀ e ∈ l, Node.elementsOf e.children = []) : Node.elementsOf (l.map Element.node) = l := by
  induction l with
  | nil => rfl
  | cons e l ih =>
    obtain ⟨he, hl⟩ := List.forall_mem_cons.1 h
    rw [List.map_cons, elementsOf, ih hl, Element.elements_node, he]
    rfl

inductive LinkCardPart where
  | item
  | link
  | label
  | arrow
  deriving DecidableEq

def LinkCardPart.classNames : LinkCardPart → List String
  | .item => ["shift-footer__item"]
  | .link => ["shift-footer__link"]
  | .label => ["shift-footer__label"]
  | .arrow => ["arrow", "shift-footer__arrow"]

namespace FooterSection

variable (r : Resolver) (item : ContentItem)

/-! ### The tree, from the markers of a card to the root -/

def markerBlock (reference : String) : Element :=
  Element.mk "span" [] []
    |>.addClass "broken-ref"
    |>.addClass (SectionId.footer.element "broken")
    |>.setAttribute "data-broken-ref" reference
    |>.append (.text ("[missing: " ++ reference ++ "]"))

def glyphBlock : Resolved → Element
  | .url address =>
    Element.mk "img" [] []
      |>.addClass ""
      |>.setAttribute "src" address
      |>.setAttribute "alt" ""
  | .broken reference => markerBlock reference

def glyphBlocks : List Element := (glyphReferences r item).map glyphBlock

def iconStart : Element :=
  let start := (Element.mk "div" [] []).addClass (SectionId.footer.element "icon")
  match item.icon.treatment with
  | .glyph _ => start
  | _ => start.addClass (SectionId.footer.element ("icon--" ++ item.icon.modifier))

def iconBlock : Element := (iconStart item).appendAll ((glyphBlocks r item).map Element.node)

def labelBlock : Element :=
  Element.mk "div" [] []
    |>.addClass (SectionId.footer.element "label")
    |>.appendAll [.rich (RichText.parse item.title)]

def arrowBlock : Element :=
  Element.mk "span" [] []
    |>.addClass "arrow"
    |>.addClass ("arrow--" ++ Direction.right.name)
    |>.addClass (SectionId.footer.element "arrow")
    |>.setAttribute "aria-hidden" "true"

def target : Resolved := r.link (item.link.getD "")

def linkMarkers : List Element := (target r item).reference?.toList.map markerBlock

def linkStart : Resolved → Element
  | .url address => anchorElement (SectionId.footer.element "link") address
  | .broken _ =>
    Element.mk "div" [] []
      |>.addClass (SectionId.footer.element "link")
      |>.addClass (SectionId.footer.element "link" ++ "--broken")

def body : List Element := [iconBlock r item, labelBlock item, arrowBlock]

def linkBlock : Element :=
  (linkStart (target r item)).appendAll ((body r item ++ linkMarkers r item).map Element.node)

def itemBlock : Element :=
  Element.mk "div" [] []
    |>.addClass (SectionId.footer.element "item")
    |>.appendAll [(linkBlock r item).node]

def cardPart : LinkCardPart → Element
  | .item => itemBlock r item
  | .link => linkBlock r item
  | .label => labelBlock item
  | .arrow => arrowBlock

variable (s : FooterSection)

def contentBlock : Element :=
  Element.mk "div" [] []
    |>.addClass (SectionId.footer.element "content")
    |>.appendAll (s.items.map fun item => (itemBlock r item).node)

def headline : Element :=
  Element.mk "h2" [] []
    |>.addClass "heading__title"
    |>.addClass (SectionId.footer.element "heading-title")
    |>.append (.text s.title)

def headingBlock : Element :=
  Element.mk "div" [] []
    |>.addClass "heading"
    |>.addClass ""
    |>.addClass ("heading--size-" ++ Size.medium.name)
    |>.addClass (SectionId.footer.element "heading")
    |>.append s.headline.node

def containerBlock : Element :=
  Element.mk "div" [] []
    |>.addClass "container"
    |>.addClass ("container--" ++ Size.medium.name)
    |>.addClass ""
    |>.addClass (SectionId.footer.element "container")
    |>.appendAll [s.headingBlock.node, (contentBlock r s).node]

def root : Element :=
  Element.mk "div" [] []
    |>.addClass SectionId.footer.className
    |>.append (containerBlock r s).node

-- The rendering is compared with these elements by what they are built from. Their attributes are
-- not computed for that, as this is slow on texts.

theorem value_image (source : Resolved) :
    (image component "" source "").value = (glyphBlock source).node := by
  cases source <;> rfl

theorem value_icon : (icon r item).value = (iconBlock r item).node := by
  unfold icon iconBlock iconStart glyphBlocks glyphReferences
  cases item.icon.treatment with
  | glyph asset =>
    simp only [Logged.value_bind, value_image]
    rfl
  | color name => simp [Element.appendAll, component, SectionId.element]
  | plain => simp [Element.appendAll, component, SectionId.element]

theorem value_anchor (t : Resolved) (l : List Element) :
    (anchor component (elementClass component "link") t (l.map Element.node)).value =
      ((linkStart t).appendAll
        ((l ++ t.reference?.toList.map markerBlock).map Element.node)).node := by
  cases t with
  | url address =>
    simp only [Resolved.reference?, Option.toList_none, List.map_nil, List.append_nil]
    rfl
  | broken reference =>
    simp only [Resolved.reference?, Option.toList_some, List.map_append, List.map_singleton]
    exact congrArg Element.node (Element.append_appendAll _ _ _)

theorem value_renderItem : (renderItem r item).value = (itemBlock r item).node := by
  have hlink : (anchor component (elementClass component "link") (r.link (item.link.getD ""))
      [(iconBlock r item).node, label item, arrow component .right]).value =
      (linkBlock r item).node := value_anchor (target r item) (body r item)
  simp only [renderItem, Logged.value_bind, value_icon, hlink]
  rfl

theorem value_render : (s.render r).value = (root r s).node := by
  simp only [render, Logged.value_bind, Logged.value_each, value_renderItem]
  rfl

theorem children_markerBlock (reference : String) :
    (markerBlock reference).children = [.text ("[missing: " ++ reference ++ "]")] := by
  rw [markerBlock, Element.children_append, Element.children_setAttribute,
    Element.children_addClass, Element.children_addClass, List.nil_append]

theorem elementsOf_glyphBlock (source : Resolved) :
    Node.elementsOf (glyphBlock source).children = [] := by
  cases source with
  | url address =>
    rw [glyphBlock, Element.children_setAttribute, Element.children_setAttribute,
      Element.children_addClass]
    rfl
  | broken reference =>
    rw [glyphBlock, children_markerBlock]
    rfl

theorem children_iconBlock :
    (iconBlock r item).children = (glyphBlocks r item).map Element.node := by
  have hstart : (iconStart item).children = [] := by
    unfold iconStart
    split <;> simp only [Element.children_addClass]
  rw [iconBlock, Element.children_appendAll, hstart, List.nil_append]

theorem children_labelBlock :
    (labelBlock item).children = [.rich (RichText.parse item.title)] :=
  Element.children_mk_addClass_appendAll ..

theorem children_arrowBlock : arrowBlock.children = [] := by
  rw [arrowBlock, Element.children_setAttribute, Element.children_addClass,
    Element.children_addClass, Element.children_addClass]

theorem children_linkBlock : (linkBlock r item).children =
    (body r item ++ linkMarkers r item).map Element.node := by
  have hstart : (linkStart (target r item)).children = [] := by
    cases target r item with
    | url address => rw [linkStart, anchorElement_eq (by decide) (by decide)]
    | broken reference => rw [linkStart, Element.children_addClass, Element.children_addClass]
  rw [linkBlock, Element.children_appendAll, hstart, List.nil_append]

theorem children_itemBlock : (itemBlock r item).children = [(linkBlock r item).node] :=
  Element.children_mk_addClass_appendAll ..

def cardElements : List Element :=
  itemBlock r item :: linkBlock r item ::
    (iconBlock r item :: glyphBlocks r item ++
      ([labelBlock item, arrowBlock] ++ linkMarkers r item))

theorem elementsOf_glyphs :
    Node.elementsOf ((glyphBlocks r item).map Element.node) = glyphBlocks r item :=
  Node.elementsOf_map_node (List.forall_mem_map.2 fun source _ => elementsOf_glyphBlock source)

theorem elementsOf_captions :
    Node.elementsOf (([labelBlock item, arrowBlock] ++ linkMarkers r item).map Element.node) =
      [labelBlock item, arrowBlock] ++ linkMarkers r item := by
  refine Node.elementsOf_map_node (List.forall_mem_append.2 ⟨List.forall_mem_cons.2 ⟨?_,
    List.forall_mem_singleton.2 ?_⟩, List.forall_mem_map.2 fun reference _ => ?_⟩)
  · rw [children_labelBlock]
    rfl
  · rw [children_arrowBlock]
    rfl
  · rw [children_markerBlock]
    rfl

theorem elements_itemBlock : (itemBlock r item).node.elements = cardElements r item := by
  have hicon : (iconBlock r item).node.elements = iconBlock r item :: glyphBlocks r item := by
    rw [Element.elements_node, children_iconBlock, elementsOf_glyphs]
  have hlink : (linkBlock r item).node.elements = linkBlock r item ::
      (iconBlock r item :: glyphBlocks r item ++
        ([labelBlock item, arrowBlock] ++ linkMarkers r item)) := by
    rw [Element.elements_node, children_linkBlock, body, List.cons_append, List.map_cons,
      Node.elementsOf, hicon, elementsOf_captions]
  rw [Element.elements_node, children_itemBlock, Node.elementsOf, Node.elementsOf, hlink,
    List.append_nil, cardElements]

def frame : List Element :=
  [root r s, containerBlock r s, s.headingBlock, s.headline, contentBlock r s]

theorem elements_root :
    (root r s).node.elements = frame r s ++ s.items.flatMap (cardElements r) := by
  have hroot : (root r s).children = [(containerBlock r s).node] :=
    Element.children_mk_addClass_appendAll ..
  have hcontainer : (containerBlock r s).children =
      [s.headingBlock.node, (contentBlock r s).node] := by
    simp only [containerBlock, Element.children_appendAll, Element.children_addClass,
      List.nil_append]
  have hheading : s.headingBlock.children = [s.headline.node] := by
    simp only [headingBlock, Element.children_append, Element.children_addClass, List.nil_append]
  have hheadline : s.headline.children = [.text s.title] := by
    simp only [headline, Element.children_append, Element.children_addClass, List.nil_append]
  have hcontent : (contentBlock r s).children = s.items.map fun item => (itemBlock r item).node :=
    Element.children_mk_addClass_appendAll ..
  simp only [Element.elements_node (root r s), Element.elements_node (containerBlock r s),
    Element.elements_node s.headingBlock, Element.elements_node s.headline,
    Element.elements_node (contentBlock r s), hroot, hcontainer, hheading, hheadline, hcontent,
    Node.elementsOf, Node.elementsOf_map, elements_itemBlock, Node.elements, List.append_nil,
    frame, List.cons_append, List.nil_append]

theorem classNames_markerBlock (reference : String) :
    (markerBlock reference).classNames = ["broken-ref", "shift-footer__broken"] := by
  rw [markerBlock, Element.classNames_append, Element.classNames_setAttribute _ (by decide)]
  decide +kernel

theorem prefix_of_mem_classNames_iconBlock {name : String}
    (h : name ∈ (iconBlock r item).classNames) :
    "shift-footer__icon".toList <+: name.toList := by
  have hbare : (Element.mk "div" [] []).classNames = [] := rfl
  have hicon : SectionId.footer.element "icon" = "shift-footer__icon" := by decide +kernel
  have hmark : SectionId.footer.element ("icon--" ++ item.icon.modifier) =
      "shift-footer__icon" ++ ("--" ++ item.icon.modifier) := by
    rw [← hicon, SectionId.element_append, ← String.append_assoc]
    rfl
  have hsolid : IsSolid ("icon--" ++ item.icon.modifier) := by
    have hstart : IsSolid "icon--" := by decide
    exact hstart.append (isSolid_modifier item.icon)
  have hnames : (iconBlock r item).classNames ⊆
      ["shift-footer__icon", "shift-footer__icon" ++ ("--" ++ item.icon.modifier)] := by
    rw [iconBlock, Element.classNames_appendAll, iconStart]
    split
    · rw [Element.classNames_addClass, hbare, SectionId.words_element _ (by decide), hicon]
      exact List.cons_subset_cons _ (List.nil_subset _)
    · rw [Element.classNames_addClass, Element.classNames_addClass, hbare,
        SectionId.words_element _ (by decide), SectionId.words_element _ hsolid, hicon, hmark]
      exact List.Subset.refl _
  rcases List.mem_cons.1 (hnames h) with rfl | hmem
  · exact List.prefix_rfl
  · rw [List.mem_singleton.1 hmem, String.toList_append]
    exact List.prefix_append _ _

theorem classNames_linkBlock : (linkBlock r item).classNames = "shift-footer__link" ::
    if (target r item).isBroken then ["shift-footer__link--broken"] else [] := by
  have hname : SectionId.footer.element "link" = "shift-footer__link" := by decide +kernel
  have hwords : Text.words "shift-footer__link" = ["shift-footer__link"] := by decide +kernel
  rw [linkBlock, Element.classNames_appendAll]
  cases target r item with
  | url address =>
    rw [linkStart, anchorElement_eq (by decide) (by decide), hname]
    exact hwords
  | broken reference =>
    rw [linkStart, Element.classNames_addClass, Element.classNames_addClass]
    simp only [Resolved.isBroken, if_true]
    decide +kernel

theorem classNames_arrowBlock :
    arrowBlock.classNames = ["arrow", "arrow--right", "shift-footer__arrow"] := by
  decide +kernel

theorem classNames_labelBlock : (labelBlock item).classNames = ["shift-footer__label"] := by
  rw [labelBlock, Element.classNames_appendAll]
  decide +kernel

theorem classNames_itemBlock : (itemBlock r item).classNames = ["shift-footer__item"] := by
  rw [itemBlock, Element.classNames_appendAll]
  decide +kernel

theorem hasClass_cardPart (part other : LinkCardPart) {name : String}
    (hname : name ∈ other.classNames) :
    (cardPart r item part).hasClass name = decide (part = other) := by
  rw [Element.hasClass_eq, decide_eq_decide]
  -- The class names are known but for the mark of a broken link, so that they can be compared.
  revert name
  cases part with
  | item =>
    rw [cardPart, classNames_itemBlock]
    cases other <;> decide
  | link =>
    rw [cardPart, classNames_linkBlock]
    cases (target r item).isBroken <;> cases other <;> decide
  | label =>
    rw [cardPart, classNames_labelBlock]
    cases other <;> decide
  | arrow =>
    rw [cardPart, classNames_arrowBlock]
    cases other <;> decide

section

variable {part : LinkCardPart} {name : String} (hname : name ∈ part.classNames)
include hname

theorem hasClass_markerBlock (reference : String) :
    (markerBlock reference).hasClass name = false := by
  rw [Element.hasClass_eq, decide_eq_false_iff_not, classNames_markerBlock]
  revert name
  cases part <;> decide

theorem hasClass_glyphBlock (source : Resolved) : (glyphBlock source).hasClass name = false := by
  cases source with
  | url address =>
    rw [glyphBlock, Element.hasClass_setAttribute _ (by decide),
      Element.hasClass_setAttribute _ (by decide)]
    rfl
  | broken reference => exact hasClass_markerBlock hname reference

theorem hasClass_iconBlock : (iconBlock r item).hasClass name = false := by
  have hpart : ∀ name ∈ part.classNames, ¬"shift-footer__icon".toList <+: name.toList := by
    cases part <;> decide
  rw [Element.hasClass_eq, decide_eq_false_iff_not]
  exact fun h => hpart name hname (prefix_of_mem_classNames_iconBlock r item h)

theorem hasClass_frame : ∀ e ∈ frame r s, e.hasClass name = false := by
  have hroot : (root r s).classNames = ["shift-footer"] := by
    rw [root, Element.classNames_append]
    decide +kernel
  have hcontainer : (containerBlock r s).classNames =
      ["container", "container--medium", "shift-footer__container"] := by
    rw [containerBlock, Element.classNames_appendAll]
    decide +kernel
  have hheading : s.headingBlock.classNames =
      ["heading", "heading--size-medium", "shift-footer__heading"] := by
    rw [headingBlock, Element.classNames_append]
    decide +kernel
  have hheadline : s.headline.classNames = ["heading__title", "shift-footer__heading-title"] := by
    rw [headline, Element.classNames_append]
    decide +kernel
  have hcontent : (contentBlock r s).classNames = ["shift-footer__content"] := by
    rw [contentBlock, Element.classNames_appendAll]
    decide +kernel
  simp only [frame, List.forall_mem_cons, List.not_mem_nil, false_imp_iff, implies_true, and_true,
    Element.hasClass_eq, decide_eq_false_iff_not, hroot, hcontainer, hheading, hheadline, hcontent]
  revert name
  cases part <;> decide

end

/-! ### Looking for parts -/

theorem filter_hasClass_eq_nil {l : List Element} {name : String}
    (h : ∀ e ∈ l, e.hasClass name = false) : l.filter (fun e => e.hasClass name) = [] := by
  refine List.filter_eq_nil_iff.2 fun e he => ?_
  rw [h e he]
  exact Bool.false_ne_true

theorem filter_cardElements {part : LinkCardPart} {name : String}
    (hname : name ∈ part.classNames) :
    (cardElements r item).filter (fun e => e.hasClass name) = [cardPart r item part] := by
  have hglyphs : (glyphBlocks r item).filter (fun e => e.hasClass name) = [] :=
    filter_hasClass_eq_nil (List.forall_mem_map.2 fun source _ => hasClass_glyphBlock hname source)
  have hmarkers : (linkMarkers r item).filter (fun e => e.hasClass name) = [] :=
    filter_hasClass_eq_nil (List.forall_mem_map.2 fun reference _ =>
      hasClass_markerBlock hname reference)
  have hitem : (itemBlock r item).hasClass name = decide (LinkCardPart.item = part) :=
    hasClass_cardPart r item .item part hname
  have hlink : (linkBlock r item).hasClass name = decide (LinkCardPart.link = part) :=
    hasClass_cardPart r item .link part hname
  have hlabel : (labelBlock item).hasClass name = decide (LinkCardPart.label = part) :=
    hasClass_cardPart r item .label part hname
  have harrow : arrowBlock.hasClass name = decide (LinkCardPart.arrow = part) :=
    hasClass_cardPart r item .arrow part hname
  simp only [cardElements, List.filter_cons, List.filter_append, List.filter_nil, hglyphs,
    hmarkers, hitem, hlink, hlabel, harrow, hasClass_iconBlock r item hname]
  cases part <;> rfl

theorem findByClass_part {part : LinkCardPart} {name : String} (hname : name ∈ part.classNames) :
    (root r s).node.findByClass name = s.items.map fun item => cardPart r item part := by
  have hframe := filter_hasClass_eq_nil (hasClass_frame r s hname)
  rw [Node.findByClass, elements_root, List.filter_append, hframe, List.nil_append,
    List.filter_flatMap, List.map_eq_flatMap]
  simp only [filter_cardElements r _ hname]

theorem tag_markerBlock (reference : String) : (markerBlock reference).tag = "span" := by
  rw [markerBlock, Element.tag_append, Element.tag_setAttribute, Element.tag_addClass,
    Element.tag_addClass]

theorem tag_glyphBlock (source : Resolved) : (glyphBlock source).tag ≠ "a" := by
  cases source with
  | url address =>
    rw [glyphBlock, Element.tag_setAttribute, Element.tag_setAttribute, Element.tag_addClass]
    decide
  | broken reference =>
    rw [glyphBlock, tag_markerBlock]
    decide

theorem tag_iconBlock : (iconBlock r item).tag = "div" := by
  rw [iconBlock, Element.tag_appendAll, iconStart]
  split <;> simp only [Element.tag_addClass]

theorem tag_linkBlock :
    (linkBlock r item).tag = if (target r item).isBroken then "div" else "a" := by
  rw [linkBlock, Element.tag_appendAll]
  cases target r item with
  | url address =>
    rw [linkStart, anchorElement_eq (by decide) (by decide)]
    rfl
  | broken reference =>
    rw [linkStart, Element.tag_addClass, Element.tag_addClass]
    rfl

theorem findByTag_itemBlock : (itemBlock r item).node.findByTag "a" =
    if (target r item).isBroken then [] else [linkBlock r item] := by
  have hitem : (itemBlock r item).tag = "div" := by
    rw [itemBlock, Element.tag_appendAll, Element.tag_addClass]
  have hlabel : (labelBlock item).tag = "div" := by
    rw [labelBlock, Element.tag_appendAll, Element.tag_addClass]
  have harrow : arrowBlock.tag = "span" := by
    rw [arrowBlock, Element.tag_setAttribute, Element.tag_addClass, Element.tag_addClass,
      Element.tag_addClass]
  have hglyphs : (glyphBlocks r item).filter (fun e => e.tag = "a") = [] :=
    List.filter_eq_nil_iff.2 (List.forall_mem_map.2 fun source _ => by
      simpa using tag_glyphBlock source)
  have hmarkers : (linkMarkers r item).filter (fun e => e.tag = "a") = [] :=
    List.filter_eq_nil_iff.2 (List.forall_mem_map.2 fun reference _ => by
      simp [tag_markerBlock])
  have hlink := tag_linkBlock r item
  rw [Node.findByTag, elements_itemBlock, cardElements]
  simp only [List.filter_cons, List.filter_append, List.filter_nil, hitem, hlabel, harrow, hlink,
    hglyphs, hmarkers, tag_iconBlock]
  cases (target r item).isBroken <;> rfl

theorem marked_markerBlock (reference : String) :
    (markerBlock reference).attribute? "data-broken-ref" = some reference := by
  rw [markerBlock, Element.attribute?_append, Element.attribute?_setAttribute, if_pos rfl]

theorem marked_glyphBlock (source : Resolved) :
    (glyphBlock source).attribute? "data-broken-ref" = source.reference? := by
  cases source with
  | url address =>
    rw [glyphBlock, Element.attribute?_setAttribute, if_neg (by decide),
      Element.attribute?_setAttribute, if_neg (by decide),
      Element.attribute?_addClass _ _ (by decide)]
    rfl
  | broken reference => exact marked_markerBlock reference

theorem marked_iconBlock : (iconBlock r item).attribute? "data-broken-ref" = none := by
  have hname : "data-broken-ref" ≠ "class" := by decide
  rw [iconBlock, Element.attribute?_appendAll, iconStart]
  split <;> simp only [Element.attribute?_addClass _ _ hname] <;> rfl

theorem marked_linkBlock : (linkBlock r item).attribute? "data-broken-ref" = none := by
  have hname : "data-broken-ref" ≠ "class" := by decide
  rw [linkBlock, Element.attribute?_appendAll]
  cases target r item with
  | url address =>
    rw [linkStart, anchorElement_eq (by decide) (by decide)]
    split <;> rfl
  | broken reference =>
    rw [linkStart, Element.attribute?_addClass _ _ hname, Element.attribute?_addClass _ _ hname]
    rfl

theorem marked_cardElements :
    (cardElements r item).filterMap (fun e => e.attribute? "data-broken-ref") =
      unresolved (itemReferences r item) := by
  have hname : "data-broken-ref" ≠ "class" := by decide
  have hitem : (itemBlock r item).attribute? "data-broken-ref" = none := by
    rw [itemBlock, Element.attribute?_appendAll, Element.attribute?_addClass _ _ hname]
    rfl
  have hlabel : (labelBlock item).attribute? "data-broken-ref" = none := by
    rw [labelBlock, Element.attribute?_appendAll, Element.attribute?_addClass _ _ hname]
    rfl
  have harrow : arrowBlock.attribute? "data-broken-ref" = none := by
    rw [arrowBlock, Element.attribute?_setAttribute, if_neg (by decide)]
    simp only [Element.attribute?_addClass _ _ hname]
    rfl
  have hglyphs : (glyphBlocks r item).filterMap (fun e => e.attribute? "data-broken-ref") =
      unresolved (glyphReferences r item) := by
    rw [glyphBlocks, List.filterMap_map]
    exact List.filterMap_congr fun source _ => marked_glyphBlock source
  have hmarkers : (linkMarkers r item).filterMap (fun e => e.attribute? "data-broken-ref") =
      unresolved [target r item] := by
    rw [linkMarkers, unresolved]
    cases target r item with
    | url address => rfl
    | broken reference =>
      exact List.filterMap_cons_some (marked_markerBlock reference)
  rw [cardElements, itemReferences, unresolved_append, ← hglyphs]
  simp only [List.filterMap_cons, List.filterMap_append, List.filterMap_nil, hitem, hlabel, harrow,
    marked_iconBlock, marked_linkBlock, hmarkers, List.nil_append]
  rfl

theorem marked_frame : ∀ e ∈ frame r s, e.attribute? "data-broken-ref" = none := by
  have hname : "data-broken-ref" ≠ "class" := by decide
  have hbare : ∀ tag, (Element.mk tag [] []).attribute? "data-broken-ref" = none := fun _ => rfl
  simp only [frame, List.forall_mem_cons, List.not_mem_nil, false_imp_iff, implies_true, and_true,
    root, containerBlock, headingBlock, headline, contentBlock, Element.attribute?_append,
    Element.attribute?_appendAll, Element.attribute?_addClass _ _ hname, hbare]

theorem marked_root :
    (root r s).node.elements.filterMap (fun e => e.attribute? "data-broken-ref") =
      unresolved (s.references r) := by
  have hframe := List.filterMap_eq_nil_iff.2 (marked_frame r s)
  rw [elements_root, List.filterMap_append, hframe, List.nil_append, List.filterMap_flatMap,
    references, unresolved_flatMap]
  simp only [marked_cardElements]

/-! ### Cards -/

/-- The references of a card that do not resolve: the glyph by its name, and the link as it is
written, which is empty if there is none. -/
def missing : List String :=
  (match item.icon.treatment with
    | .glyph asset => if (r.asset asset).isBroken then [asset] else []
    | _ => []) ++
  if (r.link (item.link.getD "")).isBroken then [item.link.getD ""] else []

theorem unresolved_itemReferences : unresolved (itemReferences r item) = missing r item := by
  have hasset : ∀ asset, unresolved [r.asset asset] =
      if (r.asset asset).isBroken then [asset] else [] := by
    intro asset
    cases h : r.asset asset with
    | url address => rfl
    | broken reference =>
      rw [eq_of_asset_broken h]
      rfl
  have hlink : unresolved [r.link (item.link.getD "")] =
      if (r.link (item.link.getD "")).isBroken then [item.link.getD ""] else [] := by
    cases h : r.link (item.link.getD "") with
    | url address => rfl
    | broken reference =>
      rw [eq_of_link_broken h]
      rfl
  rw [itemReferences, unresolved_append, hlink, missing, glyphReferences]
  cases item.icon.treatment with
  | glyph asset => rw [hasset]
  | color name => rfl
  | plain => rfl

end FooterSection

/-- The parts of the block of an item. The link is all that is in it, and has the label and the
arrow after the icon. It is an anchor with the address that the link of the item resolves to, or a
block with a mark, without an anchor anywhere. -/
structure IsLinkCard (r : Resolver) (item : ContentItem) (block : LinkCardPart → Element) :
    Prop where
  children : (block .item).children = [(block .link).node]
  inner : ∃ icon markers, (block .link).children =
    icon :: (block .label).node :: (block .arrow).node :: markers
  label : (block .label).textContent = (RichText.parse item.title).plainText
  link : ∀ address, r.link (item.link.getD "") = .url address →
    (block .link).tag = "a" ∧ (block .link).attribute? "href" = some address ∧
    (block .link).classNames = ["shift-footer__link"] ∧
    (block .item).node.findByTag "a" = [block .link]
  broken : (r.link (item.link.getD "")).isBroken = true →
    (block .link).tag = "div" ∧
    (block .link).classNames = ["shift-footer__link", "shift-footer__link--broken"] ∧
    (block .item).node.findByTag "a" = []

namespace FooterSection

theorem isLinkCard_cardPart (r : Resolver) (item : ContentItem) :
    IsLinkCard r item (cardPart r item) where
  children := children_itemBlock r item
  inner := ⟨_, _, children_linkBlock r item⟩
  label := by
    show (labelBlock item).textContent = _
    rw [Element.textContent_eq, children_labelBlock]
    exact String.append_empty
  link address h := by
    have htarget : target r item = .url address := h
    have htag := tag_linkBlock r item
    have hnames := classNames_linkBlock r item
    have hfound := findByTag_itemBlock r item
    rw [htarget] at htag hnames hfound
    refine ⟨htag, ?_, hnames, hfound⟩
    show (linkBlock r item).attribute? "href" = some address
    rw [linkBlock, Element.attribute?_appendAll, htarget, linkStart,
      anchorElement_eq (by decide) (by decide)]
    rfl
  broken h := by
    have htag := tag_linkBlock r item
    have hnames := classNames_linkBlock r item
    have hfound := findByTag_itemBlock r item
    rw [show (target r item).isBroken = true from h] at htag hnames hfound
    exact ⟨htag, hnames, hfound⟩

end FooterSection

/-- The footer has a card for each item, in order: one block, one link, one label and one arrow,
found by their class names, with the plain text of the title, and a link that is an anchor or marked
as broken. The markers in the tree are those of the references that do not resolve, card by card,
the glyph before the link. -/
theorem footerSection_shows_cards (s : FooterSection) (r : Resolver) :
    let tree := (s.render r).value
    (∃ blocks : List (LinkCardPart → Element),
      (∀ part : LinkCardPart, ∀ name ∈ part.classNames,
        (tree.findByClass name).length = s.items.length ∧
        tree.findByClass name = blocks.map fun block => block part) ∧
      List.Forall₂ (IsLinkCard r) s.items blocks) ∧
    tree.elements.filterMap (fun e => e.attribute? "data-broken-ref") =
      s.items.flatMap (FooterSection.missing r) := by
  intro tree
  have htree : tree = (FooterSection.root r s).node := FooterSection.value_render r s
  refine ⟨⟨s.items.map (FooterSection.cardPart r), fun part name hname => ⟨?_, ?_⟩, ?_⟩, ?_⟩
  · rw [htree, FooterSection.findByClass_part r s hname, List.length_map]
  · rw [htree, FooterSection.findByClass_part r s hname, List.map_map]
    rfl
  · rw [List.forall₂_map_right_iff, List.forall₂_same]
    exact fun item _ => FooterSection.isLinkCard_cardPart r item
  · rw [htree, FooterSection.marked_root, FooterSection.references, unresolved_flatMap]
    simp only [FooterSection.unresolved_itemReferences]

/-- Three cards with one title: a glyph that is not deployed and no link, a link off the site, and a
link with a blank in it. -/
theorem footerSection_shows_cards_mixed :
    let s : FooterSection :=
      { title := "Next"
        items := [⟨.libs, "A<br/>B", "", none⟩, ⟨.red, "A<br/>B", "", some "https://x.example"⟩,
          ⟨.frontendLibs, "A<br/>B", "", some "lost page"⟩] }
    let r := (Resolver.ofBase "site").restrict [("img/ic-frontend-libs.svg", "img/f.svg")]
    let tree := (s.render r).value
    r.link "https://x.example" = .url "https://x.example" ∧
      (r.link "").isBroken = true ∧ (r.link "lost page").isBroken = true ∧
      (∃ none away lost, tree.findByClass "shift-footer__link" = [none, away, lost] ∧
        none.tag = "div" ∧ away.tag = "a" ∧
        away.attribute? "href" = some "https://x.example" ∧ lost.tag = "div") ∧
      tree.elements.filterMap (fun e => e.attribute? "data-broken-ref") =
        ["img/ic-libs.svg", "", "lost page"] := by
  intro s r tree
  have haway : r.link "https://x.example" = .url "https://x.example" := by decide +kernel
  have hnone : (r.link "").isBroken = true := by decide +kernel
  have hlost : (r.link "lost page").isBroken = true := by decide +kernel
  obtain ⟨⟨blocks, hfound, hcards⟩, hmarked⟩ := footerSection_shows_cards s r
  obtain ⟨-, hlinks⟩ := hfound .link "shift-footer__link" (by decide)
  have hmissing : s.items.flatMap (FooterSection.missing r) =
      ["img/ic-libs.svg", "", "lost page"] := by decide +kernel
  cases hcards with
  | cons first hrest =>
    cases hrest with
    | cons second hrest =>
      cases hrest with
      | cons third hrest =>
        cases hrest
        refine ⟨haway, hnone, hlost, ⟨_, _, _, hlinks, (first.broken hnone).1,
          (second.link _ haway).1, (second.link _ haway).2.1, (third.broken hlost).1⟩, ?_⟩
        rw [← hmissing]
        exact hmarked

end StaticSite
