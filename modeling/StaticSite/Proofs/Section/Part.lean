import StaticSite.Proofs.Section.References

/-!
# Tags of sections

Sections are made of blocks, titles, spans, anchors and images, whatever their content is and
whether their references resolve. The tags that the head of a document is made of do not occur.
-/

namespace StaticSite

def partTags : List String := ["div", "h2", "nav", "span", "a", "img"]

/-- A tree whose elements have these tags only. -/
def Node.IsPart (n : Node) : Prop := ∀ e ∈ n.elements, e.tag ∈ partTags

def Element.IsPart (e : Element) : Prop := e.tag ∈ partTags ∧ ∀ n ∈ e.children, n.IsPart

theorem Node.mem_elementsOf {e : Element} {l : List Node} :
    e ∈ Node.elementsOf l ↔ ∃ n ∈ l, e ∈ n.elements := by
  induction l with
  | nil => simp [elementsOf]
  | cons n l ih => simp [elementsOf, ih]

/-- Something that all elements of a tree have, the one at the root apart. -/
theorem Element.forall_mem_elements_node {e : Element} (P : Element → Prop) :
    (∀ e' ∈ e.node.elements, P e') ↔ P e ∧ ∀ n ∈ e.children, ∀ e' ∈ n.elements, P e' := by
  rw [node, Node.elements, List.forall_mem_cons]
  simp only [Node.mem_elementsOf]
  refine and_congr_right fun _ => ⟨fun h n hn e he => h e ⟨n, hn, he⟩, fun h e he => ?_⟩
  obtain ⟨n, hn, he⟩ := he
  exact h n hn e he

namespace Node

@[simp] theorem isPart_text (s : String) : (text s).IsPart := fun _ he => by cases he

@[simp] theorem isPart_rich (r : RichText) : (rich r).IsPart := fun _ he => by cases he

end Node

namespace Element

variable {e : Element}

@[simp] theorem isPart_node : e.node.IsPart ↔ e.IsPart := forall_mem_elements_node _

@[simp] theorem isPart_mk (tag : String) :
    Element.IsPart ⟨tag, [], []⟩ ↔ tag ∈ partTags := by simp [IsPart]

@[simp] theorem isPart_addClass (names : String) : (e.addClass names).IsPart ↔ e.IsPart := by
  rw [IsPart, tag_addClass, children_addClass, IsPart]

@[simp] theorem isPart_setAttribute (name value : String) :
    (e.setAttribute name value).IsPart ↔ e.IsPart := Iff.rfl

@[simp] theorem isPart_appendAll (l : List Node) :
    (e.appendAll l).IsPart ↔ e.IsPart ∧ ∀ n ∈ l, n.IsPart := by
  rw [IsPart, appendAll, List.forall_mem_append, ← and_assoc, IsPart]

@[simp] theorem isPart_append (n : Node) : (e.append n).IsPart ↔ e.IsPart ∧ n.IsPart := by
  rw [← List.forall_mem_singleton (p := Node.IsPart), ← isPart_appendAll]
  rfl

end Element

section

variable {l : List Node}

@[simp] theorem isPart_block (className : String) :
    (block className l).IsPart ↔ ∀ n ∈ l, n.IsPart := by simp [block, partTags]

@[simp] theorem isPart_container (layout : Layout) :
    (container layout l).IsPart ↔ ∀ n ∈ l, n.IsPart := by simp [container, partTags]

@[simp] theorem isPart_heading (layout : Layout) : (heading layout).IsPart := by
  have htitle : ∀ n ∈ titleNodes layout, n.IsPart := by
    unfold titleNodes
    split <;> simp [partTags]
  have hsubtitle : ∀ n ∈ subtitleNodes layout, n.IsPart := by
    unfold subtitleNodes
    split
    · simp
    · split <;> simp [partTags]
  simp only [heading, Element.isPart_node, Element.isPart_appendAll, Element.isPart_addClass,
    List.forall_mem_append]
  exact ⟨by simp [partTags], htitle, hsubtitle⟩

@[simp] theorem isPart_arrow (component : String) (direction : Direction) :
    (arrow component direction).IsPart := by simp [arrow, partTags]

@[simp] theorem isPart_placeholder (component reference : String) :
    (placeholder component reference).value.IsPart := by simp [placeholder, partTags]

@[simp] theorem isPart_button (component label : String) (target : Resolved) :
    (button component label target).value.IsPart := by
  cases target <;> simp [button, partTags]

@[simp] theorem isPart_image (component classes : String) (source : Resolved) (alt : String) :
    (image component classes source alt).value.IsPart := by
  cases source <;> simp [image, partTags]

@[simp] theorem isPart_anchorElement (className address : String) :
    (anchorElement className address).IsPart := by
  simp only [anchorElement]
  split <;> simp [partTags]

@[simp] theorem isPart_anchor (component className : String) (target : Resolved) :
    (anchor component className target l).value.IsPart ↔ ∀ n ∈ l, n.IsPart := by
  cases target <;> simp [anchor, partTags]

end

theorem isPart_card (component : String) (item : ContentItem) :
    (card component item).value.IsPart := by simp [card, cardTitle, partTags]

theorem isPart_renderItem (r : Resolver) (item : ContentItem) :
    (FooterSection.renderItem r item).value.IsPart := by
  have hicon : (FooterSection.icon r item).value.IsPart := by
    unfold FooterSection.icon
    split <;> simp [partTags]
  simp [FooterSection.renderItem, FooterSection.label, hicon]

theorem PageSection.isPart_render (p : PageSection) (ctx : RenderContext) :
    (p.render ctx).value.IsPart := by
  cases p with
  | hero s => simp [render, HeroSection.render]
  | pitch s => simp [render, PitchSection.render]
  | cards s => simp [render, CardSection.render, StaticSite.cards, Logged.value_each, isPart_card]
  | footer s => simp [render, FooterSection.render, Logged.value_each, isPart_renderItem]
  | credits s => simp [render, CreditSection.render, CreditSection.column, partTags]

end StaticSite
