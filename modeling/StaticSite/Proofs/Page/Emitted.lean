import StaticSite.Proofs.Page.Navbar
import StaticSite.Proofs.Section.Cards
import StaticSite.Proofs.Section.Part

/-!
# Addresses in pages

The addresses that a page leads to are those that its references resolve to, so they stand below the
base path, or on the page itself, or begin with the scheme of an address off the site. Whether a
link is marked to open in a new tab is decided by its address, and this is the same as asking the
target that was written.
-/

namespace StaticSite

open Text

/-- The resolvers that can be made: below a base path, whatever it is written like, and then with
lists of assets. -/
inductive Resolver.Made : Resolver → Prop
  | ofBase (base : String) : Made (.ofBase base)
  | restrict {r : Resolver} (h : Made r) (entries : List (String × String)) :
    Made (r.restrict entries)

theorem Resolver.Made.isBase {r : Resolver} (h : r.Made) : IsBase r.basePath := by
  induction h with
  | ofBase base =>
    simp only [Resolver.ofBase]
    exact isBase_normalizeBase base
  | restrict _ _ ih => exact ih

/-- An address that a page may lead to: below the base path, on the page, or off the site. -/
def IsAllowed (base address : String) : Prop :=
  beginsWith base address = true ∨ beginsWith "#" address = true ∨ isExternal address = true

theorem isAllowed_append (base rest : String) : IsAllowed base (base ++ rest) := by
  refine .inl ?_
  rw [beginsWith, String.toList_append, List.isPrefixOf_iff_prefix]
  exact List.prefix_append _ _

/-- A target that resolves is kept, if it leads off the site or stays on the page, or gets the base
path in place of its first slash. -/
theorem Resolver.link_cases {r : Resolver} {target address : String}
    (h : r.link target = .url address) :
    (address = trim target ∧ (isExternal target = true ∨ beginsWith "#" address = true)) ∨
    ∃ path, trim target = "/" ++ path ∧ IsSolid path ∧ address = r.basePath ++ path := by
  simp only [link] at h
  split at h
  · cases h
  · rename_i hsolid
    split at h
    · rename_i hkept
      obtain rfl := Resolved.url.inj h
      exact .inl ⟨rfl, hkept⟩
    · split at h
      · rename_i path hpath
        refine .inr ⟨String.ofList path, ?_, fun c hc => ?_, (Resolved.url.inj h).symm⟩
        · have hlist : (String.ofList path).toList = path := String.toList_ofList
          rw [← String.toList_inj, hpath, String.toList_append, hlist]
          rfl
        · have hany := (not_or.1 hsolid).2
          rw [hpath, Bool.not_eq_true, List.any_eq_false] at hany
          rw [String.toList_ofList] at hc
          exact Bool.not_eq_true _ ▸ hany c (List.mem_cons_of_mem _ hc)
      · cases h

theorem Resolver.exists_of_asset {r : Resolver} {name address : String}
    (h : r.asset name = .url address) : ∃ rest, address = r.basePath ++ rest := by
  simp only [asset] at h
  split at h
  · cases h
  · split at h
    · exact ⟨_, (Resolved.url.inj h).symm⟩
    · split at h
      · exact ⟨_, (Resolved.url.inj h).symm⟩
      · cases h

theorem isExternal_trim (target : String) : isExternal (trim target) = isExternal target := by
  have htrim : trim (trim target) = trim target := (isTrimmed_trimBoth isBlank target).trimBoth_eq
  rw [isExternal, isExternal, htrim]

theorem Resolver.isExternal_link {r : Resolver} (hr : IsBase r.basePath) {target address : String}
    (h : r.link target = .url address) : isExternal address = isExternal target := by
  rcases link_cases h with ⟨rfl, -⟩ | ⟨path, htarget, hsolid, rfl⟩
  · exact isExternal_trim target
  · rw [hr.not_isExternal_append hsolid, ← isExternal_trim target, htarget]
    exact (IsBase.root.not_isExternal_append hsolid).symm

def Resolved.IsAllowed (base : String) (x : Resolved) : Prop :=
  ∀ address, x = .url address → StaticSite.IsAllowed base address

namespace Resolver

variable (r : Resolver)

@[simp] theorem isAllowed_link (target : String) : (r.link target).IsAllowed r.basePath := by
  intro address h
  rcases link_cases h with ⟨rfl, haway | hpage⟩ | ⟨path, -, -, rfl⟩
  · exact .inr (.inr ((isExternal_trim target).trans haway))
  · exact .inr (.inl hpage)
  · exact isAllowed_append _ _

@[simp] theorem isAllowed_asset (name : String) : (r.asset name).IsAllowed r.basePath := by
  intro address h
  obtain ⟨rest, rfl⟩ := exists_of_asset h
  exact isAllowed_append _ rest

end Resolver

def linkClasses : List String := ["navbar__link", "shift-footer__link", "shift-foot__link"]

namespace Element

def OpensAway (e : Element) : Prop :=
  ∃ address, e.attribute? "href" = some address ∧
    e.attribute? "target" = (if isExternal address then some "_blank" else none) ∧
    e.attribute? "rel" = if isExternal address then some "noopener noreferrer" else none

/-- An element has allowed addresses, and is marked for its address if it is one of the links. -/
structure KeepsTo (base : String) (e : Element) : Prop where
  addresses : ∀ a ∈ e.attributes, a.1 = "src" ∨ a.1 = "href" → IsAllowed base a.2
  marks : e.tag = "a" → (∃ name ∈ linkClasses, e.hasClass name = true) → e.OpensAway

variable {base : String} {e : Element}

theorem mem_updateAttribute_iff {name : String} (f : Option String → String)
    {as : List (String × String)} {a : String × String} (ha : a.1 ≠ name) :
    a ∈ updateAttribute name f as ↔ a ∈ as := by
  have hne : ∀ value, a ≠ (name, value) := fun value h => ha (congrArg Prod.fst h)
  induction as with
  | nil => simp [updateAttribute, hne]
  | cons b as ih =>
    obtain ⟨n, v⟩ := b
    rw [updateAttribute]
    split
    · rename_i hn
      simp [hn, hne]
    · simp only [List.mem_cons, ih]

theorem keepsTo_iff_of_tag_ne (ht : e.tag ≠ "a") : e.KeepsTo base ↔
    ∀ a ∈ e.attributes, a.1 = "src" ∨ a.1 = "href" → IsAllowed base a.2 :=
  ⟨KeepsTo.addresses, fun h => ⟨h, fun h => absurd h ht⟩⟩

theorem keepsTo_updateAttribute {e' : Element} {name : String} {f : Option String → String}
    (hn : name ≠ "src" ∧ name ≠ "href") (ht : e.tag ≠ "a") (htag : e'.tag = e.tag)
    (ha : e'.attributes = updateAttribute name f e.attributes) :
    e'.KeepsTo base ↔ e.KeepsTo base := by
  rw [keepsTo_iff_of_tag_ne ht, keepsTo_iff_of_tag_ne (htag.symm ▸ ht), ha]
  refine forall_congr' fun a => ?_
  by_cases hname : a.1 = "src" ∨ a.1 = "href"
  · have hne : a.1 ≠ name := by
      rintro rfl
      exact hname.elim hn.1 hn.2
    rw [mem_updateAttribute_iff f hne]
  · simp [hname]

@[simp] theorem keepsTo_mk (tag : String) : Element.KeepsTo base ⟨tag, [], []⟩ where
  addresses _ h := by cases h
  marks _ h := by simp [hasClass, attribute?] at h

@[simp] theorem keepsTo_appendAll (l : List Node) :
    (e.appendAll l).KeepsTo base ↔ e.KeepsTo base :=
  ⟨fun h => ⟨h.addresses, h.marks⟩, fun h => ⟨h.addresses, h.marks⟩⟩

@[simp] theorem keepsTo_append (n : Node) : (e.append n).KeepsTo base ↔ e.KeepsTo base :=
  keepsTo_appendAll [n]

@[simp] theorem keepsTo_addClass (ht : e.tag ≠ "a") (names : String) :
    (e.addClass names).KeepsTo base ↔ e.KeepsTo base := by
  have hn : "class" ≠ "src" ∧ "class" ≠ "href" := by decide
  simp only [addClass]
  split
  · rfl
  · exact keepsTo_updateAttribute hn ht rfl rfl

@[simp] theorem keepsTo_setAttribute (ht : e.tag ≠ "a") {name : String}
    (hn : name ≠ "src" ∧ name ≠ "href") (value : String) :
    (e.setAttribute name value).KeepsTo base ↔ e.KeepsTo base :=
  keepsTo_updateAttribute hn ht rfl rfl

end Element

def Node.KeepsTo (base : String) (n : Node) : Prop := ∀ e ∈ n.elements, e.KeepsTo base

section

variable {base : String} {e : Element} {l : List Node}

@[simp] theorem Node.keepsTo_text (s : String) : (Node.text s).KeepsTo base :=
  fun _ he => by cases he

@[simp] theorem Node.keepsTo_rich (r : RichText) : (Node.rich r).KeepsTo base :=
  fun _ he => by cases he

@[simp] theorem Element.keepsTo_node :
    e.node.KeepsTo base ↔ e.KeepsTo base ∧ ∀ n ∈ e.children, n.KeepsTo base :=
  forall_mem_elements_node _

@[simp] theorem keepsTo_block (className : String) :
    (block className l).KeepsTo base ↔ ∀ n ∈ l, n.KeepsTo base := by
  simp [block, Element.children_addClass, Element.children_appendAll]

@[simp] theorem keepsTo_container (layout : Layout) :
    (container layout l).KeepsTo base ↔ ∀ n ∈ l, n.KeepsTo base := by
  simp [container, Element.tag_addClass, Element.children_addClass, Element.children_appendAll]

@[simp] theorem keepsTo_heading (layout : Layout) : (heading layout).KeepsTo base := by
  have htitle : ∀ n ∈ titleNodes layout, n.KeepsTo base := by
    unfold titleNodes
    split <;> simp [Element.tag_addClass, Element.children_addClass, Element.children_append]
  have hsubtitle : ∀ n ∈ subtitleNodes layout, n.KeepsTo base := by
    unfold subtitleNodes
    split
    · simp
    · split <;>
        simp [Element.tag_addClass, Element.children_addClass, Element.children_append]
  have hnodes := List.forall_mem_append.2 ⟨htitle, hsubtitle⟩
  simpa [heading, Element.tag_addClass, Element.children_addClass,
    Element.children_appendAll] using hnodes

@[simp] theorem keepsTo_arrow (component : String) (direction : Direction) :
    (arrow component direction).KeepsTo base := by
  simp [arrow, Element.tag_addClass, Element.children_addClass, Element.children_setAttribute]

@[simp] theorem keepsTo_placeholder (component reference : String) :
    (placeholder component reference).value.KeepsTo base := by
  simp [placeholder, Element.tag_addClass, Element.children_addClass,
    Element.children_setAttribute, Element.children_append]

@[simp] theorem keepsTo_image (component classes : String) {source : Resolved} (alt : String)
    (h : source.IsAllowed base) : (image component classes source alt).value.KeepsTo base := by
  cases source with
  | broken reference => exact keepsTo_placeholder component reference
  | url address =>
    -- The source is an address, so that this attribute has to be looked at itself.
    have hsource : (((Element.mk "img" [] []).addClass classes).setAttribute "src"
        address).KeepsTo base := by
      have htag : (((Element.mk "img" [] []).addClass classes).setAttribute "src"
          address).tag ≠ "a" := by simp [Element.tag_setAttribute, Element.tag_addClass]
      refine (Element.keepsTo_iff_of_tag_ne htag).2 ?_
      have haddress : IsAllowed base address := h address rfl
      by_cases hempty : trim classes = "" <;>
        simp [Element.addClass, hempty, Element.setAttribute, Element.updateAttribute, haddress]
    simp [image, Element.tag_addClass, Element.tag_setAttribute, Element.children_addClass,
      Element.children_setAttribute, hsource]

theorem keepsTo_unmarked {names address : String} (hc : ∀ name ∈ linkClasses, name ∉ words names)
    (h : IsAllowed base address) :
    ((Element.mk "a" [("class", names)] []).setAttribute "href" address).KeepsTo base where
  addresses := by simpa [Element.setAttribute, Element.updateAttribute] using h
  marks _ hmarked := by
    obtain ⟨name, hname, hhas⟩ := hmarked
    rw [Element.hasClass_setAttribute _ (by decide), Element.hasClass] at hhas
    exact absurd (of_decide_eq_true hhas) (hc name hname)

theorem keepsTo_anchorElement {className address : String} (hne : className ≠ "")
    (hclass : IsSolid className) (h : IsAllowed base address) :
    (anchorElement className address).KeepsTo base := by
  rw [anchorElement_eq hne hclass]
  constructor
  case addresses =>
    split <;> simpa using h
  case marks =>
    intro _ _
    refine ⟨address, rfl, ?_, ?_⟩ <;> split <;> rfl

theorem children_anchorElement {className : String} (hne : className ≠ "")
    (hclass : IsSolid className) (address : String) :
    (anchorElement className address).children = [] := by
  rw [anchorElement_eq hne hclass]

theorem keepsTo_anchor (component : String) {className : String} (hne : className ≠ "")
    (hclass : IsSolid className) {target : Resolved} (ht : target.IsAllowed base)
    (h : ∀ n ∈ l, n.KeepsTo base) : (anchor component className target l).value.KeepsTo base := by
  cases target with
  | broken reference =>
    simpa [anchor, Element.tag_addClass, Element.children_addClass, Element.children_append,
      Element.children_appendAll, or_imp, forall_and] using h
  | url address =>
    have hstart := keepsTo_anchorElement hne hclass (ht address rfl)
    simpa [anchor, Element.children_appendAll, children_anchorElement hne hclass, hstart] using h

theorem keepsTo_button (label : String) {target : Resolved} (h : target.IsAllowed base) :
    (button SectionId.intro.className label target).value.KeepsTo base := by
  cases target with
  | broken reference => exact keepsTo_placeholder _ reference
  | url address =>
    have hname : elementClass SectionId.intro.className "btn" = "shift-intro__btn" := by
      decide +kernel
    have hstart : ((Element.mk "a" [] []).addClass "btn").addClass "shift-intro__btn" =
        ⟨"a", [("class", "btn shift-intro__btn")], []⟩ := rfl
    have hnone : ∀ name ∈ linkClasses, name ∉ words "btn shift-intro__btn" := by decide
    have hbutton := keepsTo_unmarked hnone (h address rfl)
    simp [button, hname, hstart, hbutton, Element.children_append, Element.children_setAttribute]

theorem keepsTo_link (id : SectionId) (component : String) {target : Resolved}
    (ht : target.IsAllowed base) (h : ∀ n ∈ l, n.KeepsTo base) :
    (anchor component (id.element "link") target l).value.KeepsTo base := by
  have hsolid : IsSolid (id.element "link") :=
    ((isSolid_className id).append (by decide)).append (by decide)
  have hne : id.element "link" ≠ "" := by cases id <;> decide
  exact keepsTo_anchor component hne hsolid ht h

end

theorem keepsTo_card (base component : String) (item : ContentItem) :
    (card component item).value.KeepsTo base := by
  simp [card, cardTitle, Element.tag_addClass, Element.children_addClass, Element.children_append]

theorem keepsTo_renderItem (r : Resolver) (item : ContentItem) :
    (FooterSection.renderItem r item).value.KeepsTo r.basePath := by
  have hicon : (FooterSection.icon r item).value.KeepsTo r.basePath := by
    unfold FooterSection.icon
    split <;> simp [Element.tag_addClass, Element.children_addClass]
  have hlabel : (FooterSection.label item).KeepsTo r.basePath := by simp [FooterSection.label]
  have harrow : (arrow FooterSection.component .right).KeepsTo r.basePath := keepsTo_arrow _ _
  have hname : elementClass FooterSection.component "link" = SectionId.footer.element "link" := rfl
  have hlink := keepsTo_link .footer FooterSection.component (r.isAllowed_link (item.link.getD ""))
    (List.forall_mem_cons.2 ⟨hicon, List.forall_mem_cons.2 ⟨hlabel,
      List.forall_mem_singleton.2 harrow⟩⟩)
  simp only [FooterSection.renderItem, Logged.value_bind, Logged.value_pure, keepsTo_block, hname]
  exact List.forall_mem_singleton.2 hlink

theorem PageSection.keepsTo_render (p : PageSection) (ctx : RenderContext) :
    (p.render ctx).value.KeepsTo ctx.resolver.basePath := by
  cases p with
  | hero s =>
    have hbutton := keepsTo_button s.actionLabel (ctx.resolver.isAllowed_link s.actionTarget)
    simp [render, HeroSection.render, hbutton]
  | pitch s => simp [render, PitchSection.render]
  | cards s => simp [render, CardSection.render, StaticSite.cards, Logged.value_each, keepsTo_card]
  | footer s => simp [render, FooterSection.render, Logged.value_each, keepsTo_renderItem]
  | credits s =>
    have hlink : ∀ target text, (anchor SectionId.foot.className (SectionId.foot.element "link")
        (ctx.resolver.link target) [.text text]).value.KeepsTo ctx.resolver.basePath :=
      fun target text => keepsTo_link .foot _ (ctx.resolver.isAllowed_link target)
        (List.forall_mem_singleton.2 (Node.keepsTo_text text))
    simp [render, CreditSection.render, CreditSection.column, hlink, Element.tag_addClass,
      Element.children_addClass, Element.children_appendAll]

section

variable (s : Settings) (r : Resolver)

theorem keepsTo_navLink (item : NavItem) : (navLink r item).value.KeepsTo r.basePath := by
  unfold navLink
  cases h : r.link item.target with
  | broken reference => exact keepsTo_placeholder _ reference
  | url address =>
    have hne : "navbar__link" ≠ "" := by decide
    have hsolid : IsSolid "navbar__link" := by decide
    have hstart := keepsTo_anchorElement hne hsolid (r.isAllowed_link item.target address h)
    simp [Element.children_append, children_anchorElement hne hsolid, hstart]

theorem keepsTo_brandContent : (brandContent s r).value.KeepsTo r.basePath := by
  unfold brandContent
  split <;> simp

theorem keepsTo_navGroup (side : Side) :
    ∀ n ∈ (navGroup s r side).value, n.KeepsTo r.basePath := by
  have hlinks : ∀ n ∈ (Logged.each (navLink r)
      (s.navbar.items.filter fun i => i.side = side)).value, n.KeepsTo r.basePath := by
    rw [Logged.value_each]
    exact List.forall_mem_map.2 fun item _ => keepsTo_navLink r item
  simp only [navGroup, Logged.value_bind]
  split
  · simp
  · simpa [Element.tag_addClass, Element.children_addClass, Element.children_appendAll]
      using hlinks

theorem keepsTo_navbar : (navbar s r).value.KeepsTo r.basePath := by
  have hbrand : (Element.mk "a" [] []).addClass "navbar__brand" =
      ⟨"a", [("class", "navbar__brand")], []⟩ := rfl
  have hnone : ∀ name ∈ linkClasses, name ∉ words "navbar__brand" := by decide
  have hhome : IsAllowed r.basePath r.basePath := by
    have happend := isAllowed_append r.basePath ""
    rwa [String.append_empty] at happend
  have hstart := keepsTo_unmarked hnone hhome
  have hgroups : ∀ n ∈ (Logged.each (navGroup s r) Side.all).value.flatten,
      n.KeepsTo r.basePath := by
    simp only [Logged.value_each, List.mem_flatten, List.mem_map]
    rintro n ⟨_, ⟨side, -, rfl⟩, hn⟩
    exact keepsTo_navGroup s r side n hn
  simp only [navbar, Logged.value_bind, Logged.value_pure, hbrand, homeAddress_eq,
    Element.keepsTo_node, Element.children_append, Element.children_appendAll,
    Element.children_addClass, Element.children_setAttribute, List.nil_append,
    List.forall_mem_append, List.forall_mem_singleton]
  refine ⟨by simp, ⟨?_, keepsTo_brandContent s r⟩,
    hgroups⟩
  exact (Element.keepsTo_append _).2 hstart

end

theorem Route.keepsTo_assemble (route : Route) (ctx : RenderContext) :
    (route.assemble ctx).value.body.KeepsTo ctx.resolver.basePath := by
  simp only [assemble, Logged.value_bind, Logged.value_pure, Logged.value_each, keepsTo_block]
  exact List.forall_mem_map.2 fun p _ => p.keepsTo_render ctx

/-- Every address in the navigation bar and in the body of a page stands below the base path, which
begins and ends with a slash, or on the page, or leads off the site. A link of the bar, of a card or
of the credits has an address, and opens in a new tab if this leads off the site, and only then. A
target leads off the site if what it resolves to does. -/
theorem emitted_addresses_allowed (s : Settings) {r : Resolver} (hr : r.Made) (route : Route) :
    let emitted := (navbar s r).value.elements ++ (route.assemble ⟨s, r⟩).value.body.elements
    (r.basePath.toList.head? = some '/' ∧ r.basePath.toList.getLast? = some '/') ∧
    (∀ e ∈ emitted, ∀ a ∈ e.attributes, a.1 = "src" ∨ a.1 = "href" → IsAllowed r.basePath a.2) ∧
    (∀ e ∈ emitted, e.tag = "a" → (∃ name ∈ linkClasses, e.hasClass name = true) →
      e.OpensAway) ∧
    ∀ target address, r.link target = .url address →
      (isExternal address = true ↔ isExternal target = true) := by
  intro emitted
  have hbase := hr.isBase
  have hkeeps : ∀ e ∈ emitted, e.KeepsTo r.basePath :=
    List.forall_mem_append.2 ⟨keepsTo_navbar s r, route.keepsTo_assemble ⟨s, r⟩⟩
  refine ⟨⟨hbase.head?_eq, hbase.getLast?_eq⟩, fun e he => (hkeeps e he).addresses,
    fun e he => (hkeeps e he).marks, fun target address h => ?_⟩
  rw [Resolver.isExternal_link hbase h]

/-- A link off the site with blanks around it, and a logo that is deployed below a base path. -/
theorem emitted_addresses_allowed_below :
    let s : Settings :=
      { site := { title := "T", url := "https://t.example" }
        navbar :=
          { logo := some ⟨"Logo", "img/logo.png"⟩
            items := [⟨" https://x.example ", "Code", .left⟩] } }
    let r := (Resolver.ofBase "site").restrict [("img/logo.png", "img/logo.1.png")]
    r.Made ∧ r.basePath = "/site/" ∧
      (∃ e ∈ (navbar s r).value.elements, ("src", "/site/img/logo.1.png") ∈ e.attributes ∧
        IsAllowed "/site/" "/site/img/logo.1.png") ∧
      (∃ e ∈ (navbar s r).value.elements, e.tag = "a" ∧ e.hasClass "navbar__link" = true ∧
        e.attribute? "href" = some "https://x.example" ∧ e.OpensAway) ∧
      isExternal " https://x.example " = true := by
  intro s r
  have hr : r.Made := (Resolver.Made.ofBase "site").restrict _
  have hbase : r.basePath = "/site/" := by decide +kernel
  have hlogo : ∃ e ∈ (navbar s r).value.elements,
      ("src", "/site/img/logo.1.png") ∈ e.attributes := by decide +kernel
  have hlink : ∃ e ∈ (navbar s r).value.elements, e.tag = "a" ∧
      e.hasClass "navbar__link" = true ∧ e.attribute? "href" = some "https://x.example" := by
    decide +kernel
  obtain ⟨-, hallowed, hmarks, hexternal⟩ := emitted_addresses_allowed s hr .home
  obtain ⟨logo, hmem, hsrc⟩ := hlogo
  obtain ⟨link, hmem', htag, hclass, hhref⟩ := hlink
  have hsource := hallowed logo (List.mem_append_left _ hmem) _ hsrc (.inl rfl)
  rw [hbase] at hsource
  have hopens := hmarks link (List.mem_append_left _ hmem') htag ⟨_, by decide, hclass⟩
  exact ⟨hr, hbase, ⟨logo, hmem, hsrc, hsource⟩, ⟨link, hmem', htag, hclass, hhref, hopens⟩,
    (hexternal _ "https://x.example" (by decide +kernel)).1 (by decide +kernel)⟩

end StaticSite
