import Mathlib.Data.List.Forall2
import Mathlib.Logic.Relation
import StaticSite.Proofs.Page.Link

/-!
# Items of the navigation bar

The navigation bar has an entry for each item of the settings: a link with its label, or the marker
of its target. The entries stand in a group for each side, in the order of the items, so it does not
matter how the items of one side and of the other one are mixed.
-/

namespace StaticSite

/-- What an item is shown as: a link with its label, which opens in a new tab if it leads off the
site, or a marker with the target as it was written. -/
inductive NavItem.IsEntry (r : Resolver) (item : NavItem) : Node → Prop
  | here {address : String} (h : r.link item.target = .url address)
    (hsite : isExternal address = false) :
    IsEntry r item
      (.element "a" [("class", "navbar__link"), ("href", address)] [.text item.label])
  | away {address : String} (h : r.link item.target = .url address)
    (hsite : isExternal address = true) :
    IsEntry r item
      (.element "a" [("class", "navbar__link"), ("href", address), ("target", "_blank"),
        ("rel", "noopener noreferrer")] [.text item.label])
  | marker (h : r.link item.target = .broken item.target) :
    IsEntry r item
      (.element "span" [("class", "broken-ref navbar__broken"), ("data-broken-ref", item.target)]
        [.text ("[missing: " ++ item.target ++ "]")])

theorem isEntry_navLink (r : Resolver) (item : NavItem) :
    item.IsEntry r (navLink r item).value := by
  cases hlink : r.link item.target with
  | broken reference =>
    obtain rfl := eq_of_link_broken hlink
    simp only [navLink, hlink]
    exact .marker hlink
  | url address =>
    cases hsite : isExternal address with
    | false =>
      rw [navLink_of_not_isExternal hlink hsite]
      exact .here hlink hsite
    | true =>
      simp only [navLink, hlink, anchorElement, hsite, if_true]
      exact .away hlink hsite

def Navbar.itemsOn (n : Navbar) (side : Side) : List NavItem :=
  n.items.filter fun i => i.side = side

def sideGroup (side : Side) : List Node → List Node
  | [] => []
  | entry :: rest =>
    [.element "div" [("class", "navbar__items navbar__items--" ++ side.name)] (entry :: rest)]

theorem value_navGroup (s : Settings) (r : Resolver) (side : Side) :
    (navGroup s r side).value =
      sideGroup side ((s.navbar.itemsOn side).map fun item => (navLink r item).value) := by
  simp only [navGroup, Logged.value_bind, Logged.value_each, Navbar.itemsOn]
  cases (s.navbar.items.filter fun i => i.side = side).map fun item => (navLink r item).value with
  | nil => rfl
  | cons entry rest => cases side <;> rfl

theorem homeAddress_eq (r : Resolver) : homeAddress r = r.basePath := by
  have hlink : r.link "/" = .url (r.basePath ++ String.ofList []) :=
    link_of_slash r rfl (by decide)
  have hnil : String.ofList [] = "" := rfl
  rw [homeAddress, hlink, hnil]
  exact String.append_empty

theorem value_navbar (s : Settings) (r : Resolver) :
    (navbar s r).value =
      .element "nav" [("class", "navbar")]
        (.element "a" [("class", "navbar__brand"), ("href", r.basePath)]
            [(brandContent s r).value] ::
          Side.all.flatMap fun side =>
            sideGroup side ((s.navbar.itemsOn side).map fun item => (navLink r item).value)) := by
  simp only [navbar, Logged.value_bind, Logged.value_each, value_navGroup, homeAddress_eq]
  rfl

/-- Two neighbours that stand on different sides change places. -/
inductive NavItem.Exchange : List NavItem → List NavItem → Prop
  | neighbours (before after : List NavItem) {a b : NavItem} (h : a.side ≠ b.side) :
    Exchange (before ++ a :: b :: after) (before ++ b :: a :: after)

section

variable {items items' : List NavItem} (side : Side)

theorem NavItem.Exchange.filter_eq (h : Exchange items items') :
    items.filter (fun i => i.side = side) = items'.filter fun i => i.side = side := by
  obtain ⟨before, after, hne⟩ := h
  rename_i a b
  simp only [List.filter_append, List.filter_cons]
  -- At most one of the two stands on this side, so nothing is kept that has changed places.
  by_cases ha : a.side = side
  · have hb : b.side ≠ side := fun hb => hne (ha.trans hb.symm)
    simp [ha, hb]
  · simp [ha]

theorem NavItem.filter_eq_of_exchanges (h : Relation.ReflTransGen Exchange items items') :
    items.filter (fun i => i.side = side) = items'.filter fun i => i.side = side := by
  induction h with
  | refl => rfl
  | tail _ hstep ih => exact ih.trans (hstep.filter_eq side)

end

/-- The bar is made from the items of each side. -/
theorem navbar_congr {s s' : Settings} (r : Resolver) (hsite : s'.site = s.site)
    (hlogo : s'.navbar.logo = s.navbar.logo)
    (hitems : ∀ side, s'.navbar.itemsOn side = s.navbar.itemsOn side) :
    navbar s' r = navbar s r := by
  have hgroups : navGroup s' r = navGroup s r := by
    funext side
    have hside : (s'.navbar.items.filter fun i => i.side = side) =
        s.navbar.items.filter fun i => i.side = side := hitems side
    simp only [navGroup, hside]
  have hbrand : brandContent s' r = brandContent s r := by
    simp only [brandContent, hsite, hlogo]
  rw [navbar, navbar, hgroups, hbrand]

theorem itemsOn_perm (n : Navbar) : (n.itemsOn .left ++ n.itemsOn .right).Perm n.items := by
  have hright : n.itemsOn .right = n.items.filter fun i => !decide (i.side = .left) := by
    refine List.filter_congr fun i _ => ?_
    cases i.side <;> rfl
  rw [hright]
  exact List.filter_append_perm _ _

theorem sideGroup_eq_nil_iff {side : Side} {entries : List Node} :
    sideGroup side entries = [] ↔ entries = [] := by
  cases entries <;> simp [sideGroup]

/-- The navigation bar has the link to the base path first, then a group for the items on the left
and one for those on the right, each only if there are such items. The entries of a group are those
of the items of its side, one for each and in order, and every item stands on one side. Items on
different sides may change places in the settings, and the bar stays the same. -/
theorem navbar_shows_items (s : Settings) (r : Resolver) :
    (∃ entries : Side → List Node,
      (navbar s r).value =
        .element "nav" [("class", "navbar")]
          (.element "a" [("class", "navbar__brand"), ("href", r.basePath)]
              [(brandContent s r).value] ::
            (sideGroup .left (entries .left) ++ sideGroup .right (entries .right))) ∧
      (∀ side, List.Forall₂ (NavItem.IsEntry r) (s.navbar.itemsOn side) (entries side)) ∧
      ∀ side, sideGroup side (entries side) ≠ [] ↔ ∃ item ∈ s.navbar.items, item.side = side) ∧
    (s.navbar.itemsOn .left ++ s.navbar.itemsOn .right).Perm s.navbar.items ∧
    ∀ items, Relation.ReflTransGen NavItem.Exchange s.navbar.items items →
      navbar { s with navbar := { s.navbar with items := items } } r = navbar s r := by
  refine ⟨⟨fun side => (s.navbar.itemsOn side).map fun item => (navLink r item).value, ?_,
    fun side => ?_, fun side => ?_⟩, itemsOn_perm s.navbar, fun items h => ?_⟩
  · rw [value_navbar]
    simp only [Side.all, List.flatMap_cons, List.flatMap_nil, List.append_nil]
  · rw [List.forall₂_map_right_iff, List.forall₂_same]
    exact fun item _ => isEntry_navLink r item
  · rw [ne_eq, sideGroup_eq_nil_iff, List.map_eq_nil_iff, Navbar.itemsOn, List.filter_eq_nil_iff]
    simp
  · exact navbar_congr r rfl rfl fun side => (NavItem.filter_eq_of_exchanges side h).symm

/-- An item on the left between two on the right, one of which has no address. It may also stand
before both of them. -/
theorem navbar_shows_items_mixed :
    let docs : NavItem := ⟨"/docs", "Docs", .right⟩
    let code : NavItem := ⟨"https://x.example", "Code", .left⟩
    let lost : NavItem := ⟨"lost page", "Lost", .right⟩
    let s : List NavItem → Settings := fun items =>
      { site := { title := "T", url := "https://t.example", baseUrl := "" }
        navbar := { items := items } }
    let r := Resolver.ofSettings (s [])
    Relation.ReflTransGen NavItem.Exchange [docs, code, lost] [code, docs, lost] ∧
    navbar (s [code, docs, lost]) r = navbar (s [docs, code, lost]) r ∧
    (s [docs, code, lost]).navbar.itemsOn .left = [code] ∧
    (s [docs, code, lost]).navbar.itemsOn .right = [docs, lost] ∧
    docs.IsEntry r (.element "a" [("class", "navbar__link"), ("href", "/docs")] [.text "Docs"]) ∧
    code.IsEntry r (.element "a" [("class", "navbar__link"), ("href", "https://x.example"),
      ("target", "_blank"), ("rel", "noopener noreferrer")] [.text "Code"]) ∧
    lost.IsEntry r (.element "span" [("class", "broken-ref navbar__broken"),
      ("data-broken-ref", "lost page")] [.text "[missing: lost page]"]) := by
  intro docs code lost s r
  have hswap : Relation.ReflTransGen NavItem.Exchange [docs, code, lost] [code, docs, lost] :=
    .single (.neighbours [] [lost] (by decide))
  obtain ⟨-, -, hsame⟩ := navbar_shows_items (s [docs, code, lost]) r
  refine ⟨hswap, hsame _ hswap, rfl, rfl, .here ?_ ?_, .away ?_ ?_, .marker ?_⟩ <;>
    decide +kernel

end StaticSite
