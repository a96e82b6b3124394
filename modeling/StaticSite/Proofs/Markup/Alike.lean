import StaticSite.Proofs.Markup.Skeleton

/-!
# Trees with the same tags

Two trees are alike if their names can be read back and their tags, with the names of attributes,
are the same. Trees that are built by the same steps are alike, whatever texts and values the steps
put in; so the relation is shown along the steps of building.
-/

namespace StaticSite

open Html

/-- Trees whose names can be read back and whose tags are the same. -/
structure Node.Alike (n n' : Node) : Prop where
  wellNamed : n.WellNamed
  wellNamed' : n'.WellNamed
  marks_eq : marks n.tokens = marks n'.tokens

structure Node.AllAlike (l l' : List Node) : Prop where
  wellNamed : Node.WellNamedAll l
  wellNamed' : Node.WellNamedAll l'
  marks_eq : marks (Node.tokensOf l) = marks (Node.tokensOf l')

theorem Node.Alike.sameTags {n n' : Node} (h : n.Alike n') : SameTags n.html n'.html := by
  refine ⟨marks n.tokens, Node.leads_html h.wellNamed, ?_⟩
  rw [h.marks_eq]
  exact Node.leads_html h.wellNamed'

namespace Node.AllAlike

theorem nil : AllAlike [] [] := ⟨trivial, trivial, rfl⟩

theorem cons {n n' : Node} {l l' : List Node} (h : n.Alike n') (hl : AllAlike l l') :
    AllAlike (n :: l) (n' :: l') where
  wellNamed := ⟨h.wellNamed, hl.wellNamed⟩
  wellNamed' := ⟨h.wellNamed', hl.wellNamed'⟩
  marks_eq := by rw [tokensOf, tokensOf, marks_append, marks_append, h.marks_eq, hl.marks_eq]

theorem singleton {n n' : Node} (h : n.Alike n') : AllAlike [n] [n'] := cons h nil

theorem append {l₁ l₁' l₂ l₂' : List Node} (h₁ : AllAlike l₁ l₁') (h₂ : AllAlike l₂ l₂') :
    AllAlike (l₁ ++ l₂) (l₁' ++ l₂') where
  wellNamed := Node.wellNamedAll_append h₁.wellNamed h₂.wellNamed
  wellNamed' := Node.wellNamedAll_append h₁.wellNamed' h₂.wellNamed'
  marks_eq := by
    rw [tokensOf_append, tokensOf_append, marks_append, marks_append, h₁.marks_eq, h₂.marks_eq]

theorem map {f g : α → Node} {l : List α} (h : ∀ a ∈ l, (f a).Alike (g a)) :
    AllAlike (l.map f) (l.map g) := by
  induction l with
  | nil => exact nil
  | cons a l ih =>
    have hl : ∀ b ∈ l, (f b).Alike (g b) := fun b hb => h b (List.mem_cons_of_mem a hb)
    exact cons (h a List.mem_cons_self) (ih hl)

theorem flatten_map {f g : α → List Node} {l : List α} (h : ∀ a ∈ l, AllAlike (f a) (g a)) :
    AllAlike (l.map f).flatten (l.map g).flatten := by
  induction l with
  | nil => exact nil
  | cons a l ih =>
    have hl : ∀ b ∈ l, AllAlike (f b) (g b) := fun b hb => h b (List.mem_cons_of_mem a hb)
    exact append (h a List.mem_cons_self) (ih hl)

end Node.AllAlike

namespace Node.Alike

theorem text (s s' : String) : (Node.text s).Alike (.text s') := ⟨trivial, trivial, rfl⟩

theorem rich (r : RichText) : (Node.rich r).Alike (.rich r) := ⟨trivial, trivial, rfl⟩

theorem fragment {l l' : List Node} (h : AllAlike l l') : (Node.fragment l).Alike (.fragment l') :=
  ⟨h.wellNamed, h.wellNamed', h.marks_eq⟩

end Node.Alike

structure Element.Alike (e e' : Element) : Prop where
  tag_eq : e'.tag = e.tag
  isName_tag : IsName e.tag
  names_eq : e'.attributes.map Prod.fst = e.attributes.map Prod.fst
  isName_names : ∀ name ∈ e.attributes.map Prod.fst, IsName name
  children : Node.AllAlike e.children e'.children

/-- An attribute that is there keeps its place, and a new one goes to the end. -/
theorem Element.names_updateAttribute (name : String) (f : Option String → String)
    (as : List (String × String)) :
    (updateAttribute name f as).map Prod.fst =
      if name ∈ as.map Prod.fst then as.map Prod.fst else as.map Prod.fst ++ [name] := by
  induction as with
  | nil => rfl
  | cons a as ih =>
    obtain ⟨n, v⟩ := a
    rw [updateAttribute]
    by_cases hn : n = name
    · simp [hn]
    · rw [if_neg hn, List.map_cons, ih]
      by_cases hm : name ∈ as.map Prod.fst
      · simp [hm]
      · simp [hm, Ne.symm hn]

namespace Element.Alike

variable {e e' : Element}

theorem ofTag (tag : String) (h : IsName tag) : Element.Alike ⟨tag, [], []⟩ ⟨tag, [], []⟩ where
  tag_eq := rfl
  isName_tag := h
  names_eq := rfl
  isName_names := by simp
  children := Node.AllAlike.nil

theorem updateAttribute (h : e.Alike e') {name : String} (hn : IsName name)
    (f f' : Option String → String) :
    Element.Alike { e with attributes := Element.updateAttribute name f e.attributes }
      { e' with attributes := Element.updateAttribute name f' e'.attributes } where
  tag_eq := h.tag_eq
  isName_tag := h.isName_tag
  names_eq := by
    simp only [names_updateAttribute, h.names_eq]
  isName_names := by
    intro name' hm
    rw [names_updateAttribute] at hm
    split at hm
    · exact h.isName_names name' hm
    · rcases List.mem_append.1 hm with hm | hm
      · exact h.isName_names name' hm
      · rw [List.mem_singleton.1 hm]
        exact hn
  children := h.children

theorem setAttribute (h : e.Alike e') {name : String} (hn : IsName name) (v v' : String) :
    (e.setAttribute name v).Alike (e'.setAttribute name v') :=
  h.updateAttribute hn _ _

theorem addClass (h : e.Alike e') (names : String) :
    (e.addClass names).Alike (e'.addClass names) := by
  have hclass : IsName "class" := by decide
  simp only [Element.addClass]
  split
  · exact h
  · exact h.updateAttribute hclass _ _

theorem appendAll (h : e.Alike e') {l l' : List Node} (hl : Node.AllAlike l l') :
    (e.appendAll l).Alike (e'.appendAll l') where
  tag_eq := h.tag_eq
  isName_tag := h.isName_tag
  names_eq := h.names_eq
  isName_names := h.isName_names
  children := h.children.append hl

theorem append (h : e.Alike e') {n n' : Node} (hn : n.Alike n') :
    (e.append n).Alike (e'.append n') :=
  h.appendAll (Node.AllAlike.singleton hn)

theorem node (h : e.Alike e') : e.node.Alike e'.node where
  wellNamed := by
    refine ⟨h.isName_tag, ?_, h.children.wellNamed⟩
    intro a ha
    exact h.isName_names a.1 (List.mem_map.2 ⟨a, ha, rfl⟩)
  wellNamed' := by
    refine ⟨h.tag_eq ▸ h.isName_tag, ?_, h.children.wellNamed'⟩
    intro a ha
    have hm : a.1 ∈ e'.attributes.map Prod.fst := List.mem_map.2 ⟨a, ha, rfl⟩
    rw [h.names_eq] at hm
    exact h.isName_names a.1 hm
  marks_eq := by
    have hopen : ∀ ts, marks (.opening e.tag e.attributes :: ts) =
        .opening e.tag (e.attributes.map Prod.fst) :: marks ts := fun ts => rfl
    have hopen' : ∀ ts, marks (.opening e'.tag e'.attributes :: ts) =
        .opening e'.tag (e'.attributes.map Prod.fst) :: marks ts := fun ts => rfl
    rw [Element.node, Element.node, Node.tokens, Node.tokens, hopen, hopen', h.names_eq, h.tag_eq]
    split
    · rfl
    · rw [marks_append, marks_append, h.children.marks_eq]

end Element.Alike

end StaticSite
