import StaticSite.Proofs.Markup.Escape
import StaticSite.Proofs.Markup.Token

/-!
# Normal forms of trees

Different trees may have the same HTML: fragments leave no trace, neighbouring texts run together,
rich text is written as elements, and the children of void elements are not written at all. The
normal form of a tree has none of these left, and its HTML is that of the tree.
-/

namespace StaticSite

/-- A text in front of trees: it joins a text that stands first, and an empty text is left out. -/
def consText (s : String) : List Node → List Node
  | .text t :: rest => .text (s ++ t) :: rest
  | nodes => if s = "" then nodes else .text s :: nodes

/-- Trees with neighbouring texts joined and empty texts left out. -/
def mergeTexts : List Node → List Node
  | [] => []
  | .text s :: rest => consText s (mergeTexts rest)
  | n :: rest => n :: mergeTexts rest

mutual

def Span.pieces : Span → List Node
  | .text s => [.text s]
  | .lineBreak => [.element "br" [] []]
  | .styled style inner => [.element style.tag [] (mergeTexts (Span.piecesOf inner))]

def Span.piecesOf : List Span → List Node
  | [] => []
  | s :: rest => s.pieces ++ Span.piecesOf rest

end

mutual

def Node.pieces : Node → List Node
  | .element tag attributes children =>
    [.element tag attributes (if tag ∈ voidTags then [] else mergeTexts (Node.piecesOf children))]
  | .text s => [.text s]
  | .rich r => Span.piecesOf r.spans
  | .fragment nodes => Node.piecesOf nodes

def Node.piecesOf : List Node → List Node
  | [] => []
  | n :: rest => n.pieces ++ Node.piecesOf rest

end

/-- The normal form of a tree: elements and texts only, nothing in void elements, no empty text, and
no text next to another one. -/
def Node.normalForm (n : Node) : List Node := mergeTexts n.pieces

def startsWithText : List Node → Bool
  | .text _ :: _ => true
  | _ => false

mutual

def Node.IsNormal : Node → Prop
  | .element tag _ children => (tag ∈ voidTags → children = []) ∧ Node.AllNormal children
  | .text s => s ≠ ""
  | .rich _ => False
  | .fragment _ => False

/-- Normal trees, no text of which stands next to another one. -/
def Node.AllNormal : List Node → Prop
  | [] => True
  | n :: rest =>
    n.IsNormal ∧ (startsWithText [n] = true → startsWithText rest = false) ∧ Node.AllNormal rest

end

theorem mem_consText {s : String} {l : List Node} {n : Node} (h : n ∈ consText s l) :
    n ∈ l ∨ ∃ t, n = .text t := by
  unfold consText at h
  split at h
  · rcases List.mem_cons.1 h with rfl | hm
    · exact Or.inr ⟨_, rfl⟩
    · exact Or.inl (List.mem_cons_of_mem _ hm)
  · split at h
    · exact Or.inl h
    · rcases List.mem_cons.1 h with rfl | hm
      · exact Or.inr ⟨s, rfl⟩
      · exact Or.inl hm

theorem mem_mergeTexts {l : List Node} {n : Node} (h : n ∈ mergeTexts l) :
    n ∈ l ∨ ∃ t, n = .text t := by
  induction l using mergeTexts.induct with
  | case1 => exact Or.inl h
  | case2 s rest ih =>
    rcases mem_consText h with hm | ht
    · exact (ih hm).imp_left (List.mem_cons_of_mem _)
    · exact Or.inr ht
  | case3 m rest hm ih =>
    rw [mergeTexts] at h
    rcases List.mem_cons.1 h with rfl | hr
    · exact Or.inl List.mem_cons_self
    · exact (ih hr).imp_left (List.mem_cons_of_mem _)
    · exact hm

theorem allNormal_consText (s : String) {l : List Node} (h : Node.AllNormal l) :
    Node.AllNormal (consText s l) := by
  unfold consText
  split
  · rename_i t rest
    obtain ⟨ht, hs, hr⟩ := h
    have hne : s ++ t ≠ "" := by
      intro he
      exact ht (String.append_eq_empty_iff.1 he).2
    exact ⟨hne, hs, hr⟩
  · rename_i hl
    split
    · exact h
    · rename_i hs
      refine ⟨hs, ?_, h⟩
      intro _
      unfold startsWithText
      split
      · rename_i t rest
        exact absurd rfl (hl t rest)
      · rfl

/-- Pieces that are texts or normal become normal trees. -/
theorem allNormal_mergeTexts {l : List Node} (h : ∀ n ∈ l, n.IsNormal ∨ ∃ t, n = .text t) :
    Node.AllNormal (mergeTexts l) := by
  induction l using mergeTexts.induct with
  | case1 => trivial
  | case2 s rest ih =>
    exact allNormal_consText s (ih fun n hn => h n (List.mem_cons_of_mem _ hn))
  | case3 m rest hm ih =>
    rw [mergeTexts]
    · have hnormal : m.IsNormal := by
        rcases h m List.mem_cons_self with hn | ⟨t, rfl⟩
        · exact hn
        · exact absurd rfl (hm t)
      have hfirst : startsWithText [m] = false := by
        cases m with
        | text t => exact absurd rfl (hm t)
        | element _ _ _ => rfl
        | rich _ => rfl
        | fragment _ => rfl
      refine ⟨hnormal, ?_, ih fun n hn => h n (List.mem_cons_of_mem _ hn)⟩
      intro hs
      rw [hfirst] at hs
      cases hs
    · exact hm

mutual

theorem Span.isNormal_of_mem_pieces : (s : Span) → ∀ n ∈ s.pieces, n.IsNormal ∨ ∃ t, n = .text t
  | .text s => by simp [Span.pieces]
  | .lineBreak => by simp [Span.pieces, Node.IsNormal, Node.AllNormal]
  | .styled style inner => by
    have hi := allNormal_mergeTexts (Span.isNormal_of_mem_piecesOf inner)
    have hv : style.tag ∉ voidTags := by cases style <;> decide
    intro n hn
    rw [Span.pieces, List.mem_singleton] at hn
    subst hn
    exact Or.inl ⟨fun h => absurd h hv, hi⟩

theorem Span.isNormal_of_mem_piecesOf : (l : List Span) →
    ∀ n ∈ Span.piecesOf l, n.IsNormal ∨ ∃ t, n = .text t
  | [] => by simp [Span.piecesOf]
  | s :: rest => by
    intro n hn
    rw [Span.piecesOf, List.mem_append] at hn
    exact hn.elim (Span.isNormal_of_mem_pieces s n) (Span.isNormal_of_mem_piecesOf rest n)

end

mutual

theorem Node.isNormal_of_mem_pieces : (m : Node) → ∀ n ∈ m.pieces, n.IsNormal ∨ ∃ t, n = .text t
  | .element tag attributes children => by
    have hi := allNormal_mergeTexts (Node.isNormal_of_mem_piecesOf children)
    intro n hn
    rw [Node.pieces, List.mem_singleton] at hn
    subst hn
    left
    split
    · exact ⟨fun _ => rfl, trivial⟩
    · rename_i hv
      exact ⟨fun h => absurd h hv, hi⟩
  | .text s => by simp [Node.pieces]
  | .rich r => Span.isNormal_of_mem_piecesOf r.spans
  | .fragment nodes => Node.isNormal_of_mem_piecesOf nodes

theorem Node.isNormal_of_mem_piecesOf : (l : List Node) →
    ∀ n ∈ Node.piecesOf l, n.IsNormal ∨ ∃ t, n = .text t
  | [] => by simp [Node.piecesOf]
  | m :: rest => by
    intro n hn
    rw [Node.piecesOf, List.mem_append] at hn
    exact hn.elim (Node.isNormal_of_mem_pieces m n) (Node.isNormal_of_mem_piecesOf rest n)

end

theorem Node.allNormal_normalForm (n : Node) : Node.AllNormal n.normalForm :=
  allNormal_mergeTexts n.isNormal_of_mem_pieces

theorem Node.htmls_append (l₁ l₂ : List Node) :
    Node.htmls (l₁ ++ l₂) = Node.htmls l₁ ++ Node.htmls l₂ := by
  induction l₁ with
  | nil => simp [Node.htmls]
  | cons n l₁ ih => rw [List.cons_append, Node.htmls, Node.htmls, ih, String.append_assoc]

theorem htmls_consText (s : String) (l : List Node) :
    Node.htmls (consText s l) = Escape.forText s ++ Node.htmls l := by
  unfold consText
  split
  · rw [Node.htmls, Node.htmls, Node.html, Node.html, Escape.forText_append, String.append_assoc]
  · split
    · rename_i hs
      rw [hs, Escape.forText_empty, String.empty_append]
    · rw [Node.htmls, Node.html]

theorem htmls_mergeTexts (l : List Node) : Node.htmls (mergeTexts l) = Node.htmls l := by
  induction l using mergeTexts.induct with
  | case1 => rfl
  | case2 s rest ih => rw [mergeTexts, htmls_consText, ih, Node.htmls, Node.html]
  | case3 m rest hm ih =>
    rw [mergeTexts, Node.htmls, Node.htmls, ih]
    exact hm

theorem htmls_singleton (n : Node) : Node.htmls [n] = n.html := by
  rw [Node.htmls, Node.htmls, String.append_empty]

mutual

theorem Span.htmls_pieces : (s : Span) → Node.htmls s.pieces = s.html
  | .text s => htmls_singleton (.text s)
  | .lineBreak => rfl
  | .styled style inner => by
    have hv : style.tag ∉ voidTags := by cases style <;> decide
    rw [Span.pieces, htmls_singleton, Node.html, if_neg hv, htmls_mergeTexts,
      Span.htmls_piecesOf inner, Span.html_styled]

theorem Span.htmls_piecesOf : (l : List Span) → Node.htmls (Span.piecesOf l) = Span.htmls l
  | [] => rfl
  | s :: rest => by
    rw [Span.piecesOf, Node.htmls_append, Span.htmls_pieces s, Span.htmls_piecesOf rest,
      Span.htmls]

end

mutual

theorem Node.htmls_pieces : (n : Node) → Node.htmls n.pieces = n.html
  | .element tag attributes children => by
    rw [Node.pieces, htmls_singleton, Node.html, Node.html]
    split
    · rfl
    · rw [htmls_mergeTexts, Node.htmls_piecesOf children]
  | .text s => htmls_singleton (.text s)
  | .rich r => Span.htmls_piecesOf r.spans
  | .fragment nodes => Node.htmls_piecesOf nodes

theorem Node.htmls_piecesOf : (l : List Node) → Node.htmls (Node.piecesOf l) = Node.htmls l
  | [] => rfl
  | n :: rest => by
    rw [Node.piecesOf, Node.htmls_append, Node.htmls_pieces n, Node.htmls_piecesOf rest,
      Node.htmls]

end

theorem Node.htmls_normalForm (n : Node) : Node.htmls n.normalForm = n.html := by
  rw [Node.normalForm, htmls_mergeTexts, Node.htmls_pieces]

theorem wellNamedAll_mergeTexts {l : List Node} (h : Node.WellNamedAll l) :
    Node.WellNamedAll (mergeTexts l) := by
  rw [Node.wellNamedAll_iff] at h ⊢
  intro n hn
  rcases mem_mergeTexts hn with hm | ⟨t, rfl⟩
  · exact h n hm
  · trivial

mutual

theorem Span.wellNamed_pieces : (s : Span) → Node.WellNamedAll s.pieces
  | .text s => ⟨trivial, trivial⟩
  | .lineBreak => by
    have hbr : Html.IsName "br" := by decide
    exact ⟨⟨hbr, fun a ha => absurd ha List.not_mem_nil, trivial⟩, trivial⟩
  | .styled style inner => by
    have ht := Html.isName_styleTag style
    have hi := wellNamedAll_mergeTexts (Span.wellNamed_piecesOf inner)
    exact ⟨⟨ht, fun a ha => absurd ha List.not_mem_nil, hi⟩, trivial⟩

theorem Span.wellNamed_piecesOf : (l : List Span) → Node.WellNamedAll (Span.piecesOf l)
  | [] => trivial
  | s :: rest => Node.wellNamedAll_append (Span.wellNamed_pieces s) (Span.wellNamed_piecesOf rest)

end

mutual

theorem Node.wellNamed_pieces : (n : Node) → n.WellNamed → Node.WellNamedAll n.pieces
  | .element tag attributes children, h => by
    obtain ⟨ht, ha, hc⟩ := h
    have hi := wellNamedAll_mergeTexts (Node.wellNamed_piecesOf children hc)
    refine ⟨⟨ht, ha, ?_⟩, trivial⟩
    split
    · trivial
    · exact hi
  | .text s, _ => ⟨trivial, trivial⟩
  | .rich r, _ => Span.wellNamed_piecesOf r.spans
  | .fragment nodes, h => Node.wellNamed_piecesOf nodes h

theorem Node.wellNamed_piecesOf : (l : List Node) → Node.WellNamedAll l →
    Node.WellNamedAll (Node.piecesOf l)
  | [], _ => trivial
  | n :: rest, h =>
    Node.wellNamedAll_append (Node.wellNamed_pieces n h.1) (Node.wellNamed_piecesOf rest h.2)

end

theorem Node.wellNamedAll_normalForm {n : Node} (h : n.WellNamed) :
    Node.WellNamedAll n.normalForm := wellNamedAll_mergeTexts (n.wellNamed_pieces h)

end StaticSite
