import StaticSite.Proofs.Markup.NormalForm
import StaticSite.Proofs.Markup.Reader

/-!
# Reading trees back

`readHtml` builds trees from the tokens of a document. Reading the HTML of a tree gives its normal
form, so that two trees have the same HTML exactly if they have the same normal form.
-/

namespace StaticSite

namespace Html

/-- An element that has been opened: its tag and attributes, and the trees before it. -/
structure Opened where
  tag : String
  attributes : List (String × String)
  before : List Node

/-- The trees that tokens stand for, after the trees `done` inside the elements `open_`, innermost
first. There are none if an end tag does not match or an element is left open. -/
def build : List Opened → List Node → List Token → Option (List Node)
  | [], done, [] => some done
  | _ :: _, _, [] => none
  | stack, done, .text s :: rest => build stack (done ++ [.text s]) rest
  | stack, done, .opening tag attributes :: rest =>
    if tag ∈ voidTags then build stack (done ++ [.element tag attributes []]) rest
    else build (⟨tag, attributes, done⟩ :: stack) [] rest
  | [], _, .closing _ :: _ => none
  | e :: stack, done, .closing tag :: rest =>
    if tag = e.tag then build stack (e.before ++ [.element e.tag e.attributes done]) rest else none

def readHtml (s : String) : Option (List Node) := (readTokens s).bind (build [] [])

end Html

open Html

theorem flush_add {t : Token} (h : ∀ s, t ≠ .text s) (g : Gathered) :
    (g.add t).flush = g.flush ++ [t] ∧ (g.add t).pending = [] := by
  cases t with
  | text s => exact absurd rfl (h s)
  | opening tag as => simp [Gathered.add, Gathered.flush, textTokens]
  | closing tag => simp [Gathered.add, Gathered.flush, textTokens]

theorem startsWithText_cons (n : Node) (l : List Node) :
    startsWithText (n :: l) = startsWithText [n] := by
  cases n <;> rfl

mutual

/-- A normal tree after which no text has to be joined adds its own tokens. -/
theorem Node.flush_tokens (g : Gathered) : (n : Node) → n.IsNormal →
    (startsWithText [n] = true → g.pending = []) →
    (g.addAll n.tokens).flush = g.flush ++ n.tokens ∧
      (startsWithText [n] = false → (g.addAll n.tokens).pending = [])
  | .element tag attributes children, h, _ => by
    have ho := flush_add (t := .opening tag attributes) (by simp) g
    have hi := Node.flush_tokensOf (g.add (.opening tag attributes)) children h.2 fun _ => ho.2
    have hc := flush_add (t := .closing tag) (by simp)
      ((g.add (.opening tag attributes)).addAll (Node.tokensOf children))
    rw [Node.tokens]
    split
    · exact ⟨ho.1, fun _ => ho.2⟩
    · rw [Gathered.addAll_cons, Gathered.addAll_append, Gathered.addAll_cons, Gathered.addAll_nil]
      refine ⟨?_, fun _ => hc.2⟩
      rw [hc.1, hi, ho.1]
      simp
  | .text s, h, hg => by
    have hp := hg rfl
    have hs : s.toList ≠ [] := by
      intro he
      exact h (String.toList_inj.1 he)
    simp [Node.tokens, Gathered.addAll_cons, Gathered.add, Gathered.flush, textTokens, hp, hs,
      startsWithText]
  | .rich r, h, _ => h.elim
  | .fragment nodes, h, _ => h.elim

theorem Node.flush_tokensOf (g : Gathered) : (l : List Node) → Node.AllNormal l →
    (startsWithText l = true → g.pending = []) →
    (g.addAll (Node.tokensOf l)).flush = g.flush ++ Node.tokensOf l
  | [], _, _ => by simp [Node.tokensOf]
  | n :: rest, h, hg => by
    obtain ⟨hn, hs, hr⟩ := h
    rw [startsWithText_cons] at hg
    have h₁ := Node.flush_tokens g n hn hg
    have hnext : startsWithText rest = true → (g.addAll n.tokens).pending = [] := by
      intro ht
      apply h₁.2
      cases hsn : startsWithText [n] with
      | false => rfl
      | true => rw [hs hsn] at ht; cases ht
    have h₂ := Node.flush_tokensOf (g.addAll n.tokens) rest hr hnext
    rw [Node.tokensOf, Gathered.addAll_append, h₂, h₁.1, List.append_assoc]

end

mutual

theorem Node.build_tokens (stack : List Opened) (done : List Node) (rest : List Token) :
    (n : Node) → n.IsNormal →
    build stack done (n.tokens ++ rest) = build stack (done ++ [n]) rest
  | .element tag attributes children, h => by
    rw [Node.tokens, List.cons_append, build]
    split
    · rename_i hv
      rw [h.1 hv, List.nil_append]
    · rw [List.append_assoc, Node.build_tokensOf _ _ _ children h.2, List.singleton_append, build,
        if_pos rfl, List.nil_append]
  | .text s, _ => by rw [Node.tokens, List.singleton_append, build]
  | .rich r, h => h.elim
  | .fragment nodes, h => h.elim

theorem Node.build_tokensOf (stack : List Opened) (done : List Node) (rest : List Token) :
    (l : List Node) → Node.AllNormal l →
    build stack done (Node.tokensOf l ++ rest) = build stack (done ++ l) rest
  | [], _ => by rw [Node.tokensOf, List.nil_append, List.append_nil]
  | n :: l, h => by
    rw [Node.tokensOf, List.append_assoc, Node.build_tokens _ _ _ n h.1,
      Node.build_tokensOf _ _ _ l h.2.2, List.append_assoc, List.singleton_append]

end

theorem readTokens_html {n : Node} (h : n.WellNamed) :
    readTokens n.html = some (Node.tokensOf n.normalForm) := by
  have hrun := Node.run_htmls {} n.normalForm (Node.wellNamedAll_normalForm h)
  have hflush := Node.flush_tokensOf {} n.normalForm n.allNormal_normalForm fun _ => rfl
  rw [Node.htmls_normalForm] at hrun
  show ((Gathered.reader {}).run n.html.toList).finish? = _
  rw [hrun, Gathered.finish?_reader, hflush]
  rfl

theorem readHtml_html {n : Node} (h : n.WellNamed) : readHtml n.html = some n.normalForm := by
  have hb := Node.build_tokensOf [] [] [] n.normalForm n.allNormal_normalForm
  rw [List.append_nil, List.nil_append] at hb
  rw [readHtml, readTokens_html h, Option.bind_some, hb, build]

theorem html_eq_of_normalForm_eq {m n : Node} (h : m.normalForm = n.normalForm) :
    m.html = n.html := by
  rw [← Node.htmls_normalForm m, h, Node.htmls_normalForm]

/-- HTML can be read back, and no two normal forms share it: reading the HTML of a tree gives its
normal form, so two trees have the same HTML exactly if they have the same normal form. -/
theorem Node.html_eq_iff_normalForm_eq :
    (∀ n : Node, n.WellNamed →
      readHtml n.html = some n.normalForm ∧ Node.AllNormal n.normalForm) ∧
    ∀ m n : Node, m.WellNamed → n.WellNamed →
      (m.html = n.html ↔ m.normalForm = n.normalForm) := by
  constructor
  · intro n hn
    exact ⟨readHtml_html hn, n.allNormal_normalForm⟩
  · intro m n hm hn
    constructor
    · intro h
      have hr := readHtml_html hm
      rw [h, readHtml_html hn] at hr
      exact (Option.some.inj hr).symm
    · exact html_eq_of_normalForm_eq

/-- Texts that run together, a void element with a child, and rich text, against the same tree
written out; the texts and the value hold reserved characters. -/
theorem Node.html_eq_iff_normalForm_eq_reserved :
    let m := Node.fragment [.text "a <", .text "b>", .element "img" [("alt", "\"x\" & y")]
      [.text "unseen"], .rich ⟨[.styled .strong [.text "&"], .lineBreak]⟩]
    let n := Node.fragment [.text "a <b>", .element "img" [("alt", "\"x\" & y")] [],
      .element "strong" [] [.text "&"], .element "br" [] []]
    m.WellNamed ∧ n.WellNamed ∧ readHtml m.html = some n.normalForm ∧ m.html = n.html := by
  intro m n
  have himg : IsName "img" := by decide
  have halt : IsName "alt" := by decide
  have hstrong : IsName "strong" := by decide
  have hbr : IsName "br" := by decide
  have hm : m.WellNamed := by simp [m, Node.WellNamed, Node.WellNamedAll, himg, halt]
  have hn : n.WellNamed := by simp [n, Node.WellNamed, Node.WellNamedAll, himg, halt, hstrong, hbr]
  have hnf : m.normalForm = n.normalForm := rfl
  refine ⟨hm, hn, ?_, (Node.html_eq_iff_normalForm_eq.2 m n hm hn).2 hnf⟩
  rw [← hnf]
  exact (Node.html_eq_iff_normalForm_eq.1 m hm).1

end StaticSite
