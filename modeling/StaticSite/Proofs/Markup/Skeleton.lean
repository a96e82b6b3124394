import StaticSite.Proofs.Markup.Reader

/-!
# Skeletons of documents

The skeleton of a document is the sequence of its tags with the names of their attributes. Which way
a reader takes and which tags it meets does not depend on the texts and values that it reads, so it
can be followed without them. Escaped text never makes a reader leave a text or a value, and the
HTML of a tree takes it through the tags of the tree and back.
-/

namespace StaticSite

namespace Html

inductive Mark where
  | opening (tag : String) (names : List String)
  | closing (tag : String)
  deriving DecidableEq, Repr

def Token.mark? : Token → Option Mark
  | .opening tag attributes => some (.opening tag (attributes.map Prod.fst))
  | .closing tag => some (.closing tag)
  | .text _ => none

def marks (ts : List Token) : List Mark := ts.filterMap Token.mark?

/-- The tags of a document with the names of their attributes. -/
def skeleton (s : String) : Option (List Mark) := (readTokens s).map marks

theorem marks_append (l₁ l₂ : List Token) : marks (l₁ ++ l₂) = marks l₁ ++ marks l₂ :=
  List.filterMap_append

theorem marks_textTokens (s : List Char) : marks (textTokens s) = [] := by
  unfold textTokens
  split <;> rfl

/-- Where a reader stands, without the texts and values that it has read there. -/
inductive Spot where
  | content
  | name (tag : List Char)
  | inside (tag : List Char) (names : List String)
  | attribute (tag : List Char) (names : List String) (key : List Char)
  | equals (tag : List Char) (names : List String) (key : List Char)
  | value (tag : List Char) (names : List String) (key : List Char)
  | lost
  deriving DecidableEq, Repr

def Place.spot : Place → Spot
  | .content _ => .content
  | .name tag => .name tag
  | .inside tag attributes => .inside tag (attributes.map Prod.fst)
  | .attribute tag attributes key => .attribute tag (attributes.map Prod.fst) key
  | .equals tag attributes key => .equals tag (attributes.map Prod.fst) key
  | .value tag attributes key _ => .value tag (attributes.map Prod.fst) key
  | .lost => .lost

def tagMark (tag : List Char) (names : List String) : Mark :=
  if tag.head? = some '/' then .closing (String.ofList tag.tail)
  else .opening (String.ofList tag) names

namespace Spot

def step (p : Spot) (c : Char) : Spot :=
  match p with
  | .content => if c = '<' then .name [] else .content
  | .name tag =>
    if c = '>' then .content
    else if c.isWhitespace then .inside tag []
    else .name (tag ++ [c])
  | .inside tag names =>
    if c = '>' then .content
    else if c.isWhitespace then .inside tag names
    else .attribute tag names [c]
  | .attribute tag names key =>
    if c = '>' then .content
    else if c.isWhitespace then .inside tag (names ++ [String.ofList key])
    else if c = '=' then .equals tag names key
    else .attribute tag names (key ++ [c])
  | .equals tag names key => if c = '"' then .value tag names key else .lost
  | .value tag names key =>
    if c = '"' then .inside tag (names ++ [String.ofList key]) else .value tag names key
  | .lost => .lost

def mark? (p : Spot) (c : Char) : Option Mark :=
  if c = '>' then
    match p with
    | .name tag => some (tagMark tag [])
    | .inside tag names => some (tagMark tag names)
    | .attribute tag names key => some (tagMark tag (names ++ [String.ofList key]))
    | _ => none
  else none

def run (p : Spot) (s : List Char) : Spot := s.foldl step p

def marks : Spot → List Char → List Mark
  | _, [] => []
  | p, c :: s => (p.mark? c).toList ++ (p.step c).marks s

end Spot

theorem mark?_tagToken (tag : List Char) (attributes : List (String × String)) :
    (tagToken tag attributes).mark? = some (tagMark tag (attributes.map Prod.fst)) := by
  unfold tagToken tagMark
  split <;> rfl

namespace Reader

theorem spot_step (r : Reader) (c : Char) : (r.step c).place.spot = r.place.spot.step c := by
  obtain ⟨ts, p⟩ := r
  cases p with
  | content raw => by_cases h : c = '<' <;> simp [step, Place.spot, Spot.step, h]
  | name tag =>
    by_cases h : c = '>'
    · simp [step, endTag, Place.spot, Spot.step, h]
    · by_cases hw : c.isWhitespace = true <;> simp [step, Place.spot, Spot.step, h, hw]
  | inside tag as =>
    by_cases h : c = '>'
    · simp [step, endTag, Place.spot, Spot.step, h]
    · by_cases hw : c.isWhitespace = true <;> simp [step, Place.spot, Spot.step, h, hw]
  | «attribute» tag as key =>
    by_cases h : c = '>'
    · simp [step, endTag, Place.spot, Spot.step, h]
    · by_cases hw : c.isWhitespace = true
      · simp [step, Place.spot, Spot.step, h, hw, attributeOf]
      · by_cases he : c = '='
        · subst he
          rfl
        · simp [step, Place.spot, Spot.step, h, hw, he]
  | equals tag as key => by_cases h : c = '"' <;> simp [step, Place.spot, Spot.step, h]
  | value tag as key raw =>
    by_cases h : c = '"' <;> simp [step, Place.spot, Spot.step, h, attributeOf]
  | lost => rfl

/-- A reader meets a tag where the spot says that one is complete. -/
theorem marks_step (r : Reader) (c : Char) :
    Html.marks (r.step c).tokens = Html.marks r.tokens ++ (r.place.spot.mark? c).toList := by
  obtain ⟨ts, p⟩ := r
  have hend : ∀ tag as, Html.marks (endTag ⟨ts, p⟩ tag as).tokens =
      Html.marks ts ++ [tagMark tag (as.map Prod.fst)] := by
    intro tag as
    rw [endTag, marks_append, Html.marks, Html.marks,
      List.filterMap_cons_some (mark?_tagToken tag as), List.filterMap_nil]
  by_cases hc : c = '>'
  · subst hc
    cases p with
    | content raw => simp [step, Place.spot, Spot.mark?]
    | name tag => exact hend tag []
    | inside tag as => exact hend tag as
    | «attribute» tag as key =>
      have h := hend tag (as ++ [attributeOf key []])
      rw [List.map_append] at h
      exact h
    | equals tag as key => simp [step, Place.spot, Spot.mark?]
    | value tag as key raw => simp [step, Place.spot, Spot.mark?]
    | lost => simp [step, Place.spot, Spot.mark?]
  -- A tag is complete at its `>` only; before it, tokens change by texts alone.
  · have hnone : ∀ q : Spot, q.mark? c = none := fun q => if_neg hc
    rw [hnone, Option.toList_none, List.append_nil]
    cases p with
    | content raw =>
      simp only [step]
      split
      · rw [marks_append, rawTokens, marks_textTokens, List.append_nil]
      · rfl
    | name tag =>
      simp only [step, if_neg hc]
      split <;> rfl
    | inside tag as =>
      simp only [step, if_neg hc]
      split <;> rfl
    | «attribute» tag as key =>
      simp only [step, if_neg hc]
      split
      · rfl
      · split <;> rfl
    | equals tag as key =>
      simp only [step]
      split <;> rfl
    | value tag as key raw =>
      simp only [step]
      split <;> rfl
    | lost => rfl

theorem spot_run (r : Reader) (s : List Char) : (r.run s).place.spot = r.place.spot.run s := by
  induction s generalizing r with
  | nil => rfl
  | cons c s ih => rw [run_cons, ih, spot_step, Spot.run, Spot.run, List.foldl_cons]

theorem marks_run (r : Reader) (s : List Char) :
    Html.marks (r.run s).tokens = Html.marks r.tokens ++ r.place.spot.marks s := by
  induction s generalizing r with
  | nil => rw [run_nil, Spot.marks, List.append_nil]
  | cons c s ih => rw [run_cons, ih, marks_step, spot_step, Spot.marks, List.append_assoc]

end Reader

def Spot.Leads (p : Spot) (s : List Char) (q : Spot) (ms : List Mark) : Prop :=
  p.run s = q ∧ p.marks s = ms

theorem Spot.marks_append (p : Spot) (s t : List Char) :
    p.marks (s ++ t) = p.marks s ++ (p.run s).marks t := by
  induction s generalizing p with
  | nil => rfl
  | cons c s ih =>
    rw [List.cons_append, marks, marks, List.append_assoc, ih (p.step c)]
    rfl

namespace Spot.Leads

theorem nil (p : Spot) : p.Leads [] p [] := ⟨rfl, rfl⟩

theorem append {p q r : Spot} {s t : List Char} {ms ms' : List Mark} (h : p.Leads s q ms)
    (h' : q.Leads t r ms') : p.Leads (s ++ t) r (ms ++ ms') := by
  obtain ⟨rfl, rfl⟩ := h
  obtain ⟨rfl, rfl⟩ := h'
  constructor
  · rw [run, run, run, List.foldl_append]
  · exact marks_append p s t

/-- A text of which no character leads away leads nowhere. -/
theorem of_step {p : Spot} {s : List Char} (h : ∀ c ∈ s, p.step c = p ∧ p.mark? c = none) :
    p.Leads s p [] := by
  induction s with
  | nil => exact nil p
  | cons c s ih =>
    have hs := ih fun d hd => h d (List.mem_cons_of_mem c hd)
    obtain ⟨hstep, hmark⟩ := h c List.mem_cons_self
    constructor
    · rw [run, List.foldl_cons, hstep]
      exact hs.1
    · rw [marks, hmark, hstep, hs.2]
      rfl

end Spot.Leads

theorem skeleton_of_leads {s : String} {ms : List Mark}
    (h : Spot.Leads .content s.toList .content ms) : skeleton s = some ms := by
  have hspot := Reader.spot_run {} s.toList
  have hmarks := Reader.marks_run {} s.toList
  have hcontent : ((({} : Reader).run s.toList).place).spot = .content := hspot.trans h.1
  have hms : marks ((({} : Reader).run s.toList).tokens) = ms := hmarks.trans h.2
  rw [skeleton, readTokens, Reader.finish?]
  cases hp : (({} : Reader).run s.toList).place with
  | content raw =>
    rw [Option.map_some, marks_append, hms, rawTokens, marks_textTokens, List.append_nil]
  | name tag => rw [hp] at hcontent; cases hcontent
  | inside tag as => rw [hp] at hcontent; cases hcontent
  | «attribute» tag as key => rw [hp] at hcontent; cases hcontent
  | equals tag as key => rw [hp] at hcontent; cases hcontent
  | value tag as key raw => rw [hp] at hcontent; cases hcontent
  | lost => rw [hp] at hcontent; cases hcontent

/-- Two texts that lead a reader through the same tags and back into text. -/
def SameTags (v v' : String) : Prop :=
  ∃ ms, Spot.Leads .content v.toList .content ms ∧ Spot.Leads .content v'.toList .content ms

theorem SameTags.empty : SameTags "" "" := ⟨[], Spot.Leads.nil _, Spot.Leads.nil _⟩

/-- Whether an escaped value may be inserted: in a text, or between the quotes of an attribute. -/
def Spot.holdsValue : Spot → Bool
  | .content => true
  | .value .. => true
  | _ => false

/-- An escaped value does not lead out of the text or the attribute that it is inserted in. -/
theorem leads_forAttribute {p : Spot} (hp : p.holdsValue = true) (v : String) :
    p.Leads (Escape.forAttribute v).toList p [] := by
  apply Spot.Leads.of_step
  intro c hc
  cases p with
  | content =>
    have hne : c ≠ '<' := by
      rintro rfl
      exact lt_not_mem_forAttribute v hc
    constructor
    · rw [Spot.step, if_neg hne]
    · simp [Spot.mark?]
  | value tag names key =>
    have hne : c ≠ '"' := by
      rintro rfl
      exact quote_not_mem_forAttribute v hc
    constructor
    · rw [Spot.step, if_neg hne]
    · simp [Spot.mark?]
  | _ => cases hp

theorem Gathered.marks_add (g : Gathered) (t : Token) :
    marks (g.add t).tokens = marks g.tokens ++ t.mark?.toList := by
  cases t with
  | text s => simp [add, Token.mark?]
  | opening tag as =>
    show marks (g.flush ++ [.opening tag as]) = _
    rw [flush, marks_append, marks_append, marks_textTokens, List.append_nil]
    rfl
  | closing tag =>
    show marks (g.flush ++ [.closing tag]) = _
    rw [flush, marks_append, marks_append, marks_textTokens, List.append_nil]
    rfl

theorem Gathered.marks_addAll (g : Gathered) (ts : List Token) :
    marks (g.addAll ts).tokens = marks g.tokens ++ marks ts := by
  induction ts generalizing g with
  | nil => simp [marks]
  | cons t ts ih =>
    rw [addAll_cons, ih, marks_add, List.append_assoc]
    cases hm : t.mark? with
    | none => simp [marks, hm]
    | some m => simp [marks, hm]

end Html

/-- The HTML of a tree leads a reader through the tags of the tree and back into text. -/
theorem Node.leads_html {n : Node} (h : n.WellNamed) :
    Html.Spot.Leads .content n.html.toList .content (Html.marks n.tokens) := by
  have hrun := Node.run_html {} n h
  have hspot := Html.Reader.spot_run (Html.Gathered.reader {}) n.html.toList
  have hmarks := Html.Reader.marks_run (Html.Gathered.reader {}) n.html.toList
  rw [hrun] at hspot hmarks
  refine ⟨hspot.symm, ?_⟩
  have hall := Html.Gathered.marks_addAll {} n.tokens
  exact List.append_cancel_left (hmarks.symm.trans hall)

end StaticSite
