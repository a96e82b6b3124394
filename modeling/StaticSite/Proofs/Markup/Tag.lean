import StaticSite.Markup.Query
import StaticSite.Proofs.Markup.Skeleton

/-!
# Tags of documents

A document is texts between tags, and its tags are those of its parts, one after another. A reader
does not need the text that it has read to go on, only the value that it stands in; so it can be
followed from one place to the next with the tags that it meets, values and all. Some tags are
markers: a reference that does not resolve is shown by an element whose attribute `data-broken-ref`
has the reference as its value.
-/

namespace StaticSite

namespace Html

def Token.isTag : Token → Bool
  | .text _ => false
  | _ => true

def tags (ts : List Token) : List Token := ts.filter Token.isTag

theorem tags_append (l₁ l₂ : List Token) : tags (l₁ ++ l₂) = tags l₁ ++ tags l₂ :=
  List.filter_append ..

theorem tags_rawTokens (raw : List Char) : tags (rawTokens raw) = [] := by
  unfold rawTokens textTokens
  split <;> rfl

/-- A place without the text that a reader has read there. A value that it stands in is kept. -/
def Place.clear : Place → Place
  | .content _ => .content []
  | p => p

theorem Place.spot_clear (p : Place) : p.clear.spot = p.spot := by
  cases p <;> rfl

theorem Place.clear_clear (p : Place) : p.clear.clear = p.clear := by
  cases p <;> rfl

theorem Place.eq_of_spot_content {p : Place} (hp : p.clear = p) (h : p.spot = .content) :
    p = .content [] := by
  cases p with
  | content raw => exact hp.symm
  | _ => cases h

namespace Reader

theorem step_eq (r : Reader) (c : Char) :
    r.step c = ⟨r.tokens ++ (step ⟨[], r.place⟩ c).tokens, (step ⟨[], r.place⟩ c).place⟩ := by
  obtain ⟨ts, p⟩ := r
  cases p <;> simp only [step, endTag] <;> (repeat' split) <;> simp

theorem run_eq (r : Reader) (s : List Char) :
    r.run s = ⟨r.tokens ++ (run ⟨[], r.place⟩ s).tokens, (run ⟨[], r.place⟩ s).place⟩ := by
  induction s generalizing r with
  | nil => simp [run_nil]
  | cons c s ih =>
    rw [run_cons, run_cons, ih (r.step c), ih (step ⟨[], r.place⟩ c), step_eq r c]
    simp

/-- The text that a reader has read does not change where it goes, nor the tags that it meets. -/
theorem step_clear (p : Place) (c : Char) :
    (step ⟨[], p⟩ c).place.clear = (step ⟨[], p.clear⟩ c).place.clear ∧
      tags (step ⟨[], p⟩ c).tokens = tags (step ⟨[], p.clear⟩ c).tokens := by
  cases p with
  | content raw =>
    by_cases hc : c = '<'
    · simp [Place.clear, step, hc, tags_rawTokens]
    · simp [Place.clear, step, hc]
  | _ => exact ⟨rfl, rfl⟩

theorem run_clear (p : Place) (s : List Char) :
    (run ⟨[], p⟩ s).place.clear = (run ⟨[], p.clear⟩ s).place.clear ∧
      tags (run ⟨[], p⟩ s).tokens = tags (run ⟨[], p.clear⟩ s).tokens := by
  induction s generalizing p with
  | nil =>
    refine ⟨?_, rfl⟩
    rw [run_nil, run_nil]
    cases p <;> rfl
  | cons c s ih =>
    obtain ⟨hplace, htags⟩ := step_clear p c
    obtain ⟨ihplace, ihtags⟩ := ih (step ⟨[], p⟩ c).place
    obtain ⟨ihplace', ihtags'⟩ := ih (step ⟨[], p.clear⟩ c).place
    rw [run_cons, run_cons, run_eq, run_eq (step ⟨[], p.clear⟩ c), tags_append, tags_append]
    exact ⟨by rw [ihplace, hplace, ← ihplace'], by rw [htags, ihtags, hplace, ← ihtags']⟩

end Reader

/-- A text leads a reader from one place to another one, and it meets these tags on the way. -/
def Place.Meets (p : Place) (s : List Char) (q : Place) (ts : List Token) : Prop :=
  ∀ r : Reader, r.place.clear = p → (r.run s).place.clear = q ∧
    tags (r.run s).tokens = tags r.tokens ++ ts

namespace Place.Meets

theorem run {p : Place} (hp : p.clear = p) (s : List Char) :
    p.Meets s (Reader.run ⟨[], p⟩ s).place.clear (tags (Reader.run ⟨[], p⟩ s).tokens) := by
  rintro r rfl
  obtain ⟨hplace, htags⟩ := Reader.run_clear r.place s
  rw [Reader.run_eq, tags_append]
  exact ⟨hplace, congrArg _ htags⟩

theorem nil {p : Place} (hp : p.clear = p) : p.Meets [] p [] := by
  have h := run hp []
  rwa [Reader.run_nil, hp] at h

theorem append {p q p' : Place} {s t : List Char} {ts ts' : List Token} (h : p.Meets s q ts)
    (h' : q.Meets t p' ts') : p.Meets (s ++ t) p' (ts ++ ts') := by
  intro r hr
  obtain ⟨hq, hts⟩ := h r hr
  obtain ⟨hp', hts'⟩ := h' (r.run s) hq
  rw [Reader.run_append]
  exact ⟨hp', by rw [hts', hts, List.append_assoc]⟩

end Place.Meets

theorem readTokens_of_meets {s : String} {ts : List Token}
    (h : Place.Meets (.content []) s.toList (.content []) ts) :
    ∃ l, readTokens s = some l ∧ tags l = ts := by
  obtain ⟨hplace, hts⟩ := h {} rfl
  rw [readTokens, Reader.finish?]
  cases hp : (({} : Reader).run s.toList).place with
  | content raw =>
    refine ⟨_, rfl, ?_⟩
    rw [tags_append, hts, tags_rawTokens, List.append_nil]
    rfl
  | _ =>
    rw [hp] at hplace
    cases hplace

def Place.hold (p : Place) (v : String) : Place :=
  match p with
  | .value tag attributes key raw =>
    .value tag attributes key (raw ++ (Escape.forAttribute v).toList)
  | p => p

theorem Place.spot_hold (p : Place) (v : String) : (p.hold v).spot = p.spot := by
  cases p <;> rfl

theorem Place.clear_hold {p : Place} (hp : p.clear = p) (v : String) :
    (p.hold v).clear = p.hold v := by
  cases p with
  | content raw => exact hp
  | _ => rfl

/-- An escaped value in a text or between the quotes of an attribute brings no tags. -/
theorem Place.meets_forAttribute {p : Place} (hp : p.clear = p) (hv : p.spot.holdsValue = true)
    (v : String) : p.Meets (Escape.forAttribute v).toList (p.hold v) [] := by
  have h := Place.Meets.run hp (Escape.forAttribute v).toList
  cases p with
  | content raw =>
    rw [Reader.run_content _ _ (lt_not_mem_forAttribute v)] at h
    rw [← hp]
    exact hp ▸ h
  | value tag as key raw =>
    rw [Reader.run_value _ _ _ _ _ (quote_not_mem_forAttribute v)] at h
    exact h
  | _ => cases hv

theorem Gathered.tags_add (g : Gathered) (t : Token) :
    tags (g.add t).tokens = tags g.tokens ++ tags [t] := by
  have hflush : tags g.flush = tags g.tokens := by
    rw [flush, tags_append]
    unfold textTokens
    split <;> exact List.append_nil _
  cases t with
  | text s => exact (List.append_nil _).symm
  | opening tag as =>
    show tags (g.flush ++ [.opening tag as]) = _
    rw [tags_append, hflush]
  | closing tag =>
    show tags (g.flush ++ [.closing tag]) = _
    rw [tags_append, hflush]

theorem Gathered.tags_addAll (g : Gathered) (ts : List Token) :
    tags (g.addAll ts).tokens = tags g.tokens ++ tags ts := by
  induction ts generalizing g with
  | nil => exact (List.append_nil _).symm
  | cons t ts ih =>
    rw [addAll_cons, ih, tags_add, List.append_assoc, ← tags_append, List.singleton_append]

end Html

theorem Node.meets_html {n : Node} (h : n.WellNamed) :
    Html.Place.Meets (.content []) n.html.toList (.content []) (Html.tags n.tokens) := by
  have hrun : Html.Reader.run ⟨[], .content []⟩ n.html.toList =
      (Html.Gathered.addAll {} n.tokens).reader := Node.run_html {} n h
  have hall : Html.tags (Html.Gathered.addAll {} n.tokens).tokens = Html.tags n.tokens :=
    Html.Gathered.tags_addAll {} n.tokens
  have hstart : (Html.Place.content []).clear = .content [] := rfl
  have hmeets := Html.Place.Meets.run hstart n.html.toList
  rw [hrun] at hmeets
  rw [← hall]
  exact hmeets

def spanTags : List String := ["br", "em", "strong"]

mutual

theorem Span.tag_of_opening {tag : String} {as : List (String × String)} :
    (s : Span) → .opening tag as ∈ s.tokens → tag ∈ spanTags
  | .text s, h => by cases List.mem_singleton.1 h
  | .lineBreak, h => by
    cases List.mem_singleton.1 h
    decide
  | .styled style inner, h => by
    rw [Span.tokens, List.mem_cons, List.mem_append, List.mem_singleton] at h
    rcases h with h | h | h
    · cases h
      cases style <;> decide
    · exact Span.tag_of_openingIn inner h
    · cases h

theorem Span.tag_of_openingIn {tag : String} {as : List (String × String)} :
    (l : List Span) → .opening tag as ∈ Span.tokensOf l → tag ∈ spanTags
  | [], h => by cases h
  | s :: l, h => by
    rw [Span.tokensOf, List.mem_append] at h
    rcases h with h | h
    · exact s.tag_of_opening h
    · exact Span.tag_of_openingIn l h

end

mutual

/-- A start tag of a tree is that of one of its elements, or it stands in a rich text. -/
theorem Node.tag_of_opening {tag : String} {as : List (String × String)} :
    (n : Node) → .opening tag as ∈ n.tokens → (∃ e ∈ n.elements, e.tag = tag) ∨ tag ∈ spanTags
  | .element t as' children, h => by
    rw [Node.tokens, List.mem_cons] at h
    rw [Node.elements]
    rcases h with h | h
    · cases h
      exact .inl ⟨_, List.mem_cons_self, rfl⟩
    · -- An empty element has no tokens inside, whatever its children are.
      split at h
      · cases h
      · rw [List.mem_append, List.mem_singleton] at h
        rcases h with h | h
        · rcases Node.tag_of_openingIn children h with ⟨e, he, htag⟩ | hspan
          · exact .inl ⟨e, List.mem_cons_of_mem _ he, htag⟩
          · exact .inr hspan
        · cases h
  | .text s, h => by cases List.mem_singleton.1 h
  | .rich r, h => .inr (Span.tag_of_openingIn r.spans h)
  | .fragment nodes, h => Node.tag_of_openingIn nodes h

theorem Node.tag_of_openingIn {tag : String} {as : List (String × String)} :
    (l : List Node) → .opening tag as ∈ Node.tokensOf l →
      (∃ e ∈ Node.elementsOf l, e.tag = tag) ∨ tag ∈ spanTags
  | [], h => by cases h
  | n :: l, h => by
    rw [Node.tokensOf, List.mem_append] at h
    simp only [Node.elementsOf, List.mem_append]
    rcases h with h | h
    · rcases n.tag_of_opening h with ⟨e, he, htag⟩ | hspan
      · exact .inl ⟨e, .inl he, htag⟩
      · exact .inr hspan
    · rcases Node.tag_of_openingIn l h with ⟨e, he, htag⟩ | hspan
      · exact .inl ⟨e, .inr he, htag⟩
      · exact .inr hspan

end

namespace Html

def markersOf (attributes : List (String × String)) : List String :=
  attributes.filterMap fun a => if a.1 = "data-broken-ref" then some a.2 else none

def Token.markers : Token → List String
  | .opening _ attributes => markersOf attributes
  | .closing _ => []
  | .text _ => []

def markerValues (ts : List Token) : List String := ts.flatMap Token.markers

theorem markerValues_append (l₁ l₂ : List Token) :
    markerValues (l₁ ++ l₂) = markerValues l₁ ++ markerValues l₂ := by
  simp [markerValues]

theorem markerValues_tags (ts : List Token) : markerValues (tags ts) = markerValues ts := by
  induction ts with
  | nil => rfl
  | cons t ts ih =>
    rw [← List.singleton_append, tags_append, markerValues_append, markerValues_append, ih]
    cases t <;> rfl

def Token.valueWhere? (tag key value name : String) : Token → Option String
  | .opening t as => if t = tag ∧ as.lookup key = some value then as.lookup name else none
  | _ => none

/-- The values of an attribute in the start tags that have a name and an attribute with a given
value. -/
def valuesWhere (tag key value name : String) (ts : List Token) : List String :=
  ts.filterMap (Token.valueWhere? tag key value name)

section

variable {tag key value name : String}

theorem valuesWhere_tags (ts : List Token) :
    valuesWhere tag key value name (tags ts) = valuesWhere tag key value name ts := by
  rw [valuesWhere, tags, List.filterMap_filter]
  congr 1
  funext t
  cases t <;> rfl

theorem valuesWhere_append (l₁ l₂ : List Token) :
    valuesWhere tag key value name (l₁ ++ l₂) =
      valuesWhere tag key value name l₁ ++ valuesWhere tag key value name l₂ :=
  List.filterMap_append ..

theorem valuesWhere_eq_nil {ts : List Token} (h : ∀ as, .opening tag as ∉ ts) :
    valuesWhere tag key value name ts = [] := by
  rw [valuesWhere, List.filterMap_eq_nil_iff]
  intro t ht
  cases t with
  | opening tag' as =>
    refine if_neg fun hmatch => ?_
    rw [hmatch.1] at ht
    exact h as ht
  | closing => rfl
  | text => rfl

end

end Html

end StaticSite
