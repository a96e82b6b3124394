import StaticSite.Proofs.Text.Cut
import StaticSite.Proofs.Text.Split
import StaticSite.Template.Basic

/-!
# Segments of a template

A template falls into literals and placeholders, up to the first placeholder that is malformed. Its
text alone decides how. Rendering in one pass is rendering these segments: every literal is kept,
every placeholder is replaced, and the leftmost segment with an error decides the error.
-/

namespace StaticSite

namespace Placeholder

/-- What stands between the braces is a name, perhaps with the filter `raw`. -/
inductive WellFormed (inner : List Char) : Placeholder → Prop where
  | escaped {part name : String} {optional : Bool} (hp : parts inner = [part])
    (hn : splitName part = (name, optional)) (hne : name ≠ "") :
    WellFormed inner ⟨name, optional, false⟩
  | raw {part name : String} {optional : Bool} (hp : parts inner = [part, "raw"])
    (hn : splitName part = (name, optional)) (hne : name ≠ "") :
    WellFormed inner ⟨name, optional, true⟩

inductive Malformed (inner : List Char) : TemplateDefect → Prop where
  | unknownFilter {part filter : String} {rest : List String}
    (hp : parts inner = part :: filter :: rest) (hf : filter ≠ "raw") :
    Malformed inner (.unknownFilter filter)
  | tooManyFilters {part filter : String} {rest : List String}
    (hp : parts inner = part :: "raw" :: filter :: rest) :
    Malformed inner (.tooManyFilters (String.ofList inner))
  | emptyName {part : String} {optional : Bool}
    (hp : parts inner = [part] ∨ parts inner = [part, "raw"])
    (hn : splitName part = ("", optional)) : Malformed inner .emptyName

theorem parts_ne_nil (inner : List Char) : parts inner ≠ [] := by
  rw [parts, ne_eq, List.map_eq_nil_iff]
  exact Text.splitOn_ne_nil inner

theorem read_of_wellFormed {inner : List Char} {p : Placeholder} (h : WellFormed inner p) :
    read inner = .ok p := by
  cases h with
  | escaped hp hn hne => simp [read, hp, ofParts, hn, hne]
  | raw hp hn hne => simp [read, hp, ofParts, hn, hne]

theorem read_of_malformed {inner : List Char} {d : TemplateDefect} (h : Malformed inner d) :
    read inner = .error d := by
  cases h with
  | unknownFilter hp hf => simp [read, hp, hf]
  | tooManyFilters hp => simp [read, hp, ofParts]
  | emptyName hp hn =>
    rcases hp with hp | hp
    · simp [read, hp, ofParts, hn]
    · simp [read, hp, ofParts, hn]

theorem wellFormed_or_malformed (inner : List Char) :
    (∃ p, WellFormed inner p) ∨ ∃ d, Malformed inner d := by
  cases hp : parts inner with
  | nil => exact absurd hp (parts_ne_nil inner)
  | cons part filters =>
    have hs : splitName part = ((splitName part).1, (splitName part).2) := rfl
    cases filters with
    | nil =>
      by_cases hne : (splitName part).1 = ""
      · rw [hne] at hs
        exact Or.inr ⟨_, .emptyName (Or.inl hp) hs⟩
      · exact Or.inl ⟨_, .escaped hp hs hne⟩
    | cons filter rest =>
      by_cases hf : filter = "raw"
      · subst hf
        cases rest with
        | nil =>
          by_cases hne : (splitName part).1 = ""
          · rw [hne] at hs
            exact Or.inr ⟨_, .emptyName (Or.inr hp) hs⟩
          · exact Or.inl ⟨_, .raw hp hs hne⟩
        | cons filter rest => exact Or.inr ⟨_, .tooManyFilters hp⟩
      · exact Or.inr ⟨_, .unknownFilter hp hf⟩

theorem read_eq_ok_iff {inner : List Char} {p : Placeholder} :
    read inner = .ok p ↔ WellFormed inner p := by
  constructor
  · intro h
    rcases wellFormed_or_malformed inner with ⟨q, hq⟩ | ⟨d, hd⟩
    · rw [read_of_wellFormed hq] at h
      exact Except.ok.inj h ▸ hq
    · rw [read_of_malformed hd] at h
      cases h
  · exact read_of_wellFormed

end Placeholder

/-- A part of a template: text, a placeholder with what stands between its braces, or a malformed
placeholder with all that is left after its opening braces. -/
inductive Segment where
  | literal (text : List Char)
  | placeholder (inner : List Char) (p : Placeholder)
  | malformed (rest : List Char) (defect : TemplateDefect)
  deriving DecidableEq, Repr

namespace Segment

def source : Segment → List Char
  | .literal text => text
  | .placeholder inner _ => openingBraces ++ inner ++ closingBraces
  | .malformed rest _ => openingBraces ++ rest

def name? : Segment → Option String
  | .placeholder _ p => some p.name
  | _ => none

def defect? : Segment → Option TemplateDefect
  | .malformed _ d => some d
  | _ => none

/-- The error of a segment: it is malformed, or needs a value that there is not. -/
def error? (b : Bindings) : Segment → Option TemplateError
  | .literal _ => none
  | .placeholder _ p =>
    if b.value? p.name = none ∧ p.optional = false then some (.missing p.name) else none
  | .malformed _ d => some (.malformed d)

def text (b : Bindings) : Segment → List Char
  | .literal text => text
  | .placeholder _ p =>
    match b.value? p.name with
    | some value => if p.raw then value.toList else (Escape.forAttribute value).toList
    | none => []
  | .malformed _ _ => []

end Segment

/-- Segments rendered: the leftmost error, or all their texts. -/
def renderSegments (b : Bindings) (segs : List Segment) : Except TemplateError (List Char) :=
  match segs.findSome? (Segment.error? b) with
  | some e => .error e
  | none => .ok (segs.flatMap (Segment.text b))

/-- The segments of a template. A placeholder begins at the first opening braces and runs to the
next closing braces; what follows a malformed one is not read. -/
inductive Cuts : List Char → List Segment → Prop where
  | literal {s : List Char} (ho : ¬ openingBraces <:+: s) : Cuts s [.literal s]
  | unclosed {before after : List Char} (ho : ¬ openingBraces <:+: before ++ ['\x7b'])
    (hc : ¬ closingBraces <:+: after) :
    Cuts (before ++ openingBraces ++ after) [.literal before, .malformed after .unclosed]
  | malformed {before inner after : List Char} {d : TemplateDefect}
    (ho : ¬ openingBraces <:+: before ++ ['\x7b'])
    (hc : ¬ closingBraces <:+: inner ++ ['\x7d']) (hd : Placeholder.Malformed inner d) :
    Cuts (before ++ openingBraces ++ (inner ++ closingBraces ++ after))
      [.literal before, .malformed (inner ++ closingBraces ++ after) d]
  | placeholder {before inner after : List Char} {p : Placeholder} {segs : List Segment}
    (ho : ¬ openingBraces <:+: before ++ ['\x7b'])
    (hc : ¬ closingBraces <:+: inner ++ ['\x7d']) (hp : Placeholder.WellFormed inner p)
    (ha : Cuts after segs) :
    Cuts (before ++ openingBraces ++ (inner ++ closingBraces ++ after))
      (.literal before :: .placeholder inner p :: segs)

theorem cut_openingBraces {before : List Char} (h : ¬ openingBraces <:+: before ++ ['\x7b'])
    (after : List Char) :
    Text.cut openingBraces (before ++ openingBraces ++ after) = some (before, after) :=
  Text.cut_append (by simp [openingBraces]) h after

theorem cut_closingBraces {inner : List Char} (h : ¬ closingBraces <:+: inner ++ ['\x7d'])
    (after : List Char) :
    Text.cut closingBraces (inner ++ closingBraces ++ after) = some (inner, after) :=
  Text.cut_append (by simp [closingBraces]) h after

def Template.segments (s : List Char) : List Segment :=
  match _h : Text.cut openingBraces s with
  | none => [.literal s]
  | some (before, after) =>
    match _h' : Text.cut closingBraces after with
    | none => [.literal before, .malformed after .unclosed]
    | some (inner, rest) =>
      match Placeholder.read inner with
      | .error d => [.literal before, .malformed after d]
      | .ok p => .literal before :: .placeholder inner p :: Template.segments rest
termination_by s.length
decreasing_by
  have h1 := Text.length_of_cut _h (by simp [openingBraces])
  have h2 := Text.length_of_cut _h' (by simp [closingBraces])
  omega

theorem segments_eq (s : List Char) :
    Template.segments s =
      match Text.cut openingBraces s with
      | none => [.literal s]
      | some (before, after) =>
        match Text.cut closingBraces after with
        | none => [.literal before, .malformed after .unclosed]
        | some (inner, rest) =>
          match Placeholder.read inner with
          | .error d => [.literal before, .malformed after d]
          | .ok p => .literal before :: .placeholder inner p :: Template.segments rest := by
  rw [Template.segments]
  split
  · rename_i ho
    rw [ho]
  · rename_i before after ho
    rw [ho]
    split
    · rename_i hc
      simp only [hc]
    · rename_i inner rest hc
      simp only [hc]

theorem Cuts.segments_eq {s : List Char} {segs : List Segment} (h : Cuts s segs) :
    Template.segments s = segs := by
  induction h with
  | literal ho =>
    have hcut := (Text.cut_eq_none_iff (by simp [openingBraces])).2 ho
    rw [StaticSite.segments_eq, hcut]
  | unclosed ho hc =>
    have hcut := (Text.cut_eq_none_iff (by simp [closingBraces])).2 hc
    rw [StaticSite.segments_eq, cut_openingBraces ho]
    simp only [hcut]
  | malformed ho hc hd =>
    rw [StaticSite.segments_eq, cut_openingBraces ho]
    simp only [cut_closingBraces hc, Placeholder.read_of_malformed hd]
  | placeholder ho hc hp ha ih =>
    rw [StaticSite.segments_eq, cut_openingBraces ho]
    simp only [cut_closingBraces hc, Placeholder.read_of_wellFormed hp, ih]

theorem exists_cuts (s : List Char) : ∃ segs, Cuts s segs := by
  induction hn : s.length using Nat.strongRecOn generalizing s with
  | ind n ih =>
    cases ho : Text.cut openingBraces s with
    | none =>
      have hno := (Text.cut_eq_none_iff (by simp [openingBraces])).1 ho
      exact ⟨_, .literal hno⟩
    | some cut =>
      obtain ⟨before, after⟩ := cut
      obtain ⟨rfl, hb⟩ := (Text.cut_eq_some_iff (by simp [openingBraces])).1 ho
      cases hc : Text.cut closingBraces after with
      | none =>
        have hnc := (Text.cut_eq_none_iff (by simp [closingBraces])).1 hc
        exact ⟨_, .unclosed hb hnc⟩
      | some cut =>
        obtain ⟨inner, rest⟩ := cut
        obtain ⟨rfl, hi⟩ := (Text.cut_eq_some_iff (by simp [closingBraces])).1 hc
        rcases Placeholder.wellFormed_or_malformed inner with ⟨p, hp⟩ | ⟨d, hd⟩
        · have hlt : rest.length < n := by
            rw [← hn]
            simp only [List.length_append, openingBraces, closingBraces, List.length_cons]
            omega
          obtain ⟨segs, hsegs⟩ := ih rest.length hlt rest rfl
          exact ⟨_, .placeholder hb hi hp hsegs⟩
        · exact ⟨_, .malformed hb hi hd⟩

theorem cuts_iff {s : List Char} (segs : List Segment) :
    Cuts s segs ↔ segs = Template.segments s := by
  constructor
  · intro h
    exact h.segments_eq.symm
  · rintro rfl
    obtain ⟨segs, h⟩ := exists_cuts s
    rwa [h.segments_eq]

theorem cuts_segments (s : List Char) : Cuts s (Template.segments s) := (cuts_iff _).2 rfl

namespace Cuts

variable {s : List Char} {segs : List Segment}

theorem flatMap_source (h : Cuts s segs) : segs.flatMap Segment.source = s := by
  induction h with
  | literal ho => simp [Segment.source]
  | unclosed ho hc => simp [Segment.source]
  | malformed ho hc hd => simp [Segment.source]
  | placeholder ho hc hp ha ih => simp [Segment.source, ih]

theorem ne_nil (h : Cuts s segs) : segs ≠ [] := by
  cases h <;> simp

theorem defect?_eq_none (h : Cuts s segs) : ∀ seg ∈ segs.dropLast, seg.defect? = none := by
  induction h with
  | literal ho => simp
  | unclosed ho hc => simp [Segment.defect?]
  | malformed ho hc hd => simp [Segment.defect?]
  | placeholder ho hc hp ha ih =>
    rw [List.dropLast_cons_of_ne_nil (by simp), List.dropLast_cons_of_ne_nil ha.ne_nil]
    intro seg hseg
    rcases List.mem_cons.1 hseg with rfl | hseg
    · rfl
    · rcases List.mem_cons.1 hseg with rfl | hseg
      · rfl
      · exact ih seg hseg

end Cuts

/-- Whether literals and placeholders alternate and are cut where one ends and the next begins. -/
def printable : List Segment → Bool
  | [.literal s] => decide (¬ openingBraces <:+: s)
  | .literal before :: .placeholder inner p :: rest =>
    decide (¬ openingBraces <:+: before ++ ['\x7b']) &&
      decide (¬ closingBraces <:+: inner ++ ['\x7d']) &&
      decide (Placeholder.read inner = .ok p) && printable rest
  | _ => false

theorem cuts_of_printable {segs : List Segment} (h : printable segs = true) :
    Cuts (segs.flatMap Segment.source) segs := by
  induction segs using printable.induct with
  | case1 s =>
    have hs := of_decide_eq_true h
    rw [List.flatMap_singleton, Segment.source]
    exact .literal hs
  | case2 before inner p rest ih =>
    simp only [printable, Bool.and_eq_true, decide_eq_true_eq] at h
    obtain ⟨⟨⟨ho, hc⟩, hp⟩, hr⟩ := h
    have hcuts := Cuts.placeholder ho hc (Placeholder.read_eq_ok_iff.1 hp) (ih hr)
    simpa [Segment.source] using hcuts
  | case3 segs h₁ h₂ =>
    rw [printable] at h
    · cases h
    · exact h₁
    · exact h₂

theorem renderSegments_literal (b : Bindings) (l : List Char) (segs : List Segment) :
    renderSegments b (.literal l :: segs) = (renderSegments b segs).map (l ++ ·) := by
  rw [renderSegments, List.findSome?_cons_of_isNone rfl, renderSegments]
  cases segs.findSome? (Segment.error? b) with
  | none => rfl
  | some e => rfl

theorem renderSegments_nil (b : Bindings) (segs : List Segment) :
    renderSegments b (.literal [] :: segs) = renderSegments b segs := by
  rw [renderSegments_literal]
  cases renderSegments b segs <;> rfl

theorem renderSegments_placeholder (b : Bindings) (inner : List Char) (p : Placeholder)
    (segs : List Segment) :
    renderSegments b (.placeholder inner p :: segs) =
      (p.render b).bind fun value => (renderSegments b segs).map (value.toList ++ ·) := by
  rw [renderSegments, List.findSome?_cons, Segment.error?, renderSegments, Placeholder.render,
    List.flatMap_cons, Segment.text]
  cases b.value? p.name with
  | some value =>
    cases p.raw <;> cases segs.findSome? (Segment.error? b) <;> rfl
  | none =>
    cases p.optional <;> cases segs.findSome? (Segment.error? b) <;> rfl

theorem renderFrom_eq (b : Bindings) (out : String) (s : List Char) :
    Template.renderFrom b out s =
      match Text.cut openingBraces s with
      | none => .ok (out ++ String.ofList s)
      | some (before, after) =>
        match Text.cut closingBraces after with
        | none => .error (.malformed .unclosed)
        | some (inner, rest) =>
          match Placeholder.read inner with
          | .error d => .error (.malformed d)
          | .ok p =>
            (p.render b).bind fun value =>
              Template.renderFrom b (out ++ String.ofList before ++ value) rest := by
  rw [Template.renderFrom]
  split
  · rename_i ho
    rw [ho]
  · rename_i before after ho
    rw [ho]
    split
    · rename_i hc
      simp only [hc]
    · rename_i inner rest hc
      simp only [hc]
      cases Placeholder.read inner with
      | error d => rfl
      | ok p =>
        dsimp only
        cases p.render b <;> rfl

/-- Rendering in one pass is rendering the segments. -/
theorem Cuts.renderFrom_eq {s : List Char} {segs : List Segment} (h : Cuts s segs) (b : Bindings)
    (out : String) :
    Template.renderFrom b out s =
      (renderSegments b segs).map fun text => out ++ String.ofList text := by
  induction h generalizing out with
  | literal ho =>
    have hcut := (Text.cut_eq_none_iff (by simp [openingBraces])).2 ho
    rw [StaticSite.renderFrom_eq, hcut]
    simp [renderSegments, Segment.error?, Segment.text, Except.map]
  | unclosed ho hc =>
    have hcut := (Text.cut_eq_none_iff (by simp [closingBraces])).2 hc
    rw [StaticSite.renderFrom_eq, cut_openingBraces ho]
    simp only [hcut]
    rfl
  | malformed ho hc hd =>
    rw [StaticSite.renderFrom_eq, cut_openingBraces ho]
    simp only [cut_closingBraces hc, Placeholder.read_of_malformed hd]
    rfl
  | placeholder ho hc hp ha ih =>
    rename_i before inner after p segs
    rw [StaticSite.renderFrom_eq, cut_openingBraces ho]
    simp only [cut_closingBraces hc, Placeholder.read_of_wellFormed hp]
    rw [renderSegments_literal, renderSegments_placeholder]
    cases p.render b with
    | error e => rfl
    | ok value =>
      show Template.renderFrom b (out ++ String.ofList before ++ value) after = _
      rw [ih]
      cases renderSegments b segs with
      | error e => rfl
      | ok text =>
        simp [Except.map, Except.bind, String.append_assoc]

/-- Only the values of the names in the segments matter. -/
theorem renderSegments_congr {b b' : Bindings} {segs : List Segment}
    (h : ∀ name ∈ segs.filterMap Segment.name?, b.value? name = b'.value? name) :
    renderSegments b segs = renderSegments b' segs := by
  have he : ∀ seg ∈ segs, seg.error? b = seg.error? b' ∧ seg.text b = seg.text b' := by
    intro seg hseg
    cases seg with
    | literal l => exact ⟨rfl, rfl⟩
    | malformed rest d => exact ⟨rfl, rfl⟩
    | placeholder inner p =>
      have hn := h p.name (List.mem_filterMap.2 ⟨_, hseg, rfl⟩)
      simp [Segment.error?, Segment.text, hn]
  have herror : segs.findSome? (Segment.error? b) = segs.findSome? (Segment.error? b') := by
    clear h
    induction segs with
    | nil => rfl
    | cons seg segs ih =>
      rw [List.findSome?_cons, List.findSome?_cons, (he seg List.mem_cons_self).1,
        ih fun x hx => he x (List.mem_cons_of_mem _ hx)]
  have htext : segs.flatMap (Segment.text b) = segs.flatMap (Segment.text b') := by
    rw [List.flatMap_def, List.flatMap_def, List.map_congr_left fun seg hseg => (he seg hseg).2]
  rw [renderSegments, renderSegments, herror, htext]

/-- A template is cut by its text alone. The segments make up the text, and only the last one can
be malformed. Rendering keeps literals and puts values in place of placeholders, or gives the error
of the leftmost segment that has one; it depends on the names in the segments only. -/
theorem Template.render_eq_renderSegments (t : String) :
    (∀ segs, Cuts t.toList segs ↔ segs = segments t.toList) ∧
      (segments t.toList).flatMap Segment.source = t.toList ∧
      (∀ seg ∈ (segments t.toList).dropLast, seg.defect? = none) ∧
      (∀ b : Bindings, render b t =
        match (segments t.toList).findSome? (Segment.error? b) with
        | some e => .error e
        | none => .ok (String.ofList ((segments t.toList).flatMap (Segment.text b)))) ∧
      ∀ b b' : Bindings,
        (∀ name ∈ (segments t.toList).filterMap Segment.name?, b.value? name = b'.value? name) →
        render b t = render b' t := by
  have h := cuts_segments t.toList
  have hrender : ∀ b : Bindings,
      render b t = (renderSegments b (segments t.toList)).map String.ofList := by
    intro b
    rw [render, h.renderFrom_eq b ""]
    simp only [String.empty_append]
  refine ⟨cuts_iff, h.flatMap_source, h.defect?_eq_none, ?_, ?_⟩
  · intro b
    rw [hrender, renderSegments]
    split
    · rfl
    · rfl
  · intro b b' hb
    rw [hrender, hrender, renderSegments_congr hb]

/-- Two contexts that differ in a name the template does not hold, with a value that looks like a
placeholder. -/
theorem Template.render_eq_renderSegments_braces :
    let t := "<p>\x7b\x7b a \x7d\x7d</p>\x7b\x7b b? | raw \x7d\x7d"
    let b : Bindings := [("a", "\x7b\x7b b \x7d\x7d"), ("c", "1")]
    let b' : Bindings := [("a", "\x7b\x7b b \x7d\x7d"), ("c", "2")]
    (∀ name ∈ (segments t.toList).filterMap Segment.name?, b.value? name = b'.value? name) ∧
      render b t = render b' t ∧ render b t = .ok "<p>\x7b\x7b b \x7d\x7d</p>" := by
  intro t b b'
  let segs : List Segment := [.literal "<p>".toList, .placeholder " a ".toList ⟨"a", false, false⟩,
    .literal "</p>".toList, .placeholder " b? | raw ".toList ⟨"b", true, true⟩, .literal []]
  have htext : t.toList = segs.flatMap Segment.source := by decide
  have hcuts : Cuts t.toList segs := by
    rw [htext]
    exact cuts_of_printable (by decide)
  have hnames : ∀ name ∈ (segments t.toList).filterMap Segment.name?,
      b.value? name = b'.value? name := by
    rw [hcuts.segments_eq]
    decide
  have h := render_eq_renderSegments t
  refine ⟨hnames, h.2.2.2.2 b b' hnames, ?_⟩
  rw [h.2.2.2.1 b, hcuts.segments_eq]
  rfl

end StaticSite
