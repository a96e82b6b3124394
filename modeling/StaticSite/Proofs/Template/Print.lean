import StaticSite.Proofs.Template.Shell
import StaticSite.Proofs.Text.Trim

/-!
# Printed templates

A template is printed from literals and placeholders, a placeholder with a space inside its braces,
a question mark if it is optional and the filter `raw` if it is raw. Reading a printed template cuts
it where its pieces were joined, empty literals aside, although single braces may stand at every
joint and inside names. So rendering it puts the values in place of its placeholders.
-/

namespace StaticSite

inductive Piece where
  | literal (text : String)
  | placeholder (p : Placeholder)
  deriving DecidableEq, Repr

def Placeholder.written (p : Placeholder) : String :=
  p.name ++ (if p.optional then "?" else "") ++ if p.raw then " | raw" else ""

/-- Names that can be read back: not empty, without blanks around them, without a bar or two closing
braces, and without a question mark at the end. -/
structure Placeholder.IsName (name : String) : Prop where
  ne_empty : name ≠ ""
  trimmed : Text.IsTrimmed Text.isBlank name
  noBar : '|' ∉ name.toList
  noBraces : ¬ closingBraces <:+: name.toList
  noMark : name.toList.getLast? ≠ some '?'

instance : DecidablePred Placeholder.IsName := fun name =>
  decidable_of_iff
    (name ≠ "" ∧ Text.IsTrimmed Text.isBlank name ∧ '|' ∉ name.toList ∧
      ¬ closingBraces <:+: name.toList ∧ name.toList.getLast? ≠ some '?')
    ⟨fun ⟨h₁, h₂, h₃, h₄, h₅⟩ => ⟨h₁, h₂, h₃, h₄, h₅⟩,
      fun h => ⟨h.ne_empty, h.trimmed, h.noBar, h.noBraces, h.noMark⟩⟩

namespace Piece

def print : Piece → String
  | .literal text => text
  | .placeholder p => braced p.written

def printAll : List Piece → String
  | [] => ""
  | p :: rest => p.print ++ printAll rest

def IsPrintable : Piece → Prop
  | .literal text => ¬ openingBraces <:+: text.toList
  | .placeholder p => Placeholder.IsName p.name

instance : DecidablePred IsPrintable
  | .literal text => inferInstanceAs (Decidable (¬ openingBraces <:+: text.toList))
  | .placeholder p => inferInstanceAs (Decidable (Placeholder.IsName p.name))

/-- Whether one piece may follow another one: no literal follows a literal, and no placeholder
follows a brace. -/
def Joins : Piece → Piece → Prop
  | .literal _, .literal _ => False
  | .literal text, .placeholder _ => text.toList.getLast? ≠ some '\x7b'
  | .placeholder _, _ => True

instance : DecidableRel Joins
  | .literal _, .literal _ => instDecidableFalse
  | .literal text, .placeholder _ =>
    inferInstanceAs (Decidable (text.toList.getLast? ≠ some '\x7b'))
  | .placeholder _, _ => instDecidableTrue

structure Printable (ps : List Piece) : Prop where
  pieces : ∀ p ∈ ps, p.IsPrintable
  joints : ps.IsChain Joins

def IsBound (b : Bindings) : Piece → Prop
  | .literal _ => True
  | .placeholder p => p.optional = true ∨ b.value? p.name ≠ none

instance (b : Bindings) : DecidablePred (IsBound b)
  | .literal _ => instDecidableTrue
  | .placeholder p => inferInstanceAs (Decidable (p.optional = true ∨ b.value? p.name ≠ none))

def text (b : Bindings) : Piece → List Char
  | .literal text => text.toList
  | .placeholder p =>
    match b.value? p.name with
    | some value => if p.raw then value.toList else (Escape.forAttribute value).toList
    | none => []

end Piece

namespace Placeholder

variable {p : Placeholder}

def marked (p : Placeholder) : String := p.name ++ if p.optional then "?" else ""

theorem IsName.trimmed_marked (h : IsName p.name) : Text.IsTrimmed Text.isBlank p.marked := by
  rw [marked]
  cases p.optional with
  | false => simpa using h.trimmed
  | true =>
    constructor
    · cases hl : p.name.toList with
      | nil => exact absurd (String.toList_inj.1 hl) h.ne_empty
      | cons c l => simpa [hl] using h.trimmed.head c
    · simp
      decide

theorem IsName.splitName_marked (h : IsName p.name) : splitName p.marked = (p.name, p.optional) := by
  rw [marked, splitName]
  cases p.optional with
  | false =>
    split
    · rename_i hlast
      exact absurd (by simpa using hlast) h.noMark
    · simp
  | true => simp [Text.trimEnd_eq_self h.trimmed.last]

theorem IsName.bar_not_mem (h : IsName p.name) : '|' ∉ p.marked.toList := by
  rw [marked]
  cases p.optional <;> simp [h.noBar]

def inside (p : Placeholder) : List Char := ' ' :: p.written.toList ++ [' ']

/-- The first closing braces behind a placeholder are its own. -/
theorem IsName.not_infix_inside (h : IsName p.name) :
    ¬ closingBraces <:+: p.inside ++ ['\x7d'] := by
  have htail : ∀ tail : List Char, '\x7d' ∉ tail → ¬ closingBraces <:+: p.name.toList ++ tail := by
    intro tail ht
    cases tail with
    | nil => simpa using h.noBraces
    | cons c tail =>
      rw [List.mem_cons, not_or] at ht
      have hnone : ¬ closingBraces <:+: tail := fun hi => ht.2 (hi.subset (by decide))
      rw [closingBraces, Text.pair_infix_append (Ne.symm ht.1)]
      exact not_or.2 ⟨h.noBraces, hnone⟩
  have hwritten : ¬ closingBraces <:+: p.written.toList := by
    have hshape : p.written.toList = p.name.toList ++
        ((if p.optional then "?" else "") ++ if p.raw then " | raw" else "").toList := by
      rw [written, String.append_assoc, String.toList_append]
    rw [hshape]
    refine htail _ ?_
    cases p.optional <;> cases p.raw <;> decide
  have hshape : p.inside ++ ['\x7d'] =
      [] ++ ' ' :: (p.written.toList ++ ' ' :: ['\x7d']) := by simp [inside]
  rw [hshape, closingBraces, Text.pair_infix_append (by decide),
    Text.pair_infix_append (by decide)]
  exact not_or.2 ⟨by decide, not_or.2 ⟨hwritten, by decide⟩⟩

theorem IsName.parts_inside (h : IsName p.name) :
    parts p.inside = if p.raw then [p.marked, "raw"] else [p.marked] := by
  have hspaced : String.ofList (' ' :: p.marked.toList ++ [' ']) = " " ++ p.marked ++ " " := by
    rw [← String.toList_inj]
    simp
  have htrim : Text.trim (String.ofList (' ' :: p.marked.toList ++ [' '])) = p.marked := by
    rw [hspaced, h.trimmed_marked.trim_spaced]
  have hpiece : Text.splitOn (· == '|') (' ' :: p.marked.toList ++ [' ']) =
      [' ' :: p.marked.toList ++ [' ']] := by
    refine Text.splitOn_of_none fun c hc => beq_eq_false_iff_ne.2 ?_
    rintro rfl
    simp [h.bar_not_mem] at hc
  cases hraw : p.raw with
  | false =>
    have hinside : p.inside = ' ' :: p.marked.toList ++ [' '] := by
      simp [inside, written, marked, hraw]
    rw [parts, hinside, hpiece, List.map_singleton, htrim]
    rfl
  | true =>
    have hinside : p.inside = (' ' :: p.marked.toList ++ [' ']) ++ '|' :: " raw ".toList := by
      simp [inside, written, marked, hraw]
    have hfilter : (Text.splitOn (· == '|') " raw ".toList).map
        (fun part => Text.trim (String.ofList part)) = ["raw"] := by decide
    rw [parts, hinside, Text.splitOn_append_cons (by decide), hpiece, List.map_append, hfilter,
      List.map_singleton, htrim]
    rfl

theorem IsName.wellFormed_inside (h : IsName p.name) : WellFormed p.inside p := by
  have hparts := h.parts_inside
  obtain ⟨name, optional, raw⟩ := p
  cases raw with
  | false => exact .escaped hparts h.splitName_marked h.ne_empty
  | true => exact .raw hparts h.splitName_marked h.ne_empty

end Placeholder

namespace Piece

variable {ps : List Piece}

def segment : Piece → Segment
  | .literal text => .literal text.toList
  | .placeholder p => .placeholder p.inside p

theorem toList_printAll_cons (p : Piece) (rest : List Piece) :
    (printAll (p :: rest)).toList = p.print.toList ++ (printAll rest).toList :=
  String.toList_append

theorem toList_print_placeholder (p : Placeholder) :
    (print (.placeholder p)).toList = openingBraces ++ (p.inside ++ closingBraces) := by
  rw [print, toList_braced, List.append_assoc]
  rfl

theorem Printable.tail {p : Piece} {rest : List Piece} (h : Printable (p :: rest)) :
    Printable rest :=
  ⟨fun q hq => h.pieces q (List.mem_cons_of_mem p hq), List.isChain_of_isChain_cons h.joints⟩

theorem cuts_placeholder {before after : List Char} {p : Placeholder} {segs : List Segment}
    (hbefore : ¬ openingBraces <:+: before ++ ['\x7b']) (hp : Placeholder.IsName p.name)
    (ha : Cuts after segs) :
    Cuts (before ++ ((print (.placeholder p)).toList ++ after))
      (.literal before :: .placeholder p.inside p :: segs) := by
  have hcuts := Cuts.placeholder hbefore hp.not_infix_inside hp.wellFormed_inside ha
  rw [toList_print_placeholder]
  simpa using hcuts

/-- A printed template is cut into its pieces, but for literals without text. -/
theorem exists_cuts_printAll : (ps : List Piece) → Printable ps →
    ∃ segs, Cuts (printAll ps).toList segs ∧
      ∀ b, renderSegments b segs = renderSegments b (ps.map segment)
  | [], _ => by
    have hnone : ¬ openingBraces <:+: ([] : List Char) := by decide
    exact ⟨[.literal []], .literal hnone, fun b => renderSegments_nil b []⟩
  | .placeholder p :: rest, h => by
    obtain ⟨segs, hcuts, hsegs⟩ := exists_cuts_printAll rest h.tail
    have hp : Placeholder.IsName p.name := h.pieces _ List.mem_cons_self
    have hbefore : ¬ openingBraces <:+: ([] : List Char) ++ ['\x7b'] := by decide
    have hcut := cuts_placeholder hbefore hp hcuts
    -- The reader finds a literal before every placeholder, here one without text.
    refine ⟨.literal [] :: .placeholder p.inside p :: segs, ?_, fun b => ?_⟩
    · rw [toList_printAll_cons]
      exact hcut
    · rw [renderSegments_nil, List.map_cons, segment, renderSegments_placeholder,
        renderSegments_placeholder, hsegs]
  | [.literal text], h => by
    have ht : ¬ openingBraces <:+: text.toList := h.pieces _ List.mem_cons_self
    refine ⟨[.literal text.toList], ?_, fun _ => rfl⟩
    rw [toList_printAll_cons, printAll, print, String.toList_empty, List.append_nil]
    exact .literal ht
  | .literal text :: .placeholder p :: rest, h => by
    -- A literal is cut off together with the placeholder behind it.
    obtain ⟨segs, hcuts, hsegs⟩ := exists_cuts_printAll rest h.tail.tail
    have hp : Placeholder.IsName p.name := h.tail.pieces _ List.mem_cons_self
    have ht : ¬ openingBraces <:+: text.toList := h.pieces _ List.mem_cons_self
    have hlast : text.toList.getLast? ≠ some '\x7b' := (List.isChain_cons_cons.1 h.joints).1
    have hbefore : ¬ openingBraces <:+: text.toList ++ ['\x7b'] := by
      rw [openingBraces, Text.pair_infix_concat]
      exact not_or.2 ⟨ht, hlast⟩
    have hcut := cuts_placeholder hbefore hp hcuts
    refine ⟨.literal text.toList :: .placeholder p.inside p :: segs, ?_, fun b => ?_⟩
    · rw [toList_printAll_cons, toList_printAll_cons]
      exact hcut
    · rw [List.map_cons, List.map_cons, segment, segment, renderSegments_literal,
        renderSegments_literal, renderSegments_placeholder, renderSegments_placeholder, hsegs]
  | .literal _ :: .literal _ :: _, h => ((List.isChain_cons_cons.1 h.joints).1 : False).elim

theorem render_printAll (h : Printable ps) (b : Bindings) :
    Template.render b (printAll ps) =
      (renderSegments b (ps.map segment)).map String.ofList := by
  obtain ⟨segs, hcuts, hsegs⟩ := exists_cuts_printAll ps h
  rw [Template.render, hcuts.renderFrom_eq b "", hsegs]
  simp only [String.empty_append]

theorem text_segment (b : Bindings) (p : Piece) : p.segment.text b = p.text b := by
  cases p <;> rfl

theorem error?_segment_eq_none_iff {b : Bindings} {p : Piece} :
    p.segment.error? b = none ↔ p.IsBound b := by
  cases p with
  | literal text => simp [segment, Segment.error?, IsBound]
  | placeholder p =>
    cases ho : p.optional <;> simp [segment, Segment.error?, IsBound, ho]

theorem error?_segment_eq_some_iff {b : Bindings} {p : Piece} {e : TemplateError} :
    p.segment.error? b = some e ↔ ∃ q, p = .placeholder q ∧ ¬ p.IsBound b ∧ e = .missing q.name := by
  cases p with
  | literal text => simp [segment, Segment.error?]
  | placeholder q =>
    cases ho : q.optional <;> simp [segment, Segment.error?, IsBound, ho, eq_comm]

theorem findSome?_error?_eq_none_iff {b : Bindings} :
    ps.findSome? (Segment.error? b ∘ segment) = none ↔ ∀ p ∈ ps, p.IsBound b := by
  rw [List.findSome?_eq_none_iff]
  exact forall₂_congr fun p _ => error?_segment_eq_none_iff

theorem findSome?_error?_eq_some_iff {b : Bindings} {e : TemplateError} :
    ps.findSome? (Segment.error? b ∘ segment) = some e ↔
      ∃ before p after, ps = before ++ .placeholder p :: after ∧ (∀ q ∈ before, q.IsBound b) ∧
        ¬ (Piece.placeholder p).IsBound b ∧ e = .missing p.name := by
  rw [List.findSome?_eq_some_iff]
  constructor
  · rintro ⟨before, p, after, hps, he, hbefore⟩
    obtain ⟨q, rfl, hq, he⟩ := error?_segment_eq_some_iff.1 he
    exact ⟨before, q, after, hps,
      fun p hp => error?_segment_eq_none_iff.1 (hbefore p hp), hq, he⟩
  · rintro ⟨before, p, after, hps, hbefore, hp, he⟩
    exact ⟨before, .placeholder p, after, hps, error?_segment_eq_some_iff.2 ⟨p, rfl, hp, he⟩,
      fun q hq => error?_segment_eq_none_iff.2 (hbefore q hq)⟩

end Piece

/-- A printed template renders to its literals and the values of its placeholders, in order, if
every placeholder that is not optional has a value. Otherwise the first one without a value is
missing. -/
theorem Template.render_print {ps : List Piece} (h : Piece.Printable ps) (b : Bindings) :
    (∀ text, render b (Piece.printAll ps) = .ok text ↔
      (∀ p ∈ ps, p.IsBound b) ∧ text = String.ofList (ps.flatMap (Piece.text b))) ∧
    ∀ e, render b (Piece.printAll ps) = .error e ↔
      ∃ before p after, ps = before ++ .placeholder p :: after ∧ (∀ q ∈ before, q.IsBound b) ∧
        ¬ (Piece.placeholder p).IsBound b ∧ e = .missing p.name := by
  have htext : (ps.map Piece.segment).flatMap (Segment.text b) = ps.flatMap (Piece.text b) := by
    rw [List.flatMap_map]
    simp only [Piece.text_segment]
  rw [Piece.render_printAll h, renderSegments, htext, List.findSome?_map]
  constructor
  · intro text
    rw [← Piece.findSome?_error?_eq_none_iff]
    cases ps.findSome? (Segment.error? b ∘ Piece.segment) <;> simp [Except.map, eq_comm]
  · intro e
    rw [← Piece.findSome?_error?_eq_some_iff]
    cases ps.findSome? (Segment.error? b ∘ Piece.segment) <;> simp [Except.map]

/-- Single braces before and behind a placeholder and in names, and a value with double braces. -/
theorem Template.render_print_braces :
    let ps : List Piece := [.literal "a \x7d \x7bb", .placeholder ⟨"x\x7d", false, true⟩,
      .placeholder ⟨"y z", true, false⟩, .literal "\x7d", .placeholder ⟨"\x7b", true, false⟩]
    let b : Bindings := [("x\x7d", "\x7b\x7b u \x7d\x7d"), ("\x7b", "&")]
    Piece.Printable ps ∧
      Piece.printAll ps =
        "a \x7d \x7bb\x7b\x7b x\x7d | raw \x7d\x7d\x7b\x7b y z? \x7d\x7d\x7d\x7b\x7b \x7b? \x7d\x7d" ∧
      render b (Piece.printAll ps) = .ok "a \x7d \x7bb\x7b\x7b u \x7d\x7d\x7d&amp;" ∧
      render [] (Piece.printAll ps) = .error (.missing "x\x7d") := by
  intro ps b
  have hps : Piece.Printable ps := ⟨by decide, by decide⟩
  have hbound : ∀ p ∈ ps, p.IsBound b := by decide
  refine ⟨hps, by decide, ?_, ?_⟩
  · exact ((render_print hps b).1 _).2 ⟨hbound, by decide⟩
  · exact ((render_print hps []).2 _).2 ⟨[.literal "a \x7d \x7bb"], ⟨"x\x7d", false, true⟩,
      ps.drop 2, rfl, by decide, by decide, rfl⟩

end StaticSite
