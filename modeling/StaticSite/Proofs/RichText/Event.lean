import StaticSite.RichText.Basic

/-!
# Rich text as events

Spans are met from left to right as characters, line breaks, and the beginnings and ends of styled
runs. What is counted or read off the spans, at any depth, can be counted or read off these events:
the text, the number of breaks and of runs, and the text inside each run.
-/

namespace StaticSite

/-- What is met in rich text from left to right. -/
inductive Event where
  | char (c : Char)
  | lineBreak
  | opens (style : Style)
  | closes (style : Style)
  deriving DecidableEq, Repr

mutual

/-- A span and all spans inside it, in the order in which they begin. -/
def Span.within : Span → List Span
  | .text s => [.text s]
  | .lineBreak => [.lineBreak]
  | .styled style inner => .styled style inner :: Span.withinAll inner

def Span.withinAll : List Span → List Span
  | [] => []
  | s :: rest => s.within ++ Span.withinAll rest

end

mutual

def Span.events : Span → List Event
  | .text s => s.toList.map .char
  | .lineBreak => [.lineBreak]
  | .styled style inner => .opens style :: (Span.eventsOf inner ++ [.closes style])

def Span.eventsOf : List Span → List Event
  | [] => []
  | s :: rest => s.events ++ Span.eventsOf rest

end

namespace Span

theorem eventsOf_append (l₁ l₂ : List Span) :
    eventsOf (l₁ ++ l₂) = eventsOf l₁ ++ eventsOf l₂ := by
  induction l₁ with
  | nil => rfl
  | cons s l₁ ih => rw [List.cons_append, eventsOf, eventsOf, ih, List.append_assoc]

theorem eventsOf_singleton (s : Span) : eventsOf [s] = s.events := by
  rw [eventsOf, eventsOf, List.append_nil]

def ownText : Span → List Char
  | .text s => s.toList
  | _ => []

def isBreak : Span → Bool
  | .lineBreak => true
  | _ => false

def hasStyle (style : Style) : Span → Bool
  | .styled style' _ => style' = style
  | _ => false

def contents (l : List Span) : List Char := (withinAll l).flatMap ownText

def extent? : Span → Option (Style × List Char)
  | .styled style inner => some (style, contents inner)
  | _ => none

def extents (l : List Span) : List (Style × List Char) := (withinAll l).filterMap extent?

theorem contents_cons (s : Span) (l : List Span) :
    contents (s :: l) = contents [s] ++ contents l := by
  simp only [contents, withinAll, List.append_nil, List.flatMap_append]

theorem contents_styled (style : Style) (inner : List Span) :
    contents [.styled style inner] = contents inner := by
  simp only [contents, withinAll, within, List.append_nil, List.flatMap_cons, ownText,
    List.nil_append]

theorem extents_cons (s : Span) (l : List Span) : extents (s :: l) = extents [s] ++ extents l := by
  simp only [extents, withinAll, List.append_nil, List.filterMap_append]

theorem extents_styled (style : Style) (inner : List Span) :
    extents [.styled style inner] = (style, contents inner) :: extents inner := by
  have h : extent? (.styled style inner) = some (style, contents inner) := rfl
  simp only [extents, withinAll, within, List.append_nil]
  rw [List.filterMap_cons_some h]

end Span

namespace Event

def char? : Event → Option Char
  | .char c => some c
  | _ => none

/-- The characters that are met before as many open runs are closed as the number says. -/
def textWithin : Nat → List Event → List Char
  | 0, _ => []
  | _, [] => []
  | n + 1, .char c :: es => c :: textWithin (n + 1) es
  | n + 1, .lineBreak :: es => textWithin (n + 1) es
  | n + 1, .opens _ :: es => textWithin (n + 2) es
  | n + 1, .closes _ :: es => textWithin n es

/-- The style of each run that begins, with the characters that are met before it is closed. -/
def runs : List Event → List (Style × List Char)
  | [] => []
  | .opens style :: es => (style, textWithin 1 es) :: runs es
  | .char _ :: es => runs es
  | .lineBreak :: es => runs es
  | .closes _ :: es => runs es

theorem filterMap_char? (s : List Char) : (s.map Event.char).filterMap char? = s := by
  induction s with
  | nil => rfl
  | cons c s ih =>
    have h : char? (.char c) = some c := rfl
    rw [List.map_cons, List.filterMap_cons_some h, ih]

theorem textWithin_chars (n : Nat) (s : List Char) (es : List Event) :
    textWithin (n + 1) (s.map .char ++ es) = s ++ textWithin (n + 1) es := by
  induction s with
  | nil => rfl
  | cons c s ih => rw [List.map_cons, List.cons_append, textWithin, ih, List.cons_append]

theorem runs_chars (s : List Char) (es : List Event) : runs (s.map .char ++ es) = runs es := by
  induction s with
  | nil => rfl
  | cons c s ih => rw [List.map_cons, List.cons_append, runs, ih]

end Event

open Event

mutual

theorem Span.countP_within (p : Span → Bool) (q : Event → Bool) (ht : ∀ s, p (.text s) = false)
    (hc : ∀ c, q (.char c) = false) (hb : p .lineBreak = q .lineBreak)
    (ho : ∀ style inner, p (.styled style inner) = q (.opens style))
    (he : ∀ style, q (.closes style) = false) :
    (s : Span) → s.within.countP p = s.events.countP q
  | .text s => by
    rw [Span.within, Span.events, List.countP_singleton, ht, List.countP_map,
      List.countP_eq_zero.2 (by simp [hc])]
    rfl
  | .lineBreak => by
    rw [Span.within, Span.events, List.countP_singleton, List.countP_singleton, hb]
  | .styled style inner => by
    have hi := Span.countP_withinAll p q ht hc hb ho he inner
    rw [Span.within, Span.events, List.countP_cons, List.countP_cons, List.countP_append, hi, ho,
      List.countP_singleton, he]
    rfl

theorem Span.countP_withinAll (p : Span → Bool) (q : Event → Bool) (ht : ∀ s, p (.text s) = false)
    (hc : ∀ c, q (.char c) = false) (hb : p .lineBreak = q .lineBreak)
    (ho : ∀ style inner, p (.styled style inner) = q (.opens style))
    (he : ∀ style, q (.closes style) = false) :
    (l : List Span) → (Span.withinAll l).countP p = (Span.eventsOf l).countP q
  | [] => rfl
  | s :: rest => by
    rw [Span.withinAll, Span.eventsOf, List.countP_append, List.countP_append,
      Span.countP_within p q ht hc hb ho he s, Span.countP_withinAll p q ht hc hb ho he rest]

end

theorem Span.countP_isBreak (l : List Span) :
    (Span.withinAll l).countP Span.isBreak = (Span.eventsOf l).count .lineBreak := by
  apply Span.countP_withinAll
  all_goals
    intros
    rfl

theorem Span.countP_hasStyle (style : Style) (l : List Span) :
    (Span.withinAll l).countP (Span.hasStyle style) = (Span.eventsOf l).count (.opens style) := by
  apply Span.countP_withinAll
  case ho =>
    intro style' inner
    by_cases h : style' = style
    · simp [Span.hasStyle, h]
    · simp [Span.hasStyle, h]
  all_goals
    intros
    rfl

mutual

theorem Span.filterMap_char?_events : (s : Span) → s.events.filterMap char? = Span.contents [s]
  | .text s => by
    rw [Span.events, filterMap_char?]
    simp [Span.contents, Span.withinAll, Span.within, Span.ownText]
  | .lineBreak => rfl
  | .styled style inner => by
    have hi := Span.filterMap_char?_eventsOf inner
    rw [Span.events, List.filterMap_cons_none rfl, List.filterMap_append, hi, Span.contents_styled,
      List.filterMap_cons_none rfl, List.filterMap_nil, List.append_nil]

theorem Span.filterMap_char?_eventsOf :
    (l : List Span) → (Span.eventsOf l).filterMap char? = Span.contents l
  | [] => rfl
  | s :: rest => by
    rw [Span.eventsOf, List.filterMap_append, Span.filterMap_char?_events s,
      Span.filterMap_char?_eventsOf rest, ← Span.contents_cons]

end

mutual

theorem Span.textWithin_events (n : Nat) (es : List Event) : (s : Span) →
    textWithin (n + 1) (s.events ++ es) = Span.contents [s] ++ textWithin (n + 1) es
  | .text s => by
    rw [Span.events, textWithin_chars]
    simp [Span.contents, Span.withinAll, Span.within, Span.ownText]
  | .lineBreak => rfl
  | .styled style inner => by
    have hi := Span.textWithin_eventsOf (n + 1) (.closes style :: es) inner
    rw [Span.events, List.cons_append, textWithin, List.append_assoc, List.singleton_append, hi,
      Span.contents_styled, textWithin]

/-- The runs inside spans are closed inside them, so that a run around them is not closed there. -/
theorem Span.textWithin_eventsOf (n : Nat) (es : List Event) : (l : List Span) →
    textWithin (n + 1) (Span.eventsOf l ++ es) = Span.contents l ++ textWithin (n + 1) es
  | [] => rfl
  | s :: rest => by
    rw [Span.eventsOf, List.append_assoc, Span.textWithin_events n _ s,
      Span.textWithin_eventsOf n es rest, ← List.append_assoc, ← Span.contents_cons]

end

mutual

theorem Span.runs_events (es : List Event) : (s : Span) →
    runs (s.events ++ es) = Span.extents [s] ++ runs es
  | .text s => by
    rw [Span.events, runs_chars]
    rfl
  | .lineBreak => rfl
  | .styled style inner => by
    have hi := Span.runs_eventsOf (.closes style :: es) inner
    have ht := Span.textWithin_eventsOf 0 (.closes style :: es) inner
    rw [textWithin, textWithin, List.append_nil] at ht
    rw [Span.events, List.cons_append, runs, List.append_assoc, List.singleton_append, hi, ht,
      Span.extents_styled, runs, List.cons_append]

theorem Span.runs_eventsOf (es : List Event) : (l : List Span) →
    runs (Span.eventsOf l ++ es) = Span.extents l ++ runs es
  | [] => rfl
  | s :: rest => by
    rw [Span.eventsOf, List.append_assoc, Span.runs_events _ s, Span.runs_eventsOf es rest,
      ← List.append_assoc, ← Span.extents_cons]

end

end StaticSite
