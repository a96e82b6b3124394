import StaticSite.RichText.Parse
import StaticSite.Proofs.RichText.Event
import StaticSite.Proofs.RichText.Tags

/-!
# What parsing keeps

A tag is consumed if it is a break, if it opens a style, or if it closes the innermost open style.
The events of the parsed spans are the events of the tokens one after the other: a consumed tag is
its own event, and everything else is its characters. So the text of the spans is the markup without
the consumed tags, and the text of a run is what stands between its tags.
-/

namespace StaticSite

def Tag.event : Tag → Event
  | .lineBreak => .lineBreak
  | .opens style => .opens style
  | .closes style => .closes style

theorem Tag.event_inj {t t' : Tag} : t.event = t'.event ↔ t = t' := by
  cases t <;> cases t' <;> simp [Tag.event]

namespace Token

def after (opened : List Style) : Token → List Style
  | .char _ => opened
  | .tag .lineBreak _ => opened
  | .tag (.opens style) _ => style :: opened
  | .tag (.closes style) _ => if opened.head? = some style then opened.tail else opened

/-- Whether a token is consumed where these styles are open. -/
def consumed (opened : List Style) : Token → Bool
  | .char _ => false
  | .tag .lineBreak _ => true
  | .tag (.opens _) _ => true
  | .tag (.closes style) _ => opened.head? = some style

def events (opened : List Style) : Token → List Event
  | .char c => [.char c]
  | .tag t inner =>
    if consumed opened (.tag t inner) then [t.event] else (source (.tag t inner)).map .char

def kept : List Style → List Token → List Char
  | _, [] => []
  | opened, t :: ts => (if t.consumed opened then [] else t.source) ++ kept (t.after opened) ts

/-- The tokens before the one after which only `n` styles are open, or all if there is none. -/
def stretch (n : Nat) : List Style → List Token → List Token
  | _, [] => []
  | opened, t :: ts =>
    if (t.after opened).length ≤ n then [] else t :: stretch n (t.after opened) ts

/-- For each tag that opens a style, the style and the text between the tag and the one that
closes it. -/
def styledRuns : List Style → List Token → List (Style × List Char)
  | _, [] => []
  | opened, .tag (.opens style) _ :: ts =>
    (style, kept (style :: opened) (stretch opened.length (style :: opened) ts)) ::
      styledRuns (style :: opened) ts
  | opened, .tag (.closes style) inner :: ts =>
    styledRuns (after opened (.tag (.closes style) inner)) ts
  | opened, .tag .lineBreak _ :: ts => styledRuns opened ts
  | opened, .char _ :: ts => styledRuns opened ts

def eventsFrom : List Style → List Token → List Event
  | opened, [] => opened.map .closes
  | opened, t :: ts => t.events opened ++ eventsFrom (t.after opened) ts

theorem events_of_not_consumed {opened : List Style} {t : Token} (h : t.consumed opened = false) :
    t.events opened = t.source.map .char := by
  cases t with
  | char c => rfl
  | tag t inner => rw [events, h, if_neg (by simp)]

theorem after_of_not_consumed {opened : List Style} {t : Token} (h : t.consumed opened = false) :
    t.after opened = opened := by
  cases t with
  | char c => rfl
  | tag t inner =>
    cases t with
    | lineBreak => rfl
    | opens style => cases h
    | closes style =>
      have hs : opened.head? ≠ some style := of_decide_eq_false h
      rw [after, if_neg hs]

end Token

namespace Assembly

def openedEvents : List (Style × List Span) → List Event
  | [] => []
  | (style, before) :: rest => openedEvents rest ++ (Span.eventsOf before ++ [.opens style])

def events (a : Assembly) : List Event :=
  openedEvents a.opened ++ (Span.eventsOf a.spans ++ a.pending.map .char)

def styles (a : Assembly) : List Style := a.opened.map Prod.fst

theorem opened_flush (a : Assembly) : a.flush.opened = a.opened := by
  unfold flush
  split <;> rfl

theorem pending_flush (a : Assembly) : a.flush.pending = [] := by
  unfold flush
  split
  · assumption
  · rfl

theorem eventsOf_flush (a : Assembly) :
    Span.eventsOf a.flush.spans = Span.eventsOf a.spans ++ a.pending.map .char := by
  unfold flush
  split
  · rename_i h
    rw [h, List.map_nil, List.append_nil]
  · rw [Span.eventsOf_append, Span.eventsOf_singleton, Span.events, String.toList_ofList]

theorem events_eq_flush (a : Assembly) :
    a.events = openedEvents a.opened ++ Span.eventsOf a.flush.spans := by
  rw [events, eventsOf_flush]

theorem styles_add (a : Assembly) (t : Token) : (a.add t).styles = t.after a.styles := by
  cases t with
  | char c => rfl
  | tag t inner =>
    cases t with
    | lineBreak =>
      show a.flush.opened.map Prod.fst = a.opened.map Prod.fst
      rw [opened_flush]
    | opens style =>
      show style :: a.flush.opened.map Prod.fst = style :: a.opened.map Prod.fst
      rw [opened_flush]
    | closes style =>
      have hh : a.styles.head? = a.opened.head?.map Prod.fst := by rw [styles, List.head?_map]
      rw [add, Token.after, hh]
      split
      · cases ho : a.opened with
        | nil => simp [close, styles, opened_flush, ho]
        | cons o rest => simp [close, styles, opened_flush, ho]
      · rfl

/-- One more token is its events at the end. -/
theorem events_add (a : Assembly) (t : Token) :
    (a.add t).events = a.events ++ t.events a.styles := by
  cases t with
  | char c => simp [add, events, Token.events]
  | tag t inner =>
    cases t with
    | lineBreak =>
      rw [events_eq_flush a]
      simp [add, events, Token.events, Token.consumed, Tag.event, opened_flush, pending_flush,
        Span.eventsOf_append, Span.eventsOf_singleton, Span.events]
    | opens style =>
      rw [events_eq_flush a]
      simp [add, events, Token.events, Token.consumed, Tag.event, opened_flush, pending_flush,
        openedEvents, Span.eventsOf]
    | closes style =>
      have hh : a.styles.head? = a.opened.head?.map Prod.fst := by rw [styles, List.head?_map]
      rw [add, Token.events, Token.consumed, hh]
      split
      -- The innermost run ends: what stood before it, its beginning and its spans are one list now.
      · rename_i hs
        rw [if_pos (decide_eq_true hs), events_eq_flush a]
        cases ho : a.opened with
        | nil => simp [ho] at hs
        | cons o rest =>
          obtain ⟨style', before⟩ := o
          obtain rfl : style' = style := by simpa [ho] using hs
          simp [close, events, opened_flush, pending_flush, ho, openedEvents, Tag.event,
            Span.eventsOf_append, Span.eventsOf_singleton, Span.events]
      · rename_i hs
        rw [decide_eq_false hs, if_neg (by simp)]
        simp [events]

theorem events_foldl (a : Assembly) (ts : List Token) :
    (ts.foldl add a).events ++ (ts.foldl add a).styles.map .closes =
      a.events ++ Token.eventsFrom a.styles ts := by
  induction ts generalizing a with
  | nil => rfl
  | cons t ts ih =>
    rw [List.foldl_cons, ih, events_add, styles_add, Token.eventsFrom, List.append_assoc]

theorem eventsOf_closeAll (opened : List (Style × List Span)) (spans : List Span) :
    Span.eventsOf (closeAll opened spans) =
      openedEvents opened ++ Span.eventsOf spans ++ opened.map fun o => Event.closes o.1 := by
  induction opened generalizing spans with
  | nil => simp [closeAll, openedEvents]
  | cons o rest ih =>
    rw [closeAll, ih, Span.eventsOf_append, Span.eventsOf_singleton, Span.events]
    simp [openedEvents]

theorem eventsOf_finish (a : Assembly) :
    Span.eventsOf a.finish = a.events ++ a.styles.map .closes := by
  rw [finish, eventsOf_closeAll, events_eq_flush, opened_flush, styles, List.map_map]
  rfl

end Assembly

theorem RichText.eventsOf_parse (markup : String) :
    Span.eventsOf (RichText.parse markup).spans = Token.eventsFrom [] (tokens markup.toList) := by
  rw [RichText.parse, Assembly.eventsOf_finish, Assembly.events_foldl]
  rfl

namespace Token

theorem filterMap_char?_events (opened : List Style) (t : Token) :
    (t.events opened).filterMap Event.char? = if t.consumed opened then [] else t.source := by
  cases hc : t.consumed opened with
  | false => rw [events_of_not_consumed hc, Event.filterMap_char?, if_neg (by simp)]
  | true =>
    cases t with
    | char c => cases hc
    | tag t inner =>
      rw [events, if_pos hc, if_pos rfl]
      cases t <;> rfl

theorem filterMap_char?_closes (l : List Style) :
    (l.map Event.closes).filterMap Event.char? = [] := by
  simp [List.filterMap_eq_nil_iff, Event.char?]

theorem filterMap_char?_eventsFrom (opened : List Style) (ts : List Token) :
    (eventsFrom opened ts).filterMap Event.char? = kept opened ts := by
  induction ts generalizing opened with
  | nil => exact filterMap_char?_closes opened
  | cons t ts ih => rw [eventsFrom, List.filterMap_append, filterMap_char?_events, ih, kept]

theorem count_event_chars (g : Tag) (s : List Char) : (s.map Event.char).count g.event = 0 := by
  rw [List.count_eq_zero]
  intro hm
  obtain ⟨c, -, hc⟩ := List.mem_map.1 hm
  cases g <;> cases hc

theorem count_event {g : Tag} (hg : ∀ style, g ≠ .closes style) (opened : List Style) (t : Tag)
    (inner : List Char) : (events opened (.tag t inner)).count g.event = [t].count g := by
  cases hc : consumed opened (.tag t inner) with
  | true =>
    rw [events, if_pos hc, List.count_singleton, List.count_singleton]
    simp [Tag.event_inj]
  | false =>
    have hne : t ≠ g := by
      rintro rfl
      cases t with
      | lineBreak => cases hc
      | opens style => cases hc
      | closes style => exact hg style rfl
    rw [events_of_not_consumed hc, count_event_chars, List.count_singleton]
    simp [hne]

theorem count_event_eventsFrom {g : Tag} (hg : ∀ style, g ≠ .closes style) (k : Nat)
    (opened : List Style) (ts : List Token) :
    (eventsFrom opened ts).count g.event = ((tagPlaces k ts).map Prod.snd).count g := by
  induction ts generalizing k opened with
  | nil =>
    rw [eventsFrom, tagPlaces, List.map_nil, List.count_nil, List.count_eq_zero]
    intro hm
    obtain ⟨style, -, hs⟩ := List.mem_map.1 hm
    cases g with
    | lineBreak => cases hs
    | opens style' => cases hs
    | closes style' => exact hg style' rfl
  | cons t ts ih =>
    rw [eventsFrom, List.count_append]
    cases t with
    | char c =>
      have hz : (events opened (.char c)).count g.event = 0 := count_event_chars g [c]
      rw [hz, ih (k + 1), tagPlaces, Nat.zero_add]
    | tag t inner =>
      rw [count_event hg, ih (k + (inner.length + 2)), tagPlaces, ← List.count_append]
      rfl

theorem textWithin_closes (n : Nat) (l : List Style) :
    Event.textWithin n (l.map .closes) = [] := by
  induction l generalizing n with
  | nil => cases n <;> rfl
  | cons style l ih =>
    cases n with
    | zero => rfl
    | succ n => rw [List.map_cons, Event.textWithin, ih]

/-- What is met before the open styles above the lowest `m` are closed is what the tokens up to
there keep. -/
theorem textWithin_eventsFrom (m : Nat) (opened : List Style) (ts : List Token)
    (h : m < opened.length) :
    Event.textWithin (opened.length - m) (eventsFrom opened ts) =
      kept opened (stretch m opened ts) := by
  induction ts generalizing opened with
  | nil => exact textWithin_closes _ opened
  | cons t ts ih =>
    -- The number of open styles above the lowest `m` goes along with the depth of the events.
    obtain ⟨n, hn⟩ : ∃ n, opened.length - m = n + 1 := ⟨opened.length - m - 1, by omega⟩
    rw [eventsFrom, stretch, hn]
    cases hc : t.consumed opened with
    | false =>
      have hgo : ¬ opened.length ≤ m := by omega
      rw [events_of_not_consumed hc, after_of_not_consumed hc, Event.textWithin_chars, ← hn, ih _ h,
        if_neg hgo, kept, hc, after_of_not_consumed hc, if_neg (by simp)]
    | true =>
      cases t with
      | char c => cases hc
      | tag t inner =>
        rw [events, if_pos hc]
        cases t with
        | lineBreak =>
          have hgo : ¬ opened.length ≤ m := by omega
          show Event.textWithin (n + 1) (eventsFrom opened ts) = _
          rw [← hn, ih _ h, after, if_neg hgo, kept, if_pos hc, List.nil_append, after]
        | opens style =>
          have hlen : (style :: opened).length - m = n + 2 := by rw [List.length_cons]; omega
          have hgo : ¬ (style :: opened).length ≤ m := by rw [List.length_cons]; omega
          show Event.textWithin (n + 2) (eventsFrom (style :: opened) ts) = _
          rw [← hlen, ih (style :: opened) (by omega), after, if_neg hgo, kept, if_pos hc,
            List.nil_append, after]
        | closes style =>
          have hs : opened.head? = some style := of_decide_eq_true hc
          have hlen : opened.tail.length - m = n := by rw [List.length_tail]; omega
          show Event.textWithin n (eventsFrom (after opened (.tag (.closes style) inner)) ts) = _
          rw [after, if_pos hs]
          split
          · rename_i hstop
            obtain rfl : n = 0 := by omega
            rw [Event.textWithin, kept]
          · rename_i hgo
            rw [← hlen, ih opened.tail (by omega), kept, if_pos hc, List.nil_append, after,
              if_pos hs]

theorem runs_events {opened : List Style} {t : Token}
    (h : ∀ style inner, t ≠ .tag (.opens style) inner) (es : List Event) :
    Event.runs (t.events opened ++ es) = Event.runs es := by
  cases hc : t.consumed opened with
  | false => rw [events_of_not_consumed hc, Event.runs_chars]
  | true =>
    cases t with
    | char c => cases hc
    | tag t inner =>
      rw [events, if_pos hc]
      cases t with
      | lineBreak => rfl
      | opens style => exact absurd rfl (h style inner)
      | closes style => rfl

theorem runs_eventsFrom (opened : List Style) (ts : List Token) :
    Event.runs (eventsFrom opened ts) = styledRuns opened ts := by
  induction ts generalizing opened with
  | nil =>
    show Event.runs (opened.map .closes) = []
    induction opened with
    | nil => rfl
    | cons style opened ih => exact ih
  | cons t ts ih =>
    rw [eventsFrom]
    cases t with
    | char c =>
      rw [runs_events (by simp), ih, styledRuns, after]
    | tag t inner =>
      cases t with
      | lineBreak => rw [runs_events (by simp), ih, styledRuns, after]
      | closes style => rw [runs_events (by simp), ih, styledRuns]
      | opens style =>
        have ht := textWithin_eventsFrom opened.length (style :: opened) ts (by simp)
        have hone : (style :: opened).length - opened.length = 1 := by simp
        show (style, Event.textWithin 1 (eventsFrom (style :: opened) ts)) ::
          Event.runs (eventsFrom (style :: opened) ts) = _
        rw [hone] at ht
        rw [ht, ih, styledRuns]

end Token

/-- Parsing keeps everything but the consumed tags. The tokens are the whole markup, with a tag for
each place where one begins, up to the next `>`; the text of the spans is what the tokens keep,
there is a break for each break tag and a run for each tag that opens its style, and the text of a
run is what is kept between its tags. -/
theorem RichText.parse_keeps (markup : String) :
    (tokens markup.toList).flatMap Token.source = markup.toList ∧
    (∀ t inner, Token.tag t inner ∈ tokens markup.toList →
      '>' ∉ inner ∧ Tag.spelling inner ∈ t.spellings) ∧
    (∀ i t, (i, t) ∈ tagPlaces 0 (tokens markup.toList) ↔ t.Begins (markup.toList.drop i)) ∧
    Span.contents (RichText.parse markup).spans = Token.kept [] (tokens markup.toList) ∧
    (Span.withinAll (RichText.parse markup).spans).countP Span.isBreak =
      ((tagPlaces 0 (tokens markup.toList)).map Prod.snd).count .lineBreak ∧
    (∀ style, (Span.withinAll (RichText.parse markup).spans).countP (Span.hasStyle style) =
      ((tagPlaces 0 (tokens markup.toList)).map Prod.snd).count (.opens style)) ∧
    Span.extents (RichText.parse markup).spans = Token.styledRuns [] (tokens markup.toList) := by
  refine ⟨source_tokens _, fun _ _ => spelling_of_mem_tokens, ?places, ?text, ?breaks, ?styles,
    ?runs⟩
  case places =>
    intro i t
    rw [mem_tagPlaces_tokens]
    simp
  case text =>
    rw [← Span.filterMap_char?_eventsOf, eventsOf_parse, Token.filterMap_char?_eventsFrom]
  case breaks =>
    rw [Span.countP_isBreak, eventsOf_parse]
    exact Token.count_event_eventsFrom (g := .lineBreak) (by simp) 0 [] _
  case styles =>
    intro style
    rw [Span.countP_hasStyle, eventsOf_parse]
    exact Token.count_event_eventsFrom (g := .opens style) (by simp) 0 [] _
  case runs =>
    have h := Span.runs_eventsOf [] (RichText.parse markup).spans
    rw [List.append_nil, eventsOf_parse, Token.runs_eventsFrom] at h
    simpa [Event.runs] using h.symm

/-- A run that is never closed, with a closing tag of the other style inside. -/
theorem RichText.parse_keeps_unclosed :
    let m := "<B >x</i>"
    Token.tag (.opens .strong) "B ".toList ∈ tokens m.toList ∧
      Tag.spelling "B ".toList ∈ (Tag.opens .strong).spellings ∧
      Span.extents (RichText.parse m).spans = [(.strong, "x</i>".toList)] := by
  intro m
  have htokens : tokens m.toList =
      [.tag (.opens .strong) "B ".toList, .char 'x', .tag (.closes .emphasis) "/i".toList] := by
    have hopen : Tag.recognize "B >x</i>".toList =
        some (.opens .strong, "B ".toList, "x</i>".toList) := by decide +kernel
    have hclose : Tag.recognize "/i>".toList = some (.closes .emphasis, "/i".toList, []) := by
      decide +kernel
    have hm : m.toList = '<' :: "B >x</i>".toList := by decide
    have hx : "x</i>".toList = 'x' :: '<' :: "/i>".toList := by decide
    rw [hm, tokens_of_recognize hopen, hx, tokens_cons_of_ne (by decide),
      tokens_of_recognize hclose, tokens_nil]
  have h := RichText.parse_keeps m
  have hmem : Token.tag (.opens .strong) "B ".toList ∈ tokens m.toList := by
    rw [htokens]
    exact List.mem_cons_self
  refine ⟨hmem, (h.2.1 _ _ hmem).2, ?_⟩
  rw [h.2.2.2.2.2.2, htokens]
  rfl

end StaticSite
