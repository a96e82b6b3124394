import StaticSite.Proofs.RichText.RoundTrip

/-!
# Putting markup together

A tag is recognized by what stands up to the next `>`, but never across another `<`. So the tokens
before a tag stay what they are, however the markup goes on. Markup that closes all the styles that
it opens leaves no style open for what follows: at a line break the spans of both sides stand one
after the other, and inside a run they are the spans of the run.
-/

namespace StaticSite

/-- A text that is the tag itself, in one of its spellings. -/
def Tag.IsWritten (t : Tag) (s : String) : Prop :=
  ∃ inner, s.toList = '<' :: inner ++ ['>'] ∧ '>' ∉ inner ∧ Tag.spelling inner ∈ t.spellings

theorem Tag.recognize_append_lt {a : List Char} (h : recognize a = none) (rest : List Char) :
    recognize (a ++ '<' :: rest) = none := by
  cases hr : recognize (a ++ '<' :: rest) with
  | none => rfl
  | some r =>
    obtain ⟨t, inner, after⟩ := r
    obtain ⟨he, hn, hs⟩ := recognize_eq_some_iff.1 hr
    have hlt := lt_not_mem_of_spelling hs
    rcases List.append_eq_append_iff.1 he with ⟨l, hinner, hl⟩ | ⟨l, ha, hl⟩
    · -- The tag would go on past the `<`, but no spelling holds one.
      cases l with
      | nil => cases hl
      | cons c l =>
        obtain ⟨rfl, -⟩ := List.cons.inj hl
        exact absurd (by simp [hinner]) hlt
    · -- The tag would end before the `<`, and be there without what follows.
      cases l with
      | nil => cases hl
      | cons c l =>
        obtain ⟨rfl, -⟩ := List.cons.inj hl
        rw [recognize_eq_some_iff.2 ⟨ha, hn, hs⟩] at h
        cases h

/-- No token goes on behind a `<` that follows it. -/
theorem tokens_append_lt (a rest : List Char) :
    tokens (a ++ '<' :: rest) = tokens a ++ tokens ('<' :: rest) := by
  induction a using tokens_induction with
  | nil => rw [tokens_nil, List.nil_append, List.nil_append]
  | char c l ht hnone ih =>
    rw [ht, List.cons_append, List.cons_append, ← ih]
    by_cases hc : c = '<'
    · subst hc
      have hl : Tag.recognize l = none := by
        cases hr : Tag.recognize l with
        | none => rfl
        | some r => exact absurd (Tag.begins_lt_iff.2 ⟨_, _, hr⟩) (hnone r.1)
      rw [tokens_of_not_recognize (Tag.recognize_append_lt hl rest)]
    · rw [tokens_cons_of_ne hc]
  | tag t inner after hn hs ht ih =>
    have hshape : '<' :: inner ++ '>' :: after ++ '<' :: rest =
        '<' :: inner ++ '>' :: (after ++ '<' :: rest) := by simp
    rw [hshape, tokens_spelling hn hs, ih, ht, List.cons_append]

theorem Tag.IsWritten.tokens_append {t : Tag} {s : String} (h : t.IsWritten s)
    (a rest : List Char) :
    ∃ inner, tokens (a ++ (s.toList ++ rest)) = tokens a ++ .tag t inner :: tokens rest := by
  obtain ⟨inner, hs, hn, hspelling⟩ := h
  have htext : s.toList ++ rest = '<' :: inner ++ '>' :: rest := by simp [hs]
  refine ⟨inner, ?_⟩
  rw [htext, List.cons_append, tokens_append_lt, ← List.cons_append, tokens_spelling hn hspelling]

namespace Token

/-- Tokens in which every tag that opens a style is closed by a tag of that style, where `around` is
the style that is open around them. A closing tag of another style may stand anywhere. -/
inductive Closed : Option Style → List Token → Prop where
  | nil {around : Option Style} : Closed around []
  | char {around : Option Style} (c : Char) : Closed around [.char c]
  | lineBreak {around : Option Style} (inner : List Char) : Closed around [.tag .lineBreak inner]
  | stray {around : Option Style} {style : Style} (h : around ≠ some style) (inner : List Char) :
    Closed around [.tag (.closes style) inner]
  | run {around : Option Style} {style : Style} {ts : List Token} (h : Closed (some style) ts)
    (inner inner' : List Char) :
    Closed around (.tag (.opens style) inner :: (ts ++ [.tag (.closes style) inner']))
  | append {around : Option Style} {ts ts' : List Token} (h : Closed around ts)
    (h' : Closed around ts') : Closed around (ts ++ ts')

/-- Tokens in which every tag that opens a style is closed, and every closing tag closes one. -/
inductive Balanced : List Token → Prop where
  | nil : Balanced []
  | char (c : Char) : Balanced [.char c]
  | lineBreak (inner : List Char) : Balanced [.tag .lineBreak inner]
  | run {style : Style} {ts : List Token} (h : Balanced ts) (inner inner' : List Char) :
    Balanced (.tag (.opens style) inner :: (ts ++ [.tag (.closes style) inner']))
  | append {ts ts' : List Token} (h : Balanced ts) (h' : Balanced ts') : Balanced (ts ++ ts')

theorem Balanced.closed {ts : List Token} (h : Balanced ts) (around : Option Style) :
    Closed around ts := by
  induction h generalizing around with
  | nil => exact .nil
  | char c => exact .char c
  | lineBreak inner => exact .lineBreak inner
  | run _ inner inner' ih => exact .run (ih _) inner inner'
  | append _ _ ih ih' => exact (ih around).append (ih' around)

/-- The innermost open style, if there is one, is the style around. -/
theorem Closed.foldl_after {around : Option Style} {ts : List Token} (h : Closed around ts)
    {opened : List Style} (ho : ∀ style ∈ opened.head?, around = some style) :
    ts.foldl after opened = opened := by
  induction h generalizing opened with
  | nil => rfl
  | char c => rfl
  | lineBreak inner => rfl
  | stray hne inner => exact if_neg fun hs => hne (ho _ hs)
  | @run around style ts h inner inner' ih =>
    have hbody : ts.foldl after (style :: opened) = style :: opened := ih (by simp)
    rw [List.foldl_cons, List.foldl_append]
    show List.foldl after (ts.foldl after (style :: opened)) _ = opened
    rw [hbody]
    exact if_pos rfl
  | append _ _ ih ih' => rw [List.foldl_append, ih ho, ih' ho]

/-- Tokens after which these styles are open, innermost first: closed tokens between the tags that
open them. -/
inductive Leaves : List Style → List Token → Prop where
  | none {ts : List Token} (h : Closed none ts) : Leaves [] ts
  | opens {opened : List Style} {style : Style} {ts ts' : List Token} (h : Leaves opened ts)
    (inner : List Char) (h' : Closed (some style) ts') :
    Leaves (style :: opened) (ts ++ .tag (.opens style) inner :: ts')

theorem Leaves.append {opened : List Style} {ts ts' : List Token} (h : Leaves opened ts)
    (h' : Closed opened.head? ts') : Leaves opened (ts ++ ts') := by
  cases h with
  | none h => exact .none (h.append h')
  | opens h inner hbody =>
    rw [List.append_assoc, List.cons_append]
    exact h.opens inner (hbody.append h')

theorem Leaves.step {opened : List Style} {ts : List Token} (h : Leaves opened ts) (t : Token) :
    Leaves (t.after opened) (ts ++ [t]) := by
  cases t with
  | char c => exact h.append (.char c)
  | tag t inner =>
    cases t with
    | lineBreak => exact h.append (.lineBreak inner)
    | opens style => exact h.opens inner .nil
    | closes style =>
      rw [after]
      split
      · -- The innermost style ends here, and its run is closed where the style around goes on.
        rename_i hs
        cases h with
        | none h => cases hs
        | @opens opened style' ts ts' h inner' hbody =>
          obtain rfl : style' = style := Option.some.inj hs
          have hrun := h.append (.run hbody inner' inner)
          simpa using hrun
      · rename_i hs
        exact h.append (.stray hs inner)

theorem leaves_foldl_after (ts : List Token) : Leaves (ts.foldl after []) ts := by
  -- The styles that are open after a token depend on all tokens before it.
  induction ts using List.reverseRecOn with
  | nil => exact .none .nil
  | append_singleton ts t ih =>
    rw [List.foldl_append]
    exact ih.step t

/-- Tokens are closed exactly if no style is open after them. -/
theorem closed_iff {ts : List Token} : Closed none ts ↔ ts.foldl after [] = [] := by
  constructor
  · exact fun h => h.foldl_after (by simp)
  · intro h
    have hleaves := leaves_foldl_after ts
    rw [h] at hleaves
    cases hleaves with
    | none h => exact h

def eventsThrough : List Style → List Token → List Event
  | _, [] => []
  | opened, t :: ts => t.events opened ++ eventsThrough (t.after opened) ts

theorem eventsThrough_append (opened : List Style) (ts ts' : List Token) :
    eventsThrough opened (ts ++ ts') =
      eventsThrough opened ts ++ eventsThrough (ts.foldl after opened) ts' := by
  induction ts generalizing opened with
  | nil => rfl
  | cons t ts ih =>
    rw [List.cons_append, eventsThrough, eventsThrough, ih, List.foldl_cons, List.append_assoc]

theorem eventsFrom_eq (opened : List Style) (ts : List Token) :
    eventsFrom opened ts = eventsThrough opened ts ++ (ts.foldl after opened).map .closes := by
  induction ts generalizing opened with
  | nil => rfl
  | cons t ts ih => rw [eventsFrom, eventsThrough, ih, List.foldl_cons, List.append_assoc]

theorem eventsFrom_append (opened : List Style) (ts ts' : List Token) :
    eventsFrom opened (ts ++ ts') =
      eventsThrough opened ts ++ eventsFrom (ts.foldl after opened) ts' := by
  rw [eventsFrom_eq, eventsFrom_eq, eventsThrough_append, List.foldl_append, List.append_assoc]

/-- The events of closed tokens do not depend on the styles that are open around them. -/
theorem Closed.eventsThrough_eq {around : Option Style} {ts : List Token} (h : Closed around ts)
    {opened opened' : List Style} (ho : ∀ style ∈ opened.head?, around = some style)
    (ho' : ∀ style ∈ opened'.head?, around = some style) :
    eventsThrough opened ts = eventsThrough opened' ts := by
  induction h generalizing opened opened' with
  | nil => rfl
  | char c => rfl
  | lineBreak inner => rfl
  | @stray around style hne inner =>
    have hkept : ∀ {l : List Style}, (∀ s ∈ l.head?, around = some s) →
        consumed l (.tag (.closes style) inner) = false :=
      fun hl => decide_eq_false fun hs => hne (hl _ hs)
    simp only [eventsThrough, events_of_not_consumed (hkept ho),
      events_of_not_consumed (hkept ho')]
  | @run around style ts h inner inner' ih =>
    have hbody : eventsThrough (style :: opened) ts = eventsThrough (style :: opened') ts :=
      ih (by simp) (by simp)
    have hevents : ∀ l : List Style,
        eventsThrough l (.tag (.opens style) inner :: (ts ++ [.tag (.closes style) inner'])) =
          .opens style :: (eventsThrough (style :: l) ts ++ [.closes style]) := by
      intro l
      have hl : ts.foldl after (style :: l) = style :: l := h.foldl_after (by simp)
      rw [eventsThrough, after, eventsThrough_append, hl]
      simp [eventsThrough, events, consumed, Tag.event]
    rw [hevents, hevents, hbody]
  | append h _ ih ih' =>
    rw [eventsThrough_append, eventsThrough_append, h.foldl_after ho, h.foldl_after ho', ih ho ho',
      ih' ho ho']

theorem Closed.eventsOf_parse {around : Option Style} {a : String}
    (h : Closed around (tokens a.toList)) :
    Span.eventsOf (RichText.parse a).spans = eventsThrough [] (tokens a.toList) := by
  have hopened : (tokens a.toList).foldl after [] = [] := h.foldl_after (by simp)
  rw [RichText.eventsOf_parse, eventsFrom_eq, hopened]
  exact List.append_nil _

end Token

namespace RichText

theorem spans_parse_break {a b br : String} (ha : Token.Closed none (tokens a.toList))
    (hbr : Tag.lineBreak.IsWritten br) :
    (parse (a ++ br ++ b)).spans = (parse a).spans ++ .lineBreak :: (parse b).spans := by
  have hnormal : Span.allNormal ((parse a).spans ++ .lineBreak :: (parse b).spans) = true := by
    refine Span.allNormal_append (allNormal_parse a) ?_ fun _ => rfl
    exact Span.allNormal_cons.2 ⟨rfl, nofun, allNormal_parse b⟩
  refine Span.eq_of_eventsOf_eq (allNormal_parse _) hnormal ?_
  obtain ⟨inner, htokens⟩ := hbr.tokens_append a.toList b.toList
  have hopened : (tokens a.toList).foldl Token.after [] = [] := ha.foldl_after (by simp)
  rw [eventsOf_parse, String.toList_append, String.toList_append, List.append_assoc, htokens,
    Token.eventsFrom_append, hopened, ← ha.eventsOf_parse, Span.eventsOf_append, Span.eventsOf,
    eventsOf_parse b]
  rfl

/-- Inside a run nothing is lost of markup that does not close the run. -/
theorem spans_parse_run {style : Style} {a first last : String}
    (ha : Token.Closed (some style) (tokens a.toList)) (hfirst : (Tag.opens style).IsWritten first)
    (hlast : (Tag.closes style).IsWritten last) :
    (parse (first ++ a ++ last)).spans = [.styled style (parse a).spans] := by
  have hnormal : Span.allNormal [.styled style (parse a).spans] = true :=
    Span.allNormal_cons.2 ⟨allNormal_parse a, fun _ => rfl, rfl⟩
  refine Span.eq_of_eventsOf_eq (allNormal_parse _) hnormal ?_
  obtain ⟨inner, hopens⟩ := hfirst.tokens_append [] (a.toList ++ last.toList)
  obtain ⟨inner', hcloses⟩ := hlast.tokens_append a.toList []
  have hopened : (tokens a.toList).foldl Token.after [style] = [style] :=
    ha.foldl_after (by simp)
  have hevents : Token.eventsThrough [style] (tokens a.toList) =
      Span.eventsOf (parse a).spans := by
    rw [ha.eventsOf_parse]
    exact ha.eventsThrough_eq (by simp) (by simp)
  rw [List.append_nil, tokens_nil] at hcloses
  rw [List.nil_append, tokens_nil, List.nil_append] at hopens
  rw [eventsOf_parse, String.toList_append, String.toList_append, List.append_assoc, hopens,
    hcloses, Token.eventsFrom, Token.after, Token.eventsFrom_append, hevents, hopened,
    Span.eventsOf_singleton, Span.events]
  simp [Token.eventsFrom, Token.events, Token.consumed, Token.after, Tag.event]

/-- Parsing goes by the parts of markup. Tokens are closed exactly if no style is open after them,
and where they are closed before a line break, the spans are those before it, the break, and those
after it. Where tags are balanced, a run around them has their spans and nothing else. -/
theorem parse_composes :
    (∀ ts : List Token, Token.Closed none ts ↔ ts.foldl Token.after [] = []) ∧
    (∀ a b br : String, Token.Closed none (tokens a.toList) → Tag.lineBreak.IsWritten br →
      (parse (a ++ br ++ b)).spans = (parse a).spans ++ [.lineBreak] ++ (parse b).spans) ∧
    ∀ (a first last : String) (style : Style), Token.Balanced (tokens a.toList) →
      (Tag.opens style).IsWritten first → (Tag.closes style).IsWritten last →
      (parse (first ++ a ++ last)).spans = [.styled style (parse a).spans] := by
  refine ⟨fun ts => Token.closed_iff, ?_, ?_⟩
  · intro a b br ha hbr
    rw [spans_parse_break ha hbr, List.append_assoc, List.singleton_append]
  · intro a first last style ha hfirst hlast
    exact spans_parse_run (ha.closed _) hfirst hlast

/-- A `<` that begins no tag and closing tags that close nothing, on both sides of a break; and a
run inside a run. -/
theorem parse_composes_stray :
    let a := "<<b>x</i></b>"
    let b := "</b><"
    let c := "<b>x</b>"
    Token.Closed none (tokens a.toList) ∧ Token.Balanced (tokens c.toList) ∧
      Tag.lineBreak.IsWritten "<br>" ∧ (Tag.opens .emphasis).IsWritten "<em>" ∧
      (Tag.closes .emphasis).IsWritten "</em>" ∧
      (parse (a ++ "<br>" ++ b)).spans =
        [.text "<", .styled .strong [.text "x</i>"], .lineBreak, .text "</b><"] ∧
      (parse ("<em>" ++ c ++ "</em>")).spans = [.styled .emphasis [.styled .strong [.text "x"]]] := by
  intro a b c
  have htokens : tokens a.toList = [.char '<', .tag (.opens .strong) ['b'], .char 'x',
      .tag (.closes .emphasis) ['/', 'i'], .tag (.closes .strong) ['/', 'b']] := by
    decide +kernel
  have htokens' : tokens b.toList = [.tag (.closes .strong) ['/', 'b'], .char '<'] := by
    decide +kernel
  have htokens'' : tokens c.toList = [.tag (.opens .strong) ['b'], .char 'x',
      .tag (.closes .strong) ['/', 'b']] := by
    decide +kernel
  have hclosed : Token.Closed none (tokens a.toList) := by
    rw [htokens]
    exact (Token.Closed.char '<').append
      (.run ((Token.Closed.char 'x').append (.stray (by decide) ['/', 'i'])) ['b'] ['/', 'b'])
  have hbalanced : Token.Balanced (tokens c.toList) := by
    rw [htokens'']
    exact .run (.char 'x') ['b'] ['/', 'b']
  have hbr : Tag.lineBreak.IsWritten "<br>" := ⟨"br".toList, by decide, by decide, by decide⟩
  have hfirst : (Tag.opens .emphasis).IsWritten "<em>" :=
    ⟨"em".toList, by decide, by decide, by decide⟩
  have hlast : (Tag.closes .emphasis).IsWritten "</em>" :=
    ⟨"/em".toList, by decide, by decide, by decide⟩
  refine ⟨hclosed, hbalanced, hbr, hfirst, hlast, ?_, ?_⟩
  · rw [parse_composes.2.1 a b "<br>" hclosed hbr, parse, parse, htokens, htokens']
    rfl
  · rw [parse_composes.2.2 c "<em>" "</em>" .emphasis hbalanced hfirst hlast, parse, htokens'']
    rfl

end RichText

end StaticSite
