import StaticSite.Proofs.Markup.Escape
import StaticSite.Proofs.Markup.Token
import StaticSite.Proofs.RichText.NormalForm

/-!
# Rich text through its HTML

The HTML of rich text is markup again. Where no text holds a reserved character, its tokens are the
events of the spans: a text is its characters, and the tags of a run are consumed as its beginning
and its end. So spans in normal form come back when their HTML is parsed.
-/

namespace StaticSite

def Span.isPlain (l : List Span) : Bool := (contents l).all fun c => c ∉ ['<', '>', '&']

namespace Span

theorem isPlain_cons {s : Span} {l : List Span} :
    isPlain (s :: l) = true ↔ isPlain [s] = true ∧ isPlain l = true := by
  rw [isPlain, contents_cons, List.all_append, Bool.and_eq_true]
  rfl

theorem isPlain_styled {style : Style} {inner : List Span} :
    isPlain [.styled style inner] = isPlain inner := by
  rw [isPlain, contents_styled, isPlain]

theorem not_mem_of_isPlain_text {s : String} (h : isPlain [.text s] = true) :
    '<' ∉ s.toList ∧ '>' ∉ s.toList ∧ '&' ∉ s.toList := by
  have hcontents : contents [.text s] = s.toList := by
    simp [contents, withinAll, within, ownText]
  rw [isPlain, hcontents, List.all_eq_true] at h
  refine ⟨fun hc => ?_, fun hc => ?_, fun hc => ?_⟩
  all_goals exact absurd (h _ hc) (by decide)

end Span

theorem Escape.forText_of_not_mem {s : String} (hlt : '<' ∉ s.toList) (hgt : '>' ∉ s.toList)
    (hamp : '&' ∉ s.toList) : forText s = s := by
  apply String.toList_inj.1
  rw [forText, toList_replace, toList_replace, toList_replace, flatMap_replace_of_not_mem hamp,
    flatMap_replace_of_not_mem hlt, flatMap_replace_of_not_mem hgt]

theorem tokens_append_of_not_mem {s : List Char} (h : '<' ∉ s) (rest : List Char) :
    tokens (s ++ rest) = s.map .char ++ tokens rest := by
  induction s with
  | nil => rfl
  | cons c s ih =>
    rw [List.mem_cons, not_or] at h
    rw [List.cons_append, tokens_cons_of_ne (Ne.symm h.1), ih h.2, List.map_cons, List.cons_append]

theorem tokens_spelling {t : Tag} {inner : List Char} (hn : '>' ∉ inner)
    (hs : Tag.spelling inner ∈ t.spellings) (rest : List Char) :
    tokens ('<' :: inner ++ '>' :: rest) = .tag t inner :: tokens rest :=
  tokens_of_recognize (Tag.recognize_eq_some_iff.2 ⟨rfl, hn, hs⟩)

theorem Token.eventsFrom_chars (opened : List Style) (s : List Char) (ts : List Token) :
    eventsFrom opened (s.map .char ++ ts) = s.map .char ++ eventsFrom opened ts := by
  induction s with
  | nil => rfl
  | cons c s ih =>
    rw [List.map_cons, List.cons_append, eventsFrom, after, ih]
    rfl

/-- The tags of a run begin and end it, whatever styles are open around it. -/
theorem Token.eventsFrom_run (opened : List Style) (style : Style) (inner rest : List Char) :
    eventsFrom opened (tokens ((startTag style.tag []).toList ++ inner)) =
        .opens style :: eventsFrom (style :: opened) (tokens inner) ∧
      eventsFrom (style :: opened) (tokens ((endTag style.tag).toList ++ rest)) =
        .closes style :: eventsFrom opened (tokens rest) := by
  have hopen : ∃ name : List Char, (startTag style.tag []).toList = '<' :: name ++ ['>'] ∧
      '>' ∉ name ∧ Tag.spelling name ∈ (Tag.opens style).spellings := by
    cases style with
    | emphasis => exact ⟨"em".toList, by decide, by decide, by decide⟩
    | strong => exact ⟨"strong".toList, by decide, by decide, by decide⟩
  have hclose : ∃ name : List Char, (endTag style.tag).toList = '<' :: name ++ ['>'] ∧
      '>' ∉ name ∧ Tag.spelling name ∈ (Tag.closes style).spellings := by
    cases style with
    | emphasis => exact ⟨"/em".toList, by decide, by decide, by decide⟩
    | strong => exact ⟨"/strong".toList, by decide, by decide, by decide⟩
  constructor
  · obtain ⟨name, he, hn, hs⟩ := hopen
    rw [he, List.append_assoc, List.singleton_append, tokens_spelling hn hs]
    rfl
  · obtain ⟨name, he, hn, hs⟩ := hclose
    have hconsumed : Token.consumed (style :: opened) (.tag (.closes style) name) = true :=
      decide_eq_true rfl
    rw [he, List.append_assoc, List.singleton_append, tokens_spelling hn hs, eventsFrom, events,
      if_pos hconsumed, after, List.head?_cons, if_pos rfl]
    rfl

mutual

theorem eventsFrom_html (opened : List Style) (rest : List Char) : (s : Span) →
    Span.isPlain [s] = true →
    Token.eventsFrom opened (tokens (s.html.toList ++ rest)) =
      s.events ++ Token.eventsFrom opened (tokens rest)
  | .text s, h => by
    obtain ⟨hlt, hgt, hamp⟩ := Span.not_mem_of_isPlain_text h
    rw [Span.html, Escape.forText_of_not_mem hlt hgt hamp, tokens_append_of_not_mem hlt,
      Token.eventsFrom_chars, Span.events]
  | .lineBreak, _ => by
    have htag : (Span.html .lineBreak).toList ++ rest = '<' :: "br".toList ++ '>' :: rest := rfl
    rw [htag, tokens_spelling (t := .lineBreak) (by decide) (by decide)]
    rfl
  | .styled style inner, h => by
    rw [Span.isPlain_styled] at h
    obtain ⟨hstart, -⟩ := Token.eventsFrom_run opened style
      ((Span.htmls inner).toList ++ ((endTag style.tag).toList ++ rest)) []
    obtain ⟨-, hend⟩ := Token.eventsFrom_run opened style [] rest
    rw [Span.html_styled, String.toList_append, String.toList_append, List.append_assoc,
      List.append_assoc, hstart, eventsFrom_htmls (style :: opened) _ inner h, hend, Span.events]
    simp

theorem eventsFrom_htmls (opened : List Style) (rest : List Char) : (l : List Span) →
    Span.isPlain l = true →
    Token.eventsFrom opened (tokens ((Span.htmls l).toList ++ rest)) =
      Span.eventsOf l ++ Token.eventsFrom opened (tokens rest)
  | [], _ => rfl
  | s :: l, h => by
    obtain ⟨hs, hl⟩ := Span.isPlain_cons.1 h
    rw [Span.htmls, String.toList_append, List.append_assoc, eventsFrom_html opened _ s hs,
      eventsFrom_htmls opened rest l hl, Span.eventsOf, List.append_assoc]

end

theorem RichText.parse_html {r : RichText} (hn : Span.allNormal r.spans = true)
    (hp : Span.isPlain r.spans = true) : RichText.parse r.html = r := by
  have hevents : Span.eventsOf (RichText.parse r.html).spans = Span.eventsOf r.spans := by
    have h := eventsFrom_htmls [] [] r.spans hp
    rw [List.append_nil, tokens_nil] at h
    rw [RichText.eventsOf_parse, RichText.html, h]
    exact List.append_nil _
  have hspans := Span.eq_of_eventsOf_eq (RichText.allNormal_parse r.html) hn hevents
  cases r
  exact congrArg RichText.mk hspans

/-- Parsed markup is in normal form, and on normal forms without reserved characters in their texts
parsing undoes writing: the same spans come back, and the same HTML. -/
theorem RichText.parse_inverts_html :
    (∀ markup, Span.allNormal (RichText.parse markup).spans = true) ∧
    (∀ r : RichText, Span.allNormal r.spans = true → Span.isPlain r.spans = true →
      RichText.parse r.html = r) ∧
    ∀ s : String, (∃ r : RichText, Span.allNormal r.spans = true ∧ Span.isPlain r.spans = true ∧
      r.html = s) → (RichText.parse s).html = s := by
  refine ⟨RichText.allNormal_parse, fun r hn hp => RichText.parse_html hn hp, ?_⟩
  rintro s ⟨r, hn, hp, rfl⟩
  rw [RichText.parse_html hn hp]

/-- Nested runs, one of them empty, with quotes and a letter beyond ASCII in the texts. -/
theorem RichText.parse_inverts_html_nested :
    let r : RichText := ⟨[.text "\"a\" ", .styled .strong [.lineBreak, .styled .emphasis [],
      .styled .emphasis [.text "é"]], .text "b"]⟩
    let s := "\"a\" <strong><br><em></em><em>é</em></strong>b"
    Span.allNormal r.spans = true ∧ Span.isPlain r.spans = true ∧ r.html = s ∧
      RichText.parse r.html = r ∧ (RichText.parse s).html = s := by
  intro r s
  have hn : Span.allNormal r.spans = true := by decide
  have hp : Span.isPlain r.spans = true := by decide
  have hs : r.html = s := by decide
  obtain ⟨-, hparse, hhtml⟩ := RichText.parse_inverts_html
  exact ⟨hn, hp, hs, hparse r hn hp, hhtml s ⟨r, hn, hp, hs⟩⟩

end StaticSite
