import StaticSite.Proofs.RichText.NormalForm
import StaticSite.Proofs.Markup.Escape
import StaticSite.Markup.Html

/-!
# Markup without tags

A tag is read without its blanks and in small letters. So tags begin in a text exactly if, once all
its blanks are left out and its letters made small, one of their written forms stands in it. A text
is plain, and all of it is kept, exactly if no break and no tag that opens a style stands in it in
this sense; closing tags that close nothing are text. Without the blanks in it, `a < b > c` holds a
tag, and so it is not kept although none of the tags stands in it as it is written.
-/

namespace StaticSite

namespace Text

theorem eq_of_toLower_eq {c d : Char} (hd : d.toNat < 65) (h : c.toLower = d) : c = d := by
  unfold Char.toLower at h
  split at h
  · rename_i hc
    have hA : 65 ≤ c.toNat := UInt32.le_iff_toNat_le.1 hc.1
    have hZ : c.toNat ≤ 90 := UInt32.le_iff_toNat_le.1 hc.2
    rw [← h] at hd
    simp at hd
    omega
  · exact h

def bare? (c : Char) : Option Char := if isBlank c then none else some c.toLower

/-- A text without its blanks and in small letters. -/
def bare (s : List Char) : List Char := s.filterMap bare?

theorem eq_of_bare?_eq {c d : Char} (hd : d.toNat < 65) (h : bare? c = some d) : c = d := by
  unfold bare? at h
  split at h
  · cases h
  · exact eq_of_toLower_eq hd (Option.some.inj h)

theorem bare_append (s t : List Char) : bare (s ++ t) = bare s ++ bare t :=
  List.filterMap_append ..

theorem bare_eq_nil {s : List Char} (h : ∀ c ∈ s, bare? c = none) : bare s = [] :=
  List.filterMap_eq_nil_iff.2 h

theorem not_mem_of_bare {s : List Char} (h : '>' ∉ bare s) : '>' ∉ s := fun hm =>
  h (List.mem_filterMap.2 ⟨'>', hm, by decide⟩)

end Text

namespace Tag

def written (name : String) : List Char := '<' :: (name.toList ++ ['>'])

theorem toList_spelling (inner : List Char) : (spelling inner).toList = Text.bare inner := by
  rw [spelling, Text.lower, String.toList_ofList, String.toList_ofList, Text.bare]
  induction inner with
  | nil => rfl
  | cons c inner ih =>
    cases hc : Text.isBlank c <;> simp [Text.bare?, hc, ih]

theorem gt_not_mem_of_mem_spellings {t : Tag} {name : String} (h : name ∈ t.spellings) :
    '>' ∉ name.toList := by
  have hnone : ∀ name ∈ t.spellings, '>' ∉ name.toList := by
    rcases t with _ | style | style
    · decide
    · cases style <;> decide
    · cases style <;> decide
  exact hnone name h

/-- A tag begins somewhere in a text exactly if one of its written forms stands in it, once blanks
are left out and letters are made small. -/
theorem exists_begins_iff {t : Tag} {s : List Char} :
    (∃ i, t.Begins (s.drop i)) ↔ ∃ name ∈ t.spellings, written name <:+: Text.bare s := by
  constructor
  · rintro ⟨i, inner, after, hdrop, -, hs⟩
    refine ⟨spelling inner, hs, Text.bare (s.take i), Text.bare after, ?_⟩
    have hbare : Text.bare ('<' :: inner ++ '>' :: after) =
        '<' :: (Text.bare inner ++ '>' :: Text.bare after) := by
      rw [Text.bare_append]
      rfl
    rw [← List.take_append_drop i s, Text.bare_append, List.take_append_drop, hdrop, hbare, written,
      toList_spelling]
    simp
  · rintro ⟨name, hname, x, y, hxy⟩
    -- The pieces of the bare text come from pieces of the text, with blanks before the brackets.
    have hshape : Text.bare s = x ++ '<' :: (name.toList ++ '>' :: y) := by
      rw [← hxy, written]
      simp
    obtain ⟨s₁, s₂, rfl, -, hs₂⟩ := List.filterMap_eq_append_iff.1 hshape
    obtain ⟨blanks, c, s₃, rfl, -, hc, hs₃⟩ := List.filterMap_eq_cons_iff.1 hs₂
    obtain ⟨inner, s₄, rfl, hinner, hs₄⟩ := List.filterMap_eq_append_iff.1 hs₃
    obtain ⟨blanks', d, after, rfl, hblanks, hd, -⟩ := List.filterMap_eq_cons_iff.1 hs₄
    obtain rfl := Text.eq_of_bare?_eq (by decide) hc
    obtain rfl := Text.eq_of_bare?_eq (by decide) hd
    have hbare : Text.bare (inner ++ blanks') = name.toList := by
      rw [Text.bare_append, Text.bare_eq_nil hblanks, List.append_nil]
      exact hinner
    have hspelling : spelling (inner ++ blanks') = name := by
      rw [← String.toList_inj, toList_spelling, hbare]
    refine ⟨(s₁ ++ blanks).length, inner ++ blanks', after, ?_, ?_, hspelling ▸ hname⟩
    · simp
    · exact Text.not_mem_of_bare (hbare ▸ gt_not_mem_of_mem_spellings hname)

end Tag

namespace RichText

/-- The break tags and the tags that open a style, as they are documented. -/
def startTags : List String :=
  ["<br>", "<br/>", "<br />", "</br>", "<em>", "<i>", "<strong>", "<b>"]

def closingTags : List String := ["</em>", "</i>", "</strong>", "</b>"]

theorem spans_plain (m : String) :
    Span.allNormal (plain m).spans = true ∧ Span.eventsOf (plain m).spans = m.toList.map .char := by
  unfold plain
  split
  · rename_i hm
    rw [hm]
    exact ⟨rfl, rfl⟩
  · rename_i hm
    refine ⟨?_, Span.eventsOf_singleton _⟩
    simp [Span.allNormal, Span.isNormal, Span.startsWithText, hm]

theorem html_plain (m : String) : (plain m).html = Escape.forText m := by
  unfold plain
  split
  · rename_i hm
    rw [hm]
    decide
  · simp [html, Span.htmls, Span.html]

theorem eventsFrom_of_closing {s : List Char}
    (h : ∀ t i, (∀ style, t ≠ Tag.closes style) → ¬ t.Begins (s.drop i)) :
    Token.eventsFrom [] (tokens s) = s.map .char := by
  induction s using tokens_induction with
  | nil =>
    rw [tokens_nil]
    rfl
  | char c rest ht _ ih =>
    have hrest := ih fun t i ht' => h t (i + 1) ht'
    rw [ht, Token.eventsFrom, Token.after, hrest]
    rfl
  | tag t inner after hn hs ht ih =>
    have hbegins : t.Begins ('<' :: inner ++ '>' :: after) := ⟨inner, after, rfl, hn, hs⟩
    have hafter := ih fun t' i ht' hb => h t' (inner.length + 2 + i) ht'
      ((Tag.begins_drop_iff hn hs _).2 (.inr ⟨i, rfl, hb⟩))
    obtain ⟨style, rfl⟩ : ∃ style, t = .closes style := by
      by_contra hne
      exact h t 0 (fun style he => hne ⟨style, he⟩) hbegins
    have hkept : Token.consumed [] (.tag (.closes style) inner) = false := rfl
    rw [ht, Token.eventsFrom, Token.after_of_not_consumed hkept,
      Token.events_of_not_consumed hkept, hafter, ← List.map_append, Token.source]
    simp

theorem not_begins_of_parse_eq_plain {m : String} (h : parse m = plain m) {t : Tag}
    (ht : ∀ style, t ≠ Tag.closes style) (i : Nat) : ¬ t.Begins (m.toList.drop i) := by
  intro hb
  have hplace : (i, t) ∈ tagPlaces 0 (tokens m.toList) :=
    (mem_tagPlaces_tokens m.toList 0 i t).2 ⟨i, by simp, hb⟩
  have hmem : t ∈ (tagPlaces 0 (tokens m.toList)).map Prod.snd :=
    List.mem_map.2 ⟨(i, t), hplace, rfl⟩
  have hcount := Token.count_event_eventsFrom ht 0 [] (tokens m.toList)
  rw [← eventsOf_parse, h, (spans_plain m).2, Token.count_event_chars] at hcount
  exact absurd hmem (List.count_eq_zero.1 hcount.symm)

theorem parse_eq_plain_of_not_begins {m : String}
    (h : ∀ t i, (∀ style, t ≠ Tag.closes style) → ¬ t.Begins (m.toList.drop i)) :
    parse m = plain m := by
  have hevents : Span.eventsOf (parse m).spans = Span.eventsOf (plain m).spans := by
    rw [eventsOf_parse, eventsFrom_of_closing h, (spans_plain m).2]
  exact congrArg mk (Span.eq_of_eventsOf_eq (allNormal_parse m) (spans_plain m).1 hevents)

theorem exists_begins_iff_startTags {s : List Char} :
    (∃ t i, (∀ style, t ≠ Tag.closes style) ∧ t.Begins (s.drop i)) ↔
      ∃ d ∈ startTags, Text.bare d.toList <:+: Text.bare s := by
  have hdocumented : ∀ t, (∀ style, t ≠ Tag.closes style) → ∀ name ∈ t.spellings,
      ∃ d ∈ startTags, Text.bare d.toList = Tag.written name := by
    intro t ht
    rcases t with _ | style | style
    · decide
    · cases style <;> decide
    · exact absurd rfl (ht style)
  have hread : ∀ d ∈ startTags, ∃ t ∈ [Tag.lineBreak, .opens .emphasis, .opens .strong],
      ∃ name ∈ t.spellings, Tag.written name = Text.bare d.toList := by
    decide
  have hopens : ∀ t ∈ [Tag.lineBreak, .opens .emphasis, .opens .strong],
      ∀ style, t ≠ Tag.closes style := by
    simp
  constructor
  · rintro ⟨t, i, ht, hb⟩
    obtain ⟨name, hname, hinfix⟩ := Tag.exists_begins_iff.1 ⟨i, hb⟩
    obtain ⟨d, hd, hbare⟩ := hdocumented t ht name hname
    exact ⟨d, hd, hbare ▸ hinfix⟩
  · rintro ⟨d, hd, hinfix⟩
    obtain ⟨t, ht, name, hname, hwritten⟩ := hread d hd
    obtain ⟨i, hb⟩ := Tag.exists_begins_iff.2 ⟨name, hname, hwritten ▸ hinfix⟩
    exact ⟨t, i, hopens t ht, hb⟩

/-- Parsing keeps a text as it is exactly if no documented break or opening tag stands in it, blanks
and letter case left aside. Where none of the documented tags stands in it in this sense, all of it
is text, and all of it is escaped. -/
theorem parse_eq_plain_iff (m : String) :
    (parse m = plain m ↔ ∀ d ∈ startTags, ¬ Text.bare d.toList <:+: Text.bare m.toList) ∧
      ((∀ d ∈ startTags ++ closingTags, ¬ Text.bare d.toList <:+: Text.bare m.toList) →
        parse m = plain m ∧ (parse m).html = Escape.forText m) := by
  have hiff : parse m = plain m ↔
      ∀ d ∈ startTags, ¬ Text.bare d.toList <:+: Text.bare m.toList := by
    constructor
    · intro h d hd hinfix
      obtain ⟨t, i, ht, hb⟩ := exists_begins_iff_startTags.2 ⟨d, hd, hinfix⟩
      exact not_begins_of_parse_eq_plain h ht i hb
    · intro h
      refine parse_eq_plain_of_not_begins fun t i ht hb => ?_
      obtain ⟨d, hd, hinfix⟩ := exists_begins_iff_startTags.1 ⟨t, i, ht, hb⟩
      exact h d hd hinfix
  refine ⟨hiff, fun h => ?_⟩
  have hplain : parse m = plain m := hiff.2 fun d hd => h d (List.mem_append_left _ hd)
  exact ⟨hplain, by rw [hplain, html_plain]⟩

/-- Signs that compare, a tag that is not documented, and an ampersand. -/
theorem parse_eq_plain_iff_comparison :
    let m := "1 < 2 & <U>3 > 2</U>"
    (∀ d ∈ startTags ++ closingTags, ¬ Text.bare d.toList <:+: Text.bare m.toList) ∧
      parse m = plain m ∧ (parse m).html = "1 &lt; 2 &amp; &lt;U&gt;3 &gt; 2&lt;/U&gt;" := by
  intro m
  have hnone : ∀ d ∈ startTags ++ closingTags, ¬ Text.bare d.toList <:+: Text.bare m.toList := by
    decide
  obtain ⟨hplain, hhtml⟩ := (parse_eq_plain_iff m).2 hnone
  refine ⟨hnone, hplain, ?_⟩
  rw [hhtml]
  decide

/-- No documented tag stands in this text, in any letter case, and still it is not kept: what stands
between the signs is read as a tag, and is lost. -/
theorem parse_reads_comparison :
    let m := "a < b > c"
    (∀ d ∈ startTags ++ closingTags, ¬ d.toList <:+: m.toList.map Char.toLower) ∧
      parse m ≠ plain m ∧ (parse m).html = "a <strong> c</strong>" := by
  intro m
  have htokens : tokens m.toList = [.char 'a', .char ' ', .tag (.opens .strong) [' ', 'b', ' '],
      .char ' ', .char 'c'] := by
    decide +kernel
  have hhtml : (parse m).html = "a <strong> c</strong>" := by
    rw [parse, htokens]
    decide
  refine ⟨by decide, fun h => ?_, hhtml⟩
  rw [h, html_plain] at hhtml
  revert hhtml
  decide

end RichText

end StaticSite
