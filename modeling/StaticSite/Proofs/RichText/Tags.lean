import StaticSite.RichText.Tag
import StaticSite.Proofs.Text.Cut

/-!
# Where tags stand in markup

A tag begins at a `<` if what stands before the next `>` is one of its spellings, blanks and letter
case ignored. No spelling holds a `<`, so two tags never overlap, and cutting markup into tokens
from left to right meets every tag that begins anywhere in it, and nothing else as a tag.
-/

namespace StaticSite

namespace Tag

def spellings : Tag → List String
  | .lineBreak => ["br", "br/", "/br"]
  | .opens .emphasis => ["em", "i"]
  | .closes .emphasis => ["/em", "/i"]
  | .opens .strong => ["strong", "b"]
  | .closes .strong => ["/strong", "/b"]

def spelling (inner : List Char) : String :=
  Text.lower (String.ofList (inner.filter fun c => !Text.isBlank c))

/-- A tag begins a text: a `<`, one of its spellings, and the next `>`. -/
def Begins (t : Tag) (s : List Char) : Prop :=
  ∃ inner after, s = '<' :: inner ++ '>' :: after ∧ '>' ∉ inner ∧ spelling inner ∈ t.spellings

theorem named?_of_mem_spellings {name : String} {t : Tag} (h : name ∈ t.spellings) :
    named? name = some t := by
  rcases t with _ | style | style
  · simp only [spellings, List.mem_cons, List.not_mem_nil, or_false] at h
    rcases h with rfl | rfl | rfl <;> rfl
  · cases style
    all_goals
      simp only [spellings, List.mem_cons, List.not_mem_nil, or_false] at h
      rcases h with rfl | rfl <;> rfl
  · cases style
    all_goals
      simp only [spellings, List.mem_cons, List.not_mem_nil, or_false] at h
      rcases h with rfl | rfl <;> rfl

theorem mem_spellings_of_named? {name : String} {t : Tag} (h : named? name = some t) :
    name ∈ t.spellings := by
  unfold named? at h
  split at h
  · cases h
    assumption
  split at h
  · cases h
    assumption
  split at h
  · cases h
    assumption
  split at h
  · cases h
    assumption
  split at h
  · cases h
    assumption
  · cases h

theorem recognize_eq_some_iff {rest inner after : List Char} {t : Tag} :
    recognize rest = some (t, inner, after) ↔
      rest = inner ++ '>' :: after ∧ '>' ∉ inner ∧ spelling inner ∈ t.spellings := by
  constructor
  · intro h
    refine ⟨eq_append_of_recognize h, ?_⟩
    unfold recognize at h
    split at h
    · cases h
    · rename_i inner' after' hc
      obtain ⟨t', ht, he⟩ := Option.map_eq_some_iff.1 h
      obtain ⟨rfl, rfl, rfl⟩ : t' = t ∧ inner' = inner ∧ after' = after := by simpa using he
      have hn := Text.not_infix_of_cut (by simp) hc
      refine ⟨?_, mem_spellings_of_named? ht⟩
      simpa [List.singleton_infix_iff] using hn
  · rintro ⟨rfl, hn, hs⟩
    have ht : read? inner = some t := named?_of_mem_spellings hs
    rw [recognize, Text.cut_singleton hn]
    simp only [ht, Option.map_some]

theorem lt_not_mem_of_spelling {inner : List Char} {t : Tag} (h : spelling inner ∈ t.spellings) :
    '<' ∉ inner := by
  intro hm
  have hl : '<' ∈ (spelling inner).toList := by
    have hf : '<' ∈ inner.filter fun c => !Text.isBlank c :=
      List.mem_filter.2 ⟨hm, by decide⟩
    have hc : '<' ∈ (inner.filter fun c => !Text.isBlank c).map Char.toLower :=
      List.mem_map.2 ⟨'<', hf, by decide⟩
    simpa [spelling, Text.lower] using hc
  have hnone : ∀ name ∈ t.spellings, '<' ∉ name.toList := by
    rcases t with _ | style | style
    · decide
    · cases style <;> decide
    · cases style <;> decide
  exact hnone _ h hl

theorem begins_lt_iff {t : Tag} {rest : List Char} :
    t.Begins ('<' :: rest) ↔ ∃ inner after, recognize rest = some (t, inner, after) := by
  constructor
  · rintro ⟨inner, after, he, hn, hs⟩
    rw [List.cons_append, List.cons.injEq] at he
    exact ⟨inner, after, recognize_eq_some_iff.2 ⟨he.2, hn, hs⟩⟩
  · rintro ⟨inner, after, h⟩
    obtain ⟨rfl, hn, hs⟩ := recognize_eq_some_iff.1 h
    exact ⟨inner, after, rfl, hn, hs⟩

theorem head_eq_of_begins {t : Tag} {c : Char} {s : List Char} (h : t.Begins (c :: s)) :
    c = '<' := by
  obtain ⟨inner, after, he, -, -⟩ := h
  rw [List.cons_append, List.cons.injEq] at he
  exact he.1

theorem not_begins_nil (t : Tag) : ¬ t.Begins [] := by
  rintro ⟨inner, after, he, -, -⟩
  simp at he

theorem not_begins_drop (t : Tag) {l : List Char} (h : '<' ∉ l) {i : Nat} (hi : i < l.length)
    (r : List Char) : ¬ t.Begins ((l ++ r).drop i) := by
  intro hb
  rw [List.drop_append_of_le_length (by omega), List.drop_eq_getElem_cons hi] at hb
  have hc : l[i] = '<' := head_eq_of_begins hb
  exact h (hc ▸ List.getElem_mem hi)

/-- After a tag, the next place where one may begin is behind its `>`. -/
theorem begins_drop_iff {t t' : Tag} {inner after : List Char} (hn : '>' ∉ inner)
    (hs : spelling inner ∈ t.spellings) (i : Nat) :
    t'.Begins (('<' :: inner ++ '>' :: after).drop i) ↔
      (i = 0 ∧ t' = t) ∨ ∃ j, i = inner.length + 2 + j ∧ t'.Begins (after.drop j) := by
  have hr : recognize (inner ++ '>' :: after) = some (t, inner, after) :=
    recognize_eq_some_iff.2 ⟨rfl, hn, hs⟩
  have hlt : '<' ∉ inner ++ ['>'] := by simpa using lt_not_mem_of_spelling hs
  have hsplit : '<' :: inner ++ '>' :: after = '<' :: ((inner ++ ['>']) ++ after) := by simp
  have hlen : (inner ++ ['>']).length = inner.length + 1 := by simp
  constructor
  · intro hb
    cases i with
    | zero =>
      obtain ⟨inner', after', h⟩ := begins_lt_iff.1 hb
      have he : some (t, inner, after) = some (t', inner', after') := hr.symm.trans h
      cases he
      exact Or.inl ⟨rfl, rfl⟩
    | succ i =>
      rw [hsplit, List.drop_succ_cons] at hb
      -- Up to the `>` there is no `<`; behind it the rest of the text begins.
      by_cases hi : i < (inner ++ ['>']).length
      · exact absurd hb (not_begins_drop t' hlt hi after)
      · refine Or.inr ⟨i - (inner.length + 1), by omega, ?_⟩
        rwa [List.drop_append, List.drop_eq_nil_of_le (by omega), hlen, List.nil_append] at hb
  · rintro (⟨rfl, rfl⟩ | ⟨j, rfl, hb⟩)
    · exact begins_lt_iff.2 ⟨inner, after, hr⟩
    · have hi : inner.length + 2 + j = (inner ++ ['>']).length + j + 1 := by omega
      rwa [hsplit, hi, List.drop_succ_cons, List.drop_length_add_append]

end Tag

theorem tokens_nil : tokens [] = [] := by rw [tokens]

theorem tokens_cons_of_ne {c : Char} (h : c ≠ '<') (rest : List Char) :
    tokens (c :: rest) = .char c :: tokens rest := by
  rw [tokens, if_neg h]

theorem tokens_of_recognize {rest inner after : List Char} {t : Tag}
    (h : Tag.recognize rest = some (t, inner, after)) :
    tokens ('<' :: rest) = .tag t inner :: tokens after := by
  rw [tokens, if_pos rfl]
  split
  · rename_i hs
    rw [h] at hs
    cases hs
    rfl
  · rename_i hn
    rw [h] at hn
    cases hn

theorem tokens_of_not_recognize {rest : List Char} (h : Tag.recognize rest = none) :
    tokens ('<' :: rest) = .char '<' :: tokens rest := by
  rw [tokens, if_pos rfl]
  split
  · rename_i hs
    rw [h] at hs
    cases hs
  · rfl

/-- Induction along the tokens of markup: at a character that begins no tag, or at a tag. -/
theorem tokens_induction {P : List Char → Prop} (nil : P [])
    (char : ∀ c rest, tokens (c :: rest) = .char c :: tokens rest →
      (∀ t : Tag, ¬ t.Begins (c :: rest)) → P rest → P (c :: rest))
    (tag : ∀ (t : Tag) inner after, '>' ∉ inner → Tag.spelling inner ∈ t.spellings →
      tokens ('<' :: inner ++ '>' :: after) = .tag t inner :: tokens after →
      P after → P ('<' :: inner ++ '>' :: after)) (s : List Char) : P s := by
  -- A tag takes more than one character off the text, so the induction is on its length.
  induction hl : s.length using Nat.strong_induction_on generalizing s with
  | _ n ih =>
    cases s with
    | nil => exact nil
    | cons c rest =>
      have hrest : P rest := ih rest.length (by rw [← hl]; simp) rest rfl
      by_cases hc : c = '<'
      · subst hc
        cases hr : Tag.recognize rest with
        | none =>
          refine char '<' rest (tokens_of_not_recognize hr) ?_ hrest
          intro t hb
          obtain ⟨inner, after, h⟩ := Tag.begins_lt_iff.1 hb
          rw [hr] at h
          cases h
        | some r =>
          obtain ⟨t, inner, after⟩ := r
          have hlt : after.length < rest.length := Tag.length_of_recognize hr
          have hafter : P after := ih after.length (by rw [← hl, List.length_cons]; omega) after rfl
          obtain ⟨he, hn, hs⟩ := Tag.recognize_eq_some_iff.1 hr
          have ht := tokens_of_recognize hr
          subst he
          exact tag t inner after hn hs ht hafter
      · refine char c rest (tokens_cons_of_ne hc rest) ?_ hrest
        intro t hb
        exact hc (Tag.head_eq_of_begins hb)

theorem source_tokens (s : List Char) : (tokens s).flatMap Token.source = s := by
  induction s using tokens_induction with
  | nil => simp [tokens_nil]
  | char c rest ht _ ih => rw [ht, List.flatMap_cons, ih, Token.source, List.singleton_append]
  | tag t inner after _ _ ht ih =>
    rw [ht, List.flatMap_cons, ih, Token.source]
    simp

theorem spelling_of_mem_tokens {s inner : List Char} {t : Tag} (h : Token.tag t inner ∈ tokens s) :
    '>' ∉ inner ∧ Tag.spelling inner ∈ t.spellings := by
  induction s using tokens_induction with
  | nil =>
    rw [tokens_nil] at h
    cases h
  | char c rest ht _ ih =>
    rw [ht, List.mem_cons] at h
    rcases h with he | hm
    · cases he
    · exact ih hm
  | tag t' inner' after hn hs ht ih =>
    rw [ht, List.mem_cons] at h
    rcases h with he | hm
    · cases he
      exact ⟨hn, hs⟩
    · exact ih hm

/-- The tags among tokens, each with the number of characters before it. -/
def tagPlaces : Nat → List Token → List (Nat × Tag)
  | _, [] => []
  | i, .char _ :: ts => tagPlaces (i + 1) ts
  | i, .tag t inner :: ts => (i, t) :: tagPlaces (i + (inner.length + 2)) ts

theorem mem_tagPlaces_tokens (s : List Char) (k i : Nat) (t : Tag) :
    (i, t) ∈ tagPlaces k (tokens s) ↔ ∃ j, i = k + j ∧ t.Begins (s.drop j) := by
  induction s using tokens_induction generalizing k with
  | nil =>
    rw [tokens_nil, tagPlaces]
    constructor
    · intro h
      cases h
    · rintro ⟨j, -, hb⟩
      rw [List.drop_nil] at hb
      exact absurd hb (Tag.not_begins_nil t)
  | char c rest ht hnone ih =>
    rw [ht, tagPlaces, ih]
    constructor
    · rintro ⟨j, rfl, hb⟩
      exact ⟨j + 1, by omega, hb⟩
    · rintro ⟨j, rfl, hb⟩
      cases j with
      | zero => exact absurd hb (hnone t)
      | succ j => exact ⟨j, by omega, hb⟩
  | tag t' inner after hn hs ht ih =>
    rw [ht, tagPlaces, List.mem_cons, ih]
    constructor
    · rintro (he | ⟨j, rfl, hb⟩)
      · obtain ⟨rfl, rfl⟩ := Prod.mk.inj he
        exact ⟨0, rfl, (Tag.begins_drop_iff hn hs 0).2 (Or.inl ⟨rfl, rfl⟩)⟩
      · refine ⟨inner.length + 2 + j, by omega, ?_⟩
        exact (Tag.begins_drop_iff hn hs _).2 (Or.inr ⟨j, rfl, hb⟩)
    · rintro ⟨j, rfl, hb⟩
      rcases (Tag.begins_drop_iff hn hs j).1 hb with ⟨rfl, rfl⟩ | ⟨j', rfl, hb'⟩
      · exact Or.inl rfl
      · exact Or.inr ⟨j', by omega, hb'⟩

end StaticSite
