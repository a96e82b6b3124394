import Mathlib.Data.List.Nodup
import StaticSite.Page.Descriptor
import StaticSite.Proofs.Text.Trim

/-!
# Keywords as an ordered set

The keywords of a descriptor are those of the settings without the blanks around them and without
blank ones, each of them once and in the order in which they first occur. Only one list is like
that, so making the set of a set changes nothing, and neither does one more occurrence.
-/

namespace StaticSite

/-- The members of `kept` are the keywords that are not blank, without the blanks around them. They
are ordered by where they first occur. -/
structure IsOrderedSetOf (kept keywords : List String) : Prop where
  mem_iff : ∀ k, k ∈ kept ↔ k ≠ "" ∧ k ∈ keywords.map Text.trim
  ordered : kept.Pairwise fun a b =>
    (keywords.map Text.trim).idxOf a < (keywords.map Text.trim).idxOf b

theorem pairwise_idxOf_lt {l : List String} (h : l.Nodup) :
    l.Pairwise fun a b => l.idxOf a < l.idxOf b := by
  rw [List.pairwise_iff_getElem]
  intro i j hi hj hlt
  rw [h.idxOf_getElem i hi, h.idxOf_getElem j hj]
  exact hlt

namespace IsOrderedSetOf

variable {kept kept' keywords more : List String}

theorem nodup (h : IsOrderedSetOf kept keywords) : kept.Nodup := by
  refine List.nodup_iff_pairwise_ne.2 (h.ordered.imp ?_)
  rintro a b hlt rfl
  exact Nat.lt_irrefl _ hlt

theorem trim_eq (h : IsOrderedSetOf kept keywords) {k : String} (hk : k ∈ kept) :
    Text.trim k = k := by
  obtain ⟨keyword, -, rfl⟩ := List.mem_map.1 ((h.mem_iff k).1 hk).2
  exact (Text.isTrimmed_trimBoth _ keyword).trimBoth_eq

theorem isBlankText_eq_false (h : IsOrderedSetOf kept keywords) {k : String} (hk : k ∈ kept) :
    Text.isBlankText k = false := by
  rw [← Bool.not_eq_true, ← Text.trim_eq_empty_iff, h.trim_eq hk]
  exact ((h.mem_iff k).1 hk).1

theorem mem_iff_exists (h : IsOrderedSetOf kept keywords) (k : String) :
    k ∈ kept ↔ ∃ keyword ∈ keywords, Text.isBlankText keyword = false ∧ Text.trim keyword = k := by
  rw [h.mem_iff, List.mem_map]
  constructor
  · rintro ⟨hne, keyword, hmem, rfl⟩
    rw [ne_eq, Text.trim_eq_empty_iff, Bool.not_eq_true] at hne
    exact ⟨keyword, hmem, hne, rfl⟩
  · rintro ⟨keyword, hmem, hblank, rfl⟩
    rw [ne_eq, Text.trim_eq_empty_iff, Bool.not_eq_true]
    exact ⟨hblank, keyword, hmem, rfl⟩

theorem first_lt_of_idxOf_lt (h : IsOrderedSetOf kept keywords) {a b : String} (ha : a ∈ kept)
    (hb : b ∈ kept) (hlt : kept.idxOf a < kept.idxOf b) :
    (keywords.map Text.trim).idxOf a < (keywords.map Text.trim).idxOf b := by
  have hordered := List.pairwise_iff_getElem.1 h.ordered _ _ (List.idxOf_lt_length_of_mem ha)
    (List.idxOf_lt_length_of_mem hb) hlt
  rwa [List.getElem_idxOf, List.getElem_idxOf] at hordered

/-- One member stands before another exactly where it occurs first. -/
theorem idxOf_lt_iff (h : IsOrderedSetOf kept keywords) {a b : String} (ha : a ∈ kept)
    (hb : b ∈ kept) :
    kept.idxOf a < kept.idxOf b ↔
      (keywords.map Text.trim).idxOf a < (keywords.map Text.trim).idxOf b := by
  refine ⟨h.first_lt_of_idxOf_lt ha hb, fun hfirst => ?_⟩
  rcases Nat.lt_trichotomy (kept.idxOf a) (kept.idxOf b) with hlt | heq | hgt
  · exact hlt
  · rw [(List.idxOf_inj ha).1 heq] at hfirst
    exact absurd hfirst (Nat.lt_irrefl _)
  · exact absurd hfirst (Nat.lt_asymm (h.first_lt_of_idxOf_lt hb ha hgt))

theorem unique (h : IsOrderedSetOf kept keywords) (h' : IsOrderedSetOf kept' keywords) :
    kept = kept' := by
  have hperm : kept.Perm kept' := (List.perm_ext_iff_of_nodup h.nodup h'.nodup).2 fun k =>
    (h.mem_iff k).trans (h'.mem_iff k).symm
  exact hperm.eq_of_pairwise (fun a b _ _ hlt hgt => absurd hgt (Nat.lt_asymm hlt)) h.ordered
    h'.ordered

theorem self (h : IsOrderedSetOf kept keywords) : IsOrderedSetOf kept kept := by
  have hmap : kept.map Text.trim = kept := by
    rw [List.map_congr_left fun k hk => h.trim_eq hk, List.map_id']
  constructor
  · intro k
    rw [hmap]
    exact ⟨fun hk => ⟨((h.mem_iff k).1 hk).1, hk⟩, And.right⟩
  · rw [hmap]
    exact pairwise_idxOf_lt h.nodup

/-- Further keywords do not change where the members first occur. -/
theorem ordered_append (h : IsOrderedSetOf kept keywords) (more : List String) :
    kept.Pairwise fun a b =>
      ((keywords ++ more).map Text.trim).idxOf a < ((keywords ++ more).map Text.trim).idxOf b := by
  refine h.ordered.imp_of_mem ?_
  intro a b ha hb hlt
  rw [List.map_append, List.idxOf_append_of_mem ((h.mem_iff a).1 ha).2,
    List.idxOf_append_of_mem ((h.mem_iff b).1 hb).2]
  exact hlt

theorem append_of_known (h : IsOrderedSetOf kept keywords)
    (hmore : ∀ w ∈ more, Text.trim w = "" ∨ Text.trim w ∈ kept) :
    IsOrderedSetOf kept (keywords ++ more) := by
  refine ⟨fun k => ?_, h.ordered_append more⟩
  rw [List.map_append, List.mem_append]
  constructor
  · intro hk
    obtain ⟨hne, hmem⟩ := (h.mem_iff k).1 hk
    exact ⟨hne, .inl hmem⟩
  · rintro ⟨hne, hmem | hmem⟩
    · exact (h.mem_iff k).2 ⟨hne, hmem⟩
    · obtain ⟨w, hw, rfl⟩ := List.mem_map.1 hmem
      exact (hmore w hw).resolve_left hne

theorem concat_of_new (h : IsOrderedSetOf kept keywords) {keyword : String}
    (hne : Text.trim keyword ≠ "") (hnew : Text.trim keyword ∉ kept) :
    IsOrderedSetOf (kept ++ [Text.trim keyword]) (keywords ++ [keyword]) := by
  have hfirst : Text.trim keyword ∉ keywords.map Text.trim := fun hmem =>
    hnew ((h.mem_iff _).2 ⟨hne, hmem⟩)
  constructor
  · intro k
    rw [List.map_append, List.mem_append, List.mem_append, h.mem_iff, List.map_singleton,
      List.mem_singleton]
    constructor
    · rintro (⟨hk, hmem⟩ | rfl)
      · exact ⟨hk, .inl hmem⟩
      · exact ⟨hne, .inr rfl⟩
    · rintro ⟨hk, hmem | rfl⟩
      · exact .inl ⟨hk, hmem⟩
      · exact .inr rfl
  · -- The new member first occurs at the end, behind where every other one does.
    refine List.pairwise_append.2 ⟨h.ordered_append _, List.pairwise_singleton _ _, ?_⟩
    intro a ha b hb
    have hmem := ((h.mem_iff a).1 ha).2
    rw [List.mem_singleton.1 hb, List.map_append, List.idxOf_append_of_mem hmem,
      List.idxOf_append_of_notMem hfirst]
    exact Nat.lt_add_right _ (List.idxOf_lt_length_of_mem hmem)

theorem addKeyword (h : IsOrderedSetOf kept keywords) (keyword : String) :
    IsOrderedSetOf (addKeyword kept keyword) (keywords ++ [keyword]) := by
  simp only [StaticSite.addKeyword]
  split
  · rename_i hknown
    exact h.append_of_known (List.forall_mem_singleton.2 hknown)
  · rename_i hnew
    rw [not_or] at hnew
    exact h.concat_of_new hnew.1 hnew.2

end IsOrderedSetOf

theorem distinctKeywords_concat (keywords : List String) (keyword : String) :
    distinctKeywords (keywords ++ [keyword]) = addKeyword (distinctKeywords keywords) keyword := by
  simp only [distinctKeywords, List.foldl_append, List.foldl_cons, List.foldl_nil]

theorem isOrderedSetOf_distinctKeywords (keywords : List String) :
    IsOrderedSetOf (distinctKeywords keywords) keywords := by
  induction keywords using List.reverseRecOn with
  | nil => exact ⟨by simp [distinctKeywords], by simp [distinctKeywords]⟩
  | append_singleton keywords keyword ih =>
    rw [distinctKeywords_concat]
    exact ih.addKeyword keyword

def Settings.withKeywords (s : Settings) (keywords : List String) : Settings :=
  { s with site := { s.site with keywords := keywords } }

/-- The keywords of a descriptor do not repeat, none of them is blank, and they are the keywords of
the settings that are not blank, trimmed and in the order of their first occurrences. As keywords of
the settings they stay as they are, and keywords that occur already, up to the blanks around them,
change nothing where they are added at the end. -/
theorem keywords_form_ordered_set (s : Settings) :
    let kept := (Descriptor.ofSettings s).keywords
    let trimmed := s.site.keywords.map Text.trim
    kept.Nodup ∧ (∀ k ∈ kept, Text.isBlankText k = false) ∧
    (∀ k, k ∈ kept ↔
      ∃ keyword ∈ s.site.keywords, Text.isBlankText keyword = false ∧ Text.trim keyword = k) ∧
    (∀ a ∈ kept, ∀ b ∈ kept, kept.idxOf a < kept.idxOf b ↔ trimmed.idxOf a < trimmed.idxOf b) ∧
    (Descriptor.ofSettings (s.withKeywords kept)).keywords = kept ∧
    ∀ more, (∀ w ∈ more, ∃ keyword ∈ s.site.keywords, Text.trim keyword = Text.trim w) →
      (Descriptor.ofSettings (s.withKeywords (s.site.keywords ++ more))).keywords = kept := by
  intro kept trimmed
  have hset : IsOrderedSetOf kept s.site.keywords := isOrderedSetOf_distinctKeywords _
  refine ⟨hset.nodup, fun k => hset.isBlankText_eq_false, hset.mem_iff_exists,
    fun a ha b hb => hset.idxOf_lt_iff ha hb, ?_, fun more hmore => ?_⟩
  · exact (isOrderedSetOf_distinctKeywords kept).unique hset.self
  · -- The old set is an ordered set of the longer list as well, and there is only one.
    refine (isOrderedSetOf_distinctKeywords _).unique (hset.append_of_known fun w hw => ?_)
    obtain ⟨keyword, hmem, htrim⟩ := hmore w hw
    by_cases hne : Text.trim w = ""
    · exact .inl hne
    · exact .inr ((hset.mem_iff _).2 ⟨hne, List.mem_map.2 ⟨keyword, hmem, htrim⟩⟩)

/-- Keywords with different blanks around them are one keyword, keywords with different letter case
are two. -/
theorem keywords_form_ordered_set_spaced :
    let keywords := ["rust ", "  ", "wiki", "\u00a0rust", "Wiki"]
    let s : Settings :=
      { site := { title := "T", url := "https://t.example", keywords := keywords } }
    let kept := (Descriptor.ofSettings s).keywords
    kept = ["rust", "wiki", "Wiki"] ∧ Text.isBlankText "wiki" = false ∧
      (kept.idxOf "rust" < kept.idxOf "Wiki" ↔
        (keywords.map Text.trim).idxOf "rust" < (keywords.map Text.trim).idxOf "Wiki") ∧
      (∀ w ∈ ["\twiki", ""], ∃ keyword ∈ keywords, Text.trim keyword = Text.trim w) ∧
      (Descriptor.ofSettings (s.withKeywords (keywords ++ ["\twiki", ""]))).keywords = kept := by
  intro keywords s kept
  have hkept : kept = ["rust", "wiki", "Wiki"] := by decide +kernel
  have hmore : ∀ w ∈ ["\twiki", ""], ∃ keyword ∈ keywords, Text.trim keyword = Text.trim w := by
    decide +kernel
  obtain ⟨-, hblank, -, horder, -, happend⟩ := keywords_form_ordered_set s
  refine ⟨hkept, hblank "wiki" ?_, horder "rust" ?_ "Wiki" ?_, hmore, happend _ hmore⟩
  · change "wiki" ∈ kept
    simp [hkept]
  · change "rust" ∈ kept
    simp [hkept]
  · change "Wiki" ∈ kept
    simp [hkept]

end StaticSite
