import Mathlib.Order.Bounds.Basic
import StaticSite.Content.Item
import StaticSite.Proofs.Text.Trim

/-!
# The first defect of content

Items are accepted exactly when each of them supplies every required field. Otherwise the defect
names the first item that does not, and of the required fields the first one that it lacks. In which
order the fields are required, and how often, decides only which field is named.
-/

namespace StaticSite

namespace ContentItem

def text? (item : ContentItem) : Field → Option String
  | .icon => some item.icon.name
  | .title => some item.title
  | .description => some item.description
  | .link => item.link

/-- The text of a field is there and not blank. -/
def Supplies (item : ContentItem) (f : Field) : Prop :=
  ∃ text, item.text? f = some text ∧ Text.trim text ≠ ""

/-- An item supplies every field of a list. -/
def IsComplete (item : ContentItem) (required : List Field) : Prop :=
  ∀ f ∈ required, item.Supplies f

/-- Of the fields of a list, `f` is the first one that an item lacks. -/
def LacksFirst (item : ContentItem) (required : List Field) (f : Field) : Prop :=
  ∃ before after, required = before ++ f :: after ∧ item.IsComplete before ∧ ¬item.Supplies f

variable {item : ContentItem} {required : List Field}

theorem has_eq_any (item : ContentItem) (f : Field) :
    item.has f = (item.text? f).any fun text => !Text.isBlankText text := by
  cases f with
  | icon => rfl
  | title => rfl
  | description => rfl
  | link => cases hlink : item.link <;> simp [has, text?, hlink]

theorem has_eq_true_iff {f : Field} : item.has f = true ↔ item.Supplies f := by
  rw [has_eq_any, Option.any_eq_true, Supplies]
  simp only [ne_eq, Text.trim_eq_empty_iff, Bool.not_eq_true', Bool.not_eq_true]

theorem find?_lacking_eq_none_iff :
    (required.find? fun f => !item.has f) = none ↔ item.IsComplete required := by
  simp only [List.find?_eq_none, Bool.not_eq_true', Bool.not_eq_false, has_eq_true_iff, IsComplete]

theorem find?_lacking_eq_some_iff {f : Field} :
    (required.find? fun f => !item.has f) = some f ↔ item.LacksFirst required f := by
  have hlacking : (!item.has f) = true ↔ ¬item.Supplies f := by
    rw [Bool.not_eq_true', ← Bool.not_eq_true, has_eq_true_iff]
  simp only [List.find?_eq_some_iff_append, hlacking, Bool.not_not, has_eq_true_iff]
  constructor
  · rintro ⟨hlacks, before, after, hsplit, hbefore⟩
    exact ⟨before, after, hsplit, hbefore, hlacks⟩
  · rintro ⟨before, after, hsplit, hbefore, hlacks⟩
    exact ⟨hlacks, before, after, hsplit, hbefore⟩

theorem LacksFirst.not_isComplete {f : Field} (h : item.LacksFirst required f) :
    ¬item.IsComplete required := by
  obtain ⟨before, after, rfl, -, hlacks⟩ := h
  intro hcomplete
  exact hlacks (hcomplete f (by simp))

theorem LacksFirst.unique {f f' : Field} (h : item.LacksFirst required f)
    (h' : item.LacksFirst required f') : f = f' :=
  Option.some.inj ((find?_lacking_eq_some_iff.2 h).symm.trans (find?_lacking_eq_some_iff.2 h'))

end ContentItem

def incompleteAt (required : List Field) (items : List ContentItem) : Set Nat :=
  {i | ∃ item, items[i]? = some item ∧ ¬item.IsComplete required}

/-- A defect names its section, the least position of an item that lacks a required field, and the
first of the required fields that this item lacks. -/
structure ContentDefect.IsFirst (d : ContentDefect) (sectionName : String) (required : List Field)
    (items : List ContentItem) : Prop where
  sectionName_eq : d.sectionName = sectionName
  least : IsLeast (incompleteAt required items) d.index
  first : ∃ item, items[d.index]? = some item ∧ item.LacksFirst required d.field

variable {sectionName : String} {required required' : List Field} {items : List ContentItem}

theorem ContentDefect.IsFirst.unique {d d' : ContentDefect}
    (h : d.IsFirst sectionName required items) (h' : d'.IsFirst sectionName required items) :
    d = d' := by
  obtain ⟨item, hitem, hlacks⟩ := h.first
  obtain ⟨item', hitem', hlacks'⟩ := h'.first
  have hname := h.sectionName_eq.trans h'.sectionName_eq.symm
  have hindex := h.least.unique h'.least
  rw [hindex, hitem'] at hitem
  obtain rfl := Option.some.inj hitem
  have hfield := hlacks.unique hlacks'
  cases d
  cases d'
  rw [ContentDefect.mk.injEq]
  exact ⟨hname, hindex, hfield⟩

theorem incompleteAt_mono (h : required ⊆ required') (items : List ContentItem) :
    incompleteAt required items ⊆ incompleteAt required' items := by
  rintro i ⟨item, hitem, hincomplete⟩
  exact ⟨item, hitem, fun hcomplete => hincomplete fun f hf => hcomplete f (h hf)⟩

theorem isLeast_incompleteAt {before after : List ContentItem} {item : ContentItem}
    (hbefore : ∀ i ∈ before, i.IsComplete required) (hitem : ¬item.IsComplete required) :
    IsLeast (incompleteAt required (before ++ item :: after)) before.length := by
  refine ⟨⟨item, by simp, hitem⟩, ?_⟩
  rintro i ⟨other, hother, hincomplete⟩
  by_contra hlt
  rw [List.getElem?_append_left (Nat.lt_of_not_le hlt)] at hother
  exact hincomplete (hbefore other (List.mem_of_getElem? hother))

theorem firstDefect_eq_none_iff {start : Nat} :
    firstDefect required start items = none ↔ ∀ item ∈ items, item.IsComplete required := by
  induction items generalizing start with
  | nil => simp [firstDefect]
  | cons item rest ih =>
    rw [firstDefect, List.forall_mem_cons, ← ContentItem.find?_lacking_eq_none_iff]
    cases required.find? fun f => !item.has f with
    | none => simp [ih]
    | some f => simp

theorem exists_split_of_firstDefect {start index : Nat} {f : Field}
    (h : firstDefect required start items = some (index, f)) :
    ∃ before item after, items = before ++ item :: after ∧ index = start + before.length ∧
      (∀ i ∈ before, i.IsComplete required) ∧ item.LacksFirst required f := by
  -- The position is counted from `start`, which grows by one with each complete item.
  induction items generalizing start with
  | nil => simp [firstDefect] at h
  | cons item rest ih =>
    rw [firstDefect] at h
    split at h
    · rename_i hfound
      obtain ⟨rfl, rfl⟩ := Prod.mk.inj (Option.some.inj h)
      exact ⟨[], item, rest, rfl, rfl, by simp, ContentItem.find?_lacking_eq_some_iff.1 hfound⟩
    · rename_i hnone
      obtain ⟨before, other, after, rfl, rfl, hbefore, hlacks⟩ := ih h
      have hitem := ContentItem.find?_lacking_eq_none_iff.1 hnone
      refine ⟨item :: before, other, after, rfl, ?_, ?_, hlacks⟩
      · rw [List.length_cons]
        omega
      · exact List.forall_mem_cons.2 ⟨hitem, hbefore⟩

theorem validateItems_eq_ok_iff :
    validateItems sectionName required items = .ok () ↔
      ∀ item ∈ items, item.IsComplete required := by
  rw [← firstDefect_eq_none_iff, validateItems]
  cases firstDefect required 0 items with
  | none => simp
  | some found => simp

theorem isFirst_of_validateItems {d : ContentDefect}
    (h : validateItems sectionName required items = .error d) :
    d.IsFirst sectionName required items := by
  rw [validateItems] at h
  split at h
  · cases h
  · rename_i index f hfound
    obtain rfl := Except.error.inj h
    obtain ⟨before, item, after, rfl, hindex, hbefore, hlacks⟩ :=
      exists_split_of_firstDefect hfound
    rw [Nat.zero_add] at hindex
    subst hindex
    exact ⟨rfl, isLeast_incompleteAt hbefore hlacks.not_isComplete, item, by simp, hlacks⟩

theorem exists_error_of_incomplete (sectionName : String) {i : Nat}
    (h : i ∈ incompleteAt required items) :
    ∃ d, validateItems sectionName required items = .error d := by
  obtain ⟨item, hitem, hincomplete⟩ := h
  cases hresult : validateItems sectionName required items with
  | error d => exact ⟨d, rfl⟩
  | ok _ =>
    have hall := validateItems_eq_ok_iff.1 hresult
    exact absurd (hall item (List.mem_of_getElem? hitem)) hincomplete

theorem validateItems_eq_error_iff {d : ContentDefect} :
    validateItems sectionName required items = .error d ↔
      d.IsFirst sectionName required items := by
  constructor
  · exact isFirst_of_validateItems
  · intro h
    obtain ⟨d', hd'⟩ := exists_error_of_incomplete sectionName h.least.1
    rw [hd', h.unique (isFirst_of_validateItems hd')]

/-- Validation accepts items that supply every required field, and otherwise names the first item
that does not with the first field that it lacks. So acceptance does not depend on the order of the
required fields and on their repetitions, a list is accepted if and only if its parts are, and
larger requirements reject what smaller ones reject, at the same item or at an earlier one. -/
theorem validation_names_first_defect (sectionName : String) (required : List Field)
    (items : List ContentItem) :
    (validateItems sectionName required items = .ok () ↔
      ∀ item ∈ items, item.IsComplete required) ∧
    (∀ d, validateItems sectionName required items = .error d ↔
      d.IsFirst sectionName required items) ∧
    (∀ required', (∀ f, f ∈ required' ↔ f ∈ required) →
      (validateItems sectionName required' items = .ok () ↔
        validateItems sectionName required items = .ok ())) ∧
    (∀ items', validateItems sectionName required (items ++ items') = .ok () ↔
      validateItems sectionName required items = .ok () ∧
        validateItems sectionName required items' = .ok ()) ∧
    ∀ required' d, required ⊆ required' → validateItems sectionName required items = .error d →
      ∃ d', validateItems sectionName required' items = .error d' ∧ d'.index ≤ d.index := by
  refine ⟨validateItems_eq_ok_iff, fun d => validateItems_eq_error_iff, ?_, ?_, ?_⟩
  · intro required' hsame
    simp only [validateItems_eq_ok_iff, ContentItem.IsComplete, hsame]
  · intro items'
    simp only [validateItems_eq_ok_iff, List.forall_mem_append]
  · intro required' d hlarger hd
    -- The rejected item lacks a field of the larger list too, so the least one is not later.
    have hleast := (isFirst_of_validateItems hd).least
    have hmono := incompleteAt_mono hlarger items
    obtain ⟨d', hd'⟩ := exists_error_of_incomplete sectionName (hmono hleast.1)
    exact ⟨d', hd', hleast.mono (isFirst_of_validateItems hd').least hmono⟩

/-- A description of a no-break space is missing, and a requirement that the item before does not
meet is reported there. -/
theorem validation_names_first_defect_blank :
    let items : List ContentItem :=
      [⟨.red, "First", "one", none⟩, ⟨.unknown "teal", "Second", "\u00a0", some "/docs"⟩,
        ⟨.unknown " ", "", "", none⟩]
    let required : List Field := [.title, .description]
    let repeated : List Field := [.description, .title, .description]
    let larger : List Field := [.title, .link, .description]
    (∀ f, f ∈ repeated ↔ f ∈ required) ∧ required ⊆ larger ∧
      validateItems "cards" required items = .error ⟨"cards", 1, .description⟩ ∧
      ContentDefect.IsFirst ⟨"cards", 1, .description⟩ "cards" required items ∧
      (validateItems "cards" repeated items = .ok () ↔
        validateItems "cards" required items = .ok ()) ∧
      ∃ d', validateItems "cards" larger items = .error d' ∧ d'.index ≤ 1 := by
  intro items required repeated larger
  have hsame : ∀ f, f ∈ repeated ↔ f ∈ required := by
    intro f
    cases f <;> decide
  have hlarger : required ⊆ larger := by decide
  have hresult : validateItems "cards" required items = .error ⟨"cards", 1, .description⟩ := rfl
  obtain ⟨-, hfirst, hrepeated, -, hmono⟩ := validation_names_first_defect "cards" required items
  exact ⟨hsame, hlarger, hresult, (hfirst _).1 hresult, hrepeated repeated hsame,
    hmono larger _ hlarger hresult⟩

end StaticSite
