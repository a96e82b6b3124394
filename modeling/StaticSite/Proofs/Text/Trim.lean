import Mathlib.Data.List.DropRight
import StaticSite.Text.Blank

/-!
# Trimmed texts

What trimming leaves has no character of the class at the end that was trimmed, and a text without
one there stays as it is.
-/

namespace StaticSite.Text

variable {p : Char → Bool} {s : String}

theorem toList_trimStart (p : Char → Bool) (s : String) :
    (trimStart p s).toList = s.toList.dropWhile p := String.toList_ofList

theorem toList_trimEnd (p : Char → Bool) (s : String) :
    (trimEnd p s).toList = s.toList.rdropWhile p := String.toList_ofList

theorem head?_trimStart (p : Char → Bool) (s : String) :
    ∀ c ∈ (trimStart p s).toList.head?, p c = false := by
  intro c hc
  have hnot := List.head?_dropWhile_not p s.toList
  rw [← toList_trimStart, Option.mem_def.1 hc] at hnot
  exact hnot

theorem trimStart_eq_self (h : ∀ c ∈ s.toList.head?, p c = false) : trimStart p s = s := by
  rw [← String.toList_inj, toList_trimStart]
  cases hs : s.toList with
  | nil => rfl
  | cons c cs =>
    have hc : p c = false := h c (by rw [hs]; rfl)
    exact List.dropWhile_cons_of_neg (by rw [hc]; exact Bool.false_ne_true)

theorem trimStart_trimStart (p : Char → Bool) (s : String) :
    trimStart p (trimStart p s) = trimStart p s :=
  trimStart_eq_self (head?_trimStart p s)

theorem getLast?_trimStart {p : Char → Bool} {s : String} :
    ∀ c ∈ (trimStart p s).toList.getLast?, c ∈ s.toList.getLast? := by
  intro c hc
  obtain ⟨front, hfront⟩ := List.dropWhile_suffix (l := s.toList) p
  rw [toList_trimStart, Option.mem_def] at hc
  rw [← hfront, List.getLast?_append, hc]
  rfl

theorem trimStart_append_of_all {a : String} (ha : ∀ c ∈ a.toList, p c = true) (s : String) :
    trimStart p (a ++ s) = trimStart p s := by
  rw [← String.toList_inj, toList_trimStart, toList_trimStart, String.toList_append,
    List.dropWhile_append_of_pos ha]

theorem trimStart_append_of_exists {s : String} (hs : ∃ c ∈ s.toList, p c = false) (b : String) :
    trimStart p (s ++ b) = trimStart p s ++ b := by
  obtain ⟨c, hc, hp⟩ := hs
  have hne : ¬(s.toList.dropWhile p).isEmpty = true := by
    rw [List.isEmpty_iff, List.dropWhile_eq_nil_iff]
    intro hall
    rw [hall c hc] at hp
    cases hp
  rw [← String.toList_inj, String.toList_append, toList_trimStart, toList_trimStart,
    String.toList_append, List.dropWhile_append, if_neg hne]

theorem getLast?_trimEnd (p : Char → Bool) (s : String) :
    ∀ c ∈ (trimEnd p s).toList.getLast?, p c = false := by
  intro c hc
  have hnot := List.head?_dropWhile_not p s.toList.reverse
  rw [toList_trimEnd, List.rdropWhile, List.getLast?_reverse] at hc
  rw [Option.mem_def.1 hc] at hnot
  exact hnot

theorem trimEnd_eq_self (h : ∀ c ∈ s.toList.getLast?, p c = false) : trimEnd p s = s := by
  rw [← String.toList_inj, toList_trimEnd, List.rdropWhile_eq_self_iff]
  intro hne hlast
  rw [h _ (List.getLast?_eq_some_getLast hne)] at hlast
  cases hlast

theorem trimEnd_append_of_pos {c : Char} (hc : p c = true) (s : String) :
    trimEnd p (s ++ String.singleton c) = trimEnd p s := by
  rw [← String.toList_inj, toList_trimEnd, toList_trimEnd, String.toList_append,
    String.toList_singleton, List.rdropWhile_concat_pos _ _ _ hc]

theorem head?_trimEnd (h : ∀ c ∈ s.toList.head?, p c = false) :
    ∀ c ∈ (trimEnd p s).toList.head?, p c = false := by
  intro c hc
  obtain ⟨rest, hrest⟩ := List.rdropWhile_prefix p s.toList
  rw [toList_trimEnd, Option.mem_def] at hc
  apply h c
  rw [← hrest, List.head?_append, hc]
  rfl

theorem exists_eq_trimEnd_append (p : Char → Bool) (s : String) :
    ∃ rest, s = trimEnd p s ++ rest ∧ ∀ c ∈ rest.toList, p c = true := by
  refine ⟨String.ofList (s.toList.rtakeWhile p), ?_, fun c hc => ?_⟩
  · rw [← String.toList_inj, String.toList_append, toList_trimEnd, String.toList_ofList,
      List.rdropWhile_append_rtakeWhile]
  · rw [String.toList_ofList] at hc
    exact List.mem_rtakeWhile_imp hc

theorem trimEnd_append_of_all {b : String} (hb : ∀ c ∈ b.toList, p c = true) (s : String) :
    trimEnd p (s ++ b) = trimEnd p s := by
  rw [← String.toList_inj, toList_trimEnd, toList_trimEnd, String.toList_append, List.rdropWhile,
    List.rdropWhile, List.reverse_append,
    List.dropWhile_append_of_pos fun c hc => hb c (List.mem_reverse.1 hc)]

/-- What precedes a text is not looked at, if it ends in a character outside the class. -/
theorem trimEnd_append_of_last {a : String} (ha : ∀ c ∈ a.toList.getLast?, p c = false)
    (s : String) : trimEnd p (a ++ s) = a ++ trimEnd p s := by
  rw [← String.toList_inj, String.toList_append, toList_trimEnd, toList_trimEnd,
    String.toList_append, List.rdropWhile, List.rdropWhile, List.reverse_append,
    List.dropWhile_append]
  split
  · rename_i hempty
    have hstop : a.toList.rdropWhile p = a.toList := by
      rw [← toList_trimEnd, trimEnd_eq_self ha]
    rw [List.isEmpty_iff.1 hempty, List.reverse_nil, List.append_nil, ← List.rdropWhile, hstop]
  · rw [List.reverse_append, List.reverse_reverse]

structure IsTrimmed (p : Char → Bool) (s : String) : Prop where
  head : ∀ c ∈ s.toList.head?, p c = false
  last : ∀ c ∈ s.toList.getLast?, p c = false

instance (p : Char → Bool) (s : String) : Decidable (IsTrimmed p s) :=
  decidable_of_iff
    (s.toList.head?.all (fun c => !p c) = true ∧ s.toList.getLast?.all (fun c => !p c) = true) (by
      simp only [Option.all_eq_true, Bool.not_eq_true']
      exact ⟨fun h => ⟨h.1, h.2⟩, fun h => ⟨h.head, h.last⟩⟩)

theorem isTrimmed_trimBoth (p : Char → Bool) (s : String) : IsTrimmed p (trimBoth p s) where
  head := head?_trimEnd (head?_trimStart p s)
  last := getLast?_trimEnd p _

theorem sublist_trimBoth (p : Char → Bool) (s : String) :
    (trimBoth p s).toList.Sublist s.toList := by
  rw [trimBoth, toList_trimEnd, toList_trimStart]
  exact (List.rdropWhile_prefix p _).sublist.trans (List.dropWhile_sublist p)

theorem IsTrimmed.trimBoth_eq (h : IsTrimmed p s) : trimBoth p s = s := by
  rw [trimBoth, trimStart_eq_self h.head, trimEnd_eq_self h.last]

theorem trimBoth_append_of_all {a b : String} (ha : ∀ c ∈ a.toList, p c = true)
    (hb : ∀ c ∈ b.toList, p c = true) (s : String) : trimBoth p (a ++ s ++ b) = trimBoth p s := by
  rw [trimBoth, trimBoth, String.append_assoc, trimStart_append_of_all ha]
  by_cases hs : ∃ c ∈ s.toList, p c = false
  · rw [trimStart_append_of_exists hs, trimEnd_append_of_all hb]
  · have hall : ∀ c ∈ s.toList, p c = true := fun c hc =>
      Bool.not_eq_false _ ▸ fun hp => hs ⟨c, hc, hp⟩
    have hempty : ∀ {t : String}, (∀ c ∈ t.toList, p c = true) → trimStart p t = "" := by
      intro t ht
      rw [← String.toList_inj, toList_trimStart, List.dropWhile_eq_nil_iff.2 ht]
      rfl
    rw [trimStart_append_of_all hall, hempty hall, hempty hb]

theorem trim_eq_empty_iff {s : String} : trim s = "" ↔ isBlankText s = true := by
  rw [← String.toList_inj, trim, trimBoth, toList_trimEnd, toList_trimStart, isBlankText,
    List.all_eq_true]
  have hempty : ("" : String).toList = [] := rfl
  rw [hempty, List.rdropWhile_eq_nil_iff]
  constructor
  · intro h
    have hnil : s.toList.dropWhile isBlank = [] := by
      cases hd : s.toList.dropWhile isBlank with
      | nil => rfl
      | cons c cs =>
        have hnot := List.head?_dropWhile_not isBlank s.toList
        rw [hd] at hnot h
        have hc : isBlank c = false := hnot
        rw [h c List.mem_cons_self] at hc
        cases hc
    exact List.dropWhile_eq_nil_iff.1 hnil
  · intro h
    rw [List.dropWhile_eq_nil_iff.2 h]
    simp

theorem IsTrimmed.trim_spaced (h : IsTrimmed isBlank s) : trim (" " ++ s ++ " ") = s := by
  have hspace : ∀ c ∈ " ".toList, isBlank c = true := List.all_eq_true.1 rfl
  rw [trim, trimBoth_append_of_all hspace hspace, h.trimBoth_eq]

end StaticSite.Text

namespace StaticSite

def IsSolid (s : String) : Prop := ∀ c ∈ s.toList, Text.isBlank c = false

instance (s : String) : Decidable (IsSolid s) :=
  decidable_of_iff ((s.toList.all fun c => !Text.isBlank c) = true) (by simp [IsSolid])

theorem IsSolid.append {a b : String} (ha : IsSolid a) (hb : IsSolid b) : IsSolid (a ++ b) := by
  intro c hc
  rw [String.toList_append, List.mem_append] at hc
  exact hc.elim (ha c) (hb c)

theorem IsSolid.trim {s : String} (h : IsSolid s) : Text.trim s = s :=
  Text.IsTrimmed.trimBoth_eq
    ⟨fun c hc => h c (List.mem_of_mem_head? hc), fun c hc => h c (List.mem_of_getLast? hc)⟩

end StaticSite
