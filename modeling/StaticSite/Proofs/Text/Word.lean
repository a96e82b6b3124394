import StaticSite.Proofs.Text.Split
import StaticSite.Proofs.Text.Trim

/-!
# Words of a text

A text without blanks is one of the words of another text exactly if it stands there between
blanks. The ends of a text count as blanks, and so every text is looked at with a space on both
sides and with spaces for all its blanks.
-/

namespace StaticSite.Text

theorem splitOn_map {α β : Type} {p : α → Bool} {q : β → Bool} {f : α → β}
    (h : ∀ c, q (f c) = p c) (l : List α) :
    splitOn q (l.map f) = (splitOn p l).map (List.map f) := by
  induction l with
  | nil => rfl
  | cons c l ih =>
    obtain ⟨w, ws, hw⟩ := List.exists_cons_of_ne_nil (splitOn_ne_nil (p := p) l)
    rw [List.map_cons, splitOn, splitOn, h, ih, hw]
    cases p c <;> rfl

theorem not_mem_of_mem_splitOn {α : Type} {p : α → Bool} {l w : List α} (h : w ∈ splitOn p l) :
    ∀ c ∈ w, p c = false := by
  induction l generalizing w with
  | nil =>
    obtain rfl : w = [] := by simpa [splitOn] using h
    simp
  | cons c l ih =>
    obtain ⟨v, vs, hv⟩ := List.exists_cons_of_ne_nil (splitOn_ne_nil (p := p) l)
    rw [splitOn, hv] at h
    rw [hv] at ih
    cases hc : p c with
    | true =>
      rw [hc, if_pos rfl, List.mem_cons] at h
      rcases h with rfl | hw
      · simp
      · exact ih hw
    | false =>
      rw [hc, if_neg Bool.false_ne_true, List.mem_cons] at h
      rcases h with rfl | hw
      · exact List.forall_mem_cons.2 ⟨hc, ih List.mem_cons_self⟩
      · exact ih (List.mem_cons_of_mem v hw)

section

variable {α : Type} [BEq α] [LawfulBEq α] {d : α}

theorem splitOn_of_not_mem {l : List α} (h : d ∉ l) : splitOn (· == d) l = [l] := by
  refine splitOn_of_none fun c hc => beq_eq_false_iff_ne.2 ?_
  rintro rfl
  exact h hc

theorem splitOn_append_self (a b : List α) :
    splitOn (· == d) (a ++ d :: b) = splitOn (· == d) a ++ splitOn (· == d) b :=
  splitOn_append_cons (p := (· == d)) (beq_self_eq_true d) a b

/-- With a separator at both ends, every piece stands between two separators. -/
theorem infix_of_mem_splitOn {w l : List α} (h : w ∈ splitOn (· == d) l) :
    d :: (w ++ [d]) <:+: d :: (l ++ [d]) := by
  -- The text falls at its first separator into a piece and a shorter text.
  induction hn : l.length using Nat.strong_induction_on generalizing l with
  | _ n ih =>
    by_cases hd : d ∈ l
    · obtain ⟨a, b, rfl, ha⟩ := List.eq_append_cons_of_mem hd
      rw [splitOn_append_self, splitOn_of_not_mem ha, List.singleton_append, List.mem_cons] at h
      rcases h with rfl | hb
      · exact ⟨[], b ++ [d], by simp⟩
      · have hlt : b.length < n := by
          rw [← hn]
          simp
          omega
        have hsuffix : d :: (b ++ [d]) <:+ d :: (a ++ d :: b ++ [d]) := ⟨d :: a, by simp⟩
        exact (ih b.length hlt hb rfl).trans hsuffix.isInfix
    · rw [splitOn_of_not_mem hd, List.mem_singleton] at h
      subst h
      exact List.infix_rfl

/-- What stands between two separators and holds none is a piece. -/
theorem mem_splitOn_of_infix {w l : List α} (hw : d ∉ w) (hne : w ≠ [])
    (h : d :: (w ++ [d]) <:+: d :: (l ++ [d])) : w ∈ splitOn (· == d) l := by
  obtain ⟨x, y, hxy⟩ := h
  have hleft : splitOn (· == d) (x ++ d :: (w ++ [d]) ++ y) =
      splitOn (· == d) x ++ ([w] ++ splitOn (· == d) y) := by
    have hshape : x ++ d :: (w ++ [d]) ++ y = x ++ d :: (w ++ d :: y) := by simp
    rw [hshape, splitOn_append_self, splitOn_append_self, splitOn_of_not_mem hw]
  have hright : splitOn (· == d) (d :: (l ++ [d])) = [[]] ++ (splitOn (· == d) l ++ [[]]) := by
    have hshape : d :: (l ++ [d]) = [] ++ d :: (l ++ d :: []) := rfl
    rw [hshape, splitOn_append_self, splitOn_append_self]
    rfl
  have hmem : w ∈ [[]] ++ (splitOn (· == d) l ++ [[]]) := by
    rw [← hright, ← hxy, hleft]
    simp
  simpa [hne] using hmem

end

theorem filter_splitOn_dropWhile {α : Type} [DecidableEq α] {p : α → Bool} (l : List α) :
    (splitOn p (l.dropWhile p)).filter (· ≠ []) = (splitOn p l).filter (· ≠ []) := by
  induction l with
  | nil => rfl
  | cons c l ih =>
    cases hc : p c with
    | true =>
      rw [List.dropWhile_cons_of_pos hc, ih, splitOn, hc, if_pos rfl]
      simp
    | false => rw [List.dropWhile_cons_of_neg (by simp [hc])]

theorem filter_splitOn_rdropWhile {α : Type} [DecidableEq α] {p : α → Bool} (l : List α) :
    (splitOn p (l.rdropWhile p)).filter (· ≠ []) = (splitOn p l).filter (· ≠ []) := by
  induction l using List.reverseRecOn with
  | nil => rfl
  | append_singleton l c ih =>
    cases hc : p c with
    | true =>
      have hnil : (splitOn p ([] : List α)).filter (· ≠ []) = [] := by simp [splitOn]
      rw [List.rdropWhile_concat_pos _ _ _ hc, ih, splitOn_append_cons hc, List.filter_append,
        hnil, List.append_nil]
    | false => rw [List.rdropWhile_concat_neg _ _ _ (by simp [hc])]

theorem words_trim (s : String) : words (trim s) = words s := by
  rw [words, words, trim, trimBoth, toList_trimEnd, filter_splitOn_rdropWhile, toList_trimStart,
    filter_splitOn_dropWhile]

def padded (s : String) : List Char :=
  ' ' :: (s.toList.map (fun c => if isBlank c then ' ' else c) ++ [' '])

/-- A text stands in another one between blanks, or between a blank and an end. -/
def IsWordOf (w s : String) : Prop := ' ' :: (w.toList ++ [' ']) <:+: padded s

instance (w s : String) : Decidable (IsWordOf w s) := inferInstanceAs (Decidable (_ <:+: _))

theorem mem_words_iff {w s : String} (hw : IsSolid w) (hne : w ≠ "") :
    w ∈ words s ↔ IsWordOf w s := by
  let f : Char → Char := fun c => if isBlank c then ' ' else c
  have hsolid : ∀ v ∈ splitOn isBlank s.toList, v.map f = v := by
    intro v hv
    refine (List.map_congr_left fun c hc => ?_).trans (List.map_id v)
    simp [f, not_mem_of_mem_splitOn hv c hc]
  have hspace : ∀ c, (f c == ' ') = isBlank c := by
    intro c
    cases hc : isBlank c with
    | true => simp [f, hc]
    | false =>
      have hd : c ≠ ' ' := by
        rintro rfl
        exact absurd hc (by decide)
      simp [f, hc, hd]
  have hpieces : splitOn (· == ' ') (s.toList.map f) = splitOn isBlank s.toList := by
    rw [splitOn_map hspace, List.map_congr_left hsolid, List.map_id']
  have hlist : w.toList ≠ [] := fun he => hne (String.toList_inj.1 (he.trans rfl))
  have hblank : ' ' ∉ w.toList := by
    intro hm
    exact absurd (hw ' ' hm) (by decide)
  have hmem : w ∈ words s ↔ w.toList ∈ splitOn isBlank s.toList := by
    rw [words, List.mem_map]
    constructor
    · rintro ⟨v, hv, rfl⟩
      rw [String.toList_ofList]
      exact (List.mem_filter.1 hv).1
    · intro h
      exact ⟨w.toList, List.mem_filter.2 ⟨h, decide_eq_true hlist⟩, String.ofList_toList⟩
  rw [hmem, ← hpieces]
  exact ⟨infix_of_mem_splitOn, mem_splitOn_of_infix hblank hlist⟩

end StaticSite.Text
