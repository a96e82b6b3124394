import StaticSite.Text.Blank

/-!
# Splitting at separators

Splitting is undone by joining: the stretches of a list are those between its separators, and the
words of two texts with a blank between them are the words of the one and then of the other.
-/

namespace StaticSite.Text

variable {α : Type} {p : α → Bool}

theorem splitOn_ne_nil (l : List α) : splitOn p l ≠ [] := by
  cases l with
  | nil => simp [splitOn]
  | cons c rest =>
    rw [splitOn]
    split
    · simp
    · split <;> simp

theorem splitOn_append_cons {d : α} (hd : p d = true) (a b : List α) :
    splitOn p (a ++ d :: b) = splitOn p a ++ splitOn p b := by
  induction a with
  | nil => simp [splitOn, hd]
  | cons c a ih =>
    rw [List.cons_append, splitOn, splitOn, ih]
    split
    · rfl
    · obtain ⟨w, ws, hw⟩ := List.exists_cons_of_ne_nil (splitOn_ne_nil (p := p) a)
      rw [hw]
      rfl

theorem splitOn_of_none {l : List α} (h : ∀ c ∈ l, p c = false) : splitOn p l = [l] := by
  induction l with
  | nil => rfl
  | cons c l ih =>
    have hc : p c = false := h c List.mem_cons_self
    rw [splitOn, ih fun d hd => h d (List.mem_cons_of_mem c hd), hc]
    rfl

theorem splitOn_intercalate {d : α} (hd : p d = true) {pieces : List (List α)} (hne : pieces ≠ [])
    (h : ∀ piece ∈ pieces, ∀ c ∈ piece, p c = false) :
    splitOn p ([d].intercalate pieces) = pieces := by
  induction pieces with
  | nil => exact absurd rfl hne
  | cons piece rest ih =>
    have hpiece := splitOn_of_none (h piece List.mem_cons_self)
    cases rest with
    | nil => simpa [List.intercalate] using hpiece
    | cons next rest =>
      have hrest := ih (by simp) fun q hq => h q (List.mem_cons_of_mem piece hq)
      rw [List.intercalate_cons_cons, List.append_assoc, List.singleton_append,
        splitOn_append_cons hd, hpiece, hrest]
      rfl

theorem mem_intercalate {c d : α} {pieces : List (List α)} (h : c ∈ [d].intercalate pieces) :
    c = d ∨ ∃ piece ∈ pieces, c ∈ piece := by
  induction pieces with
  | nil => cases h
  | cons piece rest ih =>
    cases rest with
    | nil => exact Or.inr ⟨piece, List.mem_cons_self, by simpa [List.intercalate] using h⟩
    | cons next rest =>
      rw [List.intercalate_cons_cons, List.mem_append, List.mem_append] at h
      rcases h with (h | h) | h
      · exact Or.inr ⟨piece, List.mem_cons_self, h⟩
      · exact Or.inl (List.mem_singleton.1 h)
      · exact (ih h).imp_right fun ⟨q, hq, hc⟩ => ⟨q, List.mem_cons_of_mem piece hq, hc⟩

theorem splitOn_replicate_append {d : α} (hd : p d = true) (n : Nat) (l : List α) :
    splitOn p (List.replicate n d ++ l) = List.replicate n [] ++ splitOn p l := by
  induction n with
  | zero => rfl
  | succ n ih =>
    rw [List.replicate_succ, List.cons_append, splitOn, if_pos hd, ih]
    rfl

theorem intercalate_splitOn {d : α} (hp : ∀ c, p c = true ↔ c = d) (l : List α) :
    [d].intercalate (splitOn p l) = l := by
  induction l with
  | nil => rfl
  | cons c l ih =>
    obtain ⟨w, ws, hw⟩ := List.exists_cons_of_ne_nil (splitOn_ne_nil (p := p) l)
    rw [hw] at ih
    rw [splitOn, hw]
    split
    · rename_i hc
      rw [List.intercalate_cons_cons, ih, (hp c).1 hc]
      rfl
    · show [d].intercalate ((c :: w) :: ws) = c :: l
      rw [← ih]
      cases ws with
      | nil => simp [List.intercalate]
      | cons v vs => rw [List.intercalate_cons_cons, List.intercalate_cons_cons]; rfl

theorem words_append_blank (a b : String) : words (a ++ " " ++ b) = words a ++ words b := by
  have hsplit : (a ++ " " ++ b).toList = a.toList ++ ' ' :: b.toList := by simp
  rw [words, words, words, hsplit, splitOn_append_cons (by decide), List.filter_append,
    List.map_append]

end StaticSite.Text
