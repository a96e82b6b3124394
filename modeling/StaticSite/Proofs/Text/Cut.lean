import StaticSite.Text.Blank
import Mathlib.Data.List.Infix

/-!
# Cutting at the first occurrence

`Text.cut` finds a pattern exactly where it stands in a text, and cuts at the place where it stands
first: the pattern does not occur before that place, not even overlapping it. Where a pair of one
character stands in an appended text is told from the parts.
-/

namespace StaticSite.Text

/-- A pattern without its last character is too short to contain the pattern. -/
theorem not_infix_dropLast {pat : List Char} (hp : pat ≠ []) : ¬ pat <:+: pat.dropLast := by
  intro h
  have hl : 0 < pat.length := List.length_pos_iff.2 hp
  have hle := h.length_le
  rw [List.length_dropLast] at hle
  omega

theorem cut_eq_none_iff {pat s : List Char} (hp : pat ≠ []) :
    cut pat s = none ↔ ¬ pat <:+: s := by
  induction s with
  | nil => simp [cut, hp]
  | cons c rest ih =>
    rw [cut, List.infix_cons_iff, not_or, ← ih]
    split
    · rename_i h
      simp [List.isPrefixOf_iff_prefix.1 h]
    · rename_i h
      have hn : ¬ pat <+: c :: rest := fun hh => h (List.isPrefixOf_iff_prefix.2 hh)
      simp [hn]

theorem not_infix_of_cut {pat s before after : List Char} (hp : pat ≠ [])
    (h : cut pat s = some (before, after)) : ¬ pat <:+: before ++ pat.dropLast := by
  induction s generalizing before with
  | nil => simp [cut] at h
  | cons c rest ih =>
    rw [cut] at h
    split at h
    · obtain ⟨rfl, -⟩ := Prod.mk.inj (Option.some.inj h)
      exact not_infix_dropLast hp
    · rename_i hn
      obtain ⟨⟨b, a⟩, hr, he⟩ := Option.map_eq_some_iff.1 h
      obtain ⟨rfl, rfl⟩ := Prod.mk.inj he
      rw [List.cons_append, List.infix_cons_iff, not_or]
      refine ⟨?_, ih hr⟩
      intro hpre
      apply hn
      rw [List.isPrefixOf_iff_prefix, eq_append_of_cut hr]
      have hle : c :: (b ++ pat.dropLast) <+: c :: (b ++ pat ++ a) := by
        rw [List.cons_prefix_cons, List.append_assoc, List.prefix_append_right_inj]
        exact ⟨rfl, (List.dropLast_prefix pat).trans (List.prefix_append pat a)⟩
      exact hpre.trans hle

theorem cut_append {pat before : List Char} (hp : pat ≠ [])
    (h : ¬ pat <:+: before ++ pat.dropLast) (after : List Char) :
    cut pat (before ++ pat ++ after) = some (before, after) := by
  induction before with
  | nil =>
    cases pat with
    | nil => exact absurd rfl hp
    | cons c p =>
      have hpre : (c :: p).isPrefixOf (c :: (p ++ after)) = true :=
        List.isPrefixOf_iff_prefix.2 (List.prefix_append (c :: p) after)
      simp [cut, hpre]
  | cons c before ih =>
    rw [List.cons_append, List.infix_cons_iff, not_or] at h
    have hn : ¬ pat.isPrefixOf (c :: (before ++ pat ++ after)) = true := by
      intro hpre
      apply h.1
      have hle : pat.length ≤ (c :: (before ++ pat.dropLast)).length := by
        simp only [List.length_cons, List.length_append, List.length_dropLast]
        omega
      refine List.prefix_of_prefix_length_le (List.isPrefixOf_iff_prefix.1 hpre) ?_ hle
      rw [List.cons_prefix_cons, List.append_assoc, List.prefix_append_right_inj]
      exact ⟨rfl, (List.dropLast_prefix pat).trans (List.prefix_append pat after)⟩
    rw [List.cons_append, List.cons_append, cut, if_neg hn, ih h.2]
    rfl

/-- The cut is at the only place before which the pattern does not occur. -/
theorem cut_eq_some_iff {pat s before after : List Char} (hp : pat ≠ []) :
    cut pat s = some (before, after) ↔
      s = before ++ pat ++ after ∧ ¬ pat <:+: before ++ pat.dropLast := by
  constructor
  · intro h
    exact ⟨eq_append_of_cut h, not_infix_of_cut hp h⟩
  · rintro ⟨rfl, h⟩
    exact cut_append hp h after

theorem cut_singleton {c : Char} {before : List Char} (h : c ∉ before) (after : List Char) :
    cut [c] (before ++ c :: after) = some (before, after) := by
  have hi : ¬ [c] <:+: before ++ [c].dropLast := by simpa [List.singleton_infix_iff] using h
  have := cut_append (by simp) hi after
  rwa [List.append_assoc] at this

/-- A pair of equal characters does not reach over another character. -/
theorem pair_infix_append {c x : Char} (hx : x ≠ c) (a b : List Char) :
    [c, c] <:+: a ++ x :: b ↔ [c, c] <:+: a ∨ [c, c] <:+: b := by
  induction a with
  | nil =>
    have hhead : ¬ [c, c] <+: x :: b := fun h => hx (List.cons_prefix_cons.1 h).1.symm
    simp [List.infix_cons_iff, hhead]
  | cons y a ih =>
    have hhead : [c, c] <+: y :: (a ++ x :: b) ↔ [c, c] <+: y :: a := by
      cases a with
      | nil => simp [List.cons_prefix_cons, hx.symm]
      | cons z a => simp [List.cons_prefix_cons]
    rw [List.cons_append, List.infix_cons_iff, List.infix_cons_iff, ih, hhead, or_assoc]

theorem pair_infix_concat {c : Char} (a : List Char) :
    [c, c] <:+: a ++ [c] ↔ [c, c] <:+: a ∨ a.getLast? = some c := by
  induction a using List.reverseRecOn with
  | nil => simp [List.infix_cons_iff]
  | append_singleton a x _ =>
    by_cases hx : x = c
    · subst hx
      have hend : [x, x] <:+: a ++ [x, x] := (List.suffix_append a [x, x]).isInfix
      simp [hend]
    · have hnone : ¬ [c, c] <:+: ([] : List Char) := by simp
      have hone : ¬ [c, c] <:+: [c] := by simp [List.infix_cons_iff]
      rw [List.append_assoc, List.singleton_append, pair_infix_append hx, pair_infix_append hx]
      simp [hnone, hone, hx]

end StaticSite.Text
