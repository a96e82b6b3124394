import Mathlib.Tactic.IntervalCases
import StaticSite.Number.Digits

/-!
# Numerals of natural numbers

A number is written with the digits of its base, the last one being the remainder. Reading the
digits gives the number back, with or without zeros in front.
-/

namespace StaticSite.Number

def hexDigits : List Char :=
  ['0', '1', '2', '3', '4', '5', '6', '7', '8', '9', 'a', 'b', 'c', 'd', 'e', 'f']

theorem digitChar_mem_hexDigits {d : Nat} (hd : d < 16) : Nat.digitChar d ∈ hexDigits := by
  interval_cases d <;> decide

theorem digitValue?_digitChar {base d : Nat} (hb : base ≤ 16) (hd : d < base) :
    digitValue? base (Nat.digitChar d) = some d := by
  have hvalue : ∀ d : Fin 16, digitValue? 16 (Nat.digitChar d) = some d.val := by decide
  have h16 := hvalue ⟨d, by omega⟩
  simp only [digitValue?, Option.filter_eq_some_iff] at h16 ⊢
  exact ⟨h16.1, by simpa using hd⟩

section

variable {base : Nat}

theorem numeralFrom?_append (n : Nat) (cs ds : List Char) :
    numeralFrom? base n (cs ++ ds) = (numeralFrom? base n cs).bind fun m =>
      numeralFrom? base m ds := by
  induction cs generalizing n with
  | nil => rfl
  | cons c cs ih =>
    rw [List.cons_append, numeralFrom?, numeralFrom?]
    cases digitValue? base c with
    | none => rfl
    | some d => exact ih _

theorem numeralFrom?_zeros (h0 : 0 < base) (hb : base ≤ 16) (k : Nat) :
    numeralFrom? base 0 (List.replicate k '0') = some 0 := by
  induction k with
  | zero => rfl
  | succ k ih =>
    have hzero : digitValue? base '0' = some 0 := digitValue?_digitChar (d := 0) hb h0
    rw [List.replicate_succ, numeralFrom?, hzero]
    simpa using ih

theorem numeralFrom?_toDigits (h1 : 1 < base) (hb : base ≤ 16) (n : Nat) :
    numeralFrom? base 0 (Nat.toDigits base n) = some n := by
  induction n using Nat.strongRecOn with
  | ind n ih =>
    rw [Nat.toDigits_eq_if h1]
    split
    · rename_i hn
      simp [numeralFrom?, digitValue?_digitChar hb hn]
    · rename_i hn
      have hlt : n / base < n := Nat.div_lt_self (by omega) h1
      have hmod : n % base < base := Nat.mod_lt n (by omega)
      rw [numeralFrom?_append, ih _ hlt]
      simp [numeralFrom?, digitValue?_digitChar hb hmod, Nat.div_add_mod]

theorem mem_hexDigits_of_mem_toDigits (h1 : 1 < base) (hb : base ≤ 16) {n : Nat} {c : Char}
    (hc : c ∈ Nat.toDigits base n) : c ∈ hexDigits := by
  induction n using Nat.strongRecOn with
  | ind n ih =>
    rw [Nat.toDigits_eq_if h1] at hc
    split at hc
    · rename_i hn
      rw [List.mem_singleton.1 hc]
      exact digitChar_mem_hexDigits (by omega)
    · rename_i hn
      rcases List.mem_append.1 hc with hc | hc
      · exact ih _ (Nat.div_lt_self (by omega) h1) hc
      · rw [List.mem_singleton.1 hc]
        exact digitChar_mem_hexDigits (by have := Nat.mod_lt n (show 0 < base by omega); omega)

theorem padded_spec {width n : Nat} (h1 : 1 < base) (hb : base ≤ 16) (hw : 0 < width)
    (hn : n < base ^ width) :
    (padded base width n).toList.length = width ∧
      (∀ c ∈ (padded base width n).toList, c ∈ hexDigits) ∧
      numeral? base (padded base width n).toList = some n := by
  have hlength : (Nat.toDigits base n).length ≤ width := (Nat.length_toDigits_le_iff h1 hw).2 hn
  have hlist : (padded base width n).toList =
      List.replicate (width - (Nat.toDigits base n).length) '0' ++ Nat.toDigits base n := by
    simp [padded]
  have hwidth : (padded base width n).toList.length = width := by
    rw [hlist, List.length_append, List.length_replicate]
    omega
  refine ⟨hwidth, ?_, ?_⟩
  · intro c hc
    rw [hlist] at hc
    rcases List.mem_append.1 hc with hc | hc
    · rw [(List.mem_replicate.1 hc).2]
      decide
    · exact mem_hexDigits_of_mem_toDigits h1 hb hc
  · have hne : (padded base width n).toList ≠ [] := by
      intro h
      rw [h] at hwidth
      exact absurd hwidth (by simpa using hw.ne)
    rw [numeral?, if_neg hne, hlist, numeralFrom?_append, numeralFrom?_zeros (by omega) hb]
    exact numeralFrom?_toDigits h1 hb n

end

end StaticSite.Number
