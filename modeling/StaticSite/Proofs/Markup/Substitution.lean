import StaticSite.Proofs.Markup.Escape
import StaticSite.Proofs.SortedMap

/-!
# Escaping as a substitution

Each replacement of an escaper goes over what the replacements before it have written. All the same
the whole chain is one pass that replaces each reserved character, can be read back in one pass, and
writes exactly the texts in which an ampersand stands for nothing but the start of a reference.
-/

namespace StaticSite.Escape

namespace References

/-- The ampersand is reserved, no character is reserved twice, and neither the semicolon nor a
character of a name is reserved. -/
structure IsSeparate (r : References) : Prop where
  ampersand : (r.entries.lookup '&').isSome
  keys : (r.entries.map Prod.fst).Nodup
  names : ∀ e ∈ r.entries, ∀ e' ∈ r.entries, e.1 ∉ e'.2 ++ [';']

/-- A text without reserved characters other than ampersands that begin references. -/
structure IsWritten (r : References) (t : List Char) : Prop where
  not_mem : ∀ e ∈ r.entries, e.1 ≠ '&' → e.1 ∉ t
  begins : ∀ before after, t = before ++ '&' :: after →
    ∃ e ∈ r.entries, reference e.2 <+: '&' :: after

variable {r : References}

theorem IsWritten.of_append {a t : List Char} (h : r.IsWritten (a ++ t)) : r.IsWritten t := by
  refine ⟨fun e he hne hmem => h.not_mem e he hne (List.mem_append_right a hmem), ?_⟩
  rintro before after rfl
  exact h.begins (a ++ before) after (List.append_assoc _ _ _).symm

/-- An ampersand in a reference with a text behind it begins the reference or stands in the
text. -/
theorem reference_append_eq {name before after t : List Char} (hname : '&' ∉ name ++ [';'])
    (h : reference name ++ t = before ++ '&' :: after) :
    reference name <+: '&' :: after ∨ ∃ before', t = before' ++ '&' :: after := by
  cases before with
  | nil => exact .inl ⟨t, h⟩
  | cons c before =>
    have htail : (name ++ [';']) ++ t = before ++ '&' :: after := (List.cons.inj h).2
    rcases List.append_eq_append_iff.1 htail with ⟨before', -, hrest⟩ | ⟨inside, hinside, hrest⟩
    · exact .inr ⟨before', hrest⟩
    · cases inside with
      | nil => exact .inr ⟨[], hrest.symm⟩
      | cons d inside =>
        obtain ⟨rfl, -⟩ := List.cons.inj hrest
        exact absurd (hinside ▸ by simp) hname

namespace IsSeparate

variable (h : r.IsSeparate)
include h

theorem lookup_eq_some_iff {c : Char} {name : List Char} :
    r.entries.lookup c = some name ↔ (c, name) ∈ r.entries :=
  SortedMap.lookup_eq_some_iff_mem h.keys

theorem encode_cons_of_mem {c : Char} {name : List Char} (hmem : (c, name) ∈ r.entries)
    (s : List Char) :
    encode r.entries (c :: s) = reference name ++ encode r.entries s := by
  rw [encode_cons, encodeChar, h.lookup_eq_some_iff.2 hmem]

theorem encode_cons_of_not_mem {c : Char} (hc : ∀ name, (c, name) ∉ r.entries) (s : List Char) :
    encode r.entries (c :: s) = c :: encode r.entries s := by
  rw [encode_cons, encodeChar]
  split
  · rename_i name hname
    exact absurd (h.lookup_eq_some_iff.1 hname) (hc name)
  · rfl

theorem exists_ampersand : ∃ name, ('&', name) ∈ r.entries := by
  obtain ⟨name, hname⟩ := Option.isSome_iff_exists.1 h.ampersand
  exact ⟨name, h.lookup_eq_some_iff.1 hname⟩

theorem ampersand_not_mem {e : Char × List Char} (he : e ∈ r.entries) : '&' ∉ e.2 ++ [';'] := by
  obtain ⟨name, hname⟩ := h.exists_ampersand
  exact h.names ('&', name) hname e he

theorem begins_encode (s : List Char) :
    ∀ before after, encode r.entries s = before ++ '&' :: after →
      ∃ e ∈ r.entries, reference e.2 <+: '&' :: after := by
  induction s with
  | nil =>
    intro before after heq
    simp at heq
  | cons c s ih =>
    intro before after heq
    by_cases hreserved : ∃ name, (c, name) ∈ r.entries
    · obtain ⟨name, hmem⟩ := hreserved
      rw [h.encode_cons_of_mem hmem] at heq
      rcases reference_append_eq (h.ampersand_not_mem hmem) heq with hbegins | ⟨before', hrest⟩
      · exact ⟨_, hmem, hbegins⟩
      · exact ih before' after hrest
    · rw [h.encode_cons_of_not_mem (not_exists.1 hreserved)] at heq
      cases before with
      | nil =>
        obtain rfl : c = '&' := (List.cons.inj heq).1
        exact absurd h.exists_ampersand hreserved
      | cons d before => exact ih before after (List.cons.inj heq).2

theorem isWritten_encode (s : List Char) : r.IsWritten (encode r.entries s) := by
  refine ⟨fun e he hne => ?_, h.begins_encode s⟩
  have hlookup : r.entries.lookup e.1 = some e.2 := h.lookup_eq_some_iff.2 he
  refine not_mem_encode (by simp [hlookup]) (fun e' he' hmem => ?_) s
  exact (List.mem_cons.1 hmem).elim hne (h.names e he e' he')

theorem exists_encode_of_isWritten {t : List Char} (ht : r.IsWritten t) :
    ∃ s, encode r.entries s = t := by
  -- On the length and not on the list, since a reference is taken off as a whole.
  induction hlen : t.length using Nat.strong_induction_on generalizing t with
  | h n ih =>
    cases t with
    | nil => exact ⟨[], rfl⟩
    | cons c rest =>
      by_cases hamp : c = '&'
      · subst hamp
        obtain ⟨⟨d, name⟩, hmem, after, hafter⟩ := ht.begins [] rest rfl
        have hlt : after.length < n := by
          have hlength := congrArg List.length hafter
          rw [hlen, List.length_append] at hlength
          simp only [reference, List.length_append, List.length_cons] at hlength
          omega
        rw [← hafter] at ht
        obtain ⟨s, rfl⟩ := ih after.length hlt ht.of_append rfl
        exact ⟨d :: s, (h.encode_cons_of_mem hmem s).trans hafter⟩
      · have hfree : ∀ name, (c, name) ∉ r.entries := fun name hmem =>
          ht.not_mem _ hmem hamp List.mem_cons_self
        have hlt : rest.length < n := by
          rw [← hlen]
          exact Nat.lt_succ_self _
        have hrest : r.IsWritten ([c] ++ rest) := ht
        obtain ⟨s, rfl⟩ := ih rest.length hlt hrest.of_append rfl
        exact ⟨c :: s, h.encode_cons_of_not_mem hfree s⟩

theorem exists_encode_iff {t : List Char} :
    (∃ s, encode r.entries s = t) ↔ r.IsWritten t := by
  constructor
  · rintro ⟨s, rfl⟩
    exact h.isWritten_encode s
  · exact h.exists_encode_of_isWritten

end IsSeparate

theorem isSeparate_ofText : ofText.IsSeparate := ⟨by decide, by decide, by decide⟩

theorem isSeparate_ofAttribute : ofAttribute.IsSeparate := ⟨by decide, by decide, by decide⟩

theorem isSeparate_ofXml : ofXml.IsSeparate := ⟨by decide, by decide, by decide⟩

end References

/-- Escaping replaces each reserved character by its reference and can be undone. What it writes is
told by its ampersands. -/
structure Substitutes (escape : String → String) (r : References) : Prop where
  one_pass : ∀ s, escape s = String.ofList (encode r.entries s.toList)
  append : ∀ s t, escape (s ++ t) = escape s ++ escape t
  reads_back : ∀ s, String.ofList (decode r (escape s).toList) = s
  injective : Function.Injective escape
  written : ∀ t, (∃ s, escape s = t) ↔ r.IsWritten t.toList

theorem substitutes_of_toList {escape : String → String} {r : References} (hr : r.IsSeparate)
    (h : ∀ s, (escape s).toList = encode r.entries s.toList) : Substitutes escape r := by
  have hreads : ∀ s, String.ofList (decode r (escape s).toList) = s := by
    intro s
    rw [h, decode_encode (fun _ he => he) hr.ampersand, String.ofList_toList]
  refine ⟨fun s => ?_, fun s t => ?_, hreads, fun s t heq => ?_, fun t => ?_⟩
  · rw [← h, String.ofList_toList]
  · rw [← String.toList_inj, String.toList_append, h, h, h, String.toList_append, encode_append]
  · rw [← hreads s, heq, hreads t]
  · rw [← hr.exists_encode_iff]
    constructor
    · rintro ⟨s, rfl⟩
      exact ⟨s.toList, (h s).symm⟩
    · rintro ⟨s, hs⟩
      refine ⟨String.ofList s, ?_⟩
      rw [← String.toList_inj, h, String.toList_ofList, hs]

/-- The three chains of replacements are substitutions of one pass, which distribute over
appending and are read back in one pass. They write exactly the texts without reserved characters
other than ampersands that begin a reference. -/
theorem escapers_substitute :
    Substitutes forText .ofText ∧ Substitutes forAttribute .ofAttribute ∧
      Substitutes forXml .ofXml :=
  ⟨substitutes_of_toList References.isSeparate_ofText toList_forText,
    substitutes_of_toList References.isSeparate_ofAttribute toList_forAttribute,
    substitutes_of_toList References.isSeparate_ofXml toList_forXml⟩

example : forXml "&lt;'" = "&amp;lt;&apos;" := by decide +kernel

end StaticSite.Escape
