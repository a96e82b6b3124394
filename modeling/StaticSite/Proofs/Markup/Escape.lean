import StaticSite.Markup.Escape
import StaticSite.Proofs.Text.Cut

/-!
# Character references

A reserved character is written as a reference: an ampersand, a name, and a semicolon. The chains of
replacements that escape a text are one substitution of its characters, and reading the references
of an escaped text gives the text back. A reader may know more references than a writer uses.
-/

namespace StaticSite.Escape

/-- Reserved characters with the names of their references. No name holds a semicolon, and no two
characters share a name. -/
structure References where
  entries : List (Char × List Char)
  plain : ∀ e ∈ entries, ';' ∉ e.2
  distinct : (entries.map Prod.snd).Nodup

def reference (name : List Char) : List Char := '&' :: name ++ [';']

namespace References

def ofText : References where
  entries := [('&', "amp".toList), ('<', "lt".toList), ('>', "gt".toList)]
  plain := by decide
  distinct := by decide

def ofAttribute : References where
  entries := ofText.entries ++ [('"', "quot".toList)]
  plain := by decide
  distinct := by decide

def ofXml : References where
  entries := ofAttribute.entries ++ [('\'', "apos".toList)]
  plain := by decide
  distinct := by decide

def named? (r : References) (name : List Char) : Option Char :=
  (r.entries.find? fun e => e.2 = name).map Prod.fst

end References

def encodeChar (entries : List (Char × List Char)) (c : Char) : List Char :=
  match entries.lookup c with
  | some name => reference name
  | none => [c]

def encode (entries : List (Char × List Char)) (s : List Char) : List Char :=
  s.flatMap (encodeChar entries)

@[simp] theorem encode_nil (entries : List (Char × List Char)) : encode entries [] = [] := rfl

@[simp] theorem encode_append (entries : List (Char × List Char)) (s t : List Char) :
    encode entries (s ++ t) = encode entries s ++ encode entries t := List.flatMap_append

theorem encode_cons (entries : List (Char × List Char)) (c : Char) (s : List Char) :
    encode entries (c :: s) = encodeChar entries c ++ encode entries s := List.flatMap_cons

theorem encode_no_entries (s : List Char) : encode [] s = s := by
  induction s with
  | nil => rfl
  | cons c s ih =>
    rw [encode_cons, ih]
    rfl

theorem not_mem_encode {entries : List (Char × List Char)} {c : Char}
    (hc : (entries.lookup c).isSome) (hr : ∀ e ∈ entries, c ∉ reference e.2) (s : List Char) :
    c ∉ encode entries s := by
  intro h
  obtain ⟨x, -, hx⟩ := List.mem_flatMap.1 h
  rw [encodeChar] at hx
  split at hx
  · rename_i name hl
    obtain ⟨l₁, l₂, he, -⟩ := List.lookup_eq_some_iff.1 hl
    exact hr (x, name) (by simp [he]) hx
  · rename_i hl
    rw [List.mem_singleton.1 hx, hl] at hc
    simp at hc

@[simp] theorem toList_replace (c : Char) (new s : String) :
    (replace c new s).toList = s.toList.flatMap fun x => if x = c then new.toList else [x] := by
  simp [replace]

theorem flatMap_replace_of_not_mem {c : Char} {new l : List Char} (h : c ∉ l) :
    (l.flatMap fun x => if x = c then new else [x]) = l := by
  induction l with
  | nil => rfl
  | cons x l ih =>
    rw [List.mem_cons, not_or] at h
    rw [List.flatMap_cons, ih h.2, if_neg (Ne.symm h.1)]
    rfl

/-- One more reserved character is one more replacement, made last. -/
theorem encode_concat (entries : List (Char × List Char)) (c : Char) (name : List Char)
    (hr : ∀ e ∈ entries, c ∉ reference e.2) (s : List Char) :
    encode (entries ++ [(c, name)]) s =
      (encode entries s).flatMap fun x => if x = c then reference name else [x] := by
  rw [encode, encode, List.flatMap_assoc]
  congr 1
  funext x
  rw [encodeChar, encodeChar, List.lookup_append]
  cases hl : entries.lookup x with
  | some n =>
    obtain ⟨l₁, l₂, he, -⟩ := List.lookup_eq_some_iff.1 hl
    have hn : c ∉ reference n := hr (x, n) (by simp [he])
    rw [Option.some_or]
    exact (flatMap_replace_of_not_mem hn).symm
  | none =>
    by_cases hx : x = c
    · simp [hx]
    · have hb : (x == c) = false := beq_eq_false_iff_ne.2 hx
      simp [List.lookup_cons, hx, hb]

theorem toList_forText (s : String) :
    (forText s).toList = encode References.ofText.entries s.toList := by
  have h₁ := encode_concat [] '&' "amp".toList (by simp) s.toList
  have h₂ := encode_concat [('&', "amp".toList)] '<' "lt".toList (by decide) s.toList
  have h₃ := encode_concat [('&', "amp".toList), ('<', "lt".toList)] '>' "gt".toList (by decide)
    s.toList
  rw [List.nil_append, encode_no_entries] at h₁
  rw [List.singleton_append, h₁] at h₂
  rw [forText, toList_replace, toList_replace, toList_replace]
  refine Eq.trans ?_ h₃.symm
  rw [h₂]
  rfl

theorem toList_forAttribute (s : String) :
    (forAttribute s).toList = encode References.ofAttribute.entries s.toList := by
  have h := encode_concat References.ofText.entries '"' "quot".toList (by decide) s.toList
  rw [forAttribute, toList_replace, toList_forText]
  exact h.symm

theorem toList_forXml (s : String) :
    (forXml s).toList = encode References.ofXml.entries s.toList := by
  have h := encode_concat References.ofAttribute.entries '\'' "apos".toList (by decide) s.toList
  have ha := toList_forAttribute s
  rw [forAttribute, forText] at ha
  rw [forXml, toList_replace, ha]
  exact h.symm

theorem forText_empty : forText "" = "" := String.toList_inj.1 (toList_forText "")

theorem forText_append (s t : String) : forText (s ++ t) = forText s ++ forText t := by
  apply String.toList_inj.1
  rw [String.toList_append, toList_forText, toList_forText, toList_forText, String.toList_append,
    encode_append]

/-- A text in which every known reference is read as its character. A reference runs from an
ampersand to the next semicolon; an ampersand before an unknown name stands for itself. -/
def decode (r : References) : List Char → List Char
  | [] => []
  | c :: rest =>
    if c = '&' then
      match _h : Text.cut [';'] rest with
      | none => '&' :: decode r rest
      | some (name, after) =>
        match r.named? name with
        | some d => d :: decode r after
        | none => '&' :: decode r rest
    else c :: decode r rest
termination_by s => s.length
decreasing_by
  · simp
  · rw [Text.eq_append_of_cut _h]
    simp
    omega
  · simp
  · simp

@[simp] theorem decode_nil (r : References) : decode r [] = [] := by rw [decode]

theorem decode_cons_of_ne (r : References) {c : Char} (h : c ≠ '&') (rest : List Char) :
    decode r (c :: rest) = c :: decode r rest := by
  rw [decode, if_neg h]

theorem find?_name_of_mem {entries : List (Char × List Char)} {c : Char} {name : List Char}
    (hd : (entries.map Prod.snd).Nodup) (h : (c, name) ∈ entries) :
    (entries.find? fun e => e.2 = name) = some (c, name) := by
  induction entries with
  | nil => simp at h
  | cons e entries ih =>
    rw [List.map_cons, List.nodup_cons] at hd
    rcases List.mem_cons.1 h with rfl | hm
    · simp
    · have hne : e.2 ≠ name := by
        intro he
        exact hd.1 (he ▸ List.mem_map.2 ⟨(c, name), hm, rfl⟩)
      rw [List.find?_cons_of_neg (by simpa using hne)]
      exact ih hd.2 hm

theorem named?_of_mem {r : References} {c : Char} {name : List Char} (h : (c, name) ∈ r.entries) :
    r.named? name = some c := by
  rw [References.named?, find?_name_of_mem r.distinct h]
  rfl

theorem decode_reference {r : References} {c : Char} {name : List Char}
    (h : (c, name) ∈ r.entries) (rest : List Char) :
    decode r (reference name ++ rest) = c :: decode r rest := by
  have hc : Text.cut [';'] (name ++ ';' :: rest) = some (name, rest) :=
    Text.cut_singleton (r.plain (c, name) h) rest
  have he : reference name ++ rest = '&' :: (name ++ ';' :: rest) := by simp [reference]
  rw [he, decode, if_pos rfl]
  split
  · rename_i hn
    rw [hc] at hn
    simp at hn
  · rename_i n a hs
    rw [hc] at hs
    obtain ⟨rfl, rfl⟩ := Prod.mk.inj (Option.some.inj hs)
    rw [named?_of_mem h]

/-- Reading an encoded text gives the text, also for a reader that knows further references. -/
theorem decode_encode_append {r : References} {entries : List (Char × List Char)}
    (hsub : entries ⊆ r.entries) (hamp : (entries.lookup '&').isSome) (s rest : List Char) :
    decode r (encode entries s ++ rest) = s ++ decode r rest := by
  induction s with
  | nil => rfl
  | cons c s ih =>
    rw [encode_cons, encodeChar]
    split
    · rename_i name hl
      obtain ⟨l₁, l₂, he, -⟩ := List.lookup_eq_some_iff.1 hl
      have hm : (c, name) ∈ r.entries := hsub (by simp [he])
      rw [List.append_assoc, decode_reference hm, ih]
      rfl
    · rename_i hl
      have hne : c ≠ '&' := by
        rintro rfl
        rw [hl] at hamp
        simp at hamp
      rw [List.append_assoc, List.singleton_append, decode_cons_of_ne r hne, ih]
      rfl

theorem decode_encode {r : References} {entries : List (Char × List Char)}
    (hsub : entries ⊆ r.entries) (hamp : (entries.lookup '&').isSome) (s : List Char) :
    decode r (encode entries s) = s := by
  have h := decode_encode_append hsub hamp s []
  simpa using h

end StaticSite.Escape
