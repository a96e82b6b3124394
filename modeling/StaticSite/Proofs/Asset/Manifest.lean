import StaticSite.Asset.Manifest
import StaticSite.Text.Utf8

/-!
# What the text of a manifest says

The text of a manifest determines the manifest: a quoted name can be read back from the front of
what it begins, whatever characters the name has, and what follows the line of an asset shows
whether another one follows. The bytes of a text determine the text as well, so the file that holds
a manifest says what it is.
-/

namespace StaticSite

theorem Text.encode_injective : Function.Injective Text.encode := by
  intro s s' h
  have hbytes : s.toList.utf8Encode = s'.toList.utf8Encode := congrArg List.toByteArray h
  have hchars := congrArg ByteArray.utf8Decode? hbytes
  rw [List.utf8Decode?_utf8Encode, List.utf8Decode?_utf8Encode] at hchars
  exact String.toList_inj.1 (congrArg Array.toList (Option.some.inj hchars))

namespace Escape

def quotedChar (c : Char) : List Char := if c = '"' ∨ c = '\\' then ['\\', c] else [c]

theorem toList_forQuotes (s : String) : (forQuotes s).toList = s.toList.flatMap quotedChar := by
  simp only [forQuotes, replace, String.toList_ofList, List.flatMap_assoc]
  congr 1
  funext c
  by_cases hb : c = '\\'
  · simp [quotedChar, hb]
  · by_cases hq : c = '"' <;> simp [quotedChar, hb, hq]

/-- The characters before the first quotation mark that no backslash stands before, each without
its backslash, and what follows the mark. -/
def readQuoted : List Char → List Char × List Char
  | [] => ([], [])
  | '"' :: rest => ([], rest)
  | '\\' :: c :: rest => (c :: (readQuoted rest).1, (readQuoted rest).2)
  | c :: rest => (c :: (readQuoted rest).1, (readQuoted rest).2)

theorem readQuoted_forQuotes (s : String) (rest : List Char) :
    readQuoted ((forQuotes s).toList ++ '"' :: rest) = (s.toList, rest) := by
  rw [toList_forQuotes]
  induction s.toList with
  | nil => simp [readQuoted]
  | cons c cs ih =>
    rw [List.flatMap_cons, List.append_assoc]
    by_cases hc : c = '"' ∨ c = '\\'
    · simp only [quotedChar, if_pos hc, List.cons_append, List.nil_append, readQuoted, ih]
    · have hq : c ≠ '"' := fun h => hc (Or.inl h)
      have hb : c ≠ '\\' := fun h => hc (Or.inr h)
      rw [quotedChar, if_neg hc, List.singleton_append, readQuoted.eq_4 _ _ hq fun _ _ h _ => hb h,
        ih]

end Escape

namespace Manifest

theorem assets_foldl_add {α : Type} (logical deployed : α → String) (l : List α) (m : Manifest) :
    (l.foldl (fun m a => m.add (logical a) (deployed a)) m).assets =
      (l.map fun a => (logical a, deployed a)).foldl (fun m e => m.insert e.1 e.2) m.assets := by
  induction l generalizing m with
  | nil => rfl
  | cons a l ih => exact ih _

theorem toList_quoted_append (s : String) (rest : List Char) :
    (quoted s).toList ++ rest = '"' :: ((Escape.forQuotes s).toList ++ '"' :: rest) := by
  simp [quoted]

theorem quoted_append_inj {s s' : String} {rest rest' : List Char}
    (h : (quoted s).toList ++ rest = (quoted s').toList ++ rest') : s = s' ∧ rest = rest' := by
  rw [toList_quoted_append, toList_quoted_append] at h
  have hread := congrArg Escape.readQuoted (List.tail_eq_of_cons_eq h)
  rw [Escape.readQuoted_forQuotes, Escape.readQuoted_forQuotes] at hread
  obtain ⟨hs, hrest⟩ := Prod.mk.inj hread
  exact ⟨String.toList_inj.1 hs, hrest⟩

theorem line_append_inj {e e' : String × String} {rest rest' : List Char}
    (h : (line e).toList ++ rest = (line e').toList ++ rest') : e = e' ∧ rest = rest' := by
  simp only [line, String.toList_append, List.append_assoc] at h
  obtain ⟨hlogical, h⟩ := quoted_append_inj (List.append_cancel_left h)
  obtain ⟨hdeployed, h⟩ := quoted_append_inj (List.append_cancel_left h)
  exact ⟨Prod.ext hlogical hdeployed, h⟩

def body : List (String × String) → List Char
  | [] => "\n\x7d\n".toList
  | [e] => (line e).toList ++ "\n\x7d\n".toList
  | e :: d :: es => (line e).toList ++ (",\n".toList ++ body (d :: es))

theorem body_inj {es es' : List (String × String)} (hne : es ≠ []) (hne' : es' ≠ [])
    (h : body es = body es') : es = es' := by
  induction es generalizing es' with
  | nil => exact absurd rfl hne
  | cons e es ih =>
    obtain ⟨e', es', rfl⟩ := List.exists_cons_of_ne_nil hne'
    -- After equal lines, a comma or the end of the object shows whether there are more.
    cases es with
    | nil =>
      cases es' with
      | nil => rw [(line_append_inj h).1]
      | cons d' es' => cases (line_append_inj h).2
    | cons d es =>
      cases es' with
      | nil => cases (line_append_inj h).2
      | cons d' es' =>
        obtain ⟨rfl, hrest⟩ := line_append_inj h
        rw [ih (by simp) (by simp) (List.append_cancel_left hrest)]

theorem toList_json {m : Manifest} (h : m.entries ≠ []) :
    m.json.toList = "\x7b\n".toList ++ body m.entries := by
  rw [json, if_neg h]
  simp only [String.toList_append, String.toList_intercalate, List.append_assoc, List.map_map]
  congr 1
  induction m.entries with
  | nil => rfl
  | cons e es ih =>
    cases es with
    | nil => simp [body, List.intercalate]
    | cons d es =>
      rw [body, ← ih]
      simp [List.intercalate]

theorem entries_eq_of_json_eq {m m' : Manifest} (h : m.json = m'.json) :
    m.entries = m'.entries := by
  have hempty : ∀ {n : Manifest}, n.entries = [] → n.json.toList = "\x7b\x7d\n".toList := by
    intro n hn
    rw [json, if_pos hn]
  have hchars := congrArg String.toList h
  by_cases hm : m.entries = [] <;> by_cases hm' : m'.entries = []
  · rw [hm, hm']
  · rw [hempty hm, toList_json hm'] at hchars
    cases hchars
  · rw [toList_json hm, hempty hm'] at hchars
    cases hchars
  · rw [toList_json hm, toList_json hm'] at hchars
    exact body_inj hm hm' (List.append_cancel_left hchars)

end Manifest

end StaticSite
