import StaticSite.Data.Json
import StaticSite.Proofs.Asset.Manifest
import StaticSite.Proofs.SortedMap

/-!
# Reading a manifest back

The text of a manifest is read as JSON. Quotation marks and backslashes are escaped and control
characters are not, although the grammar has no control characters inside strings. So the text of a
manifest is a JSON text if and only if no name has a control character, and then it reads back as
the object that maps each logical name, once, to the path under which it is deployed.
-/

namespace StaticSite

def Text.isPrintable (s : String) : Bool := s.toList.all fun c => !(c.toNat < 0x20)

namespace Json

theorem stringBody_quoted (cs rest : List Char) {n : Nat}
    (hn : (cs.flatMap Escape.quotedChar).length < n) :
    stringBody n (cs.flatMap Escape.quotedChar ++ '"' :: rest) =
      if cs.all fun c => !(c.toNat < 0x20) then some (cs, rest) else none := by
  induction cs generalizing n with
  | nil =>
    obtain ⟨n, rfl⟩ := Nat.exists_eq_add_one_of_ne_zero (Nat.ne_of_gt hn)
    simp [stringBody]
  | cons c cs ih =>
    obtain ⟨n, rfl⟩ := Nat.exists_eq_add_one_of_ne_zero (Nat.ne_of_gt (Nat.zero_lt_of_lt hn))
    rw [List.flatMap_cons, List.length_append] at hn
    rw [List.flatMap_cons, List.append_assoc, List.all_cons]
    by_cases hc : c = '"' ∨ c = '\\'
    · -- An escaped character takes two steps of the text and one of the reader.
      rw [Escape.quotedChar, if_pos hc] at hn ⊢
      have hescape : escape? c = some c := by rcases hc with rfl | rfl <;> rfl
      have hprintable : (!decide (c.toNat < 0x20)) = true := by rcases hc with rfl | rfl <;> rfl
      have hu : c ≠ 'u' := by rcases hc with rfl | rfl <;> decide
      have hrest := ih (n := n) (by simp only [List.length_cons, List.length_nil] at hn; omega)
      rw [List.cons_append, List.singleton_append, stringBody, if_neg (by decide), if_pos rfl]
      simp only [if_neg hu, hescape, hprintable, Bool.true_and, Option.map_some,
        Option.bind_eq_bind, Option.bind_some, hrest]
      split <;> rfl
    · have hq : c ≠ '"' := fun h => hc (Or.inl h)
      have hb : c ≠ '\\' := fun h => hc (Or.inr h)
      rw [Escape.quotedChar, if_neg hc] at hn ⊢
      have hrest := ih (n := n) (by simp only [List.length_cons, List.length_nil] at hn; omega)
      rw [List.singleton_append, stringBody.eq_def]
      simp only [if_neg hq, if_neg hb, hrest]
      by_cases hcontrol : c.toNat < 0x20
      · simp [hcontrol]
      · simp only [hcontrol, decide_false, Bool.not_false, Bool.true_and, if_false]
        split <;> rfl

theorem string?_quoted (s : String) (rest : List Char) :
    string? ((Manifest.quoted s).toList ++ rest) =
      if Text.isPrintable s then some (s, rest) else none := by
  have hlength : (s.toList.flatMap Escape.quotedChar).length <
      (s.toList.flatMap Escape.quotedChar ++ '"' :: rest).length + 1 := by
    simp only [List.length_append, List.length_cons]
    omega
  rw [Manifest.toList_quoted_append, Escape.toList_forQuotes, string?,
    stringBody_quoted s.toList rest hlength, Text.isPrintable]
  split <;> simp

theorem value?_quoted (n : Nat) (s : String) (rest : List Char) :
    value? (n + 1) ((Manifest.quoted s).toList ++ rest) =
      if Text.isPrintable s then some (.text s, rest) else none := by
  have hstring := string?_quoted s rest
  rw [Manifest.toList_quoted_append] at hstring ⊢
  rw [value?, if_pos rfl, hstring]
  split <;> rfl

def isPrintableEntry (e : String × String) : Bool := Text.isPrintable e.1 && Text.isPrintable e.2

def member (e : String × String) : String × Value := (e.1, .text e.2)

theorem skip_cons {c : Char} (h : isSpace c = true) (rest : List Char) :
    skip (c :: rest) = skip rest := List.dropWhile_cons_of_pos h

theorem skip_quoted (s : String) (rest : List Char) :
    skip ((Manifest.quoted s).toList ++ rest) = (Manifest.quoted s).toList ++ rest := by
  rw [Manifest.toList_quoted_append]
  rfl

theorem skip_line (e : String × String) (rest : List Char) :
    skip ('\n' :: ((Manifest.line e).toList ++ rest)) =
      (Manifest.quoted e.1).toList ++ (':' :: ' ' :: ((Manifest.quoted e.2).toList ++ rest)) := by
  have hline : (Manifest.line e).toList ++ rest = ' ' :: ' ' ::
      ((Manifest.quoted e.1).toList ++ (':' :: ' ' :: ((Manifest.quoted e.2).toList ++ rest))) := by
    simp [Manifest.line]
  rw [hline, skip_cons rfl, skip_cons rfl, skip_cons rfl, skip_quoted]

theorem skip_value (s : String) (rest : List Char) :
    skip (' ' :: ((Manifest.quoted s).toList ++ rest)) = (Manifest.quoted s).toList ++ rest := by
  rw [skip_cons rfl, skip_quoted]

theorem after?_colon (rest : List Char) : after? [':'] (skip (':' :: rest)) = some rest := rfl

theorem entries?_line (e : String × String) (rest : List Char) (n : Nat) :
    entries? (n + 2) ('\n' :: ((Manifest.line e).toList ++ rest)) =
      if isPrintableEntry e then
        match skip rest with
        | ',' :: rest => (entries? (n + 1) rest).map fun r => (member e :: r.1, r.2)
        | '\x7d' :: rest => some ([member e], rest)
        | _ => none
      else none := by
  rw [entries?, skip_line, string?_quoted]
  cases h₁ : Text.isPrintable e.1 with
  | false => simp [isPrintableEntry, h₁]
  | true =>
    simp only [if_true, Option.bind_eq_bind, Option.bind_some, after?_colon, skip_value,
      value?_quoted]
    cases h₂ : Text.isPrintable e.2 with
    | false => simp [isPrintableEntry, h₂]
    | true =>
      have hprintable : isPrintableEntry e = true := by simp [isPrintableEntry, h₁, h₂]
      rw [if_pos hprintable]
      rfl

theorem entries?_body {es : List (String × String)} (hne : es ≠ []) {n : Nat} (hn : es.length < n) :
    entries? n ('\n' :: Manifest.body es) =
      if es.all isPrintableEntry then some (es.map member, ['\n']) else none := by
  induction es generalizing n with
  | nil => exact absurd rfl hne
  | cons e es ih =>
    rw [List.length_cons] at hn
    obtain ⟨n, rfl⟩ : ∃ k, n = k + 2 := ⟨n - 2, by omega⟩
    cases es with
    | nil =>
      have hend : "\n\x7d\n".toList = ['\n', '\x7d', '\n'] := rfl
      rw [Manifest.body, hend, entries?_line, List.all_cons, List.all_nil, Bool.and_true]
      rfl
    | cons d es =>
      have hrest := ih (by simp) (n := n + 1) (by omega)
      have hcomma : ",\n".toList ++ Manifest.body (d :: es) =
          ',' :: '\n' :: Manifest.body (d :: es) := rfl
      have hskip : skip (',' :: '\n' :: Manifest.body (d :: es)) =
          ',' :: '\n' :: Manifest.body (d :: es) := rfl
      rw [Manifest.body, hcomma, entries?_line, List.all_cons (a := e)]
      simp only [hskip, hrest]
      cases isPrintableEntry e with
      | false => rfl
      | true =>
        rw [if_pos rfl, Bool.true_and]
        split <;> rfl

theorem length_le_body (es : List (String × String)) : es.length ≤ (Manifest.body es).length := by
  induction es with
  | nil => exact Nat.zero_le _
  | cons e es ih =>
    cases es with
    | nil => simp [Manifest.body]
    | cons d es =>
      rw [Manifest.body]
      simp only [List.length_append, List.length_cons] at ih ⊢
      have hcomma : ",\n".toList.length = 2 := rfl
      omega

theorem after?_body {es : List (String × String)} (hne : es ≠ []) :
    after? ['\x7d'] (skip ('\n' :: Manifest.body es)) = none := by
  obtain ⟨e, es, rfl⟩ := List.exists_cons_of_ne_nil hne
  have hline : ∃ rest, Manifest.body (e :: es) = (Manifest.line e).toList ++ rest := by
    cases es with
    | nil => exact ⟨_, rfl⟩
    | cons d es => exact ⟨_, rfl⟩
  obtain ⟨rest, hrest⟩ := hline
  rw [hrest, skip_line, Manifest.toList_quoted_append]
  rfl

theorem parse_manifest (m : Manifest) :
    parse m.json =
      if m.entries.all isPrintableEntry then some (.table (m.entries.map member)) else none := by
  by_cases hne : m.entries = []
  · rw [Manifest.json, if_pos hne, hne]
    rfl
  · have hchars : m.json.toList = '\x7b' :: '\n' :: Manifest.body m.entries := by
      rw [Manifest.toList_json hne]
      rfl
    have hbound : m.entries.length < ('\x7b' :: '\n' :: Manifest.body m.entries).length := by
      have := length_le_body m.entries
      simp only [List.length_cons]
      omega
    have hskip (rest : List Char) : skip ('\x7b' :: rest) = '\x7b' :: rest := rfl
    have hend : skip ['\n'] = [] := rfl
    rw [parse]
    simp only [hchars, hskip]
    rw [value?, if_neg (by decide), if_neg (by decide), if_pos rfl, after?_body hne]
    simp only [entries?_body hne hbound]
    cases m.entries.all isPrintableEntry with
    | false => rfl
    | true => exact if_pos hend

end Json

namespace Manifest

def ofAssets (assets : List (String × String)) : Manifest :=
  assets.foldl (fun m e => m.add e.1 e.2) empty

theorem mem_entries_ofAssets {assets : List (String × String)} {logical deployed : String} :
    (logical, deployed) ∈ (ofAssets assets).entries ↔
      assets.reverse.lookup logical = some deployed := by
  have hempty : empty.assets.get? logical = none := rfl
  rw [entries, ← SortedMap.get?_eq_some_iff, ofAssets, assets_foldl_add Prod.fst Prod.snd,
    List.map_id', SortedMap.get?_foldl_insert, hempty, Option.or_none]

/-- Whatever assets are added, the text of the manifest is a JSON text if and only if no name in it
has a control character. Then it reads back as an object that has each logical name once, with the
deployed path that was last added for it. -/
theorem json_reads_back (assets : List (String × String)) :
    Json.parse (ofAssets assets).json =
        (if (ofAssets assets).entries.all Json.isPrintableEntry then
          some (.table ((ofAssets assets).entries.map Json.member))
        else none) ∧
      ((ofAssets assets).entries.map Prod.fst).Nodup ∧
      ∀ logical deployed, (logical, deployed) ∈ (ofAssets assets).entries ↔
        assets.reverse.lookup logical = some deployed :=
  ⟨Json.parse_manifest _, (ofAssets assets).assets.nodup_keys, fun _ _ => mem_entries_ofAssets⟩

/-- A name with a line break is written as it is, and the manifest is no JSON text. -/
theorem json_with_line_break :
    (ofAssets [("a\nb", "a\nb")]).entries = [("a\nb", "a\nb")] ∧
      Json.parse (ofAssets [("a\nb", "a\nb")]).json = none := by
  decide +kernel

end Manifest

end StaticSite
