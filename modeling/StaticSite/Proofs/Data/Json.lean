import StaticSite.Data.Json
import StaticSite.Proofs.Number.Digits

/-!
# Reading printed values back

What is printed as JSON is read back as the same value, whatever characters stand in its texts. This
is shown for values without numbers and moments, of which content consists.
-/

namespace StaticSite

/-- Whether a value that holds no others is nothing, a flag or a text. -/
def Value.isTextual : Value → Bool
  | .null => true
  | .flag _ => true
  | .text _ => true
  | _ => false

namespace Json

theorem escape?_escapeLetter {c letter : Char} (h : escapeLetter? c = some letter) :
    letter ≠ 'u' ∧ escape? letter = some c := by
  unfold escapeLetter? at h
  split at h <;> cases h <;> exact ⟨by decide, rfl⟩

theorem unicode?_print {c : Char} (hc : c.toNat < 0x20) (rest : List Char) :
    unicode? ('0' :: '0' :: Nat.digitChar (c.toNat / 16) :: Nat.digitChar (c.toNat % 16) :: rest) =
      some (c, rest) := by
  have hdigits : ∀ n : Fin 32, Number.numeral? 16
      ['0', '0', Nat.digitChar (n / 16), Nat.digitChar (n % 16)] = some n.val := by decide
  have hnumeral := hdigits ⟨c.toNat, hc⟩
  have hlength (a b : Char) : ¬('0' :: '0' :: a :: b :: rest).length < 4 := by simp
  have hsurrogate : ¬(0xD800 ≤ c.toNat ∧ c.toNat < 0xDC00) := by omega
  have hvalid : c.toNat.isValidChar := .inl (by omega)
  simp only [unicode?, Number.takeNumeral?, if_neg (hlength _ _), List.take_succ_cons,
    List.take_zero, hnumeral, List.drop_succ_cons, List.drop_zero, Option.map_some,
    Option.bind_eq_bind, Option.bind_some, if_neg hsurrogate, Number.character?, if_pos hvalid,
    Char.ofNat_toNat]
  rfl

theorem stringBody_printChar (c : Char) (rest : List Char) (n : Nat) :
    stringBody (n + 1) (printChar c ++ rest) =
      (stringBody n rest).map fun r => (c :: r.1, r.2) := by
  unfold printChar
  split
  · rename_i letter hletter
    obtain ⟨hu, hescape⟩ := escape?_escapeLetter hletter
    rw [List.cons_append, List.singleton_append, stringBody, if_neg (by decide), if_pos rfl]
    simp only [if_neg hu, hescape, Option.map_some, Option.bind_eq_bind, Option.bind_some]
    cases stringBody n rest <;> rfl
  · rename_i hnone
    have hquote : c ≠ '"' := by
      rintro rfl
      cases hnone
    have hslash : c ≠ '\\' := by
      rintro rfl
      cases hnone
    split
    · rename_i hcontrol
      simp only [List.cons_append, List.nil_append]
      rw [stringBody, if_neg (by decide), if_pos rfl]
      simp only [if_true, unicode?_print hcontrol, Option.bind_eq_bind, Option.bind_some]
      cases stringBody n rest <;> rfl
    · rename_i hcontrol
      rw [List.singleton_append, stringBody.eq_def]
      simp only [if_neg hquote, if_neg hslash, if_neg hcontrol, Option.bind_eq_bind]
      cases stringBody n rest <;> rfl

theorem stringBody_print (cs rest : List Char) {n : Nat} (hn : cs.length < n) :
    stringBody n (cs.flatMap printChar ++ '"' :: rest) = some (cs, rest) := by
  induction cs generalizing n with
  | nil =>
    obtain ⟨n, rfl⟩ := Nat.exists_eq_add_one_of_ne_zero (Nat.ne_of_gt hn)
    rfl
  | cons c cs ih =>
    obtain ⟨n, rfl⟩ := Nat.exists_eq_add_one_of_ne_zero (Nat.ne_of_gt (Nat.zero_lt_of_lt hn))
    rw [List.flatMap_cons, List.append_assoc, stringBody_printChar,
      ih (Nat.lt_of_succ_lt_succ hn)]
    rfl

theorem length_le_flatMap_printChar (cs : List Char) :
    cs.length ≤ (cs.flatMap printChar).length := by
  have hpos (c : Char) : 1 ≤ (printChar c).length := by
    unfold printChar
    split
    · simp
    · split <;> simp
  induction cs with
  | nil => exact Nat.zero_le _
  | cons c cs ih =>
    have hc := hpos c
    rw [List.flatMap_cons, List.length_append, List.length_cons]
    omega

theorem toList_printString (s : String) :
    (printString s).toList = '"' :: (s.toList.flatMap printChar ++ ['"']) := by
  simp [printString]

theorem string?_print (s : String) (rest : List Char) :
    string? ((printString s).toList ++ rest) = some (s, rest) := by
  have hlength : s.toList.length < (s.toList.flatMap printChar ++ '"' :: rest).length + 1 := by
    have hle := length_le_flatMap_printChar s.toList
    rw [List.length_append]
    omega
  have hchars : (printString s).toList ++ rest =
      '"' :: (s.toList.flatMap printChar ++ '"' :: rest) := by
    rw [toList_printString]
    simp
  rw [hchars, string?, stringBody_print _ _ hlength, Option.map_some]
  simp only [String.ofList_toList]

def itemsText : List Value → List Char
  | [] => []
  | v :: vs => (print v).toList ++ (printItems vs).toList

def entriesText : List (String × Value) → List Char
  | [] => []
  | (name, v) :: es =>
    (printString name).toList ++ ':' :: ((print v).toList ++ (printEntries es).toList)

theorem toList_printItems_cons (v : Value) (vs : List Value) :
    (printItems (v :: vs)).toList = ',' :: itemsText (v :: vs) := by
  simp [printItems, itemsText]

theorem toList_printEntries_cons (e : String × Value) (es : List (String × Value)) :
    (printEntries (e :: es)).toList = ',' :: entriesText (e :: es) := by
  simp [printEntries, entriesText]

theorem toList_print_list (v : Value) (vs : List Value) :
    (print (.list (v :: vs))).toList = '[' :: (itemsText (v :: vs) ++ [']']) := by
  simp [print, itemsText]

theorem toList_print_table (e : String × Value) (es : List (String × Value)) :
    (print (.table (e :: es))).toList = '\x7b' :: (entriesText (e :: es) ++ ['\x7d']) := by
  simp [print, entriesText]

theorem exists_toList_print {v : Value} (hv : v.all Value.isTextual = true) :
    ∃ c cs, (print v).toList = c :: cs ∧ isSpace c = false ∧ c ≠ ']' := by
  cases v with
  | null => exact ⟨_, _, rfl, by decide, by decide⟩
  | flag b => cases b <;> exact ⟨_, _, rfl, by decide, by decide⟩
  | text s => exact ⟨_, _, toList_printString s, by decide, by decide⟩
  | list items =>
    cases items with
    | nil => exact ⟨_, _, rfl, by decide, by decide⟩
    | cons v vs => exact ⟨_, _, toList_print_list v vs, by decide, by decide⟩
  | table entries =>
    cases entries with
    | nil => exact ⟨_, _, rfl, by decide, by decide⟩
    | cons e es => exact ⟨_, _, toList_print_table e es, by decide, by decide⟩
  | integer i => cases hv
  | number d => cases hv
  | moment s => cases hv
  | unreadable s => cases hv

theorem skip_print {v : Value} (hv : v.all Value.isTextual = true) (rest : List Char) :
    skip ((print v).toList ++ rest) = (print v).toList ++ rest := by
  obtain ⟨c, cs, hchars, hspace, -⟩ := exists_toList_print hv
  rw [hchars, List.cons_append]
  exact List.dropWhile_cons_of_neg (by rw [hspace]; exact Bool.false_ne_true)

theorem value?_print_null (n : Nat) (rest : List Char) :
    value? (n + 1) ((print .null).toList ++ rest) = some (.null, rest) := rfl

theorem value?_print_flag (b : Bool) (n : Nat) (rest : List Char) :
    value? (n + 1) ((print (.flag b)).toList ++ rest) = some (.flag b, rest) := by
  cases b <;> rfl

theorem value?_print_text (s : String) (n : Nat) (rest : List Char) :
    value? (n + 1) ((print (.text s)).toList ++ rest) = some (.text s, rest) := by
  have hstring := string?_print s rest
  rw [toList_printString, List.cons_append] at hstring
  rw [print, toList_printString, List.cons_append, value?, if_pos rfl, hstring]
  rfl

theorem value?_print_list_nil (n : Nat) (rest : List Char) :
    value? (n + 1) ((print (.list [])).toList ++ rest) = some (.list [], rest) := rfl

theorem value?_print_table_nil (n : Nat) (rest : List Char) :
    value? (n + 1) ((print (.table [])).toList ++ rest) = some (.table [], rest) := rfl

theorem value?_print_list {v : Value} {vs : List Value} (hv : v.all Value.isTextual = true)
    {n : Nat} {rest : List Char}
    (h : items? n (itemsText (v :: vs) ++ ']' :: rest) = some (v :: vs, rest)) :
    value? (n + 1) ((print (.list (v :: vs))).toList ++ rest) = some (.list (v :: vs), rest) := by
  have hopen : after? [']'] (skip (itemsText (v :: vs) ++ ']' :: rest)) = none := by
    obtain ⟨c, cs, hchars, -, hbracket⟩ := exists_toList_print hv
    rw [itemsText, List.append_assoc, skip_print hv, hchars, after?, List.cons_append, if_neg]
    simpa [List.isPrefixOf] using hbracket.symm
  rw [toList_print_list, List.cons_append, List.append_assoc, List.singleton_append, value?,
    if_neg (by decide), if_pos rfl, hopen]
  simp only [h, Option.map_some]

theorem value?_print_table {e : String × Value} {es : List (String × Value)}
    {n : Nat} {rest : List Char}
    (h : entries? n (entriesText (e :: es) ++ '\x7d' :: rest) = some (e :: es, rest)) :
    value? (n + 1) ((print (.table (e :: es))).toList ++ rest) = some (.table (e :: es), rest) := by
  have hopen : after? ['\x7d'] (skip (entriesText (e :: es) ++ '\x7d' :: rest)) = none := by
    rw [entriesText, toList_printString]
    rfl
  rw [toList_print_table, List.cons_append, List.append_assoc, List.singleton_append, value?,
    if_neg (by decide), if_neg (by decide), if_pos rfl, hopen]
  simp only [h, Option.map_some]

theorem items?_print_cons {v : Value} {vs : List Value} (hv : v.all Value.isTextual = true)
    {n : Nat} {rest : List Char}
    (h : ∀ rest, value? n ((print v).toList ++ rest) = some (v, rest))
    (hrest : vs ≠ [] → items? n (itemsText vs ++ ']' :: rest) = some (vs, rest)) :
    items? (n + 1) (itemsText (v :: vs) ++ ']' :: rest) = some (v :: vs, rest) := by
  rw [items?, itemsText, List.append_assoc, skip_print hv, h]
  simp only [Option.bind_eq_bind, Option.bind_some]
  cases vs with
  | nil => rfl
  | cons w ws =>
    have hcomma (text : List Char) : skip (',' :: text) = ',' :: text := rfl
    rw [toList_printItems_cons, List.cons_append, hcomma]
    simp only [hrest (List.cons_ne_nil w ws), Option.map_some]

theorem entries?_print_cons {e : String × Value} {es : List (String × Value)}
    (he : e.2.all Value.isTextual = true) {n : Nat} {rest : List Char}
    (h : ∀ rest, value? n ((print e.2).toList ++ rest) = some (e.2, rest))
    (hrest : es ≠ [] → entries? n (entriesText es ++ '\x7d' :: rest) = some (es, rest)) :
    entries? (n + 1) (entriesText (e :: es) ++ '\x7d' :: rest) = some (e :: es, rest) := by
  have hquote (text : List Char) : skip ((printString e.1).toList ++ text) =
      (printString e.1).toList ++ text := by
    rw [toList_printString]
    rfl
  have hcolon (text : List Char) : after? [':'] (skip (':' :: text)) = some text := rfl
  rw [entries?, entriesText, List.append_assoc, hquote, string?_print]
  simp only [Option.bind_eq_bind, Option.bind_some]
  rw [List.cons_append, hcolon, Option.bind_some, List.append_assoc, skip_print he, h]
  cases es with
  | nil => rfl
  | cons d ds =>
    have hcomma (text : List Char) : skip (',' :: text) = ',' :: text := rfl
    rw [toList_printEntries_cons, List.cons_append, Option.bind_some, hcomma]
    simp only [hrest (List.cons_ne_nil d ds), Option.map_some]

mutual

/-- A printed value is read back, whatever follows it. The length of what is printed bounds the steps
that reading takes. -/
theorem value?_print : ∀ v : Value, v.all Value.isTextual = true → ∀ (n : Nat) (rest : List Char),
    (print v).toList.length ≤ n → value? (n + 1) ((print v).toList ++ rest) = some (v, rest)
  | .null => fun _ n rest _ => value?_print_null n rest
  | .flag b => fun _ n rest _ => value?_print_flag b n rest
  | .text s => fun _ n rest _ => value?_print_text s n rest
  | .integer _ | .number _ | .moment _ | .unreadable _ => nofun
  | .list [] => fun _ n rest _ => value?_print_list_nil n rest
  | .list (v :: vs) => by
    intro hv n rest hn
    have hall : Value.allOf Value.isTextual (v :: vs) = true := hv
    have hfirst := hall
    rw [Value.allOf, Bool.and_eq_true] at hfirst
    rw [toList_print_list, List.length_cons, List.length_append, List.length_singleton] at hn
    obtain ⟨k, rfl⟩ : ∃ k, n = k + 1 := ⟨n - 1, by omega⟩
    exact value?_print_list hfirst.1 (items?_print (v :: vs) (List.cons_ne_nil v vs) hall k rest
      (by omega))
  | .table [] => fun _ n rest _ => value?_print_table_nil n rest
  | .table (e :: es) => by
    intro hv n rest hn
    rw [toList_print_table, List.length_cons, List.length_append, List.length_singleton] at hn
    obtain ⟨k, rfl⟩ : ∃ k, n = k + 1 := ⟨n - 1, by omega⟩
    exact value?_print_table (entries?_print (e :: es) (List.cons_ne_nil e es) hv k rest
      (by omega))

theorem items?_print : ∀ vs : List Value, vs ≠ [] → Value.allOf Value.isTextual vs = true →
    ∀ (n : Nat) (rest : List Char), (itemsText vs).length + 1 ≤ n →
      items? (n + 1) (itemsText vs ++ ']' :: rest) = some (vs, rest)
  | [] => fun hne => absurd rfl hne
  | v :: vs => by
    intro _ hv n rest hn
    rw [Value.allOf, Bool.and_eq_true] at hv
    rw [itemsText, List.length_append] at hn
    obtain ⟨k, rfl⟩ : ∃ k, n = k + 1 := ⟨n - 1, by omega⟩
    refine items?_print_cons hv.1 (fun rest => value?_print v hv.1 k rest (by omega)) fun hvs => ?_
    refine items?_print vs hvs hv.2 k rest ?_
    obtain ⟨w, ws, rfl⟩ := List.exists_cons_of_ne_nil hvs
    rw [toList_printItems_cons, List.length_cons] at hn
    omega

theorem entries?_print : ∀ es : List (String × Value), es ≠ [] →
    Value.allIn Value.isTextual es = true → ∀ (n : Nat) (rest : List Char),
      (entriesText es).length + 1 ≤ n →
        entries? (n + 1) (entriesText es ++ '\x7d' :: rest) = some (es, rest)
  | [] => fun hne => absurd rfl hne
  | (name, v) :: es => by
    intro _ hv n rest hn
    rw [Value.allIn, Bool.and_eq_true] at hv
    rw [entriesText, List.length_append, List.length_cons, List.length_append] at hn
    obtain ⟨k, rfl⟩ : ∃ k, n = k + 1 := ⟨n - 1, by omega⟩
    refine entries?_print_cons hv.1 (fun rest => value?_print v hv.1 k rest (by omega)) fun hes => ?_
    refine entries?_print es hes hv.2 k rest ?_
    obtain ⟨d, ds, rfl⟩ := List.exists_cons_of_ne_nil hes
    rw [toList_printEntries_cons, List.length_cons] at hn
    omega

end

theorem parse_print {v : Value} (hv : v.all Value.isTextual = true) : parse (print v) = some v := by
  have hskip := skip_print hv []
  have hread := value?_print v hv (print v).toList.length [] le_rfl
  rw [List.append_nil] at hskip hread
  rw [parse]
  simp only [hskip, hread]
  rfl

end Json

end StaticSite
