import StaticSite.Proofs.Markup.Escape
import StaticSite.Proofs.Markup.Token
import StaticSite.Text.Blank

/-!
# Reading XML

A reader of XML goes through a document one character at a time and builds its elements. It knows
tags with attributes in double quotes, processing instructions, and the five named references, and
takes every other character of a text as it stands. It is strict: end tags belong to the innermost
open element, `<` and `>` stand in markup only, and an ampersand begins a known reference. Comments,
sections of raw text and declarations are refused, so there is nothing in which an element could
hide.
-/

namespace StaticSite

namespace Xml

section

variable {σ : Type} {step : σ → Char → Option σ} {u u' : σ}

theorem foldlM_cons_of_eq {c : Char} (h : step u c = some u') (cs : List Char) :
    (c :: cs).foldlM step u = cs.foldlM step u' := by
  rw [List.foldlM_cons, h]
  rfl

theorem foldlM_append_of_eq {a : List Char} (h : a.foldlM step u = some u') (b : List Char) :
    (a ++ b).foldlM step u = b.foldlM step u' := by
  rw [List.foldlM_append, h]
  rfl

theorem foldlM_of_kept {f : List Char → σ} {cs : List Char}
    (h : ∀ raw, ∀ c ∈ cs, step (f raw) c = some (f (raw ++ [c]))) (raw : List Char) :
    cs.foldlM step (f raw) = some (f (raw ++ cs)) := by
  induction cs generalizing raw with
  | nil => rw [List.append_nil]; rfl
  | cons c cs ih =>
    rw [foldlM_cons_of_eq (h raw c List.mem_cons_self),
      ih fun raw d hd => h raw d (List.mem_cons_of_mem c hd), List.append_assoc,
      List.singleton_append]

end

/-- How far the references of a text are read: the text so far, and the name of a reference that is
not complete. -/
structure Unescaping where
  done : List Char := []
  pending : Option (List Char) := none
  deriving DecidableEq, Repr

def Unescaping.step (r : Escape.References) (u : Unescaping) (c : Char) : Option Unescaping :=
  match u.pending with
  | none => if c = '&' then some { u with pending := some [] } else some ⟨u.done ++ [c], none⟩
  | some name =>
    if c = ';' then (r.named? name).map fun d => ⟨u.done ++ [d], none⟩
    else some { u with pending := some (name ++ [c]) }

/-- A text in which every reference is read as its character. Each ampersand begins one. -/
def unescape? (r : Escape.References) (raw : List Char) : Option (List Char) :=
  (raw.foldlM (Unescaping.step r) {}).bind fun u => if u.pending = none then some u.done else none

section

variable {r : Escape.References}

theorem foldlM_plain (done : List Char) {cs : List Char} (h : '&' ∉ cs) :
    cs.foldlM (Unescaping.step r) ⟨done, none⟩ = some ⟨done ++ cs, none⟩ := by
  refine foldlM_of_kept (f := fun done => Unescaping.mk done none) (fun done c hc => ?_) done
  have hne : c ≠ '&' := fun he => h (he ▸ hc)
  exact if_neg hne

theorem foldlM_name (done name : List Char) {cs : List Char} (h : ';' ∉ cs) :
    cs.foldlM (Unescaping.step r) ⟨done, some name⟩ = some ⟨done, some (name ++ cs)⟩ := by
  refine foldlM_of_kept (f := fun name => Unescaping.mk done (some name)) (fun name c hc => ?_) name
  have hne : c ≠ ';' := fun he => h (he ▸ hc)
  exact if_neg hne

theorem foldlM_reference (done : List Char) {c : Char} {name : List Char}
    (h : (c, name) ∈ r.entries) :
    (Escape.reference name).foldlM (Unescaping.step r) ⟨done, none⟩ =
      some ⟨done ++ [c], none⟩ := by
  have hstart : Unescaping.step r ⟨done, none⟩ '&' = some ⟨done, some []⟩ := rfl
  have hend : Unescaping.step r ⟨done, some name⟩ ';' = some ⟨done ++ [c], none⟩ := by
    simp [Unescaping.step, Escape.named?_of_mem h]
  rw [Escape.reference, List.cons_append, foldlM_cons_of_eq hstart,
    foldlM_append_of_eq (foldlM_name done [] (r.plain (c, name) h)), List.nil_append,
    foldlM_cons_of_eq hend]
  rfl

theorem foldlM_encode {entries : List (Char × List Char)} (hsub : entries ⊆ r.entries)
    (hamp : (entries.lookup '&').isSome) (done s : List Char) :
    (Escape.encode entries s).foldlM (Unescaping.step r) ⟨done, none⟩ =
      some ⟨done ++ s, none⟩ := by
  induction s generalizing done with
  | nil => rw [List.append_nil]; rfl
  | cons c s ih =>
    have hchar : (Escape.encodeChar entries c).foldlM (Unescaping.step r) ⟨done, none⟩ =
        some ⟨done ++ [c], none⟩ := by
      rw [Escape.encodeChar]
      split
      · rename_i name hl
        obtain ⟨l₁, l₂, he, -⟩ := List.lookup_eq_some_iff.1 hl
        exact foldlM_reference done (hsub (by simp [he]))
      · rename_i hl
        -- What is not reserved is no ampersand, since that is reserved.
        refine foldlM_plain done fun h => ?_
        rw [List.mem_singleton.1 h, hl] at hamp
        cases hamp
    rw [Escape.encode_cons, foldlM_append_of_eq hchar, ih, List.append_assoc,
      List.singleton_append]

theorem unescape?_encode {entries : List (Char × List Char)} (hsub : entries ⊆ r.entries)
    (hamp : (entries.lookup '&').isSome) (s : List Char) :
    unescape? r (Escape.encode entries s) = some s := by
  rw [unescape?, foldlM_encode hsub hamp [] s]
  rfl

theorem unescape?_of_not_mem {s : List Char} (h : '&' ∉ s) : unescape? r s = some s := by
  rw [unescape?, foldlM_plain [] h]
  rfl

end

def text? (raw : List Char) : Option String :=
  (unescape? Escape.References.ofXml raw).map String.ofList

inductive Tag where
  | instruction (source : String)
  | opening (name : String) (attributes : List (String × String))
  | closing (name : String)
  deriving DecidableEq, Repr

def attributeName? (cs : List Char) : Option String :=
  let name := (cs.dropWhile Char.isWhitespace).dropLast
  if cs.head?.any Char.isWhitespace ∧ cs.getLast? = some '=' ∧ name ≠ [] ∧
      name.all Html.isNameChar then some (String.ofList name)
  else none

def attributes? : List (List Char) → Option (List (String × String))
  | [] => none
  | [rest] => if rest.all Char.isWhitespace then some [] else none
  | name :: value :: rest => do
    let name ← attributeName? name
    let value ← text? value
    let attributes ← attributes? rest
    return (name, value) :: attributes

def tag? (source : List Char) : Option Tag :=
  match source with
  | '?' :: rest =>
    if rest.getLast? = some '?' then some (.instruction (String.ofList rest.dropLast)) else none
  | '/' :: name =>
    if name ≠ [] ∧ name.all Html.isNameChar then some (.closing (String.ofList name)) else none
  | _ =>
    let name := source.takeWhile Html.isNameChar
    let rest := source.dropWhile Html.isNameChar
    if name = [] then none
    else (attributes? (Text.splitOn (· = '"') rest)).map (.opening (String.ofList name))

/-- What stands in a document: a text, a processing instruction, or an element with what is in it. -/
inductive Item where
  | text (s : String)
  | instruction (source : String)
  | element (name : String) (attributes : List (String × String)) (content : List Item)
  deriving Repr

structure Opened where
  name : String
  attributes : List (String × String)
  before : List Item

inductive Place where
  | content (raw : List Char)
  | tag (source : List Char)
  | quoted (source : List Char)

structure Reader where
  opened : List Opened := []
  items : List Item := []
  place : Place := .content []

def textItems (s : String) : List Item := if s = "" then [] else [.text s]

namespace Reader

/-- A complete tag. An end tag has the name of the innermost open element. -/
def meet (r : Reader) : Tag → Option Reader
  | .instruction source =>
    some { r with items := r.items ++ [.instruction source], place := .content [] }
  | .opening name attributes => some ⟨⟨name, attributes, r.items⟩ :: r.opened, [], .content []⟩
  | .closing name =>
    match r.opened with
    | [] => none
    | o :: opened =>
      if o.name = name then
        some ⟨opened, o.before ++ [.element o.name o.attributes r.items], .content []⟩
      else none

def step (r : Reader) (c : Char) : Option Reader :=
  match r.place with
  | .content raw =>
    if c = '<' then
      (text? raw).map fun s => { r with items := r.items ++ textItems s, place := .tag [] }
    else if c = '>' then none
    else some { r with place := .content (raw ++ [c]) }
  | .tag source =>
    if c = '>' then (tag? source).bind r.meet
    else if c = '<' then none
    else if c = '"' then some { r with place := .quoted (source ++ [c]) }
    else some { r with place := .tag (source ++ [c]) }
  | .quoted source =>
    if c = '<' then none
    else if c = '"' then some { r with place := .tag (source ++ [c]) }
    else some { r with place := .quoted (source ++ [c]) }

def run (r : Reader) (cs : List Char) : Option Reader := cs.foldlM step r

def finish? (r : Reader) : Option (List Item) :=
  match r.opened, r.place with
  | [], .content raw => (text? raw).map fun s => r.items ++ textItems s
  | _, _ => none

theorem run_cons_of_eq {r r' : Reader} {c : Char} (h : r.step c = some r') (cs : List Char) :
    r.run (c :: cs) = r'.run cs := foldlM_cons_of_eq h cs

theorem run_append_of_eq {r r' : Reader} {a : List Char} (h : r.run a = some r') (b : List Char) :
    r.run (a ++ b) = r'.run b := foldlM_append_of_eq h b

end Reader

def read (s : String) : Option (List Item) := (Reader.run {} s.toList).bind Reader.finish?

def IsInner (cs : List Char) : Prop := '<' ∉ cs ∧ '>' ∉ cs

theorem IsInner.ne {c : Char} {cs : List Char} (h : IsInner cs) (hc : c ∈ cs) :
    c ≠ '<' ∧ c ≠ '>' :=
  ⟨fun he => h.1 (he ▸ hc), fun he => h.2 (he ▸ hc)⟩

/-- A text between `<` and `>`, without quotation marks, that is a tag. -/
structure IsSource (source : List Char) (tag : Tag) : Prop where
  inner : IsInner source
  unquoted : '"' ∉ source
  read : tag? source = some tag

namespace Reader

variable {opened : List Opened} {items : List Item}

theorem run_content (raw : List Char) {cs : List Char} (h : IsInner cs) :
    run ⟨opened, items, .content raw⟩ cs = some ⟨opened, items, .content (raw ++ cs)⟩ := by
  refine foldlM_of_kept (f := fun raw => Reader.mk opened items (.content raw)) (fun raw c hc => ?_)
    raw
  simp [step, h.ne hc]

theorem run_tag (source : List Char) {cs : List Char} (h : IsInner cs) (hq : '"' ∉ cs) :
    run ⟨opened, items, .tag source⟩ cs = some ⟨opened, items, .tag (source ++ cs)⟩ := by
  refine foldlM_of_kept (f := fun source => Reader.mk opened items (.tag source))
    (fun source c hc => ?_) source
  have hquote : c ≠ '"' := fun he => hq (he ▸ hc)
  simp [step, h.ne hc, hquote]

theorem run_markup {raw text source : List Char} {s : String} {tag : Tag} (htext : IsInner text)
    (hs : text? (raw ++ text) = some s) (hsource : IsSource source tag) :
    run ⟨opened, items, .content raw⟩ (text ++ '<' :: (source ++ ['>'])) =
      meet ⟨opened, items ++ textItems s, .tag source⟩ tag := by
  have hopen : step ⟨opened, items, .content (raw ++ text)⟩ '<' =
      some ⟨opened, items ++ textItems s, .tag []⟩ := by
    simp [step, hs]
  have hclose : run ⟨opened, items ++ textItems s, .tag source⟩ ['>'] =
      (meet ⟨opened, items ++ textItems s, .tag source⟩ tag).bind some := by
    simp only [run, List.foldlM_cons, step, if_true, hsource.read]
    rfl
  rw [run_append_of_eq (run_content raw htext), run_cons_of_eq hopen,
    run_append_of_eq (run_tag [] hsource.inner hsource.unquoted), List.nil_append, hclose,
    Option.bind_fun_some]

end Reader

structure IsPlainName (name : String) : Prop where
  opening : IsSource name.toList (.opening name [])
  closing : IsSource ('/' :: name.toList) (.closing name)

structure ReadsAs (content s : String) : Prop where
  inner : IsInner content.toList
  text : text? content.toList = some s

theorem readsAs_forXml (s : String) : ReadsAs (Escape.forXml s) s where
  inner := by
    rw [Escape.toList_forXml]
    exact ⟨Escape.not_mem_encode (by decide) (by decide) s.toList,
      Escape.not_mem_encode (by decide) (by decide) s.toList⟩
  text := by
    rw [Escape.toList_forXml, text?, unescape?_encode (fun _ h => h) (by decide),
      Option.map_some, String.ofList_toList]

def isPlainChar (c : Char) : Bool := c != '<' && c != '>' && c != '&'

def IsPlain (s : String) : Prop := s.toList.all isPlainChar = true

instance (s : String) : Decidable (IsPlain s) :=
  inferInstanceAs (Decidable (s.toList.all isPlainChar = true))

theorem isPlain_of_forall {s : String} (h : ∀ c ∈ s.toList, isPlainChar c = true) : IsPlain s :=
  List.all_eq_true.2 h

theorem IsPlain.append {s t : String} (hs : IsPlain s) (ht : IsPlain t) : IsPlain (s ++ t) := by
  rw [IsPlain, String.toList_append, List.all_append, Bool.and_eq_true]
  exact ⟨hs, ht⟩

theorem IsPlain.not_mem {s : String} (h : IsPlain s) {c : Char} (hc : isPlainChar c = false) :
    c ∉ s.toList := by
  intro hmem
  rw [List.all_eq_true.1 h c hmem] at hc
  cases hc

theorem IsPlain.readsAs {s : String} (h : IsPlain s) : ReadsAs s s where
  inner := ⟨h.not_mem rfl, h.not_mem rfl⟩
  text := by
    rw [text?, unescape?_of_not_mem (h.not_mem rfl), Option.map_some, String.ofList_toList]

namespace Reader

variable {opened : List Opened} {items : List Item} {blanks name : String}

theorem text?_line (hblanks : IsPlain blanks) :
    text? (['\n'] ++ blanks.toList) = some ("\n" ++ blanks) := by
  have hbreak : IsPlain "\n" := by decide
  have hread := (hbreak.append hblanks).readsAs.text
  rwa [String.toList_append] at hread

theorem textItems_line (blanks : String) : textItems ("\n" ++ blanks) = [.text ("\n" ++ blanks)] := by
  refine if_neg fun h => ?_
  have hchars := congrArg String.toList h
  rw [String.toList_append] at hchars
  cases hchars

theorem run_startTag (hblanks : IsPlain blanks) (hname : IsPlainName name) (rest : List Char) :
    run ⟨opened, items, .content ['\n']⟩
        (blanks.toList ++ '<' :: (name.toList ++ ['>']) ++ rest) =
      run ⟨⟨name, [], items ++ [.text ("\n" ++ blanks)]⟩ :: opened, [], .content []⟩ rest := by
  refine run_append_of_eq ?_ rest
  rw [run_markup hblanks.readsAs.inner (text?_line hblanks) hname.opening, textItems_line]
  rfl

theorem run_endTag {before : List Item} {attributes : List (String × String)} {raw : List Char}
    {content s : String} (hinner : IsInner content.toList)
    (htext : text? (raw ++ content.toList) = some s) (hname : IsPlainName name) :
    run ⟨⟨name, attributes, before⟩ :: opened, items, .content raw⟩
        (content.toList ++ '<' :: (('/' :: name.toList) ++ ['>']) ++ ['\n']) =
      some ⟨opened, before ++ [.element name attributes (items ++ textItems s)],
        .content ['\n']⟩ := by
  have hmeet : meet ⟨⟨name, attributes, before⟩ :: opened, items ++ textItems s,
      .tag ('/' :: name.toList)⟩ (.closing name) =
      some ⟨opened, before ++ [.element name attributes (items ++ textItems s)], .content []⟩ :=
    if_pos rfl
  rw [run_append_of_eq ((run_markup hinner htext hname.closing).trans hmeet)]
  rfl

end Reader

/-- The elements in a content, each with its name, its attributes and its content, if nothing but
blanks stands beside them. -/
def elements? : List Item → Option (List (String × List (String × String) × List Item))
  | [] => some []
  | .text s :: rest => if s.toList.all Char.isWhitespace then elements? rest else none
  | .instruction _ :: _ => none
  | .element name attributes content :: rest =>
    (elements? rest).map fun es => (name, attributes, content) :: es

def textOf? : List Item → Option String
  | [] => some ""
  | [.text s] => some s
  | _ => none

def leaf? (e : String × List (String × String) × List Item) : Option (String × String) :=
  if e.2.1 = [] then (textOf? e.2.2).map fun s => (e.1, s) else none

def isInstruction : Item → Bool
  | .instruction _ => true
  | _ => false

theorem textOf?_textItems (s : String) : textOf? (textItems s) = some s := by
  unfold textItems
  split
  · rename_i h
    rw [h]
    rfl
  · rfl

theorem elements?_blank {s : String} (h : s.toList.all Char.isWhitespace = true)
    (rest : List Item) : elements? (.text s :: rest) = elements? rest := by
  rw [elements?, if_pos h]

theorem leaf?_textItems (name s : String) : leaf? (name, [], textItems s) = some (name, s) := by
  simp [leaf?, textOf?_textItems]

end Xml

end StaticSite
