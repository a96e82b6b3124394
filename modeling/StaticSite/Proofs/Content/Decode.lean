import Mathlib.Data.List.Forall2
import StaticSite.Content.Decode
import StaticSite.Proofs.Data.Json

/-!
# Reading content back

Content that was read is written as JSON and read back as the same content, so that writing it again
changes nothing. The first time may change how an icon is spelled: a known tag loses its letter case
and the blanks around it. Any other icon stays as it was, and is not taken for a known one later.
-/

namespace StaticSite

open Reading

namespace Icon

def names : List String :=
  ["red", "purple", "yellow", "green", "blue", "boilerplate", "boilerplate-plugin", "frontend-libs",
    "libs"]

def spelling (tag : String) : String :=
  if Text.lower (Text.trim tag) ∈ names then Text.lower (Text.trim tag) else tag

theorem map_name_known : known.map name = names := rfl

theorem read_name_of_mem {i : Icon} (h : i ∈ known) : read i.name = i := by
  have hall : ∀ i ∈ known, read i.name = i := by decide +kernel
  exact hall i h

theorem read_cases (tag : String) :
    (∃ i ∈ known, i.name = Text.lower (Text.trim tag) ∧ read tag = i) ∨
      Text.lower (Text.trim tag) ∉ names ∧ read tag = .unknown tag := by
  unfold read
  simp only
  cases hfound : known.find? fun i => i.name = Text.lower (Text.trim tag) with
  | some i =>
    have hname := List.find?_some hfound
    exact .inl ⟨i, List.mem_of_find?_eq_some hfound, of_decide_eq_true hname, rfl⟩
  | none =>
    refine .inr ⟨fun hmem => ?_, rfl⟩
    rw [← map_name_known, List.mem_map] at hmem
    obtain ⟨i, hi, hname⟩ := hmem
    exact List.find?_eq_none.1 hfound i hi (decide_eq_true hname)

theorem isKnown_of_mem {i : Icon} (h : i ∈ known) : i.isKnown = true := by
  have hall : ∀ i ∈ known, i.isKnown = true := by decide
  exact hall i h

theorem mem_names_of_mem {i : Icon} (h : i ∈ known) : i.name ∈ names :=
  map_name_known ▸ List.mem_map_of_mem h

theorem isKnown_read_iff (tag : String) :
    (read tag).isKnown = true ↔ Text.lower (Text.trim tag) ∈ names := by
  rcases read_cases tag with ⟨i, hi, hname, hread⟩ | ⟨hnames, hread⟩
  · rw [hread, ← hname]
    exact iff_of_true (isKnown_of_mem hi) (mem_names_of_mem hi)
  · rw [hread]
    exact iff_of_false Bool.false_ne_true hnames

theorem name_read (tag : String) : (read tag).name = spelling tag := by
  rcases read_cases tag with ⟨i, hi, hname, hread⟩ | ⟨hnames, hread⟩
  · rw [hread, spelling, ← hname, if_pos (mem_names_of_mem hi)]
  · rw [hread, spelling, if_neg hnames, name]

theorem read_name_read (tag : String) : read (read tag).name = read tag := by
  rcases read_cases tag with ⟨i, hi, -, hread⟩ | ⟨-, hread⟩
  · rw [hread, read_name_of_mem hi]
  · rw [hread, name, hread]

end Icon

def iconText? (v : Value) : Option String :=
  (json.fields ["icon", "title", "description", "link"] v).bind fun es =>
    required es "icon" json.text

theorem iconText?_encode (item : ContentItem) : iconText? item.encode = some item.icon.name := rfl

theorem decode_encode (item : ContentItem) :
    ContentItem.decode json item.encode = some { item with icon := Icon.read item.icon.name } := by
  cases item with
  | mk icon title description link => cases link <;> rfl

theorem exists_iconText?_of_decode {v : Value} {item : ContentItem}
    (h : ContentItem.decode json v = some item) :
    ∃ tag, iconText? v = some tag ∧ item.icon = Icon.read tag := by
  obtain ⟨es, hes, h⟩ := Option.bind_eq_some_iff.1 h
  obtain ⟨tag, htag, h⟩ := Option.bind_eq_some_iff.1 h
  obtain ⟨title, -, h⟩ := Option.bind_eq_some_iff.1 h
  obtain ⟨description, -, h⟩ := Option.bind_eq_some_iff.1 h
  obtain ⟨link, -, h⟩ := Option.bind_eq_some_iff.1 h
  refine ⟨tag, Option.bind_eq_some_iff.2 ⟨es, hes, htag⟩, ?_⟩
  rw [← Option.some.inj h]

theorem isTextual_encode (item : ContentItem) : item.encode.all Value.isTextual = true := by
  cases item with
  | mk icon title description link => cases link <;> rfl

theorem mapM_eq_some_iff {read : α → Option β} {as : List α} {bs : List β} :
    as.mapM read = some bs ↔ List.Forall₂ (fun a b => read a = some b) as bs := by
  induction as generalizing bs with
  | nil => rw [List.mapM_nil, List.forall₂_nil_left_iff, Option.pure_def, Option.some_inj,
      eq_comm]
  | cons a as ih =>
    simp only [List.mapM_cons, Option.bind_eq_bind, Option.bind_eq_some_iff, Option.pure_def,
      Option.some_inj, List.forall₂_cons_left_iff, ih]
    constructor
    · rintro ⟨b, hb, bs', hbs, rfl⟩
      exact ⟨b, bs', hb, hbs, rfl⟩
    · rintro ⟨b, bs', hb, hbs, rfl⟩
      exact ⟨b, hb, bs', hbs, rfl⟩

theorem list_eq_some_iff {read : Value → Option α} {v : Value} {as : List α} :
    list read v = some as ↔
      ∃ vs, v = .list vs ∧ List.Forall₂ (fun v a => read v = some a) vs as := by
  unfold list
  split
  · rename_i vs
    rw [mapM_eq_some_iff]
    exact ⟨fun h => ⟨vs, rfl, h⟩, fun ⟨_, heq, h⟩ => Value.list.inj heq ▸ h⟩
  · rename_i hlist
    exact iff_of_false nofun fun ⟨vs, heq, _⟩ => hlist vs heq

def iconTexts? : Value → Option (List String) := list iconText?

theorem exists_forall₂_iconText? {vs : List Value} {items : List ContentItem}
    (h : List.Forall₂ (fun v item => ContentItem.decode json v = some item) vs items) :
    ∃ tags, List.Forall₂ (fun v tag => iconText? v = some tag) vs tags ∧
      items.map ContentItem.icon = tags.map Icon.read := by
  induction h with
  | nil => exact ⟨[], .nil, rfl⟩
  | cons hitem _ ih =>
    obtain ⟨tags, htags, hicons⟩ := ih
    obtain ⟨tag, htag, hicon⟩ := exists_iconText?_of_decode hitem
    refine ⟨tag :: tags, .cons htag htags, ?_⟩
    rw [List.map_cons, List.map_cons, hicon, hicons]

/-- The icons of items that were read are those that the texts in their places name. -/
theorem exists_iconTexts?_of_decodeItems {v : Value} {items : List ContentItem}
    (h : decodeItems json v = some items) :
    ∃ tags, iconTexts? v = some tags ∧ items.map ContentItem.icon = tags.map Icon.read := by
  obtain ⟨vs, rfl, hitems⟩ := list_eq_some_iff.1 h
  obtain ⟨tags, htags, hicons⟩ := exists_forall₂_iconText? hitems
  exact ⟨tags, list_eq_some_iff.2 ⟨vs, rfl, htags⟩, hicons⟩

theorem iconTexts?_encodeItems (items : List ContentItem) :
    iconTexts? (encodeItems items) = some (items.map fun item => item.icon.name) := by
  refine list_eq_some_iff.2 ⟨_, rfl, ?_⟩
  rw [List.forall₂_map_left_iff, List.forall₂_map_right_iff, List.forall₂_same]
  exact fun item _ => iconText?_encode item

theorem decodeItems_encodeItems {items : List ContentItem}
    (h : ∀ item ∈ items, Icon.read item.icon.name = item.icon) :
    decodeItems json (encodeItems items) = some items := by
  refine list_eq_some_iff.2 ⟨_, rfl, ?_⟩
  rw [List.forall₂_map_left_iff, List.forall₂_same]
  intro item hmem
  rw [decode_encode, h item hmem]

theorem isTextual_encodeItems (items : List ContentItem) :
    (encodeItems items).all Value.isTextual = true := by
  have hall : Value.allOf Value.isTextual (items.map ContentItem.encode) = true := by
    induction items with
    | nil => rfl
    | cons item items ih =>
      rw [List.map_cons, Value.allOf, isTextual_encode, ih, Bool.and_self]
  exact hall

def readItems (text : String) : Option (List ContentItem) :=
  (Json.parse text).bind (decodeItems json)

def writeItems (items : List ContentItem) : String := Json.print (encodeItems items)

theorem parse_writeItems (items : List ContentItem) :
    Json.parse (writeItems items) = some (encodeItems items) :=
  Json.parse_print (isTextual_encodeItems items)

theorem readItems_writeItems {items : List ContentItem}
    (h : ∀ item ∈ items, Icon.read item.icon.name = item.icon) :
    readItems (writeItems items) = some items := by
  rw [readItems, parse_writeItems, Option.bind_some, decodeItems_encodeItems h]

theorem read_name_icon {v : Value} {items : List ContentItem}
    (h : decodeItems json v = some items) :
    ∀ item ∈ items, Icon.read item.icon.name = item.icon := by
  intro item hmem
  obtain ⟨tags, -, hicons⟩ := exists_iconTexts?_of_decodeItems h
  have hicon : item.icon ∈ tags.map Icon.read := hicons ▸ List.mem_map_of_mem hmem
  obtain ⟨tag, -, hread⟩ := List.mem_map.1 hicon
  rw [← hread, Icon.read_name_read]

theorem names_of_icons {items : List ContentItem} {tags : List String}
    (h : items.map ContentItem.icon = tags.map Icon.read) :
    (items.map fun item => item.icon.name) = tags.map Icon.spelling := by
  calc (items.map fun item => item.icon.name)
      = (items.map ContentItem.icon).map Icon.name := by
        rw [List.map_map]
        rfl
    _ = (tags.map Icon.read).map Icon.name := by rw [h]
    _ = tags.map Icon.spelling := by
      rw [List.map_map]
      exact List.map_congr_left fun tag _ => Icon.name_read tag

/-- Items that were read are written as a JSON text from which the same items are read, and which
they are written as again. Each known icon is written with its canonical spelling, any other one as
it was before. A text names a known icon exactly when it is one of nine names after trimming and in
lower case, and what an unknown icon is written as never names a known one. -/
theorem content_reads_back {v : Value} {items : List ContentItem}
    (h : decodeItems json v = some items) :
    readItems (writeItems items) = some items ∧
      (readItems (writeItems items)).map writeItems = some (writeItems items) ∧
      (∃ tags, iconTexts? v = some tags ∧
        (Json.parse (writeItems items)).bind iconTexts? = some (tags.map Icon.spelling)) ∧
      (∀ tag, (Icon.read tag).isKnown = true ↔ Text.lower (Text.trim tag) ∈ Icon.names) ∧
      ∀ tag, (Icon.read tag).isKnown = false →
        (Icon.read tag).name = tag ∧ (Icon.read (Icon.read tag).name).isKnown = false := by
  have hback := readItems_writeItems (read_name_icon h)
  obtain ⟨tags, htags, hicons⟩ := exists_iconTexts?_of_decodeItems h
  refine ⟨hback, by rw [hback, Option.map_some], ⟨tags, htags, ?_⟩, Icon.isKnown_read_iff,
    fun tag hknown => ⟨?_, ?_⟩⟩
  · rw [parse_writeItems, Option.bind_some, iconTexts?_encodeItems, names_of_icons hicons]
  · rw [Icon.name_read, Icon.spelling, if_neg]
    rwa [← Icon.isKnown_read_iff, Bool.not_eq_true]
  · rwa [Icon.read_name_read]

/-- An item with blanks around a known icon in capital letters, and one given by its fields in
order, whose icon is unknown: its last letter is a long s. -/
theorem content_reads_back_capitals :
    (let v : Value := .list [
        .table [("title", .text "One\n\"two\""), ("icon", .text " \u3000RED\t"), ("note", .null)],
        .list [.text "LIB\u017F", .text "", .text "\u0001", .text "/docs"]]
      let items : List ContentItem := [
        { icon := .red, title := "One\n\"two\"" },
        { icon := .unknown "LIB\u017F", title := "", description := "\u0001",
          link := some "/docs" }]
      decodeItems json v = some items ∧
        readItems (writeItems items) = some items ∧
        iconTexts? v = some [" \u3000RED\t", "LIB\u017F"] ∧
        (Json.parse (writeItems items)).bind iconTexts? = some ["red", "LIB\u017F"]) := by
  intro v items
  have h : decodeItems json v = some items := by decide +kernel
  have htexts : iconTexts? v = some [" \u3000RED\t", "LIB\u017F"] := rfl
  obtain ⟨hback, -, ⟨tags, htags, hwritten⟩, -⟩ := content_reads_back h
  obtain rfl : [" \u3000RED\t", "LIB\u017F"] = tags := Option.some.inj (htexts.symm.trans htags)
  have hspelling : [" \u3000RED\t", "LIB\u017F"].map Icon.spelling = ["red", "LIB\u017F"] := by
    decide +kernel
  exact ⟨h, hback, htexts, hspelling ▸ hwritten⟩

end StaticSite
