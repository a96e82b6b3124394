import StaticSite.Page.Sitemap
import StaticSite.Proofs.Markup.Xml
import StaticSite.Proofs.Number.Digits
import StaticSite.Proofs.Number.Tenths

/-!
# Reading sitemaps back

A sitemap is read as XML, and its entries are read from the elements. Whatever addresses the
settings have, there is one entry for each route, in order, with the address of the route. Only the
priority may lose something: a sitemap has the tenths that are nearest to it.
-/

namespace StaticSite

open Xml

structure Listed where
  location : String
  lastModified : Option String
  changeFrequency : String
  priority : String
  deriving DecidableEq, Repr

def Listed.ofLeaves? : List (String × String) → Option Listed
  | [("loc", l), ("lastmod", d), ("changefreq", f), ("priority", p)] => some ⟨l, some d, f, p⟩
  | [("loc", l), ("changefreq", f), ("priority", p)] => some ⟨l, none, f, p⟩
  | _ => none

def Listed.ofElement? (e : String × List (String × String) × List Item) : Option Listed :=
  if e.1 = "url" ∧ e.2.1 = [] then ((elements? e.2.2).bind fun es => es.mapM leaf?).bind ofLeaves?
  else none

def readSitemap? (s : String) : Option (List Listed) := do
  let items ← Xml.read s
  match ← elements? (items.filter fun i => !isInstruction i) with
  | [("urlset", _, content)] => (← elements? content).mapM Listed.ofElement?
  | _ => none

theorem isPlain_of_hexDigits {s : String} (h : ∀ c ∈ s.toList, c ∈ Number.hexDigits) :
    IsPlain s := by
  have hdigits : Number.hexDigits.all isPlainChar = true := by decide
  exact isPlain_of_forall fun c hc => List.all_eq_true.1 hdigits c (h c hc)

theorem isPlain_digits (n : Nat) : IsPlain (Number.digits n) := by
  apply isPlain_of_hexDigits
  intro c hc
  rw [Number.digits, String.toList_ofList] at hc
  exact Number.mem_hexDigits_of_mem_toDigits (by decide) (by decide) hc

theorem isPlain_padded (width n : Nat) : IsPlain (Calendar.padded width n) := by
  apply isPlain_of_hexDigits
  intro c hc
  rw [Calendar.padded, Number.padded, String.toList_ofList] at hc
  rcases List.mem_append.1 hc with hc | hc
  · rw [List.eq_of_mem_replicate hc]
    decide
  · exact Number.mem_hexDigits_of_mem_toDigits (by decide) (by decide) hc

theorem isPlain_iso (d : Calendar.Date) : IsPlain d.iso := by
  have hdash : IsPlain "-" := by decide
  have hplus : IsPlain "+" := by decide
  have hyear (n : Nat) : IsPlain (Calendar.padded 4 n) := isPlain_padded 4 n
  unfold Calendar.Date.iso
  refine IsPlain.append (IsPlain.append (IsPlain.append (IsPlain.append ?_ hdash)
    (isPlain_padded 2 _)) hdash) (isPlain_padded 2 _)
  split
  · exact hdash.append (hyear _)
  split
  · exact hplus.append (hyear _)
  · exact hyear _

theorem isPlain_signed {s : String} (h : IsPlain s) (negative : Bool) :
    IsPlain (Number.signed negative s) := by
  have hdash : IsPlain "-" := by decide
  cases negative with
  | false => exact h
  | true => exact hdash.append h

theorem isPlain_oneDecimal (x : Number.Datum) : IsPlain x.oneDecimal := by
  have hnan : IsPlain "NaN" := by decide
  have hinf : IsPlain "inf" := by decide
  have hpoint : IsPlain "." := by decide
  cases x with
  | nan => exact hnan
  | infinite negative => exact isPlain_signed hinf negative
  | finite negative m e =>
    exact isPlain_signed (((isPlain_digits _).append hpoint).append (isPlain_digits _)) negative

theorem isPlain_name (f : ChangeFrequency) : IsPlain f.name := by
  cases f <;> decide

/-- A line of an entry, as it is read: the blanks before the element, and the element. -/
def lineItems (name s : String) : List Item :=
  [.text "\n    ", .element name [] (textItems s)]

theorem isPlainName_of_mem {name : String}
    (h : name ∈ ["url", "loc", "lastmod", "changefreq", "priority", "urlset"]) :
    IsPlainName name := by
  simp only [List.mem_cons, List.not_mem_nil, or_false] at h
  rcases h with rfl | rfl | rfl | rfl | rfl | rfl <;>
    exact ⟨⟨⟨by decide, by decide⟩, by decide, rfl⟩, ⟨⟨by decide, by decide⟩, by decide, rfl⟩⟩

section

variable {opened : List Opened} {items : List Item} {name : String}

theorem run_xmlLine {content s : String} (hname : IsPlainName name) (hcontent : ReadsAs content s) :
    Reader.run ⟨opened, items, .content ['\n']⟩ (xmlLine name content).toList =
      some ⟨opened, items ++ lineItems name s, .content ['\n']⟩ := by
  have hchars : (xmlLine name content).toList =
      "    ".toList ++ '<' :: (name.toList ++ ['>']) ++
        (content.toList ++ '<' :: (('/' :: name.toList) ++ ['>']) ++ ['\n']) := by
    simp [xmlLine]
  have hblanks : IsPlain "    " := by decide
  rw [hchars, Reader.run_startTag hblanks hname, Reader.run_endTag hcontent.inner hcontent.text hname,
    List.append_assoc]
  rfl

end

namespace SitemapEntry

def items (e : SitemapEntry) : List Item :=
  lineItems "loc" e.location ++
    (e.lastModified.elim [] fun d => lineItems "lastmod" d.iso) ++
    lineItems "changefreq" e.changeFrequency.name ++
    lineItems "priority" e.priority.toDatum.oneDecimal

def readItems (e : SitemapEntry) : List Item :=
  [.text "\n  ", .element "url" [] (e.items ++ [.text "\n  "])]

def listed (e : SitemapEntry) : Listed where
  location := e.location
  lastModified := e.lastModified.map Calendar.Date.iso
  changeFrequency := e.changeFrequency.name
  priority := e.priority.toDatum.oneDecimal

section

variable {opened : List Opened} {before : List Item}

theorem run_lastModifiedLine (date : Option Calendar.Date) :
    Reader.run ⟨opened, before, .content ['\n']⟩ (lastModifiedLine date).toList =
      some ⟨opened, before ++ (date.elim [] fun d => lineItems "lastmod" d.iso),
        .content ['\n']⟩ := by
  cases date with
  | none => rw [Option.elim_none, List.append_nil]; rfl
  | some d => exact run_xmlLine (isPlainName_of_mem (by decide)) (isPlain_iso d).readsAs

theorem run_xml (e : SitemapEntry) :
    Reader.run ⟨opened, before, .content ['\n']⟩ e.xml.toList =
      some ⟨opened, before ++ e.readItems, .content ['\n']⟩ := by
  have hchars : e.xml.toList =
      "  ".toList ++ '<' :: ("url".toList ++ ['>']) ++ ('\n' ::
        ((xmlLine "loc" (Escape.forXml e.location)).toList ++
          ((lastModifiedLine e.lastModified).toList ++
            ((xmlLine "changefreq" e.changeFrequency.name).toList ++
              ((xmlLine "priority" e.priority.toDatum.oneDecimal).toList ++
                ("  ".toList ++ '<' :: (('/' :: "url".toList) ++ ['>']) ++ ['\n'])))))) := by
    simp [xml]
  have hblanks : IsPlain "  " := by decide
  have hurl : IsPlainName "url" := isPlainName_of_mem (by decide)
  have hbreak (r : List Opened) (i : List Item) (rest : List Char) :
      Reader.run ⟨r, i, .content []⟩ ('\n' :: rest) = Reader.run ⟨r, i, .content ['\n']⟩ rest := rfl
  rw [hchars, Reader.run_startTag hblanks hurl, hbreak,
    Reader.run_append_of_eq
      (run_xmlLine (isPlainName_of_mem (by decide)) (readsAs_forXml e.location)),
    Reader.run_append_of_eq (run_lastModifiedLine e.lastModified),
    Reader.run_append_of_eq
      (run_xmlLine (isPlainName_of_mem (by decide)) (isPlain_name e.changeFrequency).readsAs),
    Reader.run_append_of_eq
      (run_xmlLine (isPlainName_of_mem (by decide)) (isPlain_oneDecimal _).readsAs),
    Reader.run_endTag hblanks.readsAs.inner (Reader.text?_line hblanks) hurl,
    Reader.textItems_line, List.append_assoc]
  rfl

end

end SitemapEntry

/-- A reader at the end of a line reads the entries of a sitemap, one after another. -/
theorem run_entries {opened : List Opened} {before : List Item} (es : List SitemapEntry) :
    Reader.run ⟨opened, before, .content ['\n']⟩ (String.join (es.map SitemapEntry.xml)).toList =
      some ⟨opened, before ++ es.flatMap SitemapEntry.readItems, .content ['\n']⟩ := by
  induction es generalizing before with
  | nil => rw [List.flatMap_nil, List.append_nil]; rfl
  | cons e es ih =>
    have hchars : (String.join ((e :: es).map SitemapEntry.xml)).toList =
        e.xml.toList ++ (String.join (es.map SitemapEntry.xml)).toList := by
      simp
    rw [hchars, Reader.run_append_of_eq e.run_xml, ih, List.flatMap_cons, List.append_assoc]

theorem elements?_lineItems (name s : String) (rest : List Item) :
    elements? (lineItems name s ++ rest) =
      (elements? rest).map fun es => (name, [], textItems s) :: es := by
  rw [lineItems, List.cons_append, elements?_blank (by decide)]
  rfl

theorem ofElement?_items (e : SitemapEntry) :
    Listed.ofElement? ("url", [], e.items ++ [.text "\n  "]) = some e.listed := by
  have hend : elements? [.text "\n  "] = some [] := elements?_blank (by decide) []
  unfold Listed.ofElement? SitemapEntry.items SitemapEntry.listed
  cases e.lastModified <;>
    simp [elements?_lineItems, hend, leaf?_textItems, Listed.ofLeaves?]

theorem elements?_entries (es : List SitemapEntry) :
    elements? (es.flatMap SitemapEntry.readItems ++ [.text "\n"]) =
      some (es.map fun e => ("url", [], e.items ++ [.text "\n  "])) := by
  induction es with
  | nil => exact elements?_blank (by decide) []
  | cons e es ih =>
    rw [List.flatMap_cons, List.append_assoc, SitemapEntry.readItems, List.cons_append,
      elements?_blank (by decide), List.singleton_append, elements?, ih]
    rfl

theorem mapM_ofElement? (es : List SitemapEntry) :
    (es.map fun e => ("url", [], e.items ++ [.text "\n  "])).mapM Listed.ofElement? =
      some (es.map SitemapEntry.listed) := by
  induction es with
  | nil => rfl
  | cons e es ih =>
    rw [List.map_cons, List.mapM_cons, ofElement?_items, ih]
    rfl

set_option maxRecDepth 4000 in
theorem run_sitemapHeader :
    Reader.run {} sitemapHeader.toList =
      some ⟨[⟨"urlset", [("xmlns", "http://www.sitemaps.org/schemas/sitemap/0.9")],
        [.instruction "xml version=\"1.0\" encoding=\"UTF-8\"", .text "\n"]⟩], [],
        .content ['\n']⟩ := rfl

theorem readSitemap?_entries (es : List SitemapEntry) :
    readSitemap? (sitemapHeader ++ String.join (es.map SitemapEntry.xml) ++ "</urlset>\n") =
      some (es.map SitemapEntry.listed) := by
  have hchars : (sitemapHeader ++ String.join (es.map SitemapEntry.xml) ++ "</urlset>\n").toList =
      sitemapHeader.toList ++ ((String.join (es.map SitemapEntry.xml)).toList ++
        ("".toList ++ '<' :: (('/' :: "urlset".toList) ++ ['>']) ++ ['\n'])) := by
    simp
  have hempty : IsInner "".toList := by constructor <;> decide
  have hread : Xml.read (sitemapHeader ++ String.join (es.map SitemapEntry.xml) ++ "</urlset>\n") =
      some [.instruction "xml version=\"1.0\" encoding=\"UTF-8\"", .text "\n",
        .element "urlset" [("xmlns", "http://www.sitemaps.org/schemas/sitemap/0.9")]
          (es.flatMap SitemapEntry.readItems ++ [.text "\n"]), .text "\n"] := by
    rw [Xml.read, hchars, Reader.run_append_of_eq run_sitemapHeader,
      Reader.run_append_of_eq (run_entries es),
      Reader.run_endTag hempty (s := "\n") rfl (isPlainName_of_mem (by decide))]
    rfl
  have htop (content : List Item) :
      elements? [.text "\n", .element "urlset" [("xmlns",
        "http://www.sitemaps.org/schemas/sitemap/0.9")] content, .text "\n"] =
      some [("urlset", [("xmlns", "http://www.sitemaps.org/schemas/sitemap/0.9")], content)] := by
    rw [elements?_blank (by decide), elements?, elements?_blank (by decide)]
    rfl
  rw [readSitemap?, hread]
  simp only [Option.bind_eq_bind, Option.bind_some, List.filter_cons, List.filter_nil,
    isInstruction, Bool.not_true, Bool.not_false, if_true, Bool.false_eq_true, if_false, htop,
    elements?_entries]
  exact mapM_ofElement? es

/-- A text has one digit after the point, and there is none with one digit after the point that is
nearer to a quotient with a sign. -/
def IsNearestTenth (negative : Bool) (num den : Nat) (text : String) : Prop :=
  ∃ t, text = Number.signed negative (Number.digits (t / 10) ++ "." ++ Number.digits (t % 10)) ∧
    2 * (10 * num) ≤ (2 * t + 1) * den ∧ 2 * t * den ≤ 2 * (10 * num) + den

theorem isNearestTenth_oneDecimal (negative : Bool) (m : Nat) (e : Int) :
    IsNearestTenth negative (Number.Datum.magnitude m e).1 (Number.Datum.magnitude m e).2
      (Number.Datum.finite negative m e).oneDecimal :=
  ⟨Number.tenths m e, rfl, Number.roundDiv_nearest _ _ (Number.Datum.den_magnitude_pos m e)⟩

def tenthsPriority (k : Nat) : Number.Binary32 :=
  .ofDatum ((⟨false, k, -1⟩ : Number.Decimal).round .single)

theorem oneDecimal_tenthsPriority {k : Nat} (hk : k ≤ 10) :
    (tenthsPriority k).toDatum.oneDecimal =
      Number.digits (k / 10) ++ "." ++ Number.digits (k % 10) := by
  have hall : ∀ k < 11, (tenthsPriority k).toDatum.oneDecimal =
      Number.digits (k / 10) ++ "." ++ Number.digits (k % 10) := by decide +kernel
  exact hall k (Nat.lt_succ_of_le hk)

/-- A sitemap that is read as XML has one entry for each route, in order, with the address of the
route, whatever characters the settings have in it, the date if there is one, and the change
frequency of the settings. The priority has one digit after the point: it is the nearest such number
to the priority of the settings, and the same number if that has one digit after the point. -/
theorem sitemap_reads_back (s : Settings) (date : Option Calendar.Date) (routes : List Route) :
    let priority := s.sitemap.priority.toDatum.oneDecimal
    readSitemap? (sitemap s date routes) =
        some (routes.map fun r =>
          { location := (sitemapEntry s date r).location
            lastModified := date.map Calendar.Date.iso
            changeFrequency := s.sitemap.changeFrequency.name
            priority }) ∧
      (∀ negative m e, s.sitemap.priority.toDatum = .finite negative m e →
        IsNearestTenth negative (Number.Datum.magnitude m e).1 (Number.Datum.magnitude m e).2
          priority) ∧
      ∀ k ≤ 10, s.sitemap.priority = tenthsPriority k →
        priority = Number.digits (k / 10) ++ "." ++ Number.digits (k % 10) := by
  intro priority
  refine ⟨?_, ?_, ?_⟩
  · have hentries := readSitemap?_entries (routes.map (sitemapEntry s date))
    rw [List.map_map, List.map_map] at hentries
    exact hentries
  · intro negative m e h
    show IsNearestTenth _ _ _ s.sitemap.priority.toDatum.oneDecimal
    rw [h]
    exact isNearestTenth_oneDecimal negative m e
  · intro k hk h
    show s.sitemap.priority.toDatum.oneDecimal = _
    rw [h, oneDecimal_tenthsPriority hk]

/-- The priority that settings have from the start is five tenths, in the sitemap too. -/
theorem sitemap_reads_back_half :
    let s : Settings := { site := { title := "T", url := "https://t.example/?a=1&b=</loc>" } }
    s.sitemap.priority = tenthsPriority 5 ∧
      s.sitemap.priority.toDatum = .finite false 8388608 (-24) ∧
      IsNearestTenth false 8388608 16777216 s.sitemap.priority.toDatum.oneDecimal ∧
      (readSitemap? (sitemap s none [.home])).map (fun entries => entries.map Listed.priority) =
        some ["0.5"] := by
  intro s
  have hhalf : s.sitemap.priority = tenthsPriority 5 := by decide +kernel
  have hdatum : s.sitemap.priority.toDatum = .finite false 8388608 (-24) := by decide +kernel
  have hmagnitude : Number.Datum.magnitude 8388608 (-24) = (8388608, 16777216) := by decide +kernel
  have hdigits : Number.digits (5 / 10) ++ "." ++ Number.digits (5 % 10) = "0.5" := by
    decide +kernel
  obtain ⟨hread, hnearest, htenths⟩ := sitemap_reads_back s none [.home]
  have hpriority := (htenths 5 (by decide) hhalf).trans hdigits
  have hbetween := hnearest false 8388608 (-24) hdatum
  rw [hmagnitude] at hbetween
  refine ⟨hhalf, hdatum, hbetween, ?_⟩
  rw [hread, hpriority]
  rfl

/-- A priority of a quarter is accepted, and read back from the sitemap as two tenths. -/
theorem sitemap_rounds_priority :
    let s : Settings :=
      { site := { title := "T", url := "https://t.example" }
        sitemap := { priority := ⟨0x3E800000⟩ } }
    s.defect? = none ∧
      s.sitemap.priority.toDatum = (⟨false, 25, -2⟩ : Number.Decimal).round .single ∧
      (readSitemap? (sitemap s none [.home])).map (fun entries => entries.map Listed.priority) =
        some ["0.2"] := by
  intro s
  have hread : readSitemap? (sitemap s none [.home]) = some [(sitemapEntry s none .home).listed] :=
    readSitemap?_entries [sitemapEntry s none .home]
  refine ⟨by decide +kernel, by decide +kernel, ?_⟩
  rw [hread]
  decide +kernel

end StaticSite
