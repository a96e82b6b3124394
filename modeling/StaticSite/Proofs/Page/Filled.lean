import StaticSite.Proofs.Page.Tags

/-!
# Documents and the text of the shell

The shell is text with places in it. What stands in the places of the template are placeholders, and
what stands there in a document are the values of its page; all other text is the same. The HTML of
the navigation bar and of the body is put in as it is, and so is whatever looks like a placeholder
in a value.
-/

namespace StaticSite

/-- What stands in the places of the shell. The title, the description and the address have more
than one place. -/
structure ShellTexts where
  language : String
  title : String
  description : String
  keywords : String
  address : String
  preview : String
  icon : String
  navbar : String
  content : String

namespace ShellTexts

def linesBefore (t : ShellTexts) : List String :=
  ["<!DOCTYPE html>",
    "<html lang=\"" ++ t.language ++ "\">",
    "<head>",
    "    <meta charset=\"UTF-8\">",
    "    <meta name=\"viewport\" content=\"width=device-width, initial-scale=1.0\">",
    "    <title>" ++ t.title ++ "</title>",
    "    <meta name=\"description\" content=\"" ++ t.description ++ "\">",
    "    <meta name=\"keywords\" content=\"" ++ t.keywords ++ "\">",
    "    <meta property=\"og:title\" content=\"" ++ t.title ++ "\">",
    "    <meta property=\"og:description\" content=\"" ++ t.description ++ "\">",
    "    <meta property=\"og:url\" content=\"" ++ t.address ++ "\">",
    "    " ++ t.preview,
    "    " ++ t.icon,
    "    <link rel=\"canonical\" href=\"" ++ t.address ++ "\">",
    "</head>",
    "<body>",
    "    " ++ t.navbar]

/-- The text of the shell with texts in its places. The main part holds the content and nothing
else, between two line ends. -/
def fill (t : ShellTexts) : String :=
  String.join (t.linesBefore.map (· ++ "\n")) ++
    ("    <main>\n" ++ t.content ++ "\n    </main>\n") ++ "</body>\n</html>\n"

def placeholders : ShellTexts where
  language := braced "lang"
  title := braced "title"
  description := braced "description?"
  keywords := braced "keywords?"
  address := braced "canonical_url"
  preview := braced "meta_image_tags? | raw"
  icon := braced "favicon_link? | raw"
  navbar := braced "navbar? | raw"
  content := braced "content | raw"

def ofBindings (b : Bindings) : ShellTexts where
  language := Escape.forAttribute (b.inserted "lang")
  title := Escape.forAttribute (b.inserted "title")
  description := Escape.forAttribute (b.inserted "description")
  keywords := Escape.forAttribute (b.inserted "keywords")
  address := Escape.forAttribute (b.inserted "canonical_url")
  preview := b.inserted "meta_image_tags"
  icon := b.inserted "favicon_link"
  navbar := b.inserted "navbar"
  content := b.inserted "content"

end ShellTexts

theorem shell_eq_fill : shell = ShellTexts.placeholders.fill := by
  rw [← String.toList_inj]
  simp only [shell, shellLines, ShellTexts.fill, ShellTexts.linesBefore, ShellTexts.placeholders,
    String.toList_join, String.toList_append, List.map_cons, List.map_nil, List.flatMap_cons,
    List.flatMap_nil, List.append_assoc, List.append_nil]
  rfl

theorem text_printed (b : Bindings) (pieces : List String) :
    (printed pieces).text b = pieces.flatMap String.toList := rfl

theorem text_slot (b : Bindings) (inner name : String) (optional raw : Bool) :
    (slot inner name optional raw).text b =
      (if raw then b.inserted name else Escape.forAttribute (b.inserted name)).toList := by
  cases raw with
  | true => exact text_raw rfl
  | false => exact text_escaped rfl

theorem flatMap_text_shellSegments (b : Bindings) :
    shellSegments.flatMap (Segment.text b) = (ShellTexts.ofBindings b).fill.toList := by
  simp only [shellSegments, text_printed, text_slot, ShellTexts.fill,
    ShellTexts.linesBefore, ShellTexts.ofBindings, String.toList_join, String.toList_append,
    List.map_cons, List.map_nil, List.flatMap_cons, List.flatMap_nil, List.append_assoc,
    List.append_nil, if_true, Bool.false_eq_true, if_false]
  rfl

theorem render_shell {b : Bindings} (hb : ∀ seg ∈ shellSegments, seg.error? b = none) :
    Template.render b shell = .ok (ShellTexts.ofBindings b).fill := by
  rw [Template.render_of_cuts cuts_shell hb, flatMap_text_shellSegments, String.ofList_toList]

theorem getD_descriptionValue (d : Descriptor) :
    (descriptionValue d).getD "" = d.description := by
  unfold descriptionValue
  split
  · rename_i h
    exact h.symm
  · rfl

theorem getD_keywordsValue (d : Descriptor) :
    (keywordsValue d).getD "" = ", ".intercalate d.keywords := by
  unfold keywordsValue
  split
  · rename_i h
    rw [h]
    rfl
  · rfl

section

variable (s : Settings) (r : Resolver)

def previewText (d : Descriptor) : String :=
  match d.previewImage.map r.asset with
  | some (.url path) => (previewTags (s.absoluteUrl path)).html
  | _ => ""

def iconText : String :=
  match s.site.favicon.map r.asset with
  | some (.url address) => (headElement "link" "rel" "icon" "href" address).html
  | _ => ""

theorem getD_previewHtml (d : Descriptor) :
    (previewHtml s r d).value.getD "" = previewText s r d := by
  unfold previewHtml previewText
  cases d.previewImage with
  | none => rfl
  | some name =>
    dsimp only [Option.map_some]
    cases r.asset name <;> rfl

theorem getD_faviconHtml : (faviconHtml s r).getD "" = iconText s r := by
  unfold faviconHtml iconText
  cases s.site.favicon with
  | none => rfl
  | some favicon =>
    dsimp only [Option.map_some]
    cases r.asset favicon <;> rfl

/-- Every page has a document. It is the text of the shell, with values where the shell has its
placeholders: the navigation bar and the body as they are written on their own, the tags of the
preview image and of the icon, and escaped all that the settings and the page say. Braces in a value
mean nothing there. -/
theorem document_fills_shell (page : Page) :
    let texts : ShellTexts :=
      { language := Escape.forAttribute s.site.language
        title := Escape.forAttribute (documentTitle s page.descriptor.title)
        description := Escape.forAttribute page.descriptor.description
        keywords := Escape.forAttribute (", ".intercalate page.descriptor.keywords)
        address := Escape.forAttribute (s.urlFor page.route.path)
        preview := previewText s r page.descriptor
        icon := iconText s r
        navbar := (navbar s r).value.html
        content := page.body.html }
    shell = ShellTexts.placeholders.fill ∧
      (document s Templates.standard r page).value = .ok texts.fill := by
  intro texts
  have hrender := render_shell (error?_shellBindings s r page)
  have htexts : ShellTexts.ofBindings (shellBindings s r page).value = texts := by
    rw [ShellTexts.ofBindings, inserted_lang, inserted_title, inserted_description,
      getD_descriptionValue, inserted_keywords, getD_keywordsValue, inserted_address,
      inserted_preview, getD_previewHtml, inserted_favicon, getD_faviconHtml, inserted_navbar,
      inserted_content]
  rw [htexts] at hrender
  exact ⟨shell_eq_fill, hrender⟩

end

end StaticSite
