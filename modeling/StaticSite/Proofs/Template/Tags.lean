import StaticSite.Proofs.Markup.Tag
import StaticSite.Proofs.Template.Shell

/-!
# Tags of rendered templates

The tags of what a guarded template is rendered to are those of the template, with the escaped
values in their attributes, and between them those of the raw values. For the shell they are written
out: they are the tags of every document that is made with it.
-/

namespace StaticSite

open Html

/-- The tags of segments that are read from a place on, where raw names stand for tags. -/
def tagsFrom (b : Bindings) (vs : String → List Html.Token) :
    Html.Place → List Segment → List Html.Token
  | _, [] => []
  | p, .literal l :: segs =>
    let r := Reader.run ⟨[], p⟩ l
    tags r.tokens ++ tagsFrom b vs r.place.clear segs
  | p, .placeholder _ h :: segs =>
    if h.raw then vs h.name ++ tagsFrom b vs p segs
    else tagsFrom b vs (p.hold (b.inserted h.name)) segs
  | p, .malformed _ _ :: segs => tagsFrom b vs p segs

theorem text_escaped {b : Bindings} {inner : List Char} {h : Placeholder} (hr : h.raw = false) :
    (Segment.placeholder inner h).text b = (Escape.forAttribute (b.inserted h.name)).toList := by
  rw [Segment.text, Bindings.inserted]
  cases b.value? h.name with
  | none => rfl
  | some v => simp [hr]

/-- Segments of a guarded template lead a reader through their tags. -/
theorem meets_of_guarded {b : Bindings} {p : Html.Place} {segs : List Segment} (hp : p.clear = p)
    (hg : guarded p.spot segs = true) {vs : String → List Html.Token}
    (hraw : ∀ name ∈ segs.filterMap Segment.rawName?,
      Html.Place.Meets (.content []) (b.inserted name).toList (.content []) (vs name)) :
    p.Meets (segs.flatMap (Segment.text b)) (.content []) (tagsFrom b vs p segs) := by
  -- The place goes along as the spot does, and it keeps the values that are inserted.
  induction segs generalizing p with
  | nil =>
    obtain rfl := Html.Place.eq_of_spot_content hp (of_decide_eq_true hg)
    exact Html.Place.Meets.nil rfl
  | cons seg segs ih =>
    have hrest : ∀ name ∈ segs.filterMap Segment.rawName?,
        Html.Place.Meets (.content []) (b.inserted name).toList (.content []) (vs name) := by
      intro name hn
      obtain ⟨seg', hm, hs⟩ := List.mem_filterMap.1 hn
      exact hraw name (List.mem_filterMap.2 ⟨seg', List.mem_cons_of_mem _ hm, hs⟩)
    rw [List.flatMap_cons]
    cases seg with
    | literal l =>
      have hspot := (Reader.run ⟨[], p⟩ l).place.spot_clear
      rw [Reader.spot_run] at hspot
      exact (Html.Place.Meets.run hp l).append (ih (Html.Place.clear_clear _) (hspot ▸ hg) hrest)
    | malformed rest d => cases hg
    | placeholder inner h =>
      rw [guarded, Bool.and_eq_true] at hg
      obtain ⟨hspot, hg⟩ := hg
      rw [tagsFrom]
      cases hr : h.raw with
      | true =>
        rw [hr, if_pos rfl] at hspot
        obtain rfl := Html.Place.eq_of_spot_content hp (of_decide_eq_true hspot)
        have hname : (Segment.placeholder inner h).rawName? = some h.name := by
          simp [Segment.rawName?, hr]
        have hv := hraw h.name (List.mem_filterMap.2 ⟨_, List.mem_cons_self, hname⟩)
        rw [text_raw hr, if_pos rfl]
        exact hv.append (ih hp hg hrest)
      | false =>
        rw [hr, if_neg (by simp)] at hspot
        rw [text_escaped hr, if_neg (by simp)]
        have hhold := Html.Place.clear_hold hp (b.inserted h.name)
        exact (Html.Place.meets_forAttribute hp hspot _).append
          (ih hhold ((p.spot_hold _).symm ▸ hg) hrest)

theorem Template.tags_render_of_guarded {t : String} {segs : List Segment} (hc : Cuts t.toList segs)
    (hg : guarded .content segs = true) {b : Bindings} (hb : ∀ seg ∈ segs, seg.error? b = none)
    {vs : String → List Html.Token}
    (hraw : ∀ name ∈ segs.filterMap Segment.rawName?,
      Html.Place.Meets (.content []) (b.inserted name).toList (.content []) (vs name)) :
    ∃ d ts, render b t = .ok d ∧ readTokens d = some ts ∧
      tags ts = tagsFrom b vs (.content []) segs := by
  have hmeets := meets_of_guarded (p := .content []) rfl hg hraw
  rw [← String.toList_ofList (l := segs.flatMap (Segment.text b))] at hmeets
  obtain ⟨ts, hread, hts⟩ := readTokens_of_meets hmeets
  exact ⟨_, ts, render_of_cuts hc hb, hread, hts⟩

/-- The tags of the shell with the values in them: the language, title, description, keywords and
address, and the tags of the preview, the icon, the navigation bar and the content. -/
def shellTags (lang title description keywords url : String)
    (preview icon navbar content : List Html.Token) : List Html.Token :=
  [.opening "!DOCTYPE" [("html", "")], .opening "html" [("lang", lang)], .opening "head" [],
    .opening "meta" [("charset", "UTF-8")],
    .opening "meta" [("name", "viewport"), ("content", "width=device-width, initial-scale=1.0")],
    .opening "title" [], .closing "title",
    .opening "meta" [("name", "description"), ("content", description)],
    .opening "meta" [("name", "keywords"), ("content", keywords)],
    .opening "meta" [("property", "og:title"), ("content", title)],
    .opening "meta" [("property", "og:description"), ("content", description)],
    .opening "meta" [("property", "og:url"), ("content", url)]] ++ preview ++ icon ++
  [.opening "link" [("rel", "canonical"), ("href", url)], .closing "head", .opening "body" []] ++
    navbar ++ [.opening "main" []] ++ content ++
  [.closing "main", .closing "body", .closing "html"]

section

variable {b : Bindings} {vs : String → List Html.Token} {segs : List Segment}

theorem tagsFrom_printed {pieces : List String} (ts : List Html.Token) (q : Html.Place)
    (h : tags (Reader.run ⟨[], .content []⟩ (pieces.flatMap String.toList)).tokens = ts ∧
      (Reader.run ⟨[], .content []⟩ (pieces.flatMap String.toList)).place.clear = q) :
    tagsFrom b vs (.content []) (printed pieces :: segs) = ts ++ tagsFrom b vs q segs := by
  obtain ⟨rfl, rfl⟩ := h
  rfl

theorem tagsFrom_close {tag : String} (htag : tag.toList.head? ≠ some '/')
    (as : List (String × String)) (key inner name : String) (optional : Bool)
    (pieces : List String) :
    tagsFrom b vs (.value tag.toList as key.toList [])
        (slot inner name optional false :: printed ("\">" :: pieces) :: segs) =
      .opening tag (as ++ [(key, b.inserted name)]) ::
        tagsFrom b vs (.content []) (printed pieces :: segs) := by
  let value := (Escape.forAttribute (b.inserted name)).toList
  have hrun : Reader.run ⟨[], .value tag.toList as key.toList value⟩
      (("\">" :: pieces).flatMap String.toList) =
      Reader.run ⟨[tagToken tag.toList (as ++ [attributeOf key.toList value])], .content []⟩
        (pieces.flatMap String.toList) := rfl
  have htoken : tagToken tag.toList (as ++ [attributeOf key.toList value]) =
      .opening tag (as ++ [(key, b.inserted name)]) := by
    rw [attributeOf_forAttribute, tagToken, if_neg htag, String.ofList_toList]
  rw [slot, tagsFrom, if_neg (by simp), Html.Place.hold, List.nil_append, printed, tagsFrom, hrun,
    htoken, Reader.run_eq, tags_append, List.append_assoc]
  rfl

theorem tagsFrom_text (inner name : String) (optional : Bool) :
    tagsFrom b vs (.content []) (slot inner name optional false :: segs) =
      tagsFrom b vs (.content []) segs := by
  have hhold : (Html.Place.content []).hold (b.inserted name) = .content [] := rfl
  rw [slot, tagsFrom, if_neg (by simp), hhold]

theorem tagsFrom_raw (p : Html.Place) (inner name : String) (optional : Bool) :
    tagsFrom b vs p (slot inner name optional true :: segs) =
      vs name ++ tagsFrom b vs p segs := by
  rw [slot, tagsFrom, if_pos rfl]

end

theorem tagsFrom_shellSegments (b : Bindings) (vs : String → List Html.Token) :
    tagsFrom b vs (.content []) shellSegments =
      shellTags (b.inserted "lang") (b.inserted "title") (b.inserted "description")
        (b.inserted "keywords") (b.inserted "canonical_url") (vs "meta_image_tags")
        (vs "favicon_link") (vs "navbar") (vs "content") := by
  let metaContent := fun key name =>
    Html.Place.value "meta".toList [(key, name)] "content".toList []
  have htag : ∀ tag ∈ ["html", "meta", "link"], tag.toList.head? ≠ some '/' := by decide
  rw [shellSegments,
    tagsFrom_printed [.opening "!DOCTYPE" [("html", "")]] (.value "html".toList [] "lang".toList [])
      (by decide +kernel),
    tagsFrom_close (htag "html" (by decide)),
    tagsFrom_printed [.opening "head" [], .opening "meta" [("charset", "UTF-8")],
      .opening "meta" [("name", "viewport"), ("content", "width=device-width, initial-scale=1.0")],
      .opening "title" []] (.content []) (by decide +kernel),
    tagsFrom_text,
    tagsFrom_printed [.closing "title"] (metaContent "name" "description") (by decide +kernel),
    tagsFrom_close (htag "meta" (by decide)),
    tagsFrom_printed [] (metaContent "name" "keywords") (by decide +kernel),
    tagsFrom_close (htag "meta" (by decide)),
    tagsFrom_printed [] (metaContent "property" "og:title") (by decide +kernel),
    tagsFrom_close (htag "meta" (by decide)),
    tagsFrom_printed [] (metaContent "property" "og:description") (by decide +kernel),
    tagsFrom_close (htag "meta" (by decide)),
    tagsFrom_printed [] (metaContent "property" "og:url") (by decide +kernel),
    tagsFrom_close (htag "meta" (by decide)),
    tagsFrom_printed [] (.content []) (by decide +kernel), tagsFrom_raw,
    tagsFrom_printed [] (.content []) (by decide +kernel), tagsFrom_raw,
    tagsFrom_printed [] (.value "link".toList [("rel", "canonical")] "href".toList [])
      (by decide +kernel),
    tagsFrom_close (htag "link" (by decide)),
    tagsFrom_printed [.closing "head", .opening "body" []] (.content []) (by decide +kernel),
    tagsFrom_raw,
    tagsFrom_printed [.opening "main" []] (.content []) (by decide +kernel), tagsFrom_raw,
    tagsFrom_printed [.closing "main", .closing "body", .closing "html"] (.content [])
      (by decide +kernel)]
  simp only [tagsFrom, shellTags, List.cons_append, List.nil_append, List.append_assoc,
    List.append_nil]

end StaticSite
