import StaticSite.Proofs.Template.Guarded
import StaticSite.Template.Shell

/-!
# The segments of the shell

The shell is cut where its placeholders stand. It is a guarded template: the tags of a document made
with it are those of the shell, of the preview tags, the icon link and the navigation bar, and of
the body.
-/

namespace StaticSite

open Html

def printed (pieces : List String) : Segment := .literal (pieces.flatMap String.toList)

def slot (inner name : String) (optional raw : Bool) : Segment :=
  .placeholder (' ' :: inner.toList ++ [' ']) ⟨name, optional, raw⟩

def shellSegments : List Segment :=
  [printed ["<!DOCTYPE html>", "\n", "<html lang=\""],
    slot "lang" "lang" false false,
    printed ["\">", "\n", "<head>", "\n", "    <meta charset=\"UTF-8\">", "\n",
      "    <meta name=\"viewport\" content=\"width=device-width, initial-scale=1.0\">", "\n",
      "    <title>"],
    slot "title" "title" false false,
    printed ["</title>", "\n", "    <meta name=\"description\" content=\""],
    slot "description?" "description" true false,
    printed ["\">", "\n", "    <meta name=\"keywords\" content=\""],
    slot "keywords?" "keywords" true false,
    printed ["\">", "\n", "    <meta property=\"og:title\" content=\""],
    slot "title" "title" false false,
    printed ["\">", "\n", "    <meta property=\"og:description\" content=\""],
    slot "description?" "description" true false,
    printed ["\">", "\n", "    <meta property=\"og:url\" content=\""],
    slot "canonical_url" "canonical_url" false false,
    printed ["\">", "\n", "    "],
    slot "meta_image_tags? | raw" "meta_image_tags" true true,
    printed ["\n", "    "],
    slot "favicon_link? | raw" "favicon_link" true true,
    printed ["\n", "    <link rel=\"canonical\" href=\""],
    slot "canonical_url" "canonical_url" false false,
    printed ["\">", "\n", "</head>", "\n", "<body>", "\n", "    "],
    slot "navbar? | raw" "navbar" true true,
    printed ["\n", "    <main>", "\n"],
    slot "content | raw" "content" false true,
    printed ["\n", "    </main>", "\n", "</body>", "\n", "</html>", "\n"]]

theorem toList_braced (inner : String) :
    (braced inner).toList = openingBraces ++ (' ' :: inner.toList ++ [' ']) ++ closingBraces := by
  simp [braced, openingBraces, closingBraces]

theorem flatMap_source_shellSegments : shellSegments.flatMap Segment.source = shell.toList := by
  simp only [shell, shellLines, shellSegments, printed, slot, Segment.source, String.toList_join,
    List.map_cons, List.map_nil, List.flatMap_cons, List.flatMap_nil, String.toList_append,
    toList_braced, List.append_assoc, List.append_nil]

theorem printable_shellSegments : printable shellSegments = true := by decide +kernel

theorem guarded_shellSegments : guarded .content shellSegments = true := by decide +kernel

theorem cuts_shell : Cuts shell.toList shellSegments := by
  rw [← flatMap_source_shellSegments]
  exact cuts_of_printable printable_shellSegments

theorem error?_printed (b : Bindings) (pieces : List String) :
    (printed pieces).error? b = none := rfl

theorem error?_slot (b : Bindings) (inner name : String) (optional raw : Bool) :
    (slot inner name optional raw).error? b =
      if b.value? name = none ∧ optional = false then some (.missing name) else none := rfl

theorem error?_shellSegments {b : Bindings} (hlang : b.value? "lang" ≠ none)
    (htitle : b.value? "title" ≠ none) (hurl : b.value? "canonical_url" ≠ none)
    (hcontent : b.value? "content" ≠ none) : ∀ seg ∈ shellSegments, seg.error? b = none := by
  simp only [shellSegments, List.forall_mem_cons, List.not_mem_nil, false_imp_iff, implies_true,
    error?_printed, error?_slot, hlang, htitle, hurl, hcontent, Bool.true_eq_false, and_false,
    if_false, and_true]

end StaticSite
