import StaticSite.RichText.Tag

/-!
# Reading rich text from inline markup

The tokens of the markup are assembled into spans. An opening tag starts a style, a closing tag
ends the innermost open style if it names that style and is kept as text otherwise, and styles that
are still open at the end are closed there.
-/

namespace StaticSite

/-- Rich text under construction: the open styles, innermost first, each with the spans that stand
before it; the finished spans of the innermost style; and the text after them. -/
structure Assembly where
  opened : List (Style × List Span) := []
  spans : List Span := []
  pending : List Char := []

namespace Assembly

def flush (a : Assembly) : Assembly :=
  if a.pending = [] then a
  else { a with spans := a.spans ++ [.text (String.ofList a.pending)], pending := [] }

def close (a : Assembly) : Assembly :=
  match a.opened with
  | [] => a
  | (style, before) :: rest => { a with opened := rest, spans := before ++ [.styled style a.spans] }

def add (a : Assembly) : Token → Assembly
  | .char c => { a with pending := a.pending ++ [c] }
  | .tag .lineBreak _ => let b := a.flush; { b with spans := b.spans ++ [.lineBreak] }
  | .tag (.opens style) _ =>
    let b := a.flush
    { b with opened := (style, b.spans) :: b.opened, spans := [] }
  | .tag (.closes style) inner =>
    -- Only the innermost style can be closed.
    if a.opened.head?.map (·.1) = some style then a.flush.close
    else { a with pending := a.pending ++ Token.source (.tag (.closes style) inner) }

def closeAll : List (Style × List Span) → List Span → List Span
  | [], spans => spans
  | (style, before) :: rest, spans => closeAll rest (before ++ [.styled style spans])

def finish (a : Assembly) : List Span := let b := a.flush; closeAll b.opened b.spans

end Assembly

def RichText.parse (markup : String) : RichText :=
  ⟨((tokens markup.toList).foldl Assembly.add {}).finish⟩

end StaticSite
