import StaticSite.RichText.Basic
import StaticSite.Text.Blank

/-!
# Inline tags

A tag of inline markup runs from a `<` to the next `>`. Its name is read without blanks and in
small letters; ten names are known, and anything else is text. `tokens` cuts markup into single
characters and tags, and keeps the source of every tag.
-/

namespace StaticSite

inductive Tag where
  | lineBreak
  | opens (style : Style)
  | closes (style : Style)
  deriving DecidableEq, Repr

def Tag.named? (name : String) : Option Tag :=
  if name ∈ ["br", "br/", "/br"] then some .lineBreak
  else if name ∈ ["em", "i"] then some (.opens .emphasis)
  else if name ∈ ["/em", "/i"] then some (.closes .emphasis)
  else if name ∈ ["strong", "b"] then some (.opens .strong)
  else if name ∈ ["/strong", "/b"] then some (.closes .strong)
  else none

def Tag.read? (inner : List Char) : Option Tag :=
  Tag.named? (Text.lower (String.ofList (inner.filter fun c => !Text.isBlank c)))

/-- The tag after a `<`, what stands inside it, and what follows it. -/
def Tag.recognize (rest : List Char) : Option (Tag × List Char × List Char) :=
  match Text.cut ['>'] rest with
  | none => none
  | some (inner, after) => (Tag.read? inner).map fun t => (t, inner, after)

theorem Tag.eq_append_of_recognize {rest inner after : List Char} {t : Tag}
    (h : Tag.recognize rest = some (t, inner, after)) : rest = inner ++ '>' :: after := by
  unfold Tag.recognize at h
  split at h
  · simp at h
  · rename_i inner' after' hc
    obtain ⟨t', _, he⟩ := Option.map_eq_some_iff.1 h
    simp only [Prod.mk.injEq] at he
    obtain ⟨_, rfl, rfl⟩ := he
    simpa using Text.eq_append_of_cut hc

theorem Tag.length_of_recognize {rest inner after : List Char} {t : Tag}
    (h : Tag.recognize rest = some (t, inner, after)) : after.length < rest.length := by
  rw [Tag.eq_append_of_recognize h]
  simp
  omega

inductive Token where
  | char (c : Char)
  | tag (t : Tag) (inner : List Char)
  deriving DecidableEq, Repr

def Token.source : Token → List Char
  | .char c => [c]
  | .tag _ inner => '<' :: inner ++ ['>']

def tokens : List Char → List Token
  | [] => []
  | c :: rest =>
    if c = '<' then
      match _h : Tag.recognize rest with
      | some (t, inner, after) => .tag t inner :: tokens after
      -- The text up to the next bracket may still hold a tag, so only this character is taken.
      | none => .char '<' :: tokens rest
    else .char c :: tokens rest
termination_by s => s.length
decreasing_by
  · have := Tag.length_of_recognize _h
    simp only [List.length_cons]
    omega
  · simp
  · simp

end StaticSite
