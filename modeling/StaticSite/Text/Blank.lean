/-!
# Blank characters, trimming and words

The characters with the Unicode property `White_Space`, and the operations that look at them:
trimming a text at its ends and cutting it into words. Trimming and splitting take the class of
characters as an argument, so that slashes and bars are handled by the same functions.
-/

namespace StaticSite.Text

/-- The code points with the property `White_Space`, as inclusive ranges in ascending order. -/
def blankRanges : List (Nat × Nat) :=
  [(0x09, 0x0D), (0x20, 0x20), (0x85, 0x85), (0xA0, 0xA0), (0x1680, 0x1680), (0x2000, 0x200A),
    (0x2028, 0x2029), (0x202F, 0x202F), (0x205F, 0x205F), (0x3000, 0x3000)]

def isBlank (c : Char) : Bool := blankRanges.any fun r => r.1 ≤ c.toNat && c.toNat ≤ r.2

def isBlankText (s : String) : Bool := s.toList.all isBlank

def dropEndWhile (p : α → Bool) (l : List α) : List α := (l.reverse.dropWhile p).reverse

def trimStart (p : Char → Bool) (s : String) : String := String.ofList (s.toList.dropWhile p)

def trimEnd (p : Char → Bool) (s : String) : String := String.ofList (dropEndWhile p s.toList)

def trimBoth (p : Char → Bool) (s : String) : String := trimEnd p (trimStart p s)

def trim (s : String) : String := trimBoth isBlank s

def isSlash (c : Char) : Bool := c == '/'

/-- The stretches of a list between the elements of a class; there is always at least one. -/
def splitOn (p : α → Bool) : List α → List (List α)
  | [] => [[]]
  | c :: rest =>
    if p c then [] :: splitOn p rest
    else
      match splitOn p rest with
      | [] => [[c]]
      | w :: ws => (c :: w) :: ws

def words (s : String) : List String :=
  ((splitOn isBlank s.toList).filter (· ≠ [])).map String.ofList

def cut (pat : List Char) : List Char → Option (List Char × List Char)
  | [] => none
  | c :: rest =>
    if pat.isPrefixOf (c :: rest) then some ([], (c :: rest).drop pat.length)
    else (cut pat rest).map fun (before, after) => (c :: before, after)

theorem eq_append_of_cut {pat s before after : List Char} (h : cut pat s = some (before, after)) :
    s = before ++ pat ++ after := by
  induction s generalizing before with
  | nil => simp [cut] at h
  | cons c rest ih =>
    rw [cut] at h
    split at h
    · rename_i hp
      obtain ⟨rfl, rfl⟩ := Prod.mk.inj (Option.some.inj h)
      obtain ⟨t, ht⟩ := List.isPrefixOf_iff_prefix.1 hp
      simp [← ht]
    · obtain ⟨⟨b, a⟩, hr, he⟩ := Option.map_eq_some_iff.1 h
      obtain ⟨rfl, rfl⟩ := Prod.mk.inj he
      rw [ih hr]
      rfl

def lower (s : String) : String := String.ofList (s.toList.map Char.toLower)

end StaticSite.Text
