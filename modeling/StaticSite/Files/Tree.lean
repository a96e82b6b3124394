import StaticSite.Files.Path
import StaticSite.SortedMap

/-!
# File trees

A file tree says what stands at each location: nothing, a directory, or a file with its bytes. Every
file and every directory stands in a directory, and the root is always one. The changes of a tree
keep this: what would break it is an error.
-/

namespace StaticSite

inductive Entry where
  | directory
  | file (bytes : List UInt8)
  deriving DecidableEq, Repr

/-- Whether a text can be the name of a file. Names have at most 255 bytes. -/
def isFileName (name : String) : Bool :=
  name ≠ "" && name ≠ "." && name ≠ ".." && name.utf8ByteSize ≤ 255 &&
    name.toList.all fun c => c ≠ '/' && c ≠ '\x00'

/-- A tree of files and directories below the root. -/
structure FileTree where
  entries : SortedMap Location Entry
  named : ∀ e ∈ entries.entries, e.1 ≠ [] ∧ e.1.all isFileName
  rooted : ∀ e ∈ entries.entries,
    e.1.dropLast = [] ∨ (e.1.dropLast, Entry.directory) ∈ entries.entries

inductive FileError where
  | notFound
  | notADirectory
  | isADirectory
  | invalidName
  | notText
  deriving DecidableEq, Repr

def FileError.message : FileError → String
  | .notFound => "no such file or directory"
  | .notADirectory => "not a directory"
  | .isADirectory => "is a directory"
  | .invalidName => "invalid file name"
  | .notText => "not a text in UTF-8"

namespace FileTree

def empty : FileTree where
  entries := .empty
  named := by simp [SortedMap.empty]
  rooted := by simp [SortedMap.empty]

def entry? (t : FileTree) (loc : Location) : Option Entry :=
  if loc = [] then some .directory else t.entries.get? loc

def isDirectory (t : FileTree) (loc : Location) : Bool := t.entry? loc = some .directory

/-- The entries below a location, with the ways to them from there, in order. -/
def below (t : FileTree) (loc : Location) : List (Location × Entry) :=
  t.entries.entries.filterMap fun e =>
    if loc.isPrefixOf e.1 ∧ e.1 ≠ loc then some (e.1.drop loc.length, e.2) else none

theorem mem_insert {m : SortedMap Location Entry} {loc : Location} {e : Entry}
    {d : Location × Entry} (h : d ∈ (m.insert loc e).entries) : d = (loc, e) ∨ d ∈ m.entries :=
  SortedMap.mem_insertEntry h

theorem mem_insert_of_ne {m : SortedMap Location Entry} {loc : Location} {e : Entry}
    {d : Location × Entry} (h : d ∈ m.entries) (hne : d.1 ≠ loc) :
    d ∈ (m.insert loc e).entries := by
  obtain ⟨k, v⟩ := d
  rw [← SortedMap.get?_eq_some_iff] at h ⊢
  rw [SortedMap.get?_insert, if_neg hne, h]

theorem mem_of_isDirectory {t : FileTree} {loc : Location} (h : t.isDirectory loc) :
    loc = [] ∨ (loc, Entry.directory) ∈ t.entries.entries := by
  by_cases hl : loc = []
  · exact Or.inl hl
  · right
    rw [← SortedMap.get?_eq_some_iff]
    simpa [isDirectory, entry?, hl] using h

/-- An entry stands at a location where there is none, or a file takes the place of a file. The
location is in a directory and has a proper name. -/
def set (t : FileTree) (loc : Location) (e : Entry) (hl : loc ≠ []) (hn : loc.all isFileName)
    (hd : t.isDirectory loc.dropLast) (ht : ¬t.isDirectory loc) : FileTree where
  entries := t.entries.insert loc e
  named d h := by
    rcases mem_insert h with rfl | h
    · exact ⟨hl, hn⟩
    · exact t.named d h
  rooted d h := by
    have keep : ∀ loc', t.isDirectory loc' →
        loc' = [] ∨ (loc', Entry.directory) ∈ (t.entries.insert loc e).entries := by
      intro loc' h'
      rcases mem_of_isDirectory h' with h'' | h''
      · exact Or.inl h''
      · refine Or.inr (mem_insert_of_ne h'' fun he => ht ?_)
        simp only at he
        exact he ▸ h'
    rcases mem_insert h with rfl | h
    · exact keep _ hd
    · rcases t.rooted d h with h | h
      · exact Or.inl h
      · refine keep _ ?_
        by_cases hr : d.1.dropLast = []
        · simp [isDirectory, entry?, hr]
        · simp [isDirectory, entry?, hr, SortedMap.get?_eq_some_iff.2 h]

/-- The tree without what satisfies a test that holds below what it holds of. -/
def without (t : FileTree) (p : Location → Bool) (hp : ∀ loc, p loc.dropLast → p loc) :
    FileTree where
  entries := t.entries.restrict fun loc => !p loc
  named d h := t.named d (List.mem_filter.1 h).1
  rooted d h := by
    obtain ⟨h, hd⟩ := List.mem_filter.1 h
    refine (t.rooted d h).imp_right fun h => List.mem_filter.2 ⟨h, ?_⟩
    cases hq : p d.1.dropLast with
    | false => simp [hq]
    | true => simp [hp _ hq] at hd

theorem isPrefixOf_of_dropLast {loc l : Location} (h : loc.isPrefixOf l.dropLast) :
    loc.isPrefixOf l := by
  rw [List.isPrefixOf_iff_prefix] at *
  exact h.trans l.dropLast_prefix

/-- The tree without what stands at a location and below it. The root stays a directory. -/
def remove (t : FileTree) (loc : Location) : FileTree :=
  -- The root has no entry, so it cannot be taken away.
  t.without (fun l => loc.isPrefixOf l) fun _ => isPrefixOf_of_dropLast

def clear (t : FileTree) (loc : Location) : FileTree :=
  t.without (fun l => loc.isPrefixOf l && l.length ≠ loc.length) fun l h => by
    simp only [Bool.and_eq_true, decide_eq_true_eq] at *
    refine ⟨isPrefixOf_of_dropLast h.1, ?_⟩
    have h1 := (List.isPrefixOf_iff_prefix.1 h.1).length_le
    have h2 := h.2
    have h3 := l.length_dropLast
    omega

/-- Something is put at a location, unless that is the place of a directory or in none. -/
def put (t : FileTree) (loc : Location) (e : Entry) : Except FileError FileTree :=
  if hn : loc.all isFileName then
    if ht : t.isDirectory loc then .error .isADirectory
    else if hd : t.isDirectory loc.dropLast then
      .ok (t.set loc e (fun h => ht (by simp [h, isDirectory, entry?])) hn hd ht)
    else .error (if t.entry? loc.dropLast = none then .notFound else .notADirectory)
  else .error .invalidName

def write (t : FileTree) (loc : Location) (bytes : List UInt8) : Except FileError FileTree :=
  t.put loc (.file bytes)

def makeDirectory (t : FileTree) (loc : Location) : Except FileError FileTree :=
  match t.entry? loc with
  | some .directory => .ok t
  | some (.file _) => .error .notADirectory
  | none => t.put loc .directory

def ways (loc : Location) : List Location :=
  (List.range loc.length).map fun i => loc.take (i + 1)

def makeDirectories (t : FileTree) (loc : Location) : Except FileError FileTree :=
  (ways loc).foldlM makeDirectory t

end FileTree

end StaticSite
