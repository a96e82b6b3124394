import StaticSite.Text.Blank

/-!
# Paths

A path is a text with slashes between its steps: names, a dot that stays, and two dots that go back.
A relative path starts from a working directory and an absolute one from the root of the file tree.
The steps of a path lead to a location, but only in a tree in which each of them starts from a
directory; so a place keeps its steps. It keeps all slashes as well, since the length of a path is
limited. The empty path has no steps and leads nowhere, though paths below it do.
-/

namespace StaticSite

/-- The names on the way from the root of the file tree. -/
abbrev Location := List String

def slashPath (way : Location) : String := "/".intercalate way

/-- A step from a directory: to what stands in it under a name, to itself, or to the directory that
it stands in. One more slash between two steps is a step that stays as well. -/
inductive Step where
  | name (n : String)
  | stay
  | back
  | slash
  deriving DecidableEq, Repr

namespace Step

def target (loc : Location) : Step → Location
  | .name n => loc ++ [n]
  | .stay | .slash => loc
  | .back => loc.dropLast

def stays : Step → Bool
  | .stay | .slash => true
  | _ => false

def text : Step → String
  | .name n => n
  | .stay => "."
  | .back => ".."
  | .slash => ""

end Step

/-- What a path says: where it starts, whether a slash stands before its steps, the steps, and how
many slashes follow them. In a path without steps all slashes are such slashes. -/
structure Place where
  start : Location
  isRooted : Bool
  steps : List Step
  slashes : Nat := 0
  deriving DecidableEq, Repr

/-- The locations that steps from a location start from. -/
def stepStarts : Location → List Step → List Location
  | _, [] => []
  | loc, s :: rest => loc :: stepStarts (s.target loc) rest

namespace Place

def location (p : Place) : Location := p.steps.foldl Step.target p.start

def passed (p : Place) : List Location := stepStarts p.start p.steps

def slashed (p : Place) : Bool := p.slashes ≠ 0

def isEmpty (p : Place) : Bool := p.steps = [] && !p.slashed

def isNamed (p : Place) : Bool :=
  match p.steps.getLast? with
  | some (.name _) => true
  | _ => false

/-- The place at the end of a way from a place. Of the slashes at the end of the path, one stands
before the first name on the way. -/
def below (p : Place) (way : Location) : Place :=
  { p with
    -- The other slashes stay, for they count in the length of the path.
    steps := p.steps ++ (List.replicate (p.slashes - 1) .slash ++ way.map .name)
    slashes := 0 }

def trimSteps (steps : List Step) : List Step := Text.dropEndWhile Step.stays steps

/-- The place without the last name, or the last step back, and what follows it. -/
def parent (p : Place) : Place :=
  { p with steps := trimSteps (trimSteps p.steps).dropLast, slashes := 0 }

def ancestors (p : Place) : List Place :=
  let steps := p.parent.steps
  -- Ancestors end with their last step.
  (List.range steps.length).map fun i => { p with steps := steps.take (i + 1), slashes := 0 }

def path (p : Place) : String :=
  (if p.isRooted ∧ p.steps ≠ [] then "/" else "") ++ "/".intercalate (p.steps.map Step.text) ++
    String.ofList (List.replicate p.slashes '/')

/-- Whether a path can be used at all: with the null character that ends it, it has at most 4096
bytes, and it has no null character before. -/
def isUsable (p : Place) : Bool := p.path.utf8ByteSize < 4096 && '\x00' ∉ p.path.toList

theorem stepStarts_append (loc : Location) (a b : List Step) :
    stepStarts loc (a ++ b) = stepStarts loc a ++ stepStarts (a.foldl Step.target loc) b := by
  induction a generalizing loc with
  | nil => rfl
  | cons s a ih => simp [stepStarts, ih]

theorem foldl_target_slashes (loc : Location) (n : Nat) :
    (List.replicate n Step.slash).foldl Step.target loc = loc := by
  induction n with
  | zero => rfl
  | succ n ih => exact ih

theorem foldl_target_names (loc way : Location) :
    (way.map Step.name).foldl Step.target loc = loc ++ way := by
  induction way generalizing loc with
  | nil => simp
  | cons n way ih => simp [Step.target, ih]

theorem location_below (p : Place) (way : Location) :
    (p.below way).location = p.location ++ way := by
  simp [below, location, foldl_target_slashes, foldl_target_names]

end Place

namespace Path

def isAbsolute (path : String) : Bool := path.toList.head? = some '/'

def endsWithSlash (path : String) : Bool := path.toList.getLast? = some '/'

/-- A path below a path; an absolute path stays as it is. -/
def join (base path : String) : String :=
  if isAbsolute path ∨ base = "" then path
  else if endsWithSlash base then base ++ path
  else base ++ "/" ++ path

/-- Reversed characters of a path without slashes, or slashes with a dot, at its end. -/
def dropTail : List Char → List Char
  | ['/'] => ['/']
  | '/' :: rest => dropTail rest
  -- A dot counts only behind a slash; alone it is the whole path.
  | '.' :: '/' :: rest => dropTail ('/' :: rest)
  | cs => cs

/-- The path without its last name; the root and the empty path have none. -/
def parent? (path : String) : Option String :=
  match dropTail path.toList.reverse with
  | [] => none
  | ['/'] => none
  | cs => some (String.ofList (dropTail (cs.dropWhile fun c => c ≠ '/')).reverse)

def trimmed (path : String) : String := String.ofList (dropTail path.toList.reverse).reverse

def ofLocation (loc : Location) : String := "/" ++ "/".intercalate loc

/-- The last name of a path. Slashes and dots may follow it, but no two dots. -/
def lastName? (path : String) : Option String :=
  match (dropTail path.toList.reverse).takeWhile fun c => c ≠ '/' with
  | [] => none
  | ['.'] => none
  | ['.', '.'] => none
  | cs => some (String.ofList cs.reverse)

/-- A file name as what stands before its last dot and what stands after it. A dot at the start of
the name does not count. -/
def splitExtension (name : String) : String × Option String :=
  let cs := name.toList.reverse
  let after := cs.takeWhile fun c => c ≠ '.'
  match cs.dropWhile fun c => c ≠ '.' with
  | '.' :: before =>
    -- The dot is the first character.
    if before = [] then (name, none)
    else (String.ofList before.reverse, some (String.ofList after.reverse))
  | _ => (name, none)

def step (piece : List Char) : Step :=
  if piece = [] then .slash
  else if piece = ['.'] then .stay
  else if piece = ['.', '.'] then .back
  else .name (String.ofList piece)

def body (path : String) : List Char := Text.dropEndWhile Text.isSlash path.toList

/-- The pieces of a path between its slashes, without the one before the slash of the root. -/
def pieces (path : String) : List (List Char) :=
  if body path = [] then []
  else Text.splitOn Text.isSlash (if isAbsolute path then (body path).tail else body path)

def place (workDir : Location) (path : String) : Place where
  start := if isAbsolute path then [] else workDir
  isRooted := isAbsolute path
  steps := (pieces path).map step
  slashes := path.toList.length - (body path).length

end Path

end StaticSite
