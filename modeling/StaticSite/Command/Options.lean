import StaticSite.Text.Blank

/-!
# Options on a command line

A program knows options by long names and letters. An option stands on its own, or it takes a value:
the rest of its word or the next word. Options that show a text end the reading at once, and so does
a mistake.
-/

namespace StaticSite

/-- What an option does: it shows a text, may be given once, may be given again and again, or takes
a value, which may be empty or not. -/
inductive OptionKind where
  | help
  | version
  | flag
  | counter
  | value (allowEmpty : Bool)
  deriving DecidableEq, Repr

structure OptionSpec where
  name : String
  letter : Option Char := none
  kind : OptionKind
  deriving DecidableEq, Repr

inductive Stop where
  | help
  | version
  | misuse
  deriving DecidableEq, Repr

/-- The options that were given, with their values; options without values have empty ones. -/
abbrev Given := List (String × String)

namespace Given

def has (g : Given) (name : String) : Bool := g.any fun e => e.1 = name

def value? (g : Given) (name : String) : Option String := g.lookup name

def put (g : Given) (o : OptionSpec) (value : String) : Except Stop Given :=
  match o.kind with
  | .value allowEmpty =>
    if g.has o.name ∨ (value = "" ∧ !allowEmpty) then .error .misuse
    else .ok (g ++ [(o.name, value)])
  | _ => .error .misuse

def mark (g : Given) (o : OptionSpec) : Except Stop Given :=
  match o.kind with
  | .help => .error .help
  | .version => .error .version
  | .flag => if g.has o.name then .error .misuse else .ok (g ++ [(o.name, "")])
  | .counter => .ok (g ++ [(o.name, "")])
  | .value _ => .error .misuse

end Given

def OptionSpec.takesValue (o : OptionSpec) : Bool :=
  match o.kind with
  | .value _ => true
  | _ => false

/-- The options that were given, and the one that waits for its value. -/
structure OptionState where
  given : Given := []
  pending : Option OptionSpec := none

/-- A word that begins with two dashes, after them: the name of an option and perhaps a value after
an equals sign. -/
def readLong (options : List OptionSpec) (g : Given) (cs : List Char) :
    Except Stop OptionState := do
  let name := String.ofList (cs.takeWhile fun c => c ≠ '=')
  match options.find? fun o => o.name = name with
  | none => throw .misuse
  | some o =>
    match cs.dropWhile fun c => c ≠ '=' with
    | [] => if o.takesValue then return ⟨g, some o⟩ else return ⟨← g.mark o, none⟩
    | _ :: value => return ⟨← g.put o (String.ofList value), none⟩

/-- The letters of a word that begins with one dash. The rest of the word after the letter of an
option with a value is the value, with or without an equals sign before it. -/
def readLetters (options : List OptionSpec) (g : Given) : List Char → Except Stop OptionState
  | [] => return ⟨g, none⟩
  | c :: rest => do
    match options.find? fun o => o.letter = some c with
    | none => throw .misuse
    | some o =>
      if o.takesValue then
        match rest with
        | [] => return ⟨g, some o⟩
        | '=' :: value => return ⟨← g.put o (String.ofList value), none⟩
        | value => return ⟨← g.put o (String.ofList value), none⟩
      else readLetters options (← g.mark o) rest

/-- Words up to the first one that names a command, with that command and the words after it. No
words may stand after two dashes. -/
def readOptions (options : List OptionSpec) (commands : List String) :
    OptionState → List String → Except Stop (Given × Option (String × List String))
  | ⟨g, none⟩, [] => .ok (g, none)
  | ⟨_, some _⟩, [] => .error .misuse
  | ⟨g, some o⟩, word :: rest =>
    -- A dash on its own is a value, any other word with a dash in front is an option.
    if word.toList.head? = some '-' ∧ word ≠ "-" then .error .misuse
    else do
      let g ← g.put o word
      readOptions options commands ⟨g, none⟩ rest
  | ⟨g, none⟩, word :: rest =>
    if word ∈ commands then .ok (g, some (word, rest))
    else if word = "--" then if rest = [] then .ok (g, none) else .error .misuse
    else
      match word.toList with
      | '-' :: '-' :: cs => do
        let state ← readLong options g cs
        readOptions options commands state rest
      | '-' :: c :: cs => do
        let state ← readLetters options g (c :: cs)
        readOptions options commands state rest
      | _ => .error .misuse

end StaticSite
