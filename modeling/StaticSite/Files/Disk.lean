import StaticSite.Files.Tree

/-!
# Work on a file tree

A piece of work changes a file tree and gives a result or an error. What was changed before an error
stays changed. The operations here take places: a path whose steps cannot be made names nothing.
-/

namespace StaticSite

/-- Work on a file tree that may end in an error. -/
abbrev Disk (ε : Type) : Type → Type := ExceptT ε (StateM FileTree)

namespace Disk

def tree : Disk ε FileTree := get

/-- A change that is made completely or not at all. -/
def change (f : FileTree → Except ε FileTree) : Disk ε Unit := do
  let t ← tree
  match f t with
  | .ok t' => set t'
  | .error e => throw e

def ofExcept (r : Except ε α) : Disk ε α := ExceptT.mk (pure r)

/-- The outcome of work, as a result. -/
def attempt (work : Disk ε α) : Disk ε' (Except ε α) := ExceptT.lift work.run

def under (f : ε → ε') (work : Disk ε α) : Disk ε' α := ExceptT.adapt f work

end Disk

namespace FileTree

/-- Whether the steps of a path can be made: each of them starts from a directory. The empty path
and a path that cannot be used lead nowhere. -/
def reaches (t : FileTree) (p : Place) : Bool :=
  !p.isEmpty && p.isUsable && p.passed.all t.isDirectory

/-- What stands at a place. A path with a slash at its end leads to directories only. -/
def at? (t : FileTree) (p : Place) : Option Entry :=
  if t.reaches p then (t.entry? p.location).filter fun e => !p.slashed || e = .directory else none

def has (t : FileTree) (p : Place) : Bool := (t.at? p).isSome

def hasDirectory (t : FileTree) (p : Place) : Bool := t.at? p = some .directory

def read (t : FileTree) (p : Place) : Except FileError (List UInt8) :=
  match t.at? p with
  | some (.file bytes) => .ok bytes
  | some .directory => .error .isADirectory
  | none => .error .notFound

end FileTree

namespace Disk

/-- There is a directory at a place. It is made if the last step is to a name under which nothing
stands. -/
def makeDirectory (p : Place) : Disk FileError Unit := do
  let t ← tree
  if t.hasDirectory p then return
  else if t.reaches p ∧ p.isNamed then change fun t => t.makeDirectory p.location
  else throw .notFound

/-- There are directories at a place and on the way to it. For the empty path there is nothing to
do, and on the way to a path that cannot be used nothing is made. -/
def makeDirectories (p : Place) : Disk FileError Unit :=
  if p.isEmpty then return
  else if !p.isUsable then throw .invalidName
  else (p.ancestors ++ [p]).forM makeDirectory

/-- The directory at a place is removed with all that is in it. It loses what is in it first; it can
be removed itself if the last step is to its name, and if the path still leads to it then. -/
def removeAll (p : Place) : Disk FileError Unit := do
  let t ← tree
  match t.at? p with
  | none => throw .notFound
  | some (.file _) => throw .notADirectory
  | some .directory =>
    -- The path may go through the directory itself, so it is looked at again once it is empty.
    let cleared := t.clear p.location
    set cleared
    if cleared.reaches p ∧ p.isNamed then set (cleared.remove p.location) else throw .invalidName

def write (p : Place) (bytes : List UInt8) : Disk FileError Unit := do
  let t ← tree
  if !t.reaches p then throw .notFound
  else if p.slashed ∨ !p.isNamed then throw .isADirectory
  else change fun t => t.write p.location bytes

/-- A file is copied, and the directories on the way to the copy are made. A file that is copied
onto itself loses its bytes, since the copy is emptied before it is filled. -/
def copy (source dest : Place) : Disk FileError Unit := do
  makeDirectories dest.parent
  let t ← tree
  -- The source is opened before the copy, and read when the copy is already empty.
  let bytes ← ofExcept (t.read source)
  write dest (if source.location = dest.location then [] else bytes)

end Disk

end StaticSite
