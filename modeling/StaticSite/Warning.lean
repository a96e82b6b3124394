/-!
# Warnings

Rendering never fails on a reference that does not resolve or an icon that is not known: it goes on
with a placeholder or a default and warns. A `Logged` value carries the warnings of its making in
the order in which they were given.
-/

namespace StaticSite

inductive Warning where
  | unknownIcon (component icon title : String)
  | placeholder (component reference : String)
  | missingPreview (reference : String)
  | trailingSlash
  deriving DecidableEq, Repr

namespace Warning

def message : Warning → String
  | .unknownIcon .. => "unknown icon tag, using default treatment"
  | .placeholder .. => "rendering placeholder for unresolved reference"
  | .missingPreview _ => "social preview image not found, omitting meta tags"
  | .trailingSlash => "site.url should not have a trailing slash"

def fields : Warning → List (String × String)
  | .unknownIcon component icon title =>
    [("component", component), ("icon", icon), ("title", title)]
  | .placeholder component reference => [("component", component), ("reference", reference)]
  | .missingPreview reference => [("reference", reference)]
  | .trailingSlash => []

def reference? : Warning → Option String
  | .placeholder _ reference => some reference
  | .missingPreview reference => some reference
  | _ => none

end Warning

/-- A value together with the warnings of its making. -/
structure Logged (α : Type) where
  value : α
  warnings : List Warning := []
  deriving Repr

namespace Logged

def of (a : α) : Logged α := ⟨a, []⟩

def warn (w : Warning) : Logged Unit := ⟨(), [w]⟩

/-- A further step: its warnings come after those that are there. -/
def andThen (x : Logged α) (f : α → Logged β) : Logged β :=
  ⟨(f x.value).value, x.warnings ++ (f x.value).warnings⟩

instance : Monad Logged where
  pure := of
  -- What is warned about first stays first.
  bind := andThen

def each (f : α → Logged β) : List α → Logged (List β)
  | [] => of []
  | a :: rest => do
    let b ← f a
    let bs ← each f rest
    return b :: bs

@[simp] theorem value_pure (a : α) : (pure a : Logged α).value = a := rfl

@[simp] theorem warnings_pure (a : α) : (pure a : Logged α).warnings = [] := rfl

@[simp] theorem value_bind (x : Logged α) (f : α → Logged β) :
    (x >>= f).value = (f x.value).value := rfl

@[simp] theorem warnings_bind (x : Logged α) (f : α → Logged β) :
    (x >>= f).warnings = x.warnings ++ (f x.value).warnings := rfl

@[simp] theorem value_map (g : α → β) (x : Logged α) : (g <$> x).value = g x.value := rfl

@[simp] theorem warnings_map (g : α → β) (x : Logged α) : (g <$> x).warnings = x.warnings := by
  show x.warnings ++ [] = _
  simp

theorem value_each (f : α → Logged β) (l : List α) :
    (each f l).value = l.map fun a => (f a).value := by
  induction l with
  | nil => rfl
  | cons a rest ih => simp [each, ih]

theorem warnings_each (f : α → Logged β) (l : List α) :
    (each f l).warnings = l.flatMap fun a => (f a).warnings := by
  induction l with
  | nil => rfl
  | cons a rest ih => simp [each, ih]

end Logged

end StaticSite
