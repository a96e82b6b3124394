import StaticSite.Proofs.Files.Disk

/-!
# Files that work keeps

Work on a file tree can fail half-way, and what it has changed until then stays changed. That files
are kept is therefore a fact about every outcome, not about runs that succeed: it holds of work if
it holds of each of its steps. Making directories keeps all files, and writing, copying and removing
keep those that are not below the directory in which they are done.
-/

namespace StaticSite

namespace FileTree

/-- Two trees with the same files everywhere but below a location. -/
def SameFiles (loc : Location) (t t' : FileTree) : Prop :=
  ∀ l, (loc <+: l → l = loc) → t'.file? l = t.file? l

variable {loc : Location} {t t' t₁ t₂ t₃ : FileTree}

theorem SameFiles.refl (loc : Location) (t : FileTree) : t.SameFiles loc t := fun _ _ => rfl

theorem SameFiles.trans (h : t₁.SameFiles loc t₂) (h' : t₂.SameFiles loc t₃) :
    t₁.SameFiles loc t₃ := fun l hl => (h' l hl).trans (h l hl)

theorem sameFiles_makeDirectory {l : Location} (h : t.makeDirectory l = .ok t') :
    t.SameFiles loc t' := fun _ _ => by rw [file?_makeDirectory h]

theorem sameFiles_put {l : Location} {e : Entry} (h : t.put l e = .ok t') (hbelow : loc <+: l)
    (hne : l ≠ loc) : t.SameFiles loc t' := by
  intro k hk
  apply file?_of_entry?
  rw [(put_eq_ok h).2.2.2, if_neg]
  rintro rfl
  exact hne (hk hbelow)

theorem sameFiles_clear (t : FileTree) (loc : Location) : t.SameFiles loc (t.clear loc) := by
  intro l hl
  apply file?_of_entry?
  rw [entry?_clear, if_neg fun h => h.2 (hl h.1)]

theorem sameFiles_remove (h : t.isDirectory loc = true) : t.SameFiles loc (t.remove loc) := by
  intro l hl
  by_cases hp : loc <+: l
  · obtain rfl := hl hp
    rw [file?_of_isDirectory h]
    cases hfile : FileTree.file? (t.remove l) l with
    | none => rfl
    | some bytes =>
      rw [file?_eq_some_iff, entry?_remove] at hfile
      split at hfile
      · cases hfile
      · rw [isDirectory_iff.1 h] at hfile
        cases hfile
  · exact file?_of_entry? (by rw [entry?_remove, if_neg fun h => hp h.2])

end FileTree

namespace Disk

open FileTree

variable {ε ε' α β : Type} {loc : Location}

/-- Work that makes, changes and removes no files but below a location, however it ends. -/
def Keeps (loc : Location) (work : Disk ε α) : Prop :=
  ∀ t : FileTree, t.SameFiles loc (work.outcome t).2

theorem keeps_pure (a : α) : (pure a : Disk ε α).Keeps loc := SameFiles.refl loc

theorem keeps_throw (e : ε) : (throw e : Disk ε α).Keeps loc := SameFiles.refl loc

theorem keeps_ofExcept (r : Except ε α) : (ofExcept r).Keeps loc := SameFiles.refl loc

theorem keeps_liftM (r : Except ε α) : (liftM r : Disk ε α).Keeps loc := SameFiles.refl loc

/-- Of work after other work, only the results that the other work can give matter. -/
theorem Keeps.bind {work : Disk ε α} {f : α → Disk ε β} (h : work.Keeps loc)
    (hf : ∀ t a t', work.Runs t a t' → (f a).Keeps loc) : (work >>= f).Keeps loc := by
  intro t
  have hwork := h t
  rw [outcome_bind]
  cases hr : work.outcome t with
  | mk r t₁ =>
    rw [hr] at hwork
    cases r with
    | error e => exact hwork
    | ok a => exact hwork.trans (hf t a t₁ hr t₁)

theorem keeps_tree_bind {f : FileTree → Disk ε α}
    (h : ∀ t : FileTree, t.SameFiles loc ((f t).outcome t).2) : (tree >>= f).Keeps loc :=
  fun t => h t

theorem keeps_change {f : FileTree → Except ε FileTree}
    (h : ∀ t t', f t = .ok t' → t.SameFiles loc t') : (change f).Keeps loc := by
  refine keeps_tree_bind fun t => ?_
  cases hf : f t with
  | error e => exact SameFiles.refl loc t
  | ok t' => exact h t t' hf

theorem keeps_under (f : ε → ε') {work : Disk ε α} (h : work.Keeps loc) :
    (under f work).Keeps loc := fun t => h t

theorem keeps_attempt {work : Disk ε α} (h : work.Keeps loc) :
    (attempt work : Disk ε' (Except ε α)).Keeps loc := fun t => h t

theorem keeps_forM {f : α → Disk ε PUnit} {as : List α} (h : ∀ a ∈ as, (f a).Keeps loc) :
    (as.forM f).Keeps loc := by
  induction as with
  | nil => exact keeps_pure _
  | cons a as ih =>
    rw [List.forM]
    exact (h a List.mem_cons_self).bind fun _ _ _ _ =>
      ih fun b hb => h b (List.mem_cons_of_mem a hb)

theorem keeps_foldlM {f : β → α → Disk ε β} {as : List α}
    (h : ∀ b, ∀ a ∈ as, (f b a).Keeps loc) (b : β) : (as.foldlM f b).Keeps loc := by
  induction as generalizing b with
  | nil => exact keeps_pure b
  | cons a as ih =>
    rw [List.foldlM_cons]
    exact (h b a List.mem_cons_self).bind fun _ _ _ _ =>
      ih (fun b' c hc => h b' c (List.mem_cons_of_mem a hc)) _

theorem keeps_mapM {f : α → Disk ε β} {as : List α} (h : ∀ a ∈ as, (f a).Keeps loc) :
    (as.mapM f).Keeps loc := by
  induction as with
  | nil => exact keeps_pure _
  | cons a as ih =>
    have hrest := ih fun b hb => h b (List.mem_cons_of_mem a hb)
    rw [List.mapM_cons]
    exact (h a List.mem_cons_self).bind fun _ _ _ _ => hrest.bind fun _ _ _ _ => keeps_pure _

theorem keeps_makeDirectory (p : Place) : (makeDirectory p).Keeps loc := by
  refine keeps_tree_bind fun t => ?_
  split
  · exact keeps_pure _ t
  split
  · exact keeps_change (fun _ _ => sameFiles_makeDirectory) t
  · exact keeps_throw _ t

theorem keeps_makeDirectories (p : Place) : (makeDirectories p).Keeps loc := by
  unfold makeDirectories
  split
  · exact keeps_pure _
  split
  · exact keeps_throw _
  · exact keeps_forM fun q _ => keeps_makeDirectory q

theorem keeps_removeAll (p : Place) : (removeAll p).Keeps p.location := by
  refine keeps_tree_bind fun t => ?_
  split
  · exact keeps_throw _ t
  · exact keeps_throw _ t
  · rename_i hat
    have hd : t.isDirectory p.location = true :=
      isDirectory_of_hasDirectory (by simp [hasDirectory, hat])
    -- What is in the directory is gone even if the directory itself cannot be removed.
    have hset : ((set (t.clear p.location) : Disk FileError PUnit)).outcome t =
        (.ok .unit, t.clear p.location) := rfl
    rw [outcome_bind, hset]
    dsimp only
    split
    · rw [remove_clear]
      exact sameFiles_remove hd
    · exact sameFiles_clear t p.location

theorem keeps_write {p : Place} (bytes : List UInt8) (hbelow : loc <+: p.location)
    (hne : p.location ≠ loc) : (write p bytes).Keeps loc := by
  refine keeps_tree_bind fun t => ?_
  split
  · exact keeps_throw _ t
  split
  · exact keeps_throw _ t
  · exact keeps_change (fun _ _ h => sameFiles_put h hbelow hne) t

theorem keeps_copy (source : Place) {dest : Place} (hbelow : loc <+: dest.location)
    (hne : dest.location ≠ loc) : (copy source dest).Keeps loc := by
  refine (keeps_makeDirectories dest.parent).bind fun _ _ _ _ => keeps_tree_bind fun t => ?_
  exact ((keeps_ofExcept (t.read source)).bind fun _ _ _ _ => keeps_write _ hbelow hne) t

section

variable {out : Place} {way : Location}

theorem keeps_write_below (bytes : List UInt8) (hway : way ≠ []) :
    (write (out.below way) bytes).Keeps out.location := by
  apply keeps_write <;> rw [Place.location_below]
  · exact List.prefix_append _ _
  · simpa using hway

theorem keeps_copy_below (source : Place) (hway : way ≠ []) :
    (copy source (out.below way)).Keeps out.location := by
  apply keeps_copy <;> rw [Place.location_below]
  · exact List.prefix_append _ _
  · simpa using hway

end

end Disk

end StaticSite
