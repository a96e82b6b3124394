import StaticSite.Files.Disk

/-!
# Runs of work on a file tree

Work that succeeds leads from one tree to another one and gives a result. Runs are taken apart along
the work: a run of one piece after another is a run of the first, and a run of the second from the
tree that the first one leaves.
-/

namespace StaticSite

theorem eq_ok_of_toOption {ε α : Type} {r : Except ε α} {a : α} (h : r.toOption = some a) :
    r = .ok a := by
  cases r with
  | error e => cases h
  | ok b => rw [Option.some.inj h]

namespace Disk

variable {ε ε' α β : Type} {t t' : FileTree}

/-- How work on a tree ends: a result or an error, and the tree that it leaves. -/
def outcome (work : Disk ε α) (t : FileTree) : Except ε α × FileTree := work.run t

/-- Work that succeeds on a tree, with its result and the tree that it leaves. -/
def Runs (work : Disk ε α) (t : FileTree) (a : α) (t' : FileTree) : Prop :=
  work.outcome t = (.ok a, t')

theorem Runs.unique {work : Disk ε α} {a b : α} {t₁ t₂ : FileTree} (h₁ : work.Runs t a t₁)
    (h₂ : work.Runs t b t₂) : a = b ∧ t₁ = t₂ := by
  have h : (Except.ok a, t₁) = (Except.ok b, t₂) := h₁.symm.trans h₂
  simpa using h

theorem runs_of_outcome {work : Disk ε α} {a : α} (h : (work.outcome t).1.toOption = some a) :
    work.Runs t a (work.outcome t).2 :=
  Prod.ext (eq_ok_of_toOption h) rfl

theorem exists_runs_of_isOk {work : Disk ε α} (h : (work.outcome t).1.isOk = true) :
    ∃ a, work.Runs t a (work.outcome t).2 := by
  unfold Runs
  generalize work.outcome t = o at h ⊢
  obtain ⟨r, t'⟩ := o
  cases r with
  | error e => cases h
  | ok a => exact ⟨a, rfl⟩

theorem outcome_bind (work : Disk ε α) (f : α → Disk ε β) (t : FileTree) :
    (work >>= f).outcome t =
      match work.outcome t with
      | (.ok a, t₁) => (f a).outcome t₁
      | (.error e, t₁) => (.error e, t₁) := by
  show (ExceptT.bindCont f (work.outcome t).1) (work.outcome t).2 = _
  generalize work.outcome t = r
  obtain ⟨r, t₁⟩ := r
  cases r <;> rfl

theorem outcome_tree (t : FileTree) : (tree : Disk ε FileTree).outcome t = (.ok t, t) := rfl

theorem runs_bind {work : Disk ε α} {f : α → Disk ε β} {b : β} :
    (work >>= f).Runs t b t' ↔ ∃ a t₁, work.Runs t a t₁ ∧ (f a).Runs t₁ b t' := by
  unfold Runs
  rw [outcome_bind]
  generalize work.outcome t = r
  obtain ⟨r, t₁⟩ := r
  cases r with
  | error e => simp
  | ok a =>
    constructor
    · intro h
      exact ⟨a, t₁, rfl, h⟩
    · rintro ⟨a', t₁', he, h⟩
      cases he
      exact h

theorem runs_pure {a b : α} : (pure b : Disk ε α).Runs t a t' ↔ b = a ∧ t = t' := by
  show (Except.ok b, t) = (Except.ok a, t') ↔ _
  simp

theorem not_runs_throw {e : ε} {a : α} : ¬(throw e : Disk ε α).Runs t a t' := by
  intro h
  cases congrArg Prod.fst h

theorem runs_tree {a : FileTree} : (tree : Disk ε FileTree).Runs t a t' ↔ t = a ∧ t = t' := by
  show (Except.ok t, t) = (Except.ok a, t') ↔ _
  simp

theorem runs_set {u : PUnit} {t₁ : FileTree} : (set t₁ : Disk ε PUnit).Runs t u t' ↔ t₁ = t' := by
  show (Except.ok PUnit.unit, t₁) = (Except.ok u, t') ↔ _
  simp

theorem runs_ofExcept {r : Except ε α} {a : α} : (ofExcept r).Runs t a t' ↔ r = .ok a ∧ t = t' := by
  show (r, t) = (Except.ok a, t') ↔ _
  simp

theorem runs_liftM {r : Except ε α} {a : α} :
    (liftM r : Disk ε α).Runs t a t' ↔ r = .ok a ∧ t = t' :=
  runs_ofExcept

theorem runs_change {f : FileTree → Except ε FileTree} {u : Unit} :
    (change f).Runs t u t' ↔ f t = .ok t' := by
  rw [change, runs_bind]
  constructor
  · rintro ⟨a, t₁, htree, h⟩
    obtain ⟨rfl, rfl⟩ := runs_tree.1 htree
    split at h
    · rename_i t₂ ht
      rw [ht, runs_set.1 h]
    · exact absurd h not_runs_throw
  · intro h
    refine ⟨t, t, runs_tree.2 ⟨rfl, rfl⟩, ?_⟩
    rw [h]
    exact runs_set.2 rfl

theorem runs_forM_nil {f : α → Disk ε PUnit} {u : PUnit} :
    (([] : List α).forM f).Runs t u t' ↔ t = t' := by
  rw [List.forM, runs_pure]
  simp

theorem runs_forM_cons {f : α → Disk ε PUnit} {a : α} {as : List α} {u : PUnit} :
    ((a :: as).forM f).Runs t u t' ↔
      ∃ t₁, (f a).Runs t .unit t₁ ∧ (as.forM f).Runs t₁ .unit t' := by
  rw [List.forM, runs_bind]
  constructor
  · rintro ⟨_, t₁, ha, has⟩
    exact ⟨t₁, ha, has⟩
  · rintro ⟨t₁, ha, has⟩
    exact ⟨_, t₁, ha, has⟩

theorem runs_foldlM_nil {f : β → α → Disk ε β} {b b' : β} :
    (([] : List α).foldlM f b).Runs t b' t' ↔ b = b' ∧ t = t' := by
  rw [List.foldlM_nil, runs_pure]

theorem runs_foldlM_cons {f : β → α → Disk ε β} {a : α} {as : List α} {b b' : β} :
    ((a :: as).foldlM f b).Runs t b' t' ↔
      ∃ b₁ t₁, (f b a).Runs t b₁ t₁ ∧ (as.foldlM f b₁).Runs t₁ b' t' := by
  rw [List.foldlM_cons, runs_bind]

theorem runs_mapM_nil {f : α → Disk ε β} {bs : List β} :
    (([] : List α).mapM f).Runs t bs t' ↔ [] = bs ∧ t = t' := by
  rw [List.mapM_nil, runs_pure]

theorem runs_mapM_cons {f : α → Disk ε β} {a : α} {as : List α} {bs : List β} :
    ((a :: as).mapM f).Runs t bs t' ↔
      ∃ b t₁ bs', (f a).Runs t b t₁ ∧ (as.mapM f).Runs t₁ bs' t' ∧ b :: bs' = bs := by
  rw [List.mapM_cons, runs_bind]
  constructor
  · rintro ⟨b, t₁, hb, h⟩
    obtain ⟨bs', t₂, hbs, h⟩ := runs_bind.1 h
    obtain ⟨he, rfl⟩ := runs_pure.1 h
    exact ⟨b, t₁, bs', hb, hbs, he⟩
  · rintro ⟨b, t₁, bs', hb, hbs, he⟩
    exact ⟨b, t₁, hb, runs_bind.2 ⟨bs', t', hbs, runs_pure.2 ⟨he, rfl⟩⟩⟩

theorem runs_attempt {work : Disk ε α} {r : Except ε α} :
    (attempt work : Disk ε' (Except ε α)).Runs t r t' ↔ work.outcome t = (r, t') := by
  show (Except.ok (work.outcome t).1, (work.outcome t).2) = (Except.ok r, t') ↔ _
  generalize work.outcome t = o
  obtain ⟨r', t₁⟩ := o
  simp

theorem runs_under {f : ε → ε'} {work : Disk ε α} {a : α} :
    (under f work).Runs t a t' ↔ work.Runs t a t' := by
  unfold Runs
  show ((work.outcome t).1.mapError f, (work.outcome t).2) = (Except.ok a, t') ↔ _
  generalize work.outcome t = o
  obtain ⟨r, t₁⟩ := o
  cases r with
  | error e =>
    show (Except.error (f e), t₁) = (Except.ok a, t') ↔ _
    simp
  | ok b =>
    show (Except.ok b, t₁) = (Except.ok a, t') ↔ _
    simp

end Disk

end StaticSite
