import StaticSite.Build.Run
import StaticSite.Proofs.Files.Run

/-!
# How work fails

Work fails with errors of a kind if each of its steps does. A step that fails ends the work, and the
tree stays as that step leaves it; a check changes nothing, so neither does a check that fails.
-/

namespace StaticSite

namespace Disk

variable {ε ε' α β : Type} {p : ε → Prop}

theorem outcome_ofExcept_bind (r : Except ε α) (f : α → Disk ε β) (t : FileTree) :
    (ofExcept r >>= f).outcome t =
      match r with
      | .ok a => (f a).outcome t
      | .error e => (.error e, t) := by
  rw [outcome_bind]
  cases r <;> rfl

theorem outcome_tree_bind (f : FileTree → Disk ε β) (t : FileTree) :
    (tree >>= f).outcome t = (f t).outcome t := rfl

/-- Work whose errors are all of a kind. -/
def FailsWith (p : ε → Prop) (work : Disk ε α) : Prop :=
  ∀ t e, (work.outcome t).1 = .error e → p e

theorem failsWith_pure (a : α) : (pure a : Disk ε α).FailsWith p := by
  intro t e h
  cases h

theorem failsWith_ofExcept {r : Except ε α} (h : ∀ e, r = .error e → p e) :
    (ofExcept r).FailsWith p := fun _ e he => h e he

theorem FailsWith.bind {work : Disk ε α} {f : α → Disk ε β} (h : work.FailsWith p)
    (hf : ∀ t a t', work.Runs t a t' → (f a).FailsWith p) : (work >>= f).FailsWith p := by
  intro t e he
  rw [outcome_bind] at he
  cases hr : work.outcome t with
  | mk r t₁ =>
    rw [hr] at he
    cases r with
    | error e' =>
      replace he : (Except.error e' : Except ε β) = .error e := he
      rw [← Except.error.inj he]
      exact h t e' (congrArg Prod.fst hr)
    | ok a => exact hf t a t₁ hr t₁ e he

theorem failsWith_under {f : ε' → ε} (h : ∀ e, p (f e)) (work : Disk ε' α) :
    (under f work).FailsWith p := by
  intro t e he
  have hmap : (work.outcome t).1.mapError f = .error e := he
  cases hr : (work.outcome t).1 with
  | error e' =>
    rw [hr] at hmap
    cases hmap
    exact h e'
  | ok a =>
    rw [hr] at hmap
    cases hmap

theorem failsWith_attempt (work : Disk ε' α) :
    (attempt work : Disk ε (Except ε' α)).FailsWith p := by
  intro t e h
  cases h

theorem failsWith_mapM {f : α → Disk ε β} {as : List α} (h : ∀ a ∈ as, (f a).FailsWith p) :
    (as.mapM f).FailsWith p := by
  induction as with
  | nil => exact failsWith_pure _
  | cons a as ih =>
    have hrest := ih fun b hb => h b (List.mem_cons_of_mem a hb)
    rw [List.mapM_cons]
    exact (h a List.mem_cons_self).bind fun _ _ _ _ => hrest.bind fun _ _ _ _ => failsWith_pure _

theorem outcome_of_mem_attempts {works : List (Disk ε α)} {rs : List (Except ε α)}
    {t t' : FileTree} (h : (works.mapM attempt : Disk ε (List (Except ε α))).Runs t rs t')
    {r : Except ε α} (hr : r ∈ rs) : ∃ work ∈ works, ∃ t₁, (work.outcome t₁).1 = r := by
  induction works generalizing t rs with
  | nil =>
    obtain ⟨rfl, -⟩ := runs_mapM_nil.1 h
    cases hr
  | cons work works ih =>
    obtain ⟨r', t₁, rs', hwork, hworks, rfl⟩ := runs_mapM_cons.1 h
    rcases List.mem_cons.1 hr with rfl | hr
    · exact ⟨work, List.mem_cons_self, t, by rw [runs_attempt.1 hwork]⟩
    · obtain ⟨work', hmem, hresult⟩ := ih hworks hr
      exact ⟨work', List.mem_cons_of_mem work hmem, hresult⟩

theorem failsWith_all {works : List (Disk ε α)} (h : ∀ work ∈ works, work.FailsWith p) :
    (Disk.all works).FailsWith p := by
  refine (failsWith_mapM fun work _ => failsWith_attempt work).bind fun t rs t' hrs => ?_
  refine failsWith_mapM fun r hr => failsWith_ofExcept fun e he => ?_
  obtain ⟨work, hmem, t₁, hresult⟩ := outcome_of_mem_attempts hrs hr
  exact h work hmem t₁ e (hresult.trans he)

end Disk

end StaticSite
