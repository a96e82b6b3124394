import StaticSite.Proofs.Files.Run
import StaticSite.Proofs.Files.Tree

/-!
# What work on a file tree changes

Each piece of work that succeeds is described by what stands at every location afterwards. Making
directories puts directories at the locations on the way and nothing else, removing takes away all
that is at a location and below it, and writing and copying change one file. Work below a directory
leaves what is outside it as it was.
-/

namespace StaticSite

namespace Place

theorem prefix_trimSteps (steps : List Step) : trimSteps steps <+: steps := by
  rw [trimSteps, Text.dropEndWhile, ← List.reverse_suffix, List.reverse_reverse]
  exact List.dropWhile_suffix _

theorem prefix_steps_parent (p : Place) : p.parent.steps <+: p.steps := by
  have hdrop : (trimSteps p.steps).dropLast <+: trimSteps p.steps := List.dropLast_prefix _
  exact ((prefix_trimSteps _).trans hdrop).trans (prefix_trimSteps _)

theorem steps_prefix_of_mem {p q : Place} (h : q ∈ p.ancestors ++ [p]) :
    q.start = p.start ∧ q.steps <+: p.steps := by
  rcases List.mem_append.1 h with h | h
  · obtain ⟨i, -, rfl⟩ := List.mem_map.1 h
    have htake : p.parent.steps.take (i + 1) <+: p.parent.steps := List.take_prefix _ _
    exact ⟨rfl, htake.trans p.prefix_steps_parent⟩
  · rw [List.mem_singleton.1 h]
    exact ⟨rfl, List.prefix_rfl⟩

/-- The first steps to a place lead to where a further step starts, or to the place itself. -/
theorem location_of_steps {p q : Place} (hs : q.start = p.start) (hp : q.steps <+: p.steps) :
    q.location ∈ p.passed ∨ q.location = p.location := by
  obtain ⟨rest, hr⟩ := hp
  cases rest with
  | nil =>
    rw [List.append_nil] at hr
    exact Or.inr (by rw [location, location, hs, hr])
  | cons s rest =>
    left
    rw [passed, ← hr, ← hs, stepStarts_append]
    exact List.mem_append_right _ List.mem_cons_self

theorem prefix_foldl_target {steps : List Step} (h : .back ∉ steps) (loc : Location) :
    loc <+: steps.foldl Step.target loc := by
  induction steps generalizing loc with
  | nil => exact List.prefix_rfl
  | cons s steps ih =>
    obtain ⟨hs, hsteps⟩ := not_or.1 (mt List.mem_cons.2 h)
    refine List.IsPrefix.trans ?_ (ih hsteps (s.target loc))
    cases s with
    | name n => exact List.prefix_append loc [n]
    | stay => exact List.prefix_rfl
    | back => exact absurd rfl hs
    | slash => exact List.prefix_rfl

/-- The first steps to a place below another one are steps to that one, or lead below it. -/
theorem location_of_steps_below {p q : Place} {way : Location} (hs : q.start = p.start)
    (hp : q.steps <+: (p.below way).steps) : q.location ∈ p.passed ∨ p.location <+: q.location := by
  rcases List.prefix_or_prefix_of_prefix hp (List.prefix_append p.steps _) with hshort | hlong
  · exact (location_of_steps hs hshort).imp_right fun h => ⟨[], by rw [List.append_nil, h]⟩
  · right
    obtain ⟨rest, hr⟩ := hlong
    have hrest : rest <+: List.replicate (p.slashes - 1) .slash ++ way.map .name :=
      (List.prefix_append_right_inj p.steps).1 (hr ▸ hp)
    have hforward : .back ∉ rest := fun hmem => by simpa using hrest.subset hmem
    show p.location <+: q.steps.foldl Step.target q.start
    rw [← hr, List.foldl_append, hs]
    exact prefix_foldl_target hforward p.location

/-- Two places that are not the same and of which none is inside the other. -/
def Apart (p q : Place) : Prop := ¬p.location <+: q.location ∧ ¬q.location <+: p.location

instance (p q : Place) : Decidable (p.Apart q) := inferInstanceAs (Decidable (_ ∧ _))

theorem Apart.ne {p q : Place} (h : p.Apart q) (way way' : Location) :
    p.location ++ way ≠ q.location ++ way' := by
  intro he
  have hq : q.location <+: p.location ++ way := he ▸ List.prefix_append _ _
  exact (List.prefix_or_prefix_of_prefix (List.prefix_append _ _) hq).elim h.1 h.2

theorem Apart.not_prefix {p q : Place} (h : p.Apart q) (way : Location) :
    ¬q.location <+: p.location ++ way := by
  rintro ⟨way', hw⟩
  exact h.ne way way' hw.symm

def made (p : Place) : List Location :=
  if p.isEmpty then [] else (p.ancestors ++ [p]).map location

end Place

namespace FileTree

/-- Two trees in which the same stands everywhere but at a location and below it. -/
def SameOutside (loc : Location) (t t' : FileTree) : Prop :=
  ∀ l, ¬loc <+: l → t.entry? l = t'.entry? l

theorem SameOutside.trans {loc : Location} {t₁ t₂ t₃ : FileTree} (h : t₁.SameOutside loc t₂)
    (h' : t₂.SameOutside loc t₃) : t₁.SameOutside loc t₃ := fun l hl => (h l hl).trans (h' l hl)

theorem SameOutside.file? {loc l : Location} {t t' : FileTree} (h : t.SameOutside loc t')
    (hl : ¬loc <+: l) : t.file? l = t'.file? l :=
  file?_of_entry? (h l hl)

theorem sameOutside_remove (t : FileTree) (loc : Location) : t.SameOutside loc (t.remove loc) := by
  intro l hl
  rw [entry?_remove, if_neg fun h => hl h.2]

/-- Two trees of which the second one has further directories, and otherwise the same. -/
def AddsDirectories (t t' : FileTree) : Prop :=
  ∀ l, t'.entry? l = t.entry? l ∨ t.entry? l = none ∧ t'.isDirectory l = true

theorem AddsDirectories.isDirectory {t t' : FileTree} (h : t.AddsDirectories t') {l : Location}
    (hl : t.isDirectory l = true) : t'.isDirectory l = true := by
  rcases h l with he | ⟨-, hd⟩
  · rw [isDirectory_iff, he, isDirectory_iff.1 hl]
  · exact hd

theorem exists_makeDirectory {t t' t₁ : FileTree} {loc : Location} (hadds : t.AddsDirectories t₁)
    (h : t.makeDirectory loc = .ok t') : ∃ t₁', t₁.makeDirectory loc = .ok t₁' := by
  cases hd : t₁.isDirectory loc with
  | true => exact ⟨t₁, makeDirectory_eq_ok.2 (Or.inl ⟨hd, rfl⟩)⟩
  | false =>
    rcases makeDirectory_eq_ok.1 h with ⟨hloc, -⟩ | ⟨hnone, hput⟩
    · rw [hadds.isDirectory hloc] at hd
      cases hd
    · obtain ⟨hn, -, hparent, -⟩ := put_eq_ok hput
      obtain ⟨t₁', hput₁⟩ := exists_put .directory hn hd (hadds.isDirectory hparent)
      have hnone₁ : t₁.entry? loc = none := by
        rcases hadds loc with he | ⟨-, he⟩
        · rw [he, hnone]
        · rw [hd] at he
          cases he
      exact ⟨t₁', makeDirectory_eq_ok.2 (Or.inr ⟨hnone₁, hput₁⟩)⟩

section

variable {t t' : FileTree} {p : Place}

theorem reaches_iff : t.reaches p = true ↔
    p.isEmpty = false ∧ p.isUsable = true ∧ ∀ l ∈ p.passed, t.isDirectory l = true := by
  simp [reaches, and_assoc]

theorem hasDirectory_iff : t.hasDirectory p = true ↔
    t.reaches p = true ∧ t.isDirectory p.location = true := by
  have hat : t.hasDirectory p = true ↔ t.at? p = some .directory := by simp [hasDirectory]
  rw [hat, at?]
  constructor
  · intro h
    split at h
    · rename_i hr
      exact ⟨hr, isDirectory_iff.2 (Option.filter_eq_some_iff.1 h).1⟩
    · cases h
  · rintro ⟨hr, hd⟩
    rw [if_pos hr, isDirectory_iff.1 hd]
    simp [Option.filter]

theorem isDirectory_of_hasDirectory (h : t.hasDirectory p = true) :
    t.isDirectory p.location = true := (hasDirectory_iff.1 h).2

theorem has_of_hasDirectory (h : t.hasDirectory p = true) : t.has p = true := by
  have hat : t.at? p = some .directory := by simpa [hasDirectory] using h
  rw [has, hat]
  rfl

theorem isEmpty_of_has (h : t.has p = true) : p.isEmpty = false := by
  have hr : t.reaches p = true := by
    by_contra hr
    simp [has, at?, hr] at h
  exact (reaches_iff.1 hr).1

theorem reaches_of_isDirectory (h : t.reaches p = true)
    (hd : ∀ l ∈ p.passed, t.isDirectory l = true → t'.isDirectory l = true) :
    t'.reaches p = true := by
  obtain ⟨hempty, husable, hpassed⟩ := reaches_iff.1 h
  exact reaches_iff.2 ⟨hempty, husable, fun l hl => hd l hl (hpassed l hl)⟩

theorem hasDirectory_of_isDirectory (h : t.hasDirectory p = true)
    (hd : ∀ l, l ∈ p.passed ∨ l = p.location → t.isDirectory l = true → t'.isDirectory l = true) :
    t'.hasDirectory p = true := by
  obtain ⟨hr, hloc⟩ := hasDirectory_iff.1 h
  have hr' := reaches_of_isDirectory hr fun l hl => hd l (Or.inl hl)
  exact hasDirectory_iff.2 ⟨hr', hd _ (Or.inr rfl) hloc⟩

theorem read_eq_ok {bytes : List UInt8} (h : t.read p = .ok bytes) :
    t.reaches p = true ∧ t.file? p.location = some bytes := by
  unfold read at h
  split at h
  · rename_i b hat
    obtain rfl := Except.ok.inj h
    unfold at? at hat
    split at hat
    · rename_i hr
      exact ⟨hr, file?_eq_some_iff.2 (Option.filter_eq_some_iff.1 hat).1⟩
    · cases hat
  · cases h
  · cases h

end

end FileTree

namespace Disk

open FileTree

variable {t t' : FileTree} {u : Unit}

theorem runs_makeDirectory_iff {p : Place} : (makeDirectory p).Runs t u t' ↔
    t.hasDirectory p = true ∧ t = t' ∨ t.hasDirectory p = false ∧ t.reaches p = true ∧
      p.isNamed = true ∧ t.makeDirectory p.location = .ok t' := by
  simp only [makeDirectory, runs_bind, runs_tree]
  constructor
  · rintro ⟨_, _, ⟨rfl, rfl⟩, h⟩
    cases hd : t.hasDirectory p with
    | true =>
      rw [if_pos hd] at h
      exact Or.inl ⟨rfl, (runs_pure.1 h).2⟩
    | false =>
      rw [if_neg (by simp [hd])] at h
      split at h
      · rename_i hr
        exact Or.inr ⟨rfl, hr.1, hr.2, runs_change.1 h⟩
      · exact absurd h not_runs_throw
  · rintro (⟨hd, rfl⟩ | ⟨hd, hr, hnamed, hok⟩)
    · refine ⟨t, t, ⟨rfl, rfl⟩, ?_⟩
      rw [if_pos hd]
      exact runs_pure.2 ⟨rfl, rfl⟩
    · refine ⟨t, t, ⟨rfl, rfl⟩, ?_⟩
      rw [if_neg (by simp [hd]), if_pos ⟨hr, hnamed⟩]
      exact runs_change.2 hok

theorem runs_makeDirectory {p : Place} (h : (makeDirectory p).Runs t u t') :
    (∀ l, t'.entry? l = if l = p.location then some .directory else t.entry? l) ∧
      t'.hasDirectory p = true := by
  rcases runs_makeDirectory_iff.1 h with ⟨hd, rfl⟩ | ⟨-, hr, -, hok⟩
  · refine ⟨fun l => ?_, hd⟩
    split
    · rename_i hl
      rw [hl]
      exact isDirectory_iff.1 (isDirectory_of_hasDirectory hd)
    · rfl
  · have he := entry?_makeDirectory hok
    have hr' : t'.reaches p = true := by
      refine reaches_of_isDirectory hr fun l _ hl => isDirectory_iff.2 ?_
      rw [he]
      split
      · rfl
      · exact isDirectory_iff.1 hl
    exact ⟨he, hasDirectory_iff.2 ⟨hr', isDirectory_iff.2 (by rw [he, if_pos rfl])⟩⟩

/-- Directories made one after another stand at their locations, and nothing else has changed. -/
theorem runs_forM_makeDirectory {ps : List Place} (h : (ps.forM makeDirectory).Runs t u t') :
    (∀ l, t'.entry? l = if l ∈ ps.map Place.location then some .directory else t.entry? l) ∧
      ∀ p ∈ ps, t'.hasDirectory p = true := by
  induction ps generalizing t u with
  | nil =>
    obtain rfl := runs_forM_nil.1 h
    simp
  | cons p ps ih =>
    obtain ⟨t₁, hp, h⟩ := runs_forM_cons.1 h
    obtain ⟨he, hd⟩ := runs_makeDirectory hp
    obtain ⟨he', hd'⟩ := ih h
    have hall : ∀ l, t'.entry? l =
        if l ∈ (p :: ps).map Place.location then some .directory else t.entry? l := by
      intro l
      rw [he', he, List.map_cons]
      by_cases hl : l ∈ ps.map Place.location
      · simp [hl]
      · simp [hl]
    refine ⟨hall, ?_⟩
    intro q hq
    rcases List.mem_cons.1 hq with rfl | hq
    · refine hasDirectory_of_isDirectory hd fun l _ hl => isDirectory_iff.2 ?_
      rw [he']
      split
      · rfl
      · exact isDirectory_iff.1 hl
    · exact hd' q hq

theorem runs_makeDirectories {p : Place} (h : (makeDirectories p).Runs t u t') :
    (∀ l, t'.entry? l = if l ∈ p.made then some .directory else t.entry? l) ∧
      (p.isEmpty = false → t'.hasDirectory p = true) := by
  unfold makeDirectories at h
  split at h
  · rename_i hp
    obtain ⟨-, rfl⟩ := runs_pure.1 h
    simp [Place.made, hp]
  · rename_i hp
    split at h
    · exact absurd h not_runs_throw
    · obtain ⟨he, hd⟩ := runs_forM_makeDirectory h
      refine ⟨?_, fun _ => hd p (List.mem_append_right _ List.mem_cons_self)⟩
      rw [Place.made, if_neg hp]
      exact he

theorem exists_runs_makeDirectory {p : Place} {t₁ : FileTree} (hadds : t.AddsDirectories t₁)
    (h : (makeDirectory p).Runs t u t') :
    ∃ t₁', (makeDirectory p).Runs t₁ () t₁' ∧ t'.AddsDirectories t₁' := by
  have hrun : ∃ t₁', (makeDirectory p).Runs t₁ () t₁' := by
    rcases runs_makeDirectory_iff.1 h with ⟨hd, -⟩ | ⟨-, hr, hnamed, hok⟩
    · have hd₁ := hasDirectory_of_isDirectory hd fun _ _ => hadds.isDirectory
      exact ⟨t₁, runs_makeDirectory_iff.2 (Or.inl ⟨hd₁, rfl⟩)⟩
    · cases hd₁ : t₁.hasDirectory p with
      | true => exact ⟨t₁, runs_makeDirectory_iff.2 (Or.inl ⟨hd₁, rfl⟩)⟩
      | false =>
        have hr₁ := reaches_of_isDirectory hr fun _ _ => hadds.isDirectory
        obtain ⟨t₁', hok₁⟩ := exists_makeDirectory hadds hok
        exact ⟨t₁', runs_makeDirectory_iff.2 (Or.inr ⟨hd₁, hr₁, hnamed, hok₁⟩)⟩
  obtain ⟨t₁', h₁⟩ := hrun
  refine ⟨t₁', h₁, fun l => ?_⟩
  rw [isDirectory_iff, (runs_makeDirectory h).1, (runs_makeDirectory h₁).1]
  split
  · exact Or.inl rfl
  · rw [← isDirectory_iff]
    exact hadds l

theorem exists_runs_makeDirectories {p : Place} {t₁ : FileTree} (hadds : t.AddsDirectories t₁)
    (h : (makeDirectories p).Runs t u t') : ∃ t₁', (makeDirectories p).Runs t₁ () t₁' := by
  unfold makeDirectories at h ⊢
  by_cases hempty : p.isEmpty = true
  · rw [if_pos hempty]
    exact ⟨t₁, runs_pure.2 ⟨rfl, rfl⟩⟩
  rw [if_neg hempty] at h ⊢
  by_cases husable : (!p.isUsable) = true
  · rw [if_pos husable] at h
    exact absurd h not_runs_throw
  rw [if_neg husable] at h ⊢
  generalize p.ancestors ++ [p] = ps at h ⊢
  induction ps generalizing t t₁ u with
  | nil => exact ⟨t₁, runs_forM_nil.2 rfl⟩
  | cons q ps ih =>
    obtain ⟨t₂, hq, h⟩ := runs_forM_cons.1 h
    obtain ⟨t₃, hq₁, hadds'⟩ := exists_runs_makeDirectory hadds hq
    obtain ⟨t₁', h₁⟩ := ih hadds' h
    exact ⟨t₁', runs_forM_cons.2 ⟨t₃, hq₁, h₁⟩⟩

theorem isDirectory_of_runs_makeDirectories {p : Place} (h : (makeDirectories p).Runs t u t')
    {l : Location} (hl : t.isDirectory l = true) : t'.isDirectory l = true := by
  rw [isDirectory_iff, (runs_makeDirectories h).1]
  split
  · rfl
  · exact isDirectory_iff.1 hl

theorem file?_of_runs_makeDirectory {p : Place} (h : (makeDirectory p).Runs t u t') :
    t'.file? = t.file? := by
  rcases runs_makeDirectory_iff.1 h with ⟨-, rfl⟩ | ⟨-, -, -, hok⟩
  · rfl
  · exact file?_makeDirectory hok

theorem file?_of_runs_makeDirectories {p : Place} (h : (makeDirectories p).Runs t u t') :
    t'.file? = t.file? := by
  unfold makeDirectories at h
  split at h
  · obtain ⟨-, rfl⟩ := runs_pure.1 h
    rfl
  split at h
  · exact absurd h not_runs_throw
  generalize p.ancestors ++ [p] = ps at h
  induction ps generalizing t u with
  | nil => rw [runs_forM_nil.1 h]
  | cons q ps ih =>
    obtain ⟨t₁, hq, h⟩ := runs_forM_cons.1 h
    rw [ih h, file?_of_runs_makeDirectory hq]

theorem addsDirectories_of_runs_makeDirectories {p : Place}
    (h : (makeDirectories p).Runs t u t') : t.AddsDirectories t' := by
  intro l
  rw [isDirectory_iff, (runs_makeDirectories h).1]
  split
  · rename_i hmade
    have hdir : t'.isDirectory l = true := by
      rw [isDirectory_iff, (runs_makeDirectories h).1, if_pos hmade]
    have hfile : t.file? l = none := by
      rw [← file?_of_runs_makeDirectories h, file?_of_isDirectory hdir]
    cases he : t.entry? l with
    | none => exact Or.inr ⟨rfl, rfl⟩
    | some e =>
      cases e with
      | directory => exact Or.inl rfl
      | file bytes =>
        rw [file?_eq_some_iff.2 he] at hfile
        cases hfile
  · exact Or.inl rfl

/-- On the way to a place below a directory, directories are made below it only. -/
theorem sameOutside_makeDirectories {out : Place} {way : Location}
    (hout : t.hasDirectory out = true) (h : (makeDirectories (out.below way).parent).Runs t u t') :
    t.SameOutside out.location t' := by
  intro l hl
  rw [(runs_makeDirectories h).1]
  split
  · rename_i hm
    -- Outside the directory, the locations on the way are those that lead to it.
    unfold Place.made at hm
    split at hm
    · cases hm
    · obtain ⟨q, hq, rfl⟩ := List.mem_map.1 hm
      obtain ⟨hqs, hqp⟩ := Place.steps_prefix_of_mem hq
      have hstart : q.start = out.start := hqs
      have hsteps : q.steps <+: (out.below way).steps :=
        hqp.trans (out.below way).prefix_steps_parent
      rcases Place.location_of_steps_below hstart hsteps with hpassed | hbelow
      · obtain ⟨hr, -⟩ := hasDirectory_iff.1 hout
        exact isDirectory_iff.1 ((reaches_iff.1 hr).2.2 _ hpassed)
      · exact absurd hbelow hl
  · rfl

theorem runs_removeAll {p : Place} (h : (removeAll p).Runs t u t') : t' = t.remove p.location := by
  rw [removeAll, runs_bind] at h
  obtain ⟨_, _, htree, h⟩ := h
  obtain ⟨rfl, rfl⟩ := runs_tree.1 htree
  split at h
  · exact absurd h not_runs_throw
  · exact absurd h not_runs_throw
  · rw [runs_bind] at h
    obtain ⟨_, t₁, hset, h⟩ := h
    obtain rfl := runs_set.1 hset
    split at h
    · rw [← runs_set.1 h, remove_clear]
    · exact absurd h not_runs_throw

/-- A directory can be removed when the last step is to its name and no step starts inside it. -/
theorem runs_removeAll_of_hasDirectory {p : Place} (hd : t.hasDirectory p = true)
    (hnamed : p.isNamed = true) (houter : ∀ l ∈ p.passed, ¬p.location <+: l) :
    (removeAll p).Runs t () (t.remove p.location) := by
  have hat : t.at? p = some .directory := by simpa [hasDirectory] using hd
  have hreaches : (t.clear p.location).reaches p = true := by
    refine reaches_of_isDirectory (hasDirectory_iff.1 hd).1 fun l hl hdir => ?_
    rw [isDirectory_iff, entry?_clear, if_neg fun h => houter l hl h.1]
    exact isDirectory_iff.1 hdir
  rw [removeAll, runs_bind]
  refine ⟨t, t, runs_tree.2 ⟨rfl, rfl⟩, ?_⟩
  simp only [hat]
  rw [runs_bind]
  refine ⟨(), t.clear p.location, runs_set.2 rfl, ?_⟩
  rw [if_pos ⟨hreaches, hnamed⟩, remove_clear]
  exact runs_set.2 rfl

theorem runs_write_iff {p : Place} {bytes : List UInt8} : (write p bytes).Runs t u t' ↔
    t.reaches p = true ∧ ¬(p.slashed = true ∨ (!p.isNamed) = true) ∧
      t.put p.location (.file bytes) = .ok t' := by
  simp only [write, runs_bind, runs_tree]
  constructor
  · rintro ⟨_, _, ⟨rfl, rfl⟩, h⟩
    cases hr : t.reaches p with
    | false =>
      rw [if_pos (by simp [hr])] at h
      exact absurd h not_runs_throw
    | true =>
      rw [if_neg (by simp [hr])] at h
      split at h
      · exact absurd h not_runs_throw
      · rename_i hend
        exact ⟨rfl, hend, runs_change.1 h⟩
  · rintro ⟨hr, hend, hput⟩
    refine ⟨t, t, ⟨rfl, rfl⟩, ?_⟩
    rw [if_neg (by simp [hr]), if_neg hend]
    exact runs_change.2 hput

theorem runs_write {p : Place} {bytes : List UInt8} (h : (write p bytes).Runs t u t') :
    p.location.all isFileName = true ∧ t.isDirectory p.location = false ∧
      ∀ l, t'.entry? l = if l = p.location then some (.file bytes) else t.entry? l := by
  obtain ⟨hn, hd, -, he⟩ := put_eq_ok (runs_write_iff.1 h).2.2
  exact ⟨hn, hd, he⟩

theorem exists_runs_write {p : Place} {bytes : List UInt8} (bytes' : List UInt8)
    (h : (write p bytes).Runs t u t') : ∃ t'', (write p bytes').Runs t u t'' := by
  obtain ⟨hr, hend, hput⟩ := runs_write_iff.1 h
  obtain ⟨hn, ht, hd, -⟩ := put_eq_ok hput
  obtain ⟨t'', hput'⟩ := exists_put (.file bytes') hn ht hd
  exact ⟨t'', runs_write_iff.2 ⟨hr, hend, hput'⟩⟩

theorem file?_of_runs_write {p : Place} {bytes : List UInt8} (h : (write p bytes).Runs t u t')
    (l : Location) : t'.file? l = if l = p.location then some bytes else t.file? l := by
  have he := (runs_write h).2.2 l
  split
  · rename_i hl
    rw [if_pos hl] at he
    exact file?_eq_some_iff.2 he
  · rename_i hl
    rw [if_neg hl] at he
    exact file?_of_entry? he

theorem isDirectory_of_runs_write {p : Place} {bytes : List UInt8}
    (h : (write p bytes).Runs t u t') (l : Location) : t'.isDirectory l = t.isDirectory l := by
  obtain ⟨-, hd, he⟩ := runs_write h
  by_cases hl : l = p.location
  · rw [hl, hd]
    simp [isDirectory, he]
  · simp [isDirectory, he, hl]

theorem runs_copy {source dest : Place} (hne : source.location ≠ dest.location)
    (h : (copy source dest).Runs t u t') :
    ∃ bytes t₁, t.file? source.location = some bytes ∧ (makeDirectories dest.parent).Runs t u t₁ ∧
      (write dest bytes).Runs t₁ u t' := by
  rw [copy, runs_bind] at h
  obtain ⟨_, t₁, hdirs, h⟩ := h
  rw [runs_bind] at h
  obtain ⟨_, _, htree, h⟩ := h
  obtain ⟨rfl, rfl⟩ := runs_tree.1 htree
  rw [runs_bind] at h
  obtain ⟨bytes, _, hbytes, h⟩ := h
  obtain ⟨hread, rfl⟩ := runs_ofExcept.1 hbytes
  rw [if_neg hne] at h
  refine ⟨bytes, t₁, ?_, hdirs, h⟩
  rw [← file?_of_runs_makeDirectories hdirs]
  exact (read_eq_ok hread).2

section

variable {out : Place} {way : Location}

theorem sameOutside_write {bytes : List UInt8} (h : (write (out.below way) bytes).Runs t u t') :
    t.SameOutside out.location t' := by
  intro l hl
  rw [(runs_write h).2.2, if_neg]
  rintro rfl
  exact hl (Place.location_below out way ▸ List.prefix_append _ _)

theorem hasDirectory_of_runs_write {p q : Place} {bytes : List UInt8}
    (h : (write p bytes).Runs t u t') (hq : t.hasDirectory q = true) : t'.hasDirectory q = true :=
  hasDirectory_of_isDirectory hq fun l _ hl => by rwa [isDirectory_of_runs_write h]

theorem hasDirectory_of_runs_makeDirectories {p q : Place} (h : (makeDirectories p).Runs t u t')
    (hq : t.hasDirectory q = true) : t'.hasDirectory q = true :=
  hasDirectory_of_isDirectory hq fun _ _ hl => isDirectory_of_runs_makeDirectories h hl

end

end Disk

end StaticSite
