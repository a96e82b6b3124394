import StaticSite.SortedMap

/-!
# Sorted maps and their entries

A sorted map is determined by which entries it has, since they are in ascending order and have
different keys. A map made from entries with different keys has exactly these entries.
-/

namespace StaticSite

namespace SortedMap

variable {κ α : Type}

theorem nodup_of_keys {l : List (κ × α)} (h : (l.map Prod.fst).Nodup) : l.Nodup :=
  List.Pairwise.of_map Prod.fst (fun _ _ hne he => hne (congrArg Prod.fst he)) h

theorem lookup_eq_some_iff_mem [DecidableEq κ] {l : List (κ × α)} (hl : (l.map Prod.fst).Nodup)
    {k : κ} {v : α} : l.lookup k = some v ↔ (k, v) ∈ l := by
  induction l with
  | nil => simp
  | cons e l ih =>
    obtain ⟨j, w⟩ := e
    rw [List.map_cons, List.nodup_cons] at hl
    rw [lookup_entry, List.mem_cons]
    by_cases hk : k = j
    · have hnot : (k, v) ∉ l := fun h => hl.1 (hk ▸ List.mem_map.2 ⟨(k, v), h, rfl⟩)
      simp [hk, eq_comm, hk ▸ hnot]
    · simp [hk, ih hl.2]

theorem lookup_reverse [DecidableEq κ] {l : List (κ × α)} (hl : (l.map Prod.fst).Nodup) (k : κ) :
    l.reverse.lookup k = l.lookup k := by
  have hr : (l.reverse.map Prod.fst).Nodup := (l.reverse_perm.map Prod.fst).nodup_iff.2 hl
  ext v
  rw [lookup_eq_some_iff_mem hl, lookup_eq_some_iff_mem hr, List.mem_reverse]

variable [LT κ]

theorem nodup_keys [StrictOrder κ] (m : SortedMap κ α) : (m.entries.map Prod.fst).Nodup := by
  rw [List.Nodup, List.pairwise_map]
  refine m.sorted.imp ?_
  intro a b hab he
  exact StrictOrder.irrefl a.1 (he ▸ hab)

theorem nodup_entries [StrictOrder κ] (m : SortedMap κ α) : m.entries.Nodup :=
  nodup_of_keys m.nodup_keys

theorem eq_of_mem_iff [StrictOrder κ] {m m' : SortedMap κ α}
    (h : ∀ e, e ∈ m.entries ↔ e ∈ m'.entries) : m = m' := by
  have hperm : m.entries.Perm m'.entries :=
    (List.perm_ext_iff_of_nodup m.nodup_entries m'.nodup_entries).2 h
  have hanti : ∀ a b : κ × α, a ∈ m.entries → b ∈ m'.entries → a.1 < b.1 → b.1 < a.1 → a = b :=
    fun a b _ _ hab hba => absurd (StrictOrder.trans hab hba) (StrictOrder.irrefl a.1)
  have he := hperm.eq_of_pairwise hanti m.sorted m'.sorted
  obtain ⟨l, hl⟩ := m
  obtain ⟨l', hl'⟩ := m'
  simpa using he

variable [DecidableEq κ] [DecidableLT κ] [StrictOrder κ]

/-- A later entry counts for a key that occurs twice. -/
theorem get?_foldl_insert (l : List (κ × α)) (m : SortedMap κ α) (k : κ) :
    (l.foldl (fun m e => m.insert e.1 e.2) m).get? k = (l.reverse.lookup k).or (m.get? k) := by
  induction l generalizing m with
  | nil => rfl
  | cons e l ih =>
    obtain ⟨j, v⟩ := e
    rw [List.foldl_cons, ih, get?_insert, List.reverse_cons, List.lookup_append, Option.or_assoc]
    congr 1
    rw [lookup_entry]
    split <;> rfl

theorem entries_ofList_perm {l : List (κ × α)} (hl : (l.map Prod.fst).Nodup) :
    (ofList l).entries.Perm l := by
  refine (List.perm_ext_iff_of_nodup (nodup_entries _) (nodup_of_keys hl)).2 ?_
  intro e
  obtain ⟨k, v⟩ := e
  have hempty : (empty : SortedMap κ α).get? k = none := rfl
  rw [← get?_eq_some_iff, ofList, get?_foldl_insert, lookup_reverse hl, hempty,
    Option.or_none, lookup_eq_some_iff_mem hl]

end SortedMap

end StaticSite
