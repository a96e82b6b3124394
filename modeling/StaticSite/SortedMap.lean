/-!
# Sorted maps

A finite map as the list of its entries in ascending order of keys. The order makes the list unique:
two maps that have the same values are equal.
-/

namespace StaticSite

/-- A type whose order is irreflexive, transitive, and compares any two different elements. -/
class StrictOrder (κ : Type) [LT κ] : Prop where
  irrefl (a : κ) : ¬a < a
  trans {a b c : κ} : a < b → b < c → a < c
  connected (a b : κ) : a < b ∨ a = b ∨ b < a

instance : StrictOrder String where
  irrefl := String.lt_irrefl
  trans := String.lt_trans
  connected a b := by
    by_cases hab : a < b
    · exact Or.inl hab
    by_cases hba : b < a
    · exact Or.inr (Or.inr hba)
    exact Or.inr (Or.inl (String.le_antisymm (String.not_lt.1 hba) (String.not_lt.1 hab)))

theorem connected_lists {κ : Type} [LT κ] [StrictOrder κ] (a b : List κ) :
    a < b ∨ a = b ∨ b < a := by
  induction a generalizing b with
  | nil =>
    cases b with
    | nil => exact Or.inr (Or.inl rfl)
    | cons y ys => exact Or.inl (List.nil_lt_cons y ys)
  | cons x xs ih =>
    cases b with
    | nil => exact Or.inr (Or.inr (List.nil_lt_cons x xs))
    | cons y ys =>
      rcases StrictOrder.connected x y with h | rfl | h
      · exact Or.inl (List.cons_lt_cons_iff.2 (Or.inl h))
      · rcases ih ys with h | rfl | h
        · exact Or.inl (List.cons_lt_cons_iff.2 (Or.inr ⟨rfl, h⟩))
        · exact Or.inr (Or.inl rfl)
        · exact Or.inr (Or.inr (List.cons_lt_cons_iff.2 (Or.inr ⟨rfl, h⟩)))
      · exact Or.inr (Or.inr (List.cons_lt_cons_iff.2 (Or.inl h)))

theorem not_lt_self_list {κ : Type} [LT κ] [StrictOrder κ] (a : List κ) : ¬a < a := by
  induction a with
  | nil => exact List.not_lt_nil _
  | cons x xs ih =>
    intro h
    rcases List.cons_lt_cons_iff.1 h with h | ⟨_, h⟩
    · exact StrictOrder.irrefl x h
    · exact ih h

theorem lt_trans_list {κ : Type} [LT κ] [StrictOrder κ] {a b c : List κ} (hab : a < b)
    (hbc : b < c) : a < c := by
  induction a generalizing b c with
  | nil =>
    cases c with
    | nil => exact absurd hbc (List.not_lt_nil _)
    | cons z zs => exact List.nil_lt_cons z zs
  | cons x xs ih =>
    cases b with
    | nil => exact absurd hab (List.not_lt_nil _)
    | cons y ys =>
      cases c with
      | nil => exact absurd hbc (List.not_lt_nil _)
      | cons z zs =>
        rw [List.cons_lt_cons_iff] at *
        rcases hab with h | ⟨rfl, h⟩ <;> rcases hbc with h' | ⟨rfl, h'⟩
        · exact Or.inl (StrictOrder.trans h h')
        · exact Or.inl h
        · exact Or.inl h'
        · exact Or.inr ⟨rfl, ih h h'⟩

instance {κ : Type} [LT κ] [StrictOrder κ] : StrictOrder (List κ) where
  irrefl := not_lt_self_list
  trans := lt_trans_list
  connected := connected_lists

theorem lookup_entry {κ α : Type} [DecidableEq κ] (k d : κ) (w : α) (rest : List (κ × α)) :
    ((d, w) :: rest).lookup k = if k = d then some w else rest.lookup k := by
  by_cases h : k = d
  · simp [h]
  · have hb : (k == d) = false := beq_eq_false_iff_ne.2 h
    simp [List.lookup_cons, h, hb]

/-- A finite map: its entries in ascending order of keys. -/
structure SortedMap (κ α : Type) [LT κ] where
  entries : List (κ × α) := []
  sorted : entries.Pairwise fun a b => a.1 < b.1 := by exact List.Pairwise.nil

namespace SortedMap

variable {κ α : Type} [LT κ]

def empty : SortedMap κ α := {}

def size (m : SortedMap κ α) : Nat := m.entries.length

def get? [DecidableEq κ] (m : SortedMap κ α) (k : κ) : Option α := m.entries.lookup k

def insertEntry [DecidableEq κ] [DecidableLT κ] (k : κ) (v : α) : List (κ × α) → List (κ × α)
  | [] => [(k, v)]
  | e :: rest =>
    if k < e.1 then (k, v) :: e :: rest
    -- The old value of the key is given up.
    else if k = e.1 then (k, v) :: rest
    else e :: insertEntry k v rest

theorem mem_insertEntry [DecidableEq κ] [DecidableLT κ] {k : κ} {v : α} {l : List (κ × α)}
    {e : κ × α} (h : e ∈ insertEntry k v l) : e = (k, v) ∨ e ∈ l := by
  induction l with
  | nil => simpa [insertEntry] using h
  | cons d rest ih =>
    rw [insertEntry] at h
    split at h
    · simpa using h
    split at h
    · rcases List.mem_cons.1 h with h | h
      · exact Or.inl h
      · exact Or.inr (List.mem_cons_of_mem _ h)
    · rcases List.mem_cons.1 h with rfl | h
      · exact Or.inr List.mem_cons_self
      · exact (ih h).imp_right (List.mem_cons_of_mem _)

theorem sorted_insertEntry [DecidableEq κ] [DecidableLT κ] [StrictOrder κ] (k : κ) (v : α)
    {l : List (κ × α)} (h : l.Pairwise fun a b => a.1 < b.1) :
    (insertEntry k v l).Pairwise fun a b => a.1 < b.1 := by
  induction l with
  | nil => simp [insertEntry]
  | cons e rest ih =>
    obtain ⟨he, hr⟩ := List.pairwise_cons.1 h
    rw [insertEntry]
    split
    · rename_i hk
      refine List.pairwise_cons.2 ⟨fun d hd => ?_, h⟩
      rcases List.mem_cons.1 hd with rfl | hd
      · exact hk
      · exact StrictOrder.trans hk (he d hd)
    split
    · rename_i hk
      exact List.pairwise_cons.2 ⟨fun d hd => by simpa only [hk] using he d hd, hr⟩
    · rename_i hlt hne
      refine List.pairwise_cons.2 ⟨fun d hd => ?_, ih hr⟩
      rcases mem_insertEntry hd with rfl | hd
      · exact ((StrictOrder.connected e.1 k).resolve_right fun h =>
          h.elim (fun h => hne h.symm) hlt)
      · exact he d hd

def insert [DecidableEq κ] [DecidableLT κ] [StrictOrder κ] (m : SortedMap κ α) (k : κ) (v : α) :
    SortedMap κ α where
  entries := insertEntry k v m.entries
  sorted := sorted_insertEntry k v m.sorted

def restrict (m : SortedMap κ α) (p : κ → Bool) : SortedMap κ α where
  entries := m.entries.filter fun e => p e.1
  sorted := m.sorted.filter _

/-- The map of entries, where a later entry counts for a key that occurs twice. -/
def ofList [DecidableEq κ] [DecidableLT κ] [StrictOrder κ] (l : List (κ × α)) : SortedMap κ α :=
  l.foldl (fun m e => m.insert e.1 e.2) empty

theorem get?_insert [DecidableEq κ] [DecidableLT κ] [StrictOrder κ] (m : SortedMap κ α)
    (k j : κ) (v : α) : (m.insert k v).get? j = if j = k then some v else m.get? j := by
  unfold get? insert
  simp only
  induction m.entries with
  | nil => simp [insertEntry, lookup_entry]
  | cons e rest ih =>
    obtain ⟨d, w⟩ := e
    rw [insertEntry]
    split
    · rw [lookup_entry]
    split
    · rename_i hk
      rw [lookup_entry, lookup_entry]
      by_cases hj : j = k
      · simp [hj]
      · simp [hj, show ¬j = d from fun h => hj (h.trans hk.symm)]
    · rename_i hne
      rw [lookup_entry, lookup_entry, ih]
      by_cases hj : j = d
      · simp [hj, show ¬d = k from fun h => hne h.symm]
      · simp [hj]

theorem get?_restrict [DecidableEq κ] (m : SortedMap κ α) (p : κ → Bool) (k : κ) :
    (m.restrict p).get? k = if p k then m.get? k else none := by
  unfold get? restrict
  simp only
  induction m.entries with
  | nil => simp
  | cons e rest ih =>
    obtain ⟨d, w⟩ := e
    rw [List.filter_cons, lookup_entry]
    by_cases hk : k = d
    · subst hk
      by_cases hp : p k = true
      · simp [hp]
      · simpa [hp] using ih
    · by_cases hp : p d = true <;> simp [hp, hk, ih, lookup_entry]

theorem get?_eq_some_iff [DecidableEq κ] [StrictOrder κ] {m : SortedMap κ α} {k : κ} {v : α} :
    m.get? k = some v ↔ (k, v) ∈ m.entries := by
  obtain ⟨l, hl⟩ := m
  unfold get?
  simp only
  induction l with
  | nil => simp
  | cons e rest ih =>
    obtain ⟨d, w⟩ := e
    obtain ⟨he, hr⟩ := List.pairwise_cons.1 hl
    rw [lookup_entry, List.mem_cons]
    by_cases hk : k = d
    · subst hk
      have : (k, v) ∉ rest := fun h => StrictOrder.irrefl k (he _ h)
      simp [this, eq_comm]
    · simp [hk, ih hr]

end SortedMap

end StaticSite
