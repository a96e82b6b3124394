import Mathlib.Data.List.Induction
import StaticSite.Files.Tree
import StaticSite.Proofs.SortedMap

/-!
# What stands in a file tree

A tree is determined by what stands at its locations. Each change of a tree is described by what
stands at every location afterwards. `file?` is the view that forgets directories: making
directories does not change it, and writing a file changes it at one location.
-/

namespace StaticSite

namespace FileTree

@[simp] theorem entry?_nil (t : FileTree) : t.entry? [] = some .directory := rfl

@[simp] theorem isDirectory_nil (t : FileTree) : t.isDirectory [] = true := rfl

theorem isDirectory_iff {t : FileTree} {loc : Location} :
    t.isDirectory loc = true ↔ t.entry? loc = some .directory := by simp [isDirectory]

theorem mem_entries_iff {t : FileTree} {loc : Location} {e : Entry} :
    (loc, e) ∈ t.entries.entries ↔ loc ≠ [] ∧ t.entry? loc = some e := by
  constructor
  · intro h
    have hne := (t.named _ h).1
    refine ⟨hne, ?_⟩
    rw [ entry?, if_neg hne]
    exact SortedMap.get?_eq_some_iff.2 h
  · rintro ⟨hne, h⟩
    rw [ entry?, if_neg hne] at h
    exact SortedMap.get?_eq_some_iff.1 h

theorem eq_of_entry? {t t' : FileTree} (h : ∀ loc, t.entry? loc = t'.entry? loc) : t = t' := by
  have he : t.entries = t'.entries := by
    apply SortedMap.eq_of_mem_iff
    rintro ⟨loc, e⟩
    rw [mem_entries_iff, mem_entries_iff, h]
  obtain ⟨es, _, _⟩ := t
  obtain ⟨es', _, _⟩ := t'
  obtain rfl : es = es' := he
  rfl

theorem isDirectory_dropLast {t : FileTree} {loc : Location} (h : t.entry? loc ≠ none) :
    t.isDirectory loc.dropLast = true := by
  by_cases hne : loc = []
  · simp [hne]
  obtain ⟨e, he⟩ := Option.ne_none_iff_exists'.1 h
  rcases t.rooted _ (mem_entries_iff.2 ⟨hne, he⟩) with hr | hr
  · simp only at hr
    simp [hr]
  · exact isDirectory_iff.2 (mem_entries_iff.1 hr).2

theorem isDirectory_on_way {t : FileTree} {l loc : Location} (h : t.entry? loc ≠ none)
    (hp : l <+: loc) (hne : l ≠ loc) : t.isDirectory l = true := by
  obtain ⟨rest, rfl⟩ := hp
  induction rest using List.reverseRecOn with
  | nil => simp at hne
  | append_singleton rest n ih =>
    have hd := isDirectory_dropLast h
    rw [← List.append_assoc, List.dropLast_concat] at hd
    by_cases hr : l = l ++ rest
    · rwa [← hr] at hd
    · exact ih (by simp [isDirectory_iff.1 hd]) hr

theorem all_isFileName {t : FileTree} {loc : Location} (h : t.entry? loc ≠ none) :
    loc.all isFileName = true := by
  by_cases hne : loc = []
  · simp [hne]
  · obtain ⟨e, he⟩ := Option.ne_none_iff_exists'.1 h
    exact (t.named _ (mem_entries_iff.2 ⟨hne, he⟩)).2

def file? (t : FileTree) (loc : Location) : Option (List UInt8) :=
  match t.entry? loc with
  | some (.file bytes) => some bytes
  | _ => none

theorem file?_eq_some_iff {t : FileTree} {loc : Location} {bytes : List UInt8} :
    t.file? loc = some bytes ↔ t.entry? loc = some (.file bytes) := by
  unfold file?
  split
  · rename_i b h
    simp [h]
  · rename_i h
    simp only [false_iff, reduceCtorEq]
    exact h bytes

theorem file?_of_entry? {t t' : FileTree} {l l' : Location} (h : t.entry? l = t'.entry? l') :
    t.file? l = t'.file? l' := by
  rw [file?, file?, h]

theorem file?_of_isDirectory {t : FileTree} {loc : Location} (h : t.isDirectory loc = true) :
    t.file? loc = none := by
  rw [file?, isDirectory_iff.1 h]

def content (t : FileTree) (loc : Location) : List UInt8 := (t.file? loc).getD []

theorem content_of_file? {t : FileTree} {loc : Location} {bytes : List UInt8}
    (h : t.file? loc = some bytes) : t.content loc = bytes := by
  rw [content, h]
  rfl

theorem mem_below_iff {t : FileTree} {loc way : Location} {e : Entry} :
    (way, e) ∈ t.below loc ↔ way ≠ [] ∧ t.entry? (loc ++ way) = some e := by
  unfold below
  rw [List.mem_filterMap]
  constructor
  · rintro ⟨⟨l, e'⟩, hmem, h⟩
    obtain ⟨-, hentry⟩ := mem_entries_iff.1 hmem
    split at h
    · rename_i hl
      obtain ⟨way', rfl⟩ := List.isPrefixOf_iff_prefix.1 hl.1
      obtain ⟨rfl, rfl⟩ := Prod.mk.inj (Option.some.inj h)
      simp only [List.drop_left]
      exact ⟨fun hnil => hl.2 (by simp [hnil]), hentry⟩
    · cases h
  · rintro ⟨hne, h⟩
    refine ⟨(loc ++ way, e), mem_entries_iff.2 ⟨by simp [hne], h⟩, ?_⟩
    simp [hne, List.isPrefixOf_iff_prefix]

theorem file?_append_of_below_nil {t : FileTree} {loc : Location} (hloc : t.file? loc = none)
    (hbelow : t.below loc = []) (way : Location) : t.file? (loc ++ way) = none := by
  by_cases hway : way = []
  · rwa [hway, List.append_nil]
  · cases h : t.file? (loc ++ way) with
    | none => rfl
    | some bytes =>
      have hmem := mem_below_iff.2 ⟨hway, file?_eq_some_iff.1 h⟩
      rw [hbelow] at hmem
      cases hmem

theorem nodup_ways_below (t : FileTree) (loc : Location) :
    ((t.below loc).map Prod.fst).Nodup := by
  unfold below
  rw [List.Nodup, List.pairwise_map, List.pairwise_filterMap]
  refine (List.pairwise_map.1 t.entries.nodup_keys).imp ?_
  intro a b hab d hd d' hd' he
  split at hd
  · rename_i ha
    split at hd'
    · rename_i hb
      obtain ⟨way, hway⟩ := List.isPrefixOf_iff_prefix.1 ha.1
      obtain ⟨way', hway'⟩ := List.isPrefixOf_iff_prefix.1 hb.1
      obtain rfl := Option.some.inj hd
      obtain rfl := Option.some.inj hd'
      rw [← hway, ← hway'] at hab
      simp only [← hway, ← hway', List.drop_left] at he
      exact hab (by rw [he])
    · cases hd'
  · cases hd

theorem entry?_set (t : FileTree) {loc : Location} {e : Entry} (hl : loc ≠ [])
    (hn : loc.all isFileName) (hd : t.isDirectory loc.dropLast) (ht : ¬t.isDirectory loc)
    (l : Location) :
    FileTree.entry? (t.set loc e hl hn hd ht) l = if l = loc then some e else t.entry? l := by
  by_cases h : l = []
  · subst h
    simp [hl.symm]
  · simp only [set, entry?, SortedMap.get?_insert, if_neg h]

theorem put_eq_ok {t t' : FileTree} {loc : Location} {e : Entry} (h : t.put loc e = .ok t') :
    loc.all isFileName = true ∧ t.isDirectory loc = false ∧ t.isDirectory loc.dropLast = true ∧
      ∀ l, t'.entry? l = if l = loc then some e else t.entry? l := by
  unfold put at h
  split at h
  · rename_i hn
    split at h
    · cases h
    · rename_i ht
      split at h
      · rename_i hd
        obtain rfl := Except.ok.inj h
        exact ⟨hn, by simpa using ht, hd, entry?_set t _ hn hd ht⟩
      · cases h
  · cases h

theorem exists_put {t : FileTree} {loc : Location} (e : Entry) (hn : loc.all isFileName = true)
    (ht : t.isDirectory loc = false) (hd : t.isDirectory loc.dropLast = true) :
    ∃ t', t.put loc e = .ok t' := by
  unfold put
  rw [dif_pos hn, dif_neg (by simp [ht]), dif_pos hd]
  exact ⟨_, rfl⟩

theorem makeDirectory_eq_ok {t t' : FileTree} {loc : Location} :
    t.makeDirectory loc = .ok t' ↔ t.isDirectory loc = true ∧ t = t' ∨
      t.entry? loc = none ∧ t.put loc .directory = .ok t' := by
  rw [isDirectory_iff, makeDirectory]
  split
  · rename_i hd
    simp [hd]
  · rename_i hf
    simp [hf]
  · rename_i hn
    simp [hn]

theorem entry?_makeDirectory {t t' : FileTree} {loc : Location} (h : t.makeDirectory loc = .ok t')
    (l : Location) : t'.entry? l = if l = loc then some .directory else t.entry? l := by
  rcases makeDirectory_eq_ok.1 h with ⟨hd, rfl⟩ | ⟨-, hput⟩
  · split
    · rename_i hl
      rw [hl, isDirectory_iff.1 hd]
    · rfl
  · exact (put_eq_ok hput).2.2.2 l

theorem file?_makeDirectory {t t' : FileTree} {loc : Location} (h : t.makeDirectory loc = .ok t') :
    t'.file? = t.file? := by
  have he := entry?_makeDirectory h
  funext l
  by_cases hl : l = loc
  · have hnone : t.file? loc = none := by
      rcases makeDirectory_eq_ok.1 h with ⟨hd, -⟩ | ⟨hn, -⟩
      · exact file?_of_isDirectory hd
      · simp [file?, hn]
    rw [hl, hnone]
    exact file?_of_isDirectory (isDirectory_iff.2 (by rw [he, if_pos rfl]))
  · exact file?_of_entry? (by rw [he, if_neg hl])

theorem entry?_without (t : FileTree) (p : Location → Bool) (hp : ∀ loc, p loc.dropLast → p loc)
    (l : Location) :
    FileTree.entry? (t.without p hp) l = if l ≠ [] ∧ p l = true then none else t.entry? l := by
  by_cases h : l = []
  · simp [h]
  · cases hl : p l <;> simp [without, entry?, SortedMap.get?_restrict, h, hl]

theorem entry?_remove (t : FileTree) (loc l : Location) :
    FileTree.entry? (t.remove loc) l = if l ≠ [] ∧ loc <+: l then none else t.entry? l := by
  rw [remove, entry?_without]
  simp only [List.isPrefixOf_iff_prefix]

theorem entry?_clear (t : FileTree) (loc l : Location) :
    FileTree.entry? (t.clear loc) l = if loc <+: l ∧ l ≠ loc then none else t.entry? l := by
  have hlength : loc <+: l → (l.length ≠ loc.length ↔ l ≠ loc) := by
    intro hp
    exact ⟨fun h he => h (congrArg List.length he), fun h he => h (hp.eq_of_length he.symm).symm⟩
  have hnil : loc <+: l → l ≠ loc → l ≠ [] := by
    rintro hp hne rfl
    exact hne (List.prefix_nil.1 hp).symm
  rw [clear, entry?_without]
  simp only [Bool.and_eq_true, decide_eq_true_eq, List.isPrefixOf_iff_prefix]
  by_cases hp : loc <+: l
  · by_cases hne : l = loc
    · simp [hne]
    · simp [hp, hne, hnil hp hne, (hlength hp).2 hne]
  · simp [hp]

/-- A directory that has lost what is in it is removed like one that has not. -/
theorem remove_clear (t : FileTree) (loc : Location) : (t.clear loc).remove loc = t.remove loc := by
  apply eq_of_entry?
  intro l
  rw [entry?_remove, entry?_remove, entry?_clear]
  by_cases hp : loc <+: l
  · by_cases hl : l = []
    · subst hl
      simp
    · simp [hl, hp]
  · simp [hp]

theorem remove_of_entry?_none {t : FileTree} {loc : Location} (h : t.entry? loc = none) :
    t.remove loc = t := by
  apply eq_of_entry?
  intro l
  rw [entry?_remove]
  split
  · rename_i hl
    cases hs : t.entry? l with
    | none => rfl
    | some e =>
      have hne : loc ≠ l := by
        rintro rfl
        rw [h] at hs
        cases hs
      rw [isDirectory_iff.1 (isDirectory_on_way (by simp [hs]) hl.2 hne)] at h
      cases h
  · rfl

end FileTree

end StaticSite
