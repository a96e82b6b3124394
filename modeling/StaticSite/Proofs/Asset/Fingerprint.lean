import StaticSite.Asset.Fingerprint
import StaticSite.Proofs.Number.Digits

/-!
# Names with fingerprints

The extension of a file name is what follows its last dot, if something stands before that dot. A
fingerprint goes in front of the extension and leaves it as it is, so one sees from a deployed name
whether it has a fingerprint, and since all fingerprints have eight digits, what the name was: two
names are never deployed under the same name.
-/

namespace StaticSite

/-- A file name is a stem, a dot and an extension without dots. -/
def HasExtension (name stem extension : String) : Prop :=
  name = stem ++ "." ++ extension ∧ stem ≠ "" ∧ '.' ∉ extension.toList

theorem HasExtension.toList {name stem extension : String} (h : HasExtension name stem extension) :
    name.toList = stem.toList ++ '.' :: extension.toList := by
  rw [h.1]
  simp

namespace Path

theorem splitExtension_eq_some_iff {name stem extension : String} :
    splitExtension name = (stem, some extension) ↔ HasExtension name stem extension := by
  unfold splitExtension
  have hafter : '.' ∉ name.toList.reverse.takeWhile (fun c => c ≠ '.') := by
    intro hdot
    have hne := List.all_eq_true.1 (List.all_takeWhile (p := fun c => decide (c ≠ '.'))) _ hdot
    simp at hne
  have hname := List.takeWhile_append_dropWhile (p := fun c => c ≠ '.') (l := name.toList.reverse)
  constructor
  · intro h
    simp only at h
    generalize name.toList.reverse.takeWhile (fun c => c ≠ '.') = after at *
    split at h
    · rename_i before hdrop
      rw [hdrop] at hname
      split at h
      · simp at h
      · rename_i hbefore
        obtain ⟨rfl, he⟩ := Prod.mk.inj h
        obtain rfl := Option.some.inj he
        refine ⟨?_, ?_, by simpa using hafter⟩
        · rw [← String.toList_inj, ← List.reverse_inj, ← hname]
          simp
        · simpa [String.ext_iff] using hbefore
    · simp at h
  · intro h
    have hchars := h.toList
    obtain ⟨-, hstem, hdot⟩ := h
    have hall : ∀ c ∈ extension.toList.reverse, decide (c ≠ '.') = true := by
      intro c hc
      have hne : c ≠ '.' := fun h => hdot (h ▸ List.mem_reverse.1 hc)
      simpa using hne
    have hreverse : name.toList.reverse =
        extension.toList.reverse ++ '.' :: stem.toList.reverse := by
      simp [hchars]
    have hbefore : stem.toList.reverse ≠ [] := by
      simpa using hstem
    have htake : ('.' :: stem.toList.reverse).takeWhile (fun c => decide (c ≠ '.')) = [] := rfl
    have hdrop : ('.' :: stem.toList.reverse).dropWhile (fun c => decide (c ≠ '.')) =
        '.' :: stem.toList.reverse := rfl
    dsimp only
    rw [hreverse, List.takeWhile_append_of_pos hall, List.dropWhile_append_of_pos hall, htake,
      hdrop]
    simp only [if_neg hbefore, List.append_nil, List.reverse_reverse, String.ofList_toList]

end Path

theorem HasExtension.unique {name stem extension stem' extension' : String}
    (h : HasExtension name stem extension) (h' : HasExtension name stem' extension') :
    stem = stem' ∧ extension = extension' := by
  have he := (Path.splitExtension_eq_some_iff.2 h).symm.trans (Path.splitExtension_eq_some_iff.2 h')
  simpa using he

def fnv1aNumber (bytes : List UInt8) : Nat :=
  bytes.foldl (fun h b => (h ^^^ b.toNat) * 1099511628211 % 18446744073709551616)
    14695981039346656037

theorem toNat_fnv1a (bytes : List UInt8) : (fnv1a bytes).toNat = fnv1aNumber bytes := by
  unfold fnv1a fnv1aNumber
  have hstart : (0xCBF29CE484222325 : UInt64).toNat = 14695981039346656037 := rfl
  rw [← hstart]
  generalize (0xCBF29CE484222325 : UInt64) = h
  induction bytes generalizing h with
  | nil => rfl
  | cons b bytes ih =>
    have hstep : ((h ^^^ b.toUInt64) * 0x100000001B3).toNat =
        (h.toNat ^^^ b.toNat) * 1099511628211 % 18446744073709551616 := by
      rw [UInt64.toNat_mul, UInt64.toNat_xor, UInt8.toNat_toUInt64]
      rfl
    rw [List.foldl_cons, List.foldl_cons, ← hstep]
    exact ih _

/-- The sixteen hexadecimal digits of the hash of bytes. -/
def IsHash (bytes : List UInt8) (digits : List Char) : Prop :=
  digits.length = 16 ∧ (∀ c ∈ digits, c ∈ Number.hexDigits) ∧
    Number.numeral? 16 digits = some (fnv1aNumber bytes)

theorem fingerprint_spec (bytes : List UInt8) :
    ∃ digits, IsHash bytes digits ∧ fingerprint bytes = String.ofList (digits.take 8) := by
  have hlt : (fnv1a bytes).toNat < 16 ^ 16 := by
    have h := (fnv1a bytes).toNat_lt
    norm_num at h ⊢
    exact h
  obtain ⟨hlength, hdigits, hvalue⟩ :=
    Number.padded_spec (by decide) (by decide) (by decide) hlt
  refine ⟨(Number.padded 16 16 (fnv1a bytes).toNat).toList, ⟨hlength, hdigits, ?_⟩, ?_⟩
  · rw [hvalue, toNat_fnv1a]
  · rw [fingerprint]

theorem length_fingerprint (bytes : List UInt8) : (fingerprint bytes).toList.length = 8 := by
  obtain ⟨digits, ⟨hlength, -⟩, he⟩ := fingerprint_spec bytes
  rw [he, String.toList_ofList, List.length_take, hlength]
  rfl

namespace Fingerprinting

variable {f : Fingerprinting} {name : String} {bytes : List UInt8}

theorem appliesTo_iff : f.appliesTo name = true ↔ f.enabled = true ∧
    ∃ stem extension, HasExtension name stem extension ∧ extension ∈ f.extensions := by
  simp only [← Path.splitExtension_eq_some_iff]
  unfold appliesTo
  cases hs : Path.splitExtension name with
  | mk stem e =>
    cases e with
    | none => simp
    | some extension => simp

theorem deployedName_of_appliesTo {stem extension : String} (h : f.appliesTo name = true)
    (hs : HasExtension name stem extension) :
    f.deployedName name bytes = stem ++ "." ++ fingerprint bytes ++ "." ++ extension := by
  rw [deployedName, if_pos h, Path.splitExtension_eq_some_iff.2 hs]
  rfl

theorem deployedName_of_not_appliesTo (h : ¬f.appliesTo name = true) :
    f.deployedName name bytes = name := by
  rw [deployedName, if_neg h]

theorem hasExtension_deployedName {stem extension : String} (h : f.appliesTo name = true)
    (hs : HasExtension name stem extension) :
    HasExtension (f.deployedName name bytes) (stem ++ "." ++ fingerprint bytes) extension := by
  refine ⟨deployedName_of_appliesTo h hs, ?_, hs.2.2⟩
  intro he
  have hlength := congrArg (fun s => s.toList.length) he
  simp at hlength

theorem appliesTo_deployedName : f.appliesTo (f.deployedName name bytes) = f.appliesTo name := by
  by_cases h : f.appliesTo name = true
  · obtain ⟨hf, stem, extension, hs, he⟩ := appliesTo_iff.1 h
    rw [h]
    exact appliesTo_iff.2 ⟨hf, _, extension, hasExtension_deployedName h hs, he⟩
  · rw [deployedName_of_not_appliesTo h]

/-- Files with different names are deployed under different names, whatever is in them. -/
theorem eq_of_deployedName_eq {name' : String} {bytes' : List UInt8}
    (h : f.deployedName name bytes = f.deployedName name' bytes') : name = name' := by
  have happlies : f.appliesTo name = f.appliesTo name' := by
    have hleft : f.appliesTo (f.deployedName name bytes) = f.appliesTo name :=
      appliesTo_deployedName
    rw [← hleft, h, appliesTo_deployedName]
  by_cases hn : f.appliesTo name = true
  · obtain ⟨-, stem, extension, hs, -⟩ := appliesTo_iff.1 hn
    obtain ⟨-, stem', extension', hs', -⟩ := appliesTo_iff.1 (happlies ▸ hn)
    obtain ⟨hstems, hextensions⟩ :=
      (h ▸ hasExtension_deployedName hn hs).unique (hasExtension_deployedName (happlies ▸ hn) hs')
    -- Both fingerprints have eight digits, so the stems end at the same place.
    have hstem : stem = stem' := by
      have hlists : (stem ++ ".").toList ++ (fingerprint bytes).toList =
          (stem' ++ ".").toList ++ (fingerprint bytes').toList := by
        rw [← String.toList_append, ← String.toList_append, hstems]
      have hlength : (fingerprint bytes).toList.length = (fingerprint bytes').toList.length := by
        rw [length_fingerprint, length_fingerprint]
      obtain ⟨hstem, -⟩ := List.append_inj' hlists hlength
      rw [String.toList_append, String.toList_append] at hstem
      exact String.toList_inj.1 (List.append_cancel_right hstem)
    rw [hs.1, hs'.1, hstem, hextensions]
  · rwa [deployedName_of_not_appliesTo hn, deployedName_of_not_appliesTo (happlies ▸ hn)] at h

theorem deployedName_ne_iff (bytes : List UInt8) :
    f.deployedName name bytes ≠ name ↔ f.appliesTo name = true := by
  constructor
  · intro h
    by_contra hn
    exact h (deployedName_of_not_appliesTo hn)
  · intro h he
    obtain ⟨-, stem, extension, hs, -⟩ := appliesTo_iff.1 h
    have hlength := congrArg (fun s => s.toList.length) he
    rw [deployedName_of_appliesTo h hs, hs.1] at hlength
    simp at hlength
    omega

end Fingerprinting

end StaticSite
