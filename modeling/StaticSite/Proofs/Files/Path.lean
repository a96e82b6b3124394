import Mathlib.Data.List.DropRight
import StaticSite.Files.Tree
import StaticSite.Proofs.Text.Split

/-!
# Paths and their places

The place of a path keeps the text of the path, with all its slashes, and the place below it is that
of the joined path. So the limit on the length of a path is one on its text, also for the paths that
are joined while a directory is looked through.
-/

namespace StaticSite

theorem toList_slashPath (way : Location) :
    (slashPath way).toList = ['/'].intercalate (way.map String.toList) := by
  simp [slashPath, String.toList_intercalate]

theorem splitOn_slashPath {way : Location} (hne : way ≠ []) (hn : way.all isFileName = true) :
    Text.splitOn Text.isSlash (slashPath way).toList = way.map String.toList := by
  rw [toList_slashPath]
  apply Text.splitOn_intercalate (by decide) (by simpa using hne)
  intro piece hpiece c hc
  obtain ⟨name, hmem, rfl⟩ := List.mem_map.1 hpiece
  have hname := List.all_eq_true.1 hn name hmem
  simp only [isFileName, Bool.and_eq_true, List.all_eq_true] at hname
  have hslash := hname.2 c hc
  simp only [decide_eq_true_eq, Text.isSlash, beq_eq_false_iff_ne] at hslash ⊢
  exact hslash.1

def pathWay (path : String) : Location :=
  (Text.splitOn Text.isSlash path.toList).map String.ofList

theorem pathWay_slashPath {way : Location} (hne : way ≠ []) (hn : way.all isFileName = true) :
    pathWay (slashPath way) = way := by
  rw [pathWay, splitOn_slashPath hne hn, List.map_map]
  simp

theorem slashPath_inj {way way' : Location} (hne : way ≠ []) (hne' : way' ≠ [])
    (hn : way.all isFileName = true) (hn' : way'.all isFileName = true)
    (h : slashPath way = slashPath way') : way = way' := by
  rw [← pathWay_slashPath hne hn, h, pathWay_slashPath hne' hn']

theorem nil_not_mem_splitOn_slashPath {way : Location} (hne : way ≠ [])
    (hn : way.all isFileName = true) : [] ∉ Text.splitOn Text.isSlash (slashPath way).toList := by
  rw [splitOn_slashPath hne hn]
  intro hmem
  obtain ⟨name, hname, hnil⟩ := List.mem_map.1 hmem
  obtain rfl := String.toList_eq_nil_iff.1 hnil
  exact absurd (List.all_eq_true.1 hn _ hname) (by decide)

theorem exists_toList_slashPath {way : Location} (hne : way ≠ []) (hn : way.all isFileName = true) :
    ∃ c cs, (slashPath way).toList = c :: cs ∧ c ≠ '/' := by
  have hnil := nil_not_mem_splitOn_slashPath hne hn
  cases hchars : (slashPath way).toList with
  | nil => simp [hchars, Text.splitOn] at hnil
  | cons c cs =>
    refine ⟨c, cs, rfl, ?_⟩
    rintro rfl
    rw [hchars, Text.splitOn, if_pos (by decide)] at hnil
    exact hnil List.mem_cons_self

/-- The path of a way ends with the last character of a name, also behind another text. -/
theorem dropEndWhile_append_slashPath {way : Location} (hne : way ≠ [])
    (hn : way.all isFileName = true) (cs : List Char) :
    Text.dropEndWhile Text.isSlash (cs ++ (slashPath way).toList) =
      cs ++ (slashPath way).toList := by
  have hnil := nil_not_mem_splitOn_slashPath hne hn
  rcases List.eq_nil_or_concat' (slashPath way).toList with hchars | ⟨front, c, hchars⟩
  · simp [hchars, Text.splitOn] at hnil
  · have hc : Text.isSlash c = false := by
      by_contra hc
      rw [hchars, Text.splitOn_append_cons (by simpa using hc)] at hnil
      exact hnil (List.mem_append_right _ List.mem_cons_self)
    rw [hchars, ← List.append_assoc]
    exact List.rdropWhile_concat_neg _ _ _ (by simp [hc])

theorem utf8ByteSize_slashes (n : Nat) :
    (String.ofList (List.replicate n '/')).utf8ByteSize = n := by
  induction n with
  | zero => rfl
  | succ n ih =>
    rw [List.replicate_succ, String.ofList_cons, String.utf8ByteSize_append, ih, Nat.add_comm]
    rfl

/-- How many bytes steps take in a path, each of them with the slash or the end behind it. -/
def stepBytes : List Step → Nat
  | [] => 0
  | s :: steps => s.text.utf8ByteSize + 1 + stepBytes steps

theorem stepBytes_append (a b : List Step) : stepBytes (a ++ b) = stepBytes a + stepBytes b := by
  induction a with
  | nil => exact (Nat.zero_add _).symm
  | cons s a ih =>
    rw [List.cons_append, stepBytes, stepBytes, ih]
    omega

theorem stepBytes_replicate (n : Nat) (s : Step) :
    stepBytes (List.replicate n s) = n * (s.text.utf8ByteSize + 1) := by
  induction n with
  | zero => rw [Nat.zero_mul]; rfl
  | succ n ih => rw [List.replicate_succ, stepBytes, ih, Nat.succ_mul, Nat.add_comm]

theorem utf8ByteSize_intercalate {steps : List Step} (hne : steps ≠ []) :
    ("/".intercalate (steps.map Step.text)).utf8ByteSize + 1 = stepBytes steps := by
  induction steps with
  | nil => exact absurd rfl hne
  | cons s steps ih =>
    by_cases hrest : steps = []
    · simp [hrest, stepBytes]
    · have hslash : "/".utf8ByteSize = 1 := by decide
      rw [List.map_cons, String.intercalate_cons_of_ne_nil (mt List.map_eq_nil_iff.1 hrest),
        String.utf8ByteSize_append, String.utf8ByteSize_append, hslash, stepBytes, ← ih hrest,
        Nat.add_assoc]

namespace Place

theorem toList_path (p : Place) : p.path.toList =
    (if p.isRooted = true ∧ p.steps ≠ [] then ['/'] else []) ++
      ['/'].intercalate (p.steps.map fun s => s.text.toList) ++ List.replicate p.slashes '/' := by
  rw [path]
  split <;> simp [String.toList_intercalate, Function.comp_def]

theorem isUsable_iff {p : Place} :
    p.isUsable = true ↔ p.path.utf8ByteSize < 4096 ∧ '\x00' ∉ p.path.toList := by
  simp [isUsable]

theorem utf8ByteSize_path {p : Place} (hne : p.steps ≠ []) :
    p.path.utf8ByteSize + 1 = p.isRooted.toNat + stepBytes p.steps + p.slashes := by
  have hroot : (if p.isRooted = true ∧ p.steps ≠ [] then "/" else "").utf8ByteSize =
      p.isRooted.toNat := by
    cases hr : p.isRooted with
    | false => simp
    | true =>
      rw [if_pos ⟨rfl, hne⟩]
      decide
  rw [path, String.utf8ByteSize_append, String.utf8ByteSize_append, hroot, utf8ByteSize_slashes,
    ← utf8ByteSize_intercalate hne]
  omega

theorem mem_path {p : Place} {c : Char} (hc : c ∈ p.path.toList) :
    c = '/' ∨ ∃ s ∈ p.steps, c ∈ s.text.toList := by
  rw [toList_path, List.mem_append, List.mem_append] at hc
  rcases hc with (hc | hc) | hc
  · split at hc
    · exact Or.inl (List.mem_singleton.1 hc)
    · cases hc
  · refine (Text.mem_intercalate hc).imp_right ?_
    rintro ⟨piece, hpiece, hc⟩
    obtain ⟨s, hs, rfl⟩ := List.mem_map.1 hpiece
    exact ⟨s, hs, hc⟩
  · exact Or.inl (List.eq_of_mem_replicate hc)

end Place

namespace Path

theorem toList_text_step (piece : List Char) : (step piece).text.toList = piece := by
  unfold step
  split
  · rename_i h
    rw [h]
    rfl
  · split
    · rename_i h
      rw [h]
      rfl
    · split
      · rename_i h
        rw [h]
        rfl
      · exact String.toList_ofList

theorem step_toList {name : String} (h : isFileName name = true) :
    step name.toList = .name name := by
  simp only [isFileName, Bool.and_eq_true, decide_eq_true_eq] at h
  obtain ⟨⟨⟨⟨hempty, hdot⟩, hdots⟩, -⟩, -⟩ := h
  have hother : ∀ s : String, name ≠ s → name.toList ≠ s.toList :=
    fun s hs he => hs (String.toList_inj.1 he)
  have hempty' : name.toList ≠ [] := hother "" hempty
  have hdot' : name.toList ≠ ['.'] := hother "." hdot
  have hdots' : name.toList ≠ ['.', '.'] := hother ".." hdots
  rw [step, if_neg hempty', if_neg hdot', if_neg hdots', String.ofList_toList]

theorem toList_eq_body_append (workDir : Location) (path : String) :
    path.toList = body path ++ List.replicate (place workDir path).slashes '/' := by
  have hsplit : body path ++ path.toList.rtakeWhile Text.isSlash = path.toList :=
    List.rdropWhile_append_rtakeWhile
  have hslash : ∀ c ∈ path.toList.rtakeWhile Text.isSlash, c = '/' :=
    fun c hc => by simpa [Text.isSlash] using List.mem_rtakeWhile_imp hc
  have hlength : (place workDir path).slashes = (path.toList.rtakeWhile Text.isSlash).length := by
    have hsum := congrArg List.length hsplit
    rw [List.length_append] at hsum
    show path.toList.length - (body path).length = _
    omega
  rw [hlength, ← List.eq_replicate_of_mem hslash]
  exact hsplit.symm

theorem endsWithSlash_of_body_eq {path : String} (h : body path = path.toList) :
    endsWithSlash path = false := by
  by_contra hend
  simp only [endsWithSlash, decide_eq_false_iff_not, not_not] at hend
  have hchars : path.toList ≠ [] := by
    intro hnil
    rw [hnil] at hend
    cases hend
  rw [List.getLast?_eq_some_getLast hchars] at hend
  refine List.rdropWhile_eq_self_iff.1 h hchars ?_
  rw [Option.some.inj hend]
  decide

theorem body_eq_cons_tail {path : String} (habs : isAbsolute path = true) (hbody : body path ≠ []) :
    body path = '/' :: (body path).tail := by
  have hhead : path.toList.head? = some '/' := by simpa [isAbsolute] using habs
  obtain ⟨c, cs, hc⟩ := List.exists_cons_of_ne_nil hbody
  rw [toList_eq_body_append [] path, hc] at hhead
  rw [hc, Option.some.inj hhead]
  rfl

theorem isAbsolute_of_body_eq_nil {path : String} (hpath : path ≠ "") (hbody : body path = []) :
    isAbsolute path = true := by
  have hsplit := toList_eq_body_append [] path
  rw [hbody, List.nil_append] at hsplit
  obtain ⟨n, hslashes⟩ : ∃ n, (place [] path).slashes = n + 1 := by
    apply Nat.exists_eq_succ_of_ne_zero
    intro hzero
    rw [hzero] at hsplit
    exact hpath (String.toList_eq_nil_iff.1 hsplit)
  rw [hslashes] at hsplit
  simp [isAbsolute, hsplit, List.replicate_succ]

/-- The text of a path is found again in its place. -/
theorem path_place (workDir : Location) (path : String) : (place workDir path).path = path := by
  have htexts : ((pieces path).map step).map (fun s => s.text.toList) = pieces path := by
    rw [List.map_map]
    exact List.map_id'' toList_text_step _
  have hjoined : (if isAbsolute path = true ∧ (pieces path).map step ≠ [] then ['/'] else []) ++
      ['/'].intercalate (pieces path) = body path := by
    by_cases hbody : body path = []
    · simp [pieces, hbody]
    · have hne : (pieces path).map step ≠ [] := by
        rw [pieces, if_neg hbody, ne_eq, List.map_eq_nil_iff]
        exact Text.splitOn_ne_nil _
      have hslash : ∀ c, Text.isSlash c = true ↔ c = '/' := by simp [Text.isSlash]
      have hpieces : ['/'].intercalate (pieces path) =
          if isAbsolute path then (body path).tail else body path := by
        rw [pieces, if_neg hbody, Text.intercalate_splitOn hslash]
      rw [hpieces]
      by_cases habs : isAbsolute path = true
      · rw [if_pos habs, if_pos ⟨habs, hne⟩]
        exact (body_eq_cons_tail habs hbody).symm
      · rw [if_neg habs, if_neg fun h => habs h.1]
        rfl
  have hplace : (place workDir path).path.toList =
      (if isAbsolute path = true ∧ (pieces path).map step ≠ [] then ['/'] else []) ++
        ['/'].intercalate (((pieces path).map step).map fun s => s.text.toList) ++
        List.replicate (place workDir path).slashes '/' := (place workDir path).toList_path
  rw [← String.toList_inj, hplace, htexts, hjoined]
  exact (toList_eq_body_append workDir path).symm

/-- A path can be used if it has at most 4095 bytes and no null character. -/
theorem isUsable_place_iff {workDir : Location} {path : String} :
    (place workDir path).isUsable = true ↔ path.utf8ByteSize < 4096 ∧ '\x00' ∉ path.toList := by
  rw [Place.isUsable_iff, path_place]

theorem empty_join (path : String) : join "" path = path := by
  simp [join]

section

variable {way : Location} (hne : way ≠ []) (hn : way.all isFileName = true)

include hne hn

theorem isAbsolute_slashPath : isAbsolute (slashPath way) = false := by
  obtain ⟨c, cs, hc, hslash⟩ := exists_toList_slashPath hne hn
  simp [isAbsolute, hc, hslash]

theorem body_slashPath : body (slashPath way) = (slashPath way).toList :=
  dropEndWhile_append_slashPath hne hn []

theorem pieces_slashPath : pieces (slashPath way) = way.map String.toList := by
  obtain ⟨c, cs, hc, -⟩ := exists_toList_slashPath hne hn
  rw [pieces, body_slashPath hne hn, if_neg (by simp [hc]), isAbsolute_slashPath hne hn,
    if_neg (by simp), splitOn_slashPath hne hn]

theorem toList_join_slashPath {path : String} (hpath : path ≠ "") (workDir : Location) :
    (join path (slashPath way)).toList = body path ++
      '/' :: (List.replicate ((place workDir path).slashes - 1) '/' ++ (slashPath way).toList) := by
  have hsplit := toList_eq_body_append workDir path
  have habs := isAbsolute_slashPath hne hn
  rw [join, if_neg (by simp [habs, hpath])]
  cases hslashes : (place workDir path).slashes with
  | zero =>
    rw [hslashes, List.replicate_zero, List.append_nil] at hsplit
    simp [endsWithSlash_of_body_eq hsplit.symm, hsplit]
  | succ n =>
    rw [hslashes, List.replicate_succ] at hsplit
    have hend : endsWithSlash path = true := by
      rw [← List.replicate_succ, List.replicate_succ'] at hsplit
      simp [endsWithSlash, hsplit]
    simp [hend, hsplit]

theorem body_join_slashPath (path : String) :
    body (join path (slashPath way)) = (join path (slashPath way)).toList := by
  by_cases hpath : path = ""
  · rw [hpath, empty_join, body_slashPath hne hn]
  · rw [body, toList_join_slashPath hne hn hpath [], ← List.cons_append, ← List.append_assoc]
    exact dropEndWhile_append_slashPath hne hn _

theorem isAbsolute_join_slashPath (path : String) :
    isAbsolute (join path (slashPath way)) = isAbsolute path := by
  have habs := isAbsolute_slashPath hne hn
  by_cases hpath : path = ""
  · rw [hpath, empty_join, habs]
    rfl
  · have hhead : ∀ s, (path ++ s).toList.head? = path.toList.head? := by
      intro s
      obtain ⟨c, cs, hc⟩ := List.exists_cons_of_ne_nil (mt String.toList_eq_nil_iff.1 hpath)
      simp [hc]
    rw [join, if_neg (by simp [habs, hpath])]
    split <;> simp only [isAbsolute, String.append_assoc, hhead]

theorem pieces_join_slashPath (workDir : Location) (path : String) :
    pieces (join path (slashPath way)) = pieces path ++
      (List.replicate ((place workDir path).slashes - 1) [] ++ way.map String.toList) := by
  have hslash : Text.isSlash '/' = true := by decide
  by_cases hpath : path = ""
  · rw [hpath, empty_join, pieces_slashPath hne hn]
    rfl
  have hchars := toList_join_slashPath hne hn hpath workDir
  have hrest : Text.splitOn Text.isSlash (List.replicate ((place workDir path).slashes - 1) '/' ++
      (slashPath way).toList) =
        List.replicate ((place workDir path).slashes - 1) [] ++ way.map String.toList := by
    rw [Text.splitOn_replicate_append hslash, splitOn_slashPath hne hn]
  rw [pieces, body_join_slashPath hne hn, isAbsolute_join_slashPath hne hn, hchars,
    if_neg (by simp), ← hrest]
  by_cases hbody : body path = []
  · -- A path of slashes only: the first of them is the root.
    rw [if_pos (isAbsolute_of_body_eq_nil hpath hbody), pieces, if_pos hbody, hbody]
    rfl
  · rw [pieces, if_neg hbody]
    split
    · rw [List.tail_append_of_ne_nil hbody, Text.splitOn_append_cons hslash]
    · rw [Text.splitOn_append_cons hslash]

/-- The place of a joined path is below the place of the first one. -/
theorem place_join (workDir : Location) (path : String) :
    place workDir (join path (slashPath way)) = (place workDir path).below way := by
  have hnames : (way.map String.toList).map step = way.map Step.name := by
    rw [List.map_map]
    exact List.map_congr_left fun name hname => step_toList (List.all_eq_true.1 hn name hname)
  have hsteps : (pieces (join path (slashPath way))).map step = (pieces path).map step ++
      (List.replicate ((place workDir path).slashes - 1) .slash ++ way.map .name) := by
    rw [pieces_join_slashPath hne hn workDir, List.map_append, List.map_append, hnames,
      List.map_replicate]
    rfl
  have hbody := body_join_slashPath hne hn path
  have habs := isAbsolute_join_slashPath hne hn path
  calc place workDir (join path (slashPath way))
      = ⟨if isAbsolute path then [] else workDir, isAbsolute path,
          (pieces (join path (slashPath way))).map step, 0⟩ := by
        rw [place, habs, hbody, Nat.sub_self]
    _ = (place workDir path).below way := by
        rw [hsteps]
        rfl

end

end Path

end StaticSite
