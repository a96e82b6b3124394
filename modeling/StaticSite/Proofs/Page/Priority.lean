import StaticSite.Proofs.Page.Sitemap

/-!
# Priorities in sitemaps

A priority that validation accepts is a number from zero to one. A sitemap has the tenths nearest to
it, written with one digit before the point and one after it, and these lie between zero and one
again. Different priorities may be written alike, but never in the wrong order.
-/

namespace StaticSite

open Number

def Number.Binary32.negativeZero : Binary32 := ⟨0x80000000⟩

def tenthsText (negative : Bool) (whole tenth : Nat) : String :=
  signed negative (String.ofList [Nat.digitChar whole, '.', Nat.digitChar tenth])

/-- The sitemaps of a site with the priority `p` show it as `q`, which is written with two digits.
They have a minus sign in front if the priority is the negative zero. -/
structure ShowsPriority (s : Settings) (p q : ℚ) (whole tenth : Nat) : Prop where
  exact : s.sitemap.priority.toDatum.value? = some p
  shown : ∀ date routes, ∃ entries, readSitemap? (sitemap s date routes) = some entries ∧
    entries.length = routes.length ∧ ∀ entry ∈ entries,
      entry.priority = tenthsText (s.sitemap.priority = .negativeZero) whole tenth
  whole_lt : whole < 10
  tenth_lt : tenth < 10
  eq_digits : q = whole + tenth / 10
  nonneg : 0 ≤ q
  le_one : q ≤ 1
  near : |q - p| ≤ 1 / 20
  even : |q - p| = 1 / 20 → tenth % 2 = 0

theorem oneDecimal_eq_tenthsText {m : Nat} {e : Int} (h : tenths m e < 100) (negative : Bool) :
    (Datum.finite negative m e).oneDecimal =
      tenthsText negative (tenths m e / 10) (tenths m e % 10) := by
  have hwhole : Nat.toDigits 10 (tenths m e / 10) = [Nat.digitChar (tenths m e / 10)] :=
    Nat.toDigits_of_lt_base (by omega)
  have htenth : Nat.toDigits 10 (tenths m e % 10) = [Nat.digitChar (tenths m e % 10)] :=
    Nat.toDigits_of_lt_base (by omega)
  simp only [Datum.oneDecimal, digits, hwhole, htenth, tenthsText]
  rw [← String.ofList_append, ← String.ofList_append]
  rfl

theorem toDatum_negativeZero : Binary32.negativeZero.toDatum = .finite true 0 (-149) := by
  decide +kernel

theorem eq_negativeZero {x : Binary32} {e : Int} (h : x.toDatum = .finite true 0 e) :
    x = .negativeZero := by
  have hbits : x.bits.toNat = 0x80000000 := by
    have hlt : x.bits.toNat < 4294967296 := x.bits.toNat_lt
    simp only [Binary32.toDatum] at h
    split at h
    · split at h <;> cases h
    · split at h
      · simp only [Datum.finite.injEq, decide_eq_true_eq] at h
        omega
      · simp only [Datum.finite.injEq, decide_eq_true_eq] at h
        omega
  cases x with
  | mk bits => exact congrArg Binary32.mk (UInt32.toNat_inj.1 hbits)

theorem sign_eq_of_toDatum {x : Binary32} {negative : Bool} {m : Nat} {e : Int}
    (h : x.toDatum = .finite negative m e) (hm : negative = true → m = 0) :
    decide (x = .negativeZero) = negative := by
  cases negative with
  | true =>
    rw [hm rfl] at h
    exact decide_eq_true (eq_negativeZero h)
  | false =>
    refine decide_eq_false ?_
    rintro rfl
    rw [toDatum_negativeZero] at h
    cases h

theorem priority_mem_sitemap (s : Settings) (date : Option Calendar.Date) (routes : List Route) :
    ∃ entries, readSitemap? (sitemap s date routes) = some entries ∧
      entries.length = routes.length ∧
      ∀ entry ∈ entries, entry.priority = s.sitemap.priority.toDatum.oneDecimal := by
  have hread := readSitemap?_entries (routes.map (sitemapEntry s date))
  rw [List.map_map] at hread
  refine ⟨_, hread, by simp, fun entry hentry => ?_⟩
  obtain ⟨listed, hlisted, rfl⟩ := List.mem_map.1 hentry
  obtain ⟨route, -, rfl⟩ := List.mem_map.1 hlisted
  rfl

theorem exists_showsPriority {s : Settings} (h : s.validate.isOk = true) :
    ∃ p q whole tenth, ShowsPriority s p q whole tenth := by
  obtain ⟨negative, m, e, hdatum, hsign, hvalue, hle⟩ :=
    Datum.exists_of_inUnitInterval (Settings.isOk_validate_iff.1 h).2.2.2
  have htenths := isTenthsOf_tenths m e
  have hten : tenths m e ≤ 10 := (isTenthsOf_tenths m e).le isTenthsOf_one hle
  have hq : ((tenths m e / 10 : Nat) : ℚ) + (tenths m e % 10 : Nat) / 10 = tenths m e / 10 := by
    have hdiv : ((10 * (tenths m e / 10) + tenths m e % 10 : Nat) : ℚ) = tenths m e := by
      rw [Nat.div_add_mod]
    push_cast at hdiv
    linarith
  refine ⟨(m : ℚ) * 2 ^ e, tenths m e / 10, tenths m e / 10, tenths m e % 10, hvalue,
    fun date routes => ?_, by omega, by omega, hq.symm, by positivity, ?_, htenths.near,
    fun hmiddle => ?_⟩
  · obtain ⟨entries, hread, hlength, hentries⟩ := priority_mem_sitemap s date routes
    refine ⟨entries, hread, hlength, fun entry hentry => ?_⟩
    rw [hentries entry hentry, sign_eq_of_toDatum hdatum hsign, hdatum,
      oneDecimal_eq_tenthsText (by omega)]
  · have hcast : (tenths m e : ℚ) ≤ 10 := by exact_mod_cast hten
    linarith
  · have heven := htenths.even hmiddle
    omega

theorem ShowsPriority.isTenthsOf {s : Settings} {p q : ℚ} {whole tenth : Nat}
    (h : ShowsPriority s p q whole tenth) : IsTenthsOf p (10 * whole + tenth) := by
  have hq : ((10 * whole + tenth : Nat) : ℚ) / 10 = q := by
    rw [h.eq_digits]
    push_cast
    ring
  refine ⟨by rw [hq]; exact h.near, fun hmiddle => ?_⟩
  rw [hq] at hmiddle
  have heven := h.even hmiddle
  omega

/-- A priority that is accepted is shown by two digits, in every entry of every sitemap: the number
they show lies between zero and one, it is a twentieth away from the priority at most, and where it
is exactly a twentieth away, the last digit is even. What is shown of priorities keeps their
order. -/
theorem priorities_keep_order :
    (∀ s : Settings, s.validate.isOk = true → ∃ p q whole tenth,
      ShowsPriority s p q whole tenth) ∧
    ∀ s s' p p' q q' whole whole' tenth tenth', ShowsPriority s p q whole tenth →
      ShowsPriority s' p' q' whole' tenth' → p ≤ p' → q ≤ q' := by
  refine ⟨fun s => exists_showsPriority, ?_⟩
  intro s s' p p' q q' whole whole' tenth tenth' h h' hle
  have htenths := h.isTenthsOf.le h'.isTenthsOf hle
  have hcast : (10 * whole + tenth : ℚ) ≤ 10 * whole' + tenth' := by exact_mod_cast htenths
  rw [h.eq_digits, h'.eq_digits]
  linarith

/-- A quarter lies in the middle between two tenths, and thirty-five hundredths are a little less
than they seem: they are shown in their order. -/
theorem priorities_keep_order_close :
    let s : Settings :=
      { site := { title := "T", url := "https://t.example" }
        sitemap := { priority := ⟨0x3E800000⟩ } }
    let s' : Settings :=
      { site := { title := "T", url := "https://t.example" }
        sitemap := { priority := .ofDatum ((⟨false, 35, -2⟩ : Decimal).round .single) } }
    s.validate.isOk = true ∧ s'.validate.isOk = true ∧
      ∃ q q' whole whole' tenth tenth', ShowsPriority s (1 / 4) q whole tenth ∧
        ShowsPriority s' (11744051 / 33554432) q' whole' tenth' ∧ q ≤ q' := by
  intro s s'
  have hvalid : s.validate.isOk = true := by decide +kernel
  have hvalid' : s'.validate.isOk = true := by decide +kernel
  have hdatum : s.sitemap.priority.toDatum = .finite false 8388608 (-25) := by decide +kernel
  have hdatum' : s'.sitemap.priority.toDatum = .finite false 11744051 (-25) := by decide +kernel
  obtain ⟨p, q, whole, tenth, h⟩ := priorities_keep_order.1 s hvalid
  obtain ⟨p', q', whole', tenth', h'⟩ := priorities_keep_order.1 s' hvalid'
  have hp : p = 1 / 4 := by
    have hexact := h.exact
    rw [hdatum] at hexact
    rw [← Option.some.inj hexact]
    norm_num
  have hp' : p' = 11744051 / 33554432 := by
    have hexact := h'.exact
    rw [hdatum'] at hexact
    rw [← Option.some.inj hexact]
    norm_num
  subst hp hp'
  exact ⟨hvalid, hvalid', q, q', whole, whole', tenth, tenth', h, h',
    priorities_keep_order.2 s s' _ _ q q' whole whole' tenth tenth' h h' (by norm_num)⟩

end StaticSite
