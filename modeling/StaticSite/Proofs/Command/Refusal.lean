import StaticSite.Proofs.Command.Agreement
import StaticSite.Proofs.Files.Failure

/-!
# Refused builds

Settings and content are checked before a build touches anything. A build that is refused leaves the
file tree as it was, whatever the tree holds; and a build that has changed something, however it
ends, has settings and content that were accepted.
-/

namespace StaticSite

theorem forM_eq_ok_iff {ε α : Type} {f : α → Except ε Unit} {as : List α} :
    as.forM f = .ok () ↔ ∀ a ∈ as, f a = .ok () := by
  induction as with
  | nil => simp [List.forM, pure, Except.pure]
  | cons a as ih =>
    have hcons : (a :: as).forM f = (f a).bind fun _ => as.forM f := rfl
    rw [hcons, List.forall_mem_cons, ← ih]
    cases f a <;> simp [Except.bind]

theorem exists_of_forM_eq_error {ε α : Type} {f : α → Except ε Unit} {as : List α} {e : ε}
    (h : as.forM f = .error e) : ∃ a ∈ as, f a = .error e := by
  induction as with
  | nil => cases h
  | cons a as ih =>
    replace h : (f a).bind (fun _ => as.forM f) = .error e := h
    cases ha : f a with
    | error e' =>
      rw [ha] at h
      cases h
      exact ⟨a, List.mem_cons_self, ha⟩
    | ok _ =>
      rw [ha] at h
      obtain ⟨a', hmem, ha'⟩ := ih h
      exact ⟨a', List.mem_cons_of_mem a hmem, ha'⟩

/-- Why the settings in a file under the environment are not loaded: there is no such file or none
that can be read, it is malformed, a setting is missing or has a wrong type, or the settings have a
defect. -/
inductive Unloadable (t : FileTree) (around : Surroundings) (path : String) : LoadError → Prop
  | unread {e : LayerError} (hfile : settingsFile t around.workDir path = .error e) :
    Unloadable t around path (.layers e)
  | malformed {bytes : List UInt8} (hfile : settingsFile t around.workDir path = .ok bytes)
    (hlayer : fileLayer? bytes = none) : Unloadable t around path (.layers (.unreadable path))
  | mismatched {bytes : List UInt8} {layer : List (String × Value)}
    (hfile : settingsFile t around.workDir path = .ok bytes)
    (hlayer : fileLayer? bytes = some layer)
    (hsettings : Settings.decode .layered (layered (layer ++ around.environment.layer)) = none) :
    Unloadable t around path (.layers .mismatch)
  | defective {bytes : List UInt8} {layer : List (String × Value)} {s : Settings}
    {d : SettingsDefect} (hfile : settingsFile t around.workDir path = .ok bytes)
    (hlayer : fileLayer? bytes = some layer)
    (hsettings : Settings.decode .layered (layered (layer ++ around.environment.layer)) = some s)
    (hdefect : s.validate = .error d) : Unloadable t around path (.defect d)

section

variable {t : FileTree} {around : Surroundings} {path : String}

theorem loadLayered_eq_error_iff {e : LoadError} :
    loadLayered t around.workDir path around.environment = .error e ↔
      Unloadable t around path e := by
  unfold loadLayered
  simp only [bind, Except.bind, Except.mapError]
  constructor
  · intro h
    cases hfile : settingsFile t around.workDir path with
    | error e' =>
      rw [hfile] at h
      cases h
      exact .unread hfile
    | ok bytes =>
      cases hlayer : fileLayer? bytes with
      | none =>
        simp only [hfile, hlayer] at h
        cases h
        exact .malformed hfile hlayer
      | some layer =>
        cases hsettings : Settings.decode .layered (layered (layer ++ around.environment.layer)) with
        | none =>
          simp only [hfile, hlayer, hsettings] at h
          cases h
          exact .mismatched hfile hlayer hsettings
        | some s =>
          cases hvalid : s.validate with
          | error d =>
            simp only [hfile, hlayer, hsettings, Settings.validated, hvalid] at h
            cases h
            exact .defective hfile hlayer hsettings hvalid
          | ok logged =>
            simp only [hfile, hlayer, hsettings, Settings.validated, hvalid] at h
            cases h
  · intro h
    cases h with
    | unread hfile => rw [hfile]
    | malformed hfile hlayer =>
      simp only [hfile, hlayer]
      rfl
    | mismatched hfile hlayer hsettings =>
      simp only [hfile, hlayer, hsettings]
      rfl
    | defective hfile hlayer hsettings hdefect =>
      simp only [hfile, hlayer, hsettings, Settings.validated, hdefect]
      rfl

end

theorem mapError_eq_ok_iff {ε ε' α : Type} {f : ε → ε'} {r : Except ε α} {a : α} :
    r.mapError f = .ok a ↔ r = .ok a := by
  cases r <;> simp [Except.mapError]

theorem Settings.checkBuild_eq_ok_iff {s : Settings} {valid : Logged Unit} :
    s.checkBuild = .ok valid ↔
      s.validate = .ok valid ∧ ∀ route ∈ Route.all, route.validate = .ok () := by
  have hroutes : (Route.all.forM fun r => r.validate.mapError BuildError.content) = .ok () ↔
      ∀ route ∈ Route.all, route.validate = .ok () := by
    rw [forM_eq_ok_iff]
    simp only [mapError_eq_ok_iff]
  rw [← hroutes]
  unfold checkBuild
  cases s.validate with
  | error d => simp [Except.mapError, bind, Except.bind]
  | ok logged =>
    cases Route.all.forM fun r => r.validate.mapError BuildError.content with
    | error e => simp [Except.mapError, bind, Except.bind]
    | ok _ => simp [Except.mapError, bind, Except.bind, pure, Except.pure]

theorem Route.mem_all (r : Route) : r ∈ Route.all := by
  cases r <;> decide

def BuildError.IsRefusal : BuildError → Prop
  | .settings _ | .content _ => True
  | _ => False

theorem Settings.isRefusal_of_checkBuild {s : Settings} {e : BuildError}
    (h : s.checkBuild = .error e) : e.IsRefusal := by
  unfold checkBuild at h
  cases hvalid : s.validate with
  | error d =>
    rw [hvalid] at h
    cases h
    trivial
  | ok logged =>
    cases hroutes : Route.all.forM fun r => r.validate.mapError BuildError.content with
    | error e' =>
      rw [hvalid, hroutes] at h
      cases h
      obtain ⟨r, -, hr⟩ := exists_of_forM_eq_error hroutes
      cases hd : r.validate with
      | error d =>
        rw [hd] at hr
        cases hr
        trivial
      | ok _ =>
        rw [hd] at hr
        cases hr
    | ok _ =>
      rw [hvalid, hroutes] at h
      cases h

namespace Build

variable {b : Build} {date : Calendar.Date} {t : FileTree}

/-- What is not accepted is refused before anything is touched. -/
theorem outcome_run_of_refused {e : BuildError} (h : b.settings.checkBuild = .error e) :
    (b.run date).outcome t = (.error e, t) := by
  rw [run, Disk.outcome_ofExcept_bind, h]

theorem failsWith_manifest? : b.manifest?.FailsWith fun e => ¬e.IsRefusal := by
  unfold manifest?
  cases b.static with
  | none => exact Disk.failsWith_pure _
  | some static =>
    refine Disk.FailsWith.bind ?_ fun _ _ _ _ => Disk.failsWith_pure _
    unfold deployAssets
    refine (Disk.failsWith_under (fun _ h => h) _).bind fun m _ _ _ => ?_
    exact (Disk.failsWith_under (fun _ h => h) _).bind fun _ _ _ _ => Disk.failsWith_pure _

theorem failsWith_writePages (r : Resolver) :
    (b.writePages r).FailsWith fun e => ¬e.IsRefusal := by
  rw [writePages_eq]
  refine Disk.FailsWith.bind (Disk.failsWith_all fun work hwork => ?_) fun _ _ _ _ =>
    Disk.failsWith_pure _
  obtain ⟨route, -, rfl⟩ := List.mem_map.1 hwork
  exact (Disk.failsWith_under (fun _ h => h) _).bind fun _ _ _ _ => Disk.failsWith_pure _

theorem failsWith_writeSitemap : (b.writeSitemap date).FailsWith fun e => ¬e.IsRefusal := by
  unfold writeSitemap
  split
  · exact Disk.failsWith_under (fun _ h => h) _
  · exact Disk.failsWith_pure _

theorem outcome_run_refused_iff {e : BuildError} (he : e.IsRefusal) :
    ((b.run date).outcome t).1 = .error e ↔ b.settings.checkBuild = .error e := by
  constructor
  · intro h
    rw [run, Disk.outcome_ofExcept_bind] at h
    cases hcheck : b.settings.checkBuild with
    | error e' =>
      rw [hcheck] at h
      rw [Except.error.inj h]
    | ok valid =>
      rw [hcheck] at h
      -- After the check no phase fails with a refusal.
      refine absurd he (Disk.FailsWith.bind (p := fun e => ¬e.IsRefusal)
        (Disk.failsWith_under (fun _ h => h) _) (fun _ _ _ _ => ?_) t e h)
      refine failsWith_manifest?.bind fun m _ _ _ => ?_
      refine (failsWith_writePages _).bind fun _ _ _ _ => ?_
      exact failsWith_writeSitemap.bind fun _ _ _ _ => Disk.failsWith_pure _
  · intro h
    rw [outcome_run_of_refused h]

theorem tree_of_refused {e : BuildError} (he : e.IsRefusal)
    (h : ((b.run date).outcome t).1 = .error e) : ((b.run date).outcome t).2 = t := by
  rw [outcome_run_of_refused ((outcome_run_refused_iff he).1 h)]

theorem accepted_of_changed (h : ((b.run date).outcome t).2 ≠ t) :
    (∃ valid, b.settings.validate = .ok valid) ∧ ∀ route : Route, route.validate = .ok () := by
  cases hcheck : b.settings.checkBuild with
  | error e => exact absurd (congrArg Prod.snd (outcome_run_of_refused hcheck)) h
  | ok valid =>
    obtain ⟨hvalid, hroutes⟩ := Settings.checkBuild_eq_ok_iff.1 hcheck
    exact ⟨⟨valid, hvalid⟩, fun route => hroutes route route.mem_all⟩

end Build

theorem Settings.checkBuild_refused_iff {s : Settings} :
    (∃ e, s.checkBuild = .error e) ↔
      (∃ d, s.validate = .error d) ∨ ∃ (route : Route) (d : ContentDefect),
        route.validate = .error d := by
  constructor
  · rintro ⟨e, he⟩
    cases hvalid : s.validate with
    | error d => exact .inl ⟨d, rfl⟩
    | ok valid =>
      right
      by_contra hnone
      push Not at hnone
      have hroutes : ∀ route ∈ Route.all, route.validate = .ok () := by
        intro route _
        cases hr : route.validate with
        | error d => exact absurd hr (hnone route d)
        | ok _ => rfl
      rw [checkBuild_eq_ok_iff.2 ⟨hvalid, hroutes⟩] at he
      cases he
  · intro h
    cases hcheck : s.checkBuild with
    | error e => exact ⟨e, rfl⟩
    | ok valid =>
      obtain ⟨hvalid, hroutes⟩ := checkBuild_eq_ok_iff.1 hcheck
      rcases h with ⟨d, hd⟩ | ⟨route, d, hd⟩
      · rw [hvalid] at hd
        cases hd
      · rw [hroutes route route.mem_all] at hd
        cases hd

/-- Errors that say that the build command was refused: the settings cannot be loaded, an option
makes them defective, or the build is refused. -/
def CommandError.IsRefusal : CommandError → Prop
  | .load _ | .url _ => True
  | .build e => e.IsRefusal
  | _ => False

theorem Settings.overridden_eq_error_iff {s : Settings} {o : Option String} {d : SettingsDefect} :
    s.overridden o = .error d ↔ ∃ url, o = some url ∧ (s.withUrl url).validate = .error d := by
  cases o with
  | none => simp [overridden]
  | some url =>
    simp only [overridden, validated, Option.some.injEq, exists_eq_left']
    cases (s.withUrl url).validate <;> simp [Except.map]

section

variable {t : FileTree} {around : Surroundings} {path : String} {o : BuildOptions}

theorem outcome_buildCommand_of_unloaded {e : LoadError}
    (h : loadLayered t around.workDir path around.environment = .error e) :
    (buildCommand around path o).outcome t = (.error (.load e), t) := by
  rw [buildCommand, Disk.outcome_tree_bind, h, Disk.outcome_ofExcept_bind]
  rfl

theorem outcome_buildCommand_of_defect {s : Logged Settings} {d : SettingsDefect}
    (h : loadLayered t around.workDir path around.environment = .ok s)
    (hd : s.value.overridden o.url = .error d) :
    (buildCommand around path o).outcome t = (.error (.url d), t) := by
  rw [buildCommand, Disk.outcome_tree_bind, h, Disk.outcome_ofExcept_bind]
  dsimp only [Except.mapError]
  rw [hd, Disk.outcome_ofExcept_bind]

/-- Once the settings are there the command is the build, with its errors and its tree. -/
theorem outcome_buildCommand_of_overridden {s : Logged Settings} {s' : Settings}
    (h : loadLayered t around.workDir path around.environment = .ok s)
    (hs : s.value.overridden o.url = .ok s') :
    ∃ b : Build, ((buildCommand around path o).outcome t).2 = ((b.run around.today).outcome t).2 ∧
      ∀ e, ((buildCommand around path o).outcome t).1 = .error e →
        ∃ e', ((b.run around.today).outcome t).1 = .error e' ∧ e = .build e' := by
  refine ⟨(o.site t around path s').1, ?_⟩
  have houtcome : (buildCommand around path o).outcome t =
      ((Disk.under CommandError.build ((o.site t around path s').1.run around.today)) >>=
        fun report => pure ⟨report, (o.site t around path s').2⟩).outcome t := by
    rw [buildCommand, Disk.outcome_tree_bind, h, Disk.outcome_ofExcept_bind]
    dsimp only [Except.mapError]
    rw [hs, Disk.outcome_ofExcept_bind]
  rw [houtcome, Disk.outcome_bind]
  have hunder : (Disk.under CommandError.build
      ((o.site t around path s').1.run around.today)).outcome t =
      ((((o.site t around path s').1.run around.today).outcome t).1.mapError .build,
        (((o.site t around path s').1.run around.today).outcome t).2) := rfl
  rw [hunder]
  cases ((o.site t around path s').1.run around.today).outcome t with
  | mk r t₁ =>
    cases r with
    | error e' =>
      refine ⟨rfl, fun e he => ⟨e', rfl, ?_⟩⟩
      exact (Except.error.inj he).symm
    | ok report =>
      refine ⟨rfl, fun e he => ?_⟩
      cases he

theorem load_error_iff {e : LoadError} :
    ((buildCommand around path o).outcome t).1 = .error (.load e) ↔ Unloadable t around path e := by
  rw [← loadLayered_eq_error_iff]
  constructor
  · intro h
    cases hload : loadLayered t around.workDir path around.environment with
    | error e' =>
      rw [outcome_buildCommand_of_unloaded hload] at h
      cases h
      rfl
    | ok s =>
      cases hs : s.value.overridden o.url with
      | error d =>
        rw [outcome_buildCommand_of_defect hload hs] at h
        cases h
      | ok s' =>
        obtain ⟨b, -, herrors⟩ := outcome_buildCommand_of_overridden hload hs
        obtain ⟨e', -, he⟩ := herrors _ h
        cases he
  · intro h
    rw [outcome_buildCommand_of_unloaded h]

theorem url_error_iff {d : SettingsDefect} :
    ((buildCommand around path o).outcome t).1 = .error (.url d) ↔
      ∃ s url, loadLayered t around.workDir path around.environment = .ok s ∧
        o.url = some url ∧ (s.value.withUrl url).validate = .error d := by
  constructor
  · intro h
    cases hload : loadLayered t around.workDir path around.environment with
    | error e =>
      rw [outcome_buildCommand_of_unloaded hload] at h
      cases h
    | ok s =>
      cases hs : s.value.overridden o.url with
      | error d' =>
        rw [outcome_buildCommand_of_defect hload hs] at h
        cases h
        obtain ⟨url, hurl, hd⟩ := Settings.overridden_eq_error_iff.1 hs
        exact ⟨s, url, rfl, hurl, hd⟩
      | ok s' =>
        obtain ⟨b, -, herrors⟩ := outcome_buildCommand_of_overridden hload hs
        obtain ⟨e', -, he⟩ := herrors _ h
        cases he
  · rintro ⟨s, url, hload, hurl, hd⟩
    rw [outcome_buildCommand_of_defect hload (Settings.overridden_eq_error_iff.2 ⟨url, hurl, hd⟩)]

theorem tree_of_refused_buildCommand {e : CommandError} (he : e.IsRefusal)
    (h : ((buildCommand around path o).outcome t).1 = .error e) :
    ((buildCommand around path o).outcome t).2 = t := by
  cases hload : loadLayered t around.workDir path around.environment with
  | error e' => rw [outcome_buildCommand_of_unloaded hload]
  | ok s =>
    cases hs : s.value.overridden o.url with
    | error d => rw [outcome_buildCommand_of_defect hload hs]
    | ok s' =>
      obtain ⟨b, htree, herrors⟩ := outcome_buildCommand_of_overridden hload hs
      obtain ⟨e', hbuild, rfl⟩ := herrors _ h
      rw [htree, Build.tree_of_refused he hbuild]

end

/-- The build command says that the settings cannot be loaded, or that an option makes them
defective, exactly when that is so, and a build is refused exactly when its settings or the content
of a route have a defect. In each of these cases the file tree is as it was. A build that has changed
something, also if it fails later on, has settings and content that were accepted. -/
theorem refusals_keep_tree :
    (∀ (around : Surroundings) (path : String) (o : BuildOptions) (t : FileTree),
      let result := (buildCommand around path o).outcome t
      (∀ e, result.1 = .error (.load e) ↔ Unloadable t around path e) ∧
        (∀ d, result.1 = .error (.url d) ↔
          ∃ s url, loadLayered t around.workDir path around.environment = .ok s ∧
            o.url = some url ∧ (s.value.withUrl url).validate = .error d) ∧
        ∀ e, result.1 = .error e → e.IsRefusal → result.2 = t) ∧
    ∀ (b : Build) (date : Calendar.Date) (t : FileTree),
      let result := (b.run date).outcome t
      ((∃ e, result.1 = .error e ∧ e.IsRefusal) ↔
          (∃ d, b.settings.validate = .error d) ∨
            ∃ (route : Route) (d : ContentDefect), route.validate = .error d) ∧
        (∀ e, result.1 = .error e → e.IsRefusal → result.2 = t) ∧
        (result.2 ≠ t →
          (∃ valid, b.settings.validate = .ok valid) ∧
            ∀ route : Route, route.validate = .ok ()) := by
  refine ⟨fun around path o t => ?_, fun b date t => ?_⟩
  · exact ⟨fun e => load_error_iff, fun d => url_error_iff,
      fun e h he => tree_of_refused_buildCommand he h⟩
  · refine ⟨?_, fun e h he => Build.tree_of_refused he h, Build.accepted_of_changed⟩
    rw [← Settings.checkBuild_refused_iff]
    constructor
    · rintro ⟨e, h, he⟩
      exact ⟨e, (Build.outcome_run_refused_iff he).1 h⟩
    · rintro ⟨e, hcheck⟩
      have he := Settings.isRefusal_of_checkBuild hcheck
      exact ⟨e, (Build.outcome_run_refused_iff he).2 hcheck, he⟩

/-- Settings that are missing, that have a defect, or that get one from an option leave the output
of the build before; settings without a defect change it. -/
theorem refusals_keep_tree_previous :
    let t := FileTree.ofRecords
      [(["site.toml"], .file (Text.encode "[site]\ntitle = \"T\"\nurl = \"https://t.example\"\n")),
        (["bad.toml"], .file (Text.encode "[site]\ntitle = \" \"\nurl = \"https://t.example\"\n")),
        (["build"], .directory), (["build", "old.html"], .file (Text.encode "published"))]
    let around : Surroundings := { workDir := [], today := ⟨2024, 2, 29⟩ }
    let build (title : String) : Build :=
      { settings := { site := { title, url := "https://t.example" } }
        output := Path.place [] "build" }
    Unloadable t around "missing.toml" (.layers (.noFile "missing.toml")) ∧
      ((buildCommand around "missing.toml" {}).outcome t).2 = t ∧
      Unloadable t around "bad.toml" (.defect .emptyTitle) ∧
      ((buildCommand around "bad.toml" {}).outcome t).2 = t ∧
      ((buildCommand around "site.toml" { url := some " " }).outcome t).1 =
        .error (.url .emptyUrl) ∧
      ((buildCommand around "site.toml" { url := some " " }).outcome t).2 = t ∧
      (((build "").run around.today).outcome t).1 = .error (.settings .emptyTitle) ∧
      (((build "").run around.today).outcome t).2 = t ∧
      (((build "T").run around.today).outcome t).2 ≠ t ∧
      ∃ valid, (build "T").settings.validate = .ok valid := by
  intro t around build
  obtain ⟨hcommand, hbuild⟩ := refusals_keep_tree
  have hmissing : ((buildCommand around "missing.toml" {}).outcome t).1 =
      .error (.load (.layers (.noFile "missing.toml"))) := by decide +kernel
  have hbad : ((buildCommand around "bad.toml" {}).outcome t).1 =
      .error (.load (.defect .emptyTitle)) := by decide +kernel
  have hurl : ((buildCommand around "site.toml" { url := some " " }).outcome t).1 =
      .error (.url .emptyUrl) := by decide +kernel
  have htitle : (((build "").run around.today).outcome t).1 = .error (.settings .emptyTitle) := by
    decide +kernel
  have hchanged : (((build "T").run around.today).outcome t).2 ≠ t := by
    have hold : (((build "T").run around.today).outcome t).2.file? ["build", "old.html"] ≠
        t.file? ["build", "old.html"] := by
      simp only [Build.run, Settings.checkBuild_eq, Build.writePages_eq]
      decide +kernel
    exact fun h => hold (by rw [h])
  obtain ⟨hload₁, -, htree₁⟩ := hcommand around "missing.toml" {} t
  obtain ⟨hload₂, -, htree₂⟩ := hcommand around "bad.toml" {} t
  obtain ⟨-, -, htree₃⟩ := hcommand around "site.toml" { url := some " " } t
  obtain ⟨-, htree₄, -⟩ := hbuild (build "") around.today t
  obtain ⟨-, -, haccepted⟩ := hbuild (build "T") around.today t
  exact ⟨(hload₁ _).1 hmissing, htree₁ _ hmissing trivial, (hload₂ _).1 hbad,
    htree₂ _ hbad trivial, hurl, htree₃ _ hurl trivial, htitle, htree₄ _ htitle trivial, hchanged,
    (haccepted hchanged).1⟩

end StaticSite
