import StaticSite.Proofs.Page.Reported

/-!
# Reports when more assets are deployed

A page refers to the same names whatever it is resolved with, and each of them fails or resolves on
its own. So a resolver that fails for fewer names has a report with some of the names left out, and
all others in the same order, although the trees of the two pages differ.
-/

namespace StaticSite

/-- A resolver that fails only where another one does. -/
def Resolver.FailsWithin (r r' : Resolver) : Prop :=
  ∀ name, (r.asset name).isBroken = true → (r'.asset name).isBroken = true

section

variable {r r' : Resolver}

theorem Reference.isBroken_of_failsWithin (h : r.FailsWithin r') {x : Reference}
    (hx : x.isBroken r = true) : x.isBroken r' = true := by
  cases x with
  | asset name => exact h name hx
  | link target =>
    rw [isBroken, resolve, Resolved.isBroken_eq, Resolver.reference?_link r' r target]
    rwa [isBroken, resolve, Resolved.isBroken_eq] at hx

theorem unresolvedReferences_sublist (h : r.FailsWithin r') (s : Settings) (route : Route) :
    (unresolvedReferences s r (route.assemble ⟨s, r⟩).value).Sublist
      (unresolvedReferences s r' (route.assemble ⟨s, r'⟩).value) := by
  rw [unresolvedReferences_eq_named, unresolvedReferences_eq_named]
  exact (List.monotone_filter_right _ fun _ hx => Reference.isBroken_of_failsWithin h hx).map _

end

namespace Resolver

theorem failsWithin_restrict (r : Resolver) {m m' : List (String × String)}
    (h : assetNames m ⊆ assetNames m') : (r.restrict m').FailsWithin (r.restrict m) := by
  intro name
  rw [isBroken_asset_restrict, isBroken_asset_restrict]
  exact Or.imp_right (mt (@h _))

theorem failsWithin_ofBase (base : String) (m : List (String × String)) :
    (ofBase base).FailsWithin ((ofBase base).restrict m) := by
  intro name
  rw [isBroken_asset_ofBase, isBroken_asset_restrict]
  exact Or.inl

end Resolver

/-- More deployed assets break no reference. A list of assets that has the logical names of another
one leaves of its report some of the names, in their order; lists with the same logical names have
the same report, wherever the assets are deployed; and nothing is reported without a list that is
not reported with any. -/
theorem deployed_assets_keep_references (s : Settings) (base : String) (route : Route) :
    let report : Resolver → List String := fun r =>
      unresolvedReferences s r (route.assemble ⟨s, r⟩).value
    let r := Resolver.ofBase base
    (∀ m m', Resolver.assetNames m ⊆ Resolver.assetNames m' →
      (report (r.restrict m')).Sublist (report (r.restrict m))) ∧
    (∀ m m', (∀ name, name ∈ Resolver.assetNames m ↔ name ∈ Resolver.assetNames m') →
      report (r.restrict m) = report (r.restrict m')) ∧
    ∀ m, (report r).Sublist (report (r.restrict m)) := by
  intro report r
  have hmore : ∀ m m', Resolver.assetNames m ⊆ Resolver.assetNames m' →
      (report (r.restrict m')).Sublist (report (r.restrict m)) := fun _ _ h =>
    unresolvedReferences_sublist (r.failsWithin_restrict h) s route
  refine ⟨hmore, fun m m' h => ?_, fun m => ?_⟩
  · exact (hmore m' m fun name hname => (h name).2 hname).antisymm
      (hmore m m' fun name hname => (h name).1 hname)
  · exact unresolvedReferences_sublist (Resolver.failsWithin_ofBase base m) s route

/-- A logo that is deployed under another name is still found, and the artwork is found once it is
deployed. -/
theorem deployed_assets_keep_references_logo :
    let s : Settings :=
      { site := { title := "T", url := "https://t.example" }
        navbar := { logo := some ⟨"Logo", "/img/logo.svg"⟩ } }
    let m := [("img/logo.svg", "img/logo.1.svg"), ("/img/ic-libs.svg", "img/ic-libs.svg")]
    let m' := [("img/ic-libs.svg", "a"), ("img/023.png", "b"), ("//img/logo.svg", "c")]
    let report : Resolver → List String := fun r =>
      unresolvedReferences s r (Route.home.assemble ⟨s, r⟩).value
    Resolver.assetNames m ⊆ Resolver.assetNames m' ∧
      (report ((Resolver.ofBase "/site").restrict m')).Sublist
        (report ((Resolver.ofBase "/site").restrict m)) ∧
      "img/023.png" ∈ report ((Resolver.ofBase "/site").restrict m) ∧
      "img/023.png" ∉ report ((Resolver.ofBase "/site").restrict m') := by
  intro s m m' report
  have hnames : Resolver.assetNames m ⊆ Resolver.assetNames m' := by decide +kernel
  refine ⟨hnames, (deployed_assets_keep_references s "/site" .home).1 m m' hnames, ?_, ?_⟩
  · show "img/023.png" ∈ unresolvedReferences s _ _
    rw [unresolvedReferences_eq_named]
    decide +kernel
  · show "img/023.png" ∉ unresolvedReferences s _ _
    rw [unresolvedReferences_eq_named]
    decide +kernel

end StaticSite
