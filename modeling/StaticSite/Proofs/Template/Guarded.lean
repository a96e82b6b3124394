import StaticSite.Proofs.Markup.Skeleton
import StaticSite.Proofs.Template.Segment

/-!
# Guarded templates

In a guarded template every escaped placeholder stands in a text or between the quotes of an
attribute, every raw one stands in a text, and the template ends in a text. Only raw values can
bring tags into what such a template is rendered to.
-/

namespace StaticSite

open Html

/-- Whether values are inserted only where they belong when segments are read from a spot on. -/
def guarded : Spot → List Segment → Bool
  | p, [] => decide (p = .content)
  | p, .literal l :: segs => guarded (p.run l) segs
  | p, .placeholder _ h :: segs =>
    (if h.raw then decide (p = .content) else p.holdsValue) && guarded p segs
  | _, .malformed _ _ :: _ => false

def Segment.rawName? : Segment → Option String
  | .placeholder _ h => if h.raw then some h.name else none
  | _ => none

def Bindings.inserted (b : Bindings) (name : String) : String := (b.value? name).getD ""

theorem text_raw {b : Bindings} {inner : List Char} {h : Placeholder} (hr : h.raw = true) :
    (Segment.placeholder inner h).text b = (b.inserted h.name).toList := by
  rw [Segment.text, Bindings.inserted]
  cases b.value? h.name with
  | none => rfl
  | some v => simp [hr]

theorem leads_text_escaped {p : Spot} (hp : p.holdsValue = true) (b : Bindings) (inner : List Char)
    {h : Placeholder} (hr : h.raw = false) :
    p.Leads ((Segment.placeholder inner h).text b) p [] := by
  rw [Segment.text]
  cases b.value? h.name with
  | none => exact Spot.Leads.nil p
  | some v =>
    simp only [hr]
    exact leads_forAttribute hp v

/-- Segments rendered with two bindings take a reader through the same tags, if the values of the
raw names do. -/
theorem leads_of_guarded {b b' : Bindings} {p : Spot} {segs : List Segment}
    (hg : guarded p segs = true)
    (hraw : ∀ name ∈ segs.filterMap Segment.rawName?,
      SameTags (b.inserted name) (b'.inserted name)) :
    ∃ ms, p.Leads (segs.flatMap (Segment.text b)) .content ms ∧
      p.Leads (segs.flatMap (Segment.text b')) .content ms := by
  -- The spot goes along: both texts bring the reader to the same one after each segment.
  induction segs generalizing p with
  | nil =>
    obtain rfl : p = .content := of_decide_eq_true hg
    exact ⟨[], Spot.Leads.nil _, Spot.Leads.nil _⟩
  | cons seg segs ih =>
    have hrest : ∀ name ∈ segs.filterMap Segment.rawName?,
        SameTags (b.inserted name) (b'.inserted name) := by
      intro name hn
      obtain ⟨seg', hm, hs⟩ := List.mem_filterMap.1 hn
      exact hraw name (List.mem_filterMap.2 ⟨seg', List.mem_cons_of_mem _ hm, hs⟩)
    rw [List.flatMap_cons, List.flatMap_cons]
    cases seg with
    | literal l =>
      have hl : p.Leads l (p.run l) (p.marks l) := ⟨rfl, rfl⟩
      obtain ⟨ms, h, h'⟩ := ih hg hrest
      exact ⟨p.marks l ++ ms, hl.append h, hl.append h'⟩
    | malformed rest d => cases hg
    | placeholder inner h =>
      rw [guarded, Bool.and_eq_true] at hg
      obtain ⟨hspot, hg⟩ := hg
      obtain ⟨ms, hl, hl'⟩ := ih hg hrest
      cases hr : h.raw with
      | true =>
        rw [hr, if_pos rfl] at hspot
        obtain rfl : p = .content := of_decide_eq_true hspot
        have hm : h.name ∈ (Segment.placeholder inner h :: segs).filterMap Segment.rawName? :=
          List.mem_filterMap.2 ⟨_, List.mem_cons_self, by simp [Segment.rawName?, hr]⟩
        obtain ⟨ms', hv, hv'⟩ := hraw h.name hm
        rw [text_raw hr, text_raw hr]
        exact ⟨ms' ++ ms, hv.append hl, hv'.append hl'⟩
      | false =>
        rw [hr, if_neg (by simp)] at hspot
        have hv := leads_text_escaped hspot b inner hr
        have hv' := leads_text_escaped hspot b' inner hr
        exact ⟨[] ++ ms, hv.append hl, hv'.append hl'⟩

theorem Template.render_of_cuts {t : String} {segs : List Segment} (hc : Cuts t.toList segs)
    {b : Bindings} (hb : ∀ seg ∈ segs, seg.error? b = none) :
    render b t = .ok (String.ofList (segs.flatMap (Segment.text b))) := by
  rw [render, hc.renderFrom_eq, renderSegments, List.findSome?_eq_none_iff.2 hb]
  simp [Except.map]

/-- A guarded template rendered with two bindings gives documents with one skeleton, if its names
have values and the values of its raw names have the same tags. -/
theorem Template.skeleton_render_of_guarded {t : String} {segs : List Segment}
    (hc : Cuts t.toList segs) (hg : guarded .content segs = true) {b b' : Bindings}
    (hb : ∀ seg ∈ segs, seg.error? b = none) (hb' : ∀ seg ∈ segs, seg.error? b' = none)
    (hraw : ∀ name ∈ segs.filterMap Segment.rawName?,
      SameTags (b.inserted name) (b'.inserted name)) :
    ∃ d d' ms, render b t = .ok d ∧ render b' t = .ok d' ∧
      skeleton d = some ms ∧ skeleton d' = some ms := by
  obtain ⟨ms, h, h'⟩ := leads_of_guarded hg hraw
  refine ⟨_, _, ms, render_of_cuts hc hb, render_of_cuts hc hb', skeleton_of_leads ?_,
    skeleton_of_leads ?_⟩
  · rwa [String.toList_ofList]
  · rwa [String.toList_ofList]

end StaticSite
