import StaticSite.Proofs.RichText.Parse

/-!
# Normal forms of rich text

Spans are normal if no text among them is empty and none stands next to another one, at any depth.
An assembly that is fed with tokens keeps its spans normal, so parsing gives normal spans. Spans are
built back from their events, and normal spans come out as they were; so no two normal forms have
the same events.
-/

namespace StaticSite

def Span.isText : Span → Bool
  | .text _ => true
  | _ => false

def Span.startsWithText : List Span → Bool
  | [] => false
  | s :: _ => s.isText

def Span.endsWithText : List Span → Bool
  | [] => false
  | [s] => s.isText
  | _ :: s :: rest => Span.endsWithText (s :: rest)

mutual

def Span.isNormal : Span → Bool
  | .text s => s ≠ ""
  | .lineBreak => true
  | .styled _ inner => Span.allNormal inner

/-- Whether spans are normal, and no text among them stands next to another one. -/
def Span.allNormal : List Span → Bool
  | [] => true
  | s :: rest => s.isNormal && !(s.isText && Span.startsWithText rest) && Span.allNormal rest

end

namespace Span

theorem allNormal_cons {s : Span} {rest : List Span} : allNormal (s :: rest) = true ↔
    s.isNormal = true ∧ (s.isText = true → startsWithText rest = false) ∧
      allNormal rest = true := by
  rw [allNormal]
  cases s.isText <;> simp [and_assoc]

/-- Normal spans go behind normal ones, unless a text would follow a text. -/
theorem allNormal_append {l l' : List Span} (hl : allNormal l = true) (hl' : allNormal l' = true)
    (hside : endsWithText l = true → startsWithText l' = false) : allNormal (l ++ l') = true := by
  induction l with
  | nil => exact hl'
  | cons x l ih =>
    obtain ⟨hx, hstart, hrest⟩ := allNormal_cons.1 hl
    cases l with
    | nil => exact allNormal_cons.2 ⟨hx, hside, hl'⟩
    | cons y l => exact allNormal_cons.2 ⟨hx, hstart, ih hrest hside⟩

theorem allNormal_concat {l : List Span} {s : Span} (hl : allNormal l = true)
    (hs : s.isNormal = true) (hside : s.isText = true → endsWithText l = false) :
    allNormal (l ++ [s]) = true := by
  refine allNormal_append hl (allNormal_cons.2 ⟨hs, fun _ => rfl, rfl⟩) fun hlast => ?_
  show s.isText = false
  cases h : s.isText with
  | false => rfl
  | true =>
    rw [hside h] at hlast
    cases hlast

theorem endsWithText_concat (l : List Span) (s : Span) : endsWithText (l ++ [s]) = s.isText := by
  induction l with
  | nil => rfl
  | cons x l ih =>
    cases l with
    | nil => rfl
    | cons y l => exact ih

end Span

namespace Assembly

/-- An assembly of normal spans, in which no text stands before the pending one. -/
structure IsNormal (a : Assembly) : Prop where
  spans : Span.allNormal a.spans = true
  noText : Span.endsWithText a.spans = false
  opened : ∀ o ∈ a.opened, Span.allNormal o.2 = true

theorem flush_eq (a : Assembly) : a.flush = ⟨a.opened, a.flush.spans, []⟩ := by
  rw [← opened_flush a, ← pending_flush a]

theorem IsNormal.flush {a : Assembly} (h : a.IsNormal) : Span.allNormal a.flush.spans = true := by
  unfold Assembly.flush
  split
  · exact h.spans
  · rename_i hpending
    refine Span.allNormal_concat h.spans ?_ fun _ => h.noText
    simpa [Span.isNormal] using hpending

theorem IsNormal.add {a : Assembly} (h : a.IsNormal) (t : Token) : (a.add t).IsNormal := by
  have hopened : ∀ o ∈ a.flush.opened, Span.allNormal o.2 = true := by
    rw [opened_flush]
    exact h.opened
  cases t with
  | char c => exact ⟨h.spans, h.noText, h.opened⟩
  | tag t inner =>
    cases t with
    | lineBreak =>
      refine ⟨Span.allNormal_concat h.flush rfl ?_, Span.endsWithText_concat _ _, hopened⟩
      intro htext
      cases htext
    | opens style =>
      refine ⟨rfl, rfl, fun o ho => ?_⟩
      rcases List.mem_cons.1 ho with rfl | ho
      · exact h.flush
      · exact hopened o ho
    | closes style =>
      rw [Assembly.add]
      split
      · -- The run that ends goes behind the spans before it, and is no text.
        rename_i hstyle
        rw [← opened_flush] at hstyle
        cases ho : a.flush.opened with
        | nil => simp [ho] at hstyle
        | cons o rest =>
          obtain ⟨style', before⟩ := o
          rw [ho] at hopened
          simp only [close, ho]
          refine ⟨Span.allNormal_concat (hopened _ List.mem_cons_self) h.flush ?_,
            Span.endsWithText_concat _ _, fun o ho => hopened o (List.mem_cons_of_mem _ ho)⟩
          intro htext
          cases htext
      · exact ⟨h.spans, h.noText, h.opened⟩

theorem IsNormal.foldl_add {a : Assembly} (h : a.IsNormal) (ts : List Token) :
    (ts.foldl Assembly.add a).IsNormal := by
  induction ts generalizing a with
  | nil => exact h
  | cons t ts ih => exact ih (h.add t)

theorem allNormal_closeAll {opened : List (Style × List Span)} {spans : List Span}
    (ho : ∀ o ∈ opened, Span.allNormal o.2 = true) (hs : Span.allNormal spans = true) :
    Span.allNormal (closeAll opened spans) = true := by
  induction opened generalizing spans with
  | nil => exact hs
  | cons o rest ih =>
    refine ih (fun o ho' => ho o (List.mem_cons_of_mem _ ho')) ?_
    refine Span.allNormal_concat (ho o List.mem_cons_self) hs ?_
    intro htext
    cases htext

theorem IsNormal.finish {a : Assembly} (h : a.IsNormal) : Span.allNormal a.finish = true := by
  refine allNormal_closeAll ?_ h.flush
  rw [opened_flush]
  exact h.opened

end Assembly

theorem RichText.allNormal_parse (markup : String) :
    Span.allNormal (RichText.parse markup).spans = true := by
  have hempty : ({} : Assembly).IsNormal := ⟨rfl, rfl, by simp⟩
  exact (hempty.foldl_add _).finish

namespace Assembly

def meet (a : Assembly) : Event → Assembly
  | .char c => { a with pending := a.pending ++ [c] }
  | .lineBreak => ⟨a.opened, a.flush.spans ++ [.lineBreak], []⟩
  | .opens style => ⟨(style, a.flush.spans) :: a.opened, [], []⟩
  | .closes _ => a.flush.close

def put (a : Assembly) : Span → Assembly
  | .text s => { a with pending := a.pending ++ s.toList }
  | s => ⟨a.opened, a.flush.spans ++ [s], []⟩

theorem foldl_meet_chars (a : Assembly) (s : List Char) :
    (s.map Event.char).foldl meet a = { a with pending := a.pending ++ s } := by
  induction s generalizing a with
  | nil => simp
  | cons c s ih =>
    rw [List.map_cons, List.foldl_cons, ih]
    simp [meet]

/-- Normal spans that are put one after another stand side by side, unless the first of them is a
text and joins another one. -/
theorem flush_foldl_put {l : List Span} {a : Assembly} (hl : Span.allNormal l = true)
    (ha : Span.startsWithText l = true → a.pending = []) :
    (l.foldl put a).flush = ⟨a.opened, a.flush.spans ++ l, []⟩ := by
  induction l generalizing a with
  | nil => rw [List.foldl_nil, List.append_nil, ← flush_eq]
  | cons s l ih =>
    obtain ⟨hs, hstart, hrest⟩ := Span.allNormal_cons.1 hl
    have hput : (a.put s).opened = a.opened ∧ (a.put s).flush.spans = a.flush.spans ++ [s] := by
      cases s with
      | text s =>
        have hpending : a.pending = [] := ha rfl
        have hne : s.toList ≠ [] := by simpa [Span.isNormal] using hs
        simp [put, flush, hpending, hne]
      | lineBreak => simp [put, flush]
      | styled style inner => simp [put, flush]
    have hafter : Span.startsWithText l = true → (a.put s).pending = [] := by
      intro h
      cases s with
      | text s => simp [hstart rfl] at h
      | lineBreak => rfl
      | styled style inner => rfl
    rw [List.foldl_cons, ih hrest hafter, hput.1, hput.2, List.append_assoc, List.singleton_append]

end Assembly

open Assembly

mutual

theorem Span.foldl_meet_events (a : Assembly) : (s : Span) → s.isNormal = true →
    s.events.foldl meet a = a.put s
  | .text s, _ => foldl_meet_chars a s.toList
  | .lineBreak, _ => rfl
  | .styled style inner, h => by
    -- Inside the run the spans start afresh; its end puts them behind what stood before it.
    let b : Assembly := ⟨(style, a.flush.spans) :: a.opened, [], []⟩
    have hi : Span.allNormal inner = true := h
    have hinner : (inner.foldl put b).flush = ⟨b.opened, inner, []⟩ :=
      flush_foldl_put hi fun _ => rfl
    rw [Span.events, List.foldl_cons, List.foldl_append]
    show ((Span.eventsOf inner).foldl meet b).flush.close = a.put (.styled style inner)
    rw [Span.foldl_meet_eventsOf b inner hi, hinner]
    rfl

theorem Span.foldl_meet_eventsOf (a : Assembly) : (l : List Span) → Span.allNormal l = true →
    (Span.eventsOf l).foldl meet a = l.foldl put a
  | [], _ => rfl
  | s :: rest, h => by
    obtain ⟨hs, -, hrest⟩ := Span.allNormal_cons.1 h
    rw [Span.eventsOf, List.foldl_append, Span.foldl_meet_events a s hs, List.foldl_cons,
      Span.foldl_meet_eventsOf (a.put s) rest hrest]

end

def Span.ofEvents (es : List Event) : List Span := (es.foldl meet {}).flush.spans

theorem Span.ofEvents_eventsOf {l : List Span} (h : Span.allNormal l = true) :
    Span.ofEvents (Span.eventsOf l) = l := by
  rw [Span.ofEvents, Span.foldl_meet_eventsOf {} l h, flush_foldl_put h fun _ => rfl]
  rfl

theorem Span.eq_of_eventsOf_eq {l l' : List Span} (h : Span.allNormal l = true)
    (h' : Span.allNormal l' = true) (he : Span.eventsOf l = Span.eventsOf l') : l = l' := by
  rw [← Span.ofEvents_eventsOf h, he, Span.ofEvents_eventsOf h']

end StaticSite
