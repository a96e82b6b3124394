import StaticSite.Proofs.Markup.Query
import StaticSite.Proofs.Markup.Shown

/-!
# Elements made by calls

An element starts bare, and calls add class names, set attributes and append children. The element
in the end is read off the calls, however many they are and however they are mixed: its attributes
stand in the order in which their names were set first, the last call that sets an attribute gives
its value, class names are those of the last value of the class attribute and those added after it,
and the children are those appended.
-/

namespace StaticSite

namespace Element

inductive Call where
  | addClass (names : String)
  | setAttribute (name value : String)
  | append (child : Node)
  | appendAll (children : List Node)

def call (e : Element) : Call → Element
  | .addClass names => e.addClass names
  | .setAttribute name value => e.setAttribute name value
  | .append child => e.append child
  | .appendAll children => e.appendAll children

def ofCalls (tag : String) (calls : List Call) : Element := calls.foldl call ⟨tag, [], []⟩

theorem ofCalls_concat (tag : String) (calls : List Call) (c : Call) :
    ofCalls tag (calls ++ [c]) = (ofCalls tag calls).call c := List.foldl_concat ..

theorem Built.call {e : Element} (h : e.Built) (c : Call) : (e.call c).Built := by
  cases c with
  | addClass names => exact h.addClass names
  | setAttribute name value => exact h.setAttribute name value
  | append child => exact h.append child
  | appendAll children => exact h.appendAll children

theorem built_ofCalls (tag : String) (calls : List Call) : (ofCalls tag calls).Built := by
  induction calls using List.reverseRecOn with
  | nil => exact .new tag
  | append_singleton calls c ih =>
    rw [ofCalls_concat]
    exact ih.call c

/-- The name of the attribute that a call gives a value. A blank text has no class names to add. -/
def Call.name? : Call → Option String
  | .addClass names => if Text.isBlankText names then none else some "class"
  | .setAttribute name _ => some name
  | .append _ => none
  | .appendAll _ => none

/-- The names that calls give values, each where it occurs first. -/
def namesSet (calls : List Call) : List String := (calls.filterMap Call.name?).eraseDups

theorem eraseDups_concat (l : List String) (x : String) :
    (l ++ [x]).eraseDups = if x ∈ l.eraseDups then l.eraseDups else l.eraseDups ++ [x] := by
  rw [List.eraseDups_append]
  by_cases h : x ∈ l <;> simp [List.removeAll, h, List.eraseDups_cons]

theorem keys_addClass (e : Element) {names : String} (h : Text.isBlankText names = false) :
    (e.addClass names).attributes.map Prod.fst =
      if "class" ∈ e.attributes.map Prod.fst then e.attributes.map Prod.fst
      else e.attributes.map Prod.fst ++ ["class"] := by
  have hne : Text.trim names ≠ "" := by
    rw [ne_eq, Text.trim_eq_empty_iff, h]
    exact Bool.false_ne_true
  simp only [addClass, if_neg hne, keys_updateAttribute]

theorem addClass_of_blank (e : Element) {names : String} (h : Text.isBlankText names = true) :
    e.addClass names = e := by
  simp only [addClass, Text.trim_eq_empty_iff.2 h, if_true]

/-- A call gives its name a place at the end, unless the name has a place. -/
theorem keys_call (e : Element) (c : Call) :
    (e.call c).attributes.map Prod.fst =
      match c.name? with
      | none => e.attributes.map Prod.fst
      | some name =>
        if name ∈ e.attributes.map Prod.fst then e.attributes.map Prod.fst
        else e.attributes.map Prod.fst ++ [name] := by
  cases c with
  | addClass names =>
    cases hblank : Text.isBlankText names with
    | true => simp only [call, Call.name?, addClass_of_blank e hblank, hblank, if_true]
    | false =>
      simp only [call, Call.name?, hblank, Bool.false_eq_true, if_false]
      exact keys_addClass e hblank
  | setAttribute name value => exact keys_updateAttribute name _ _
  | append child => rfl
  | appendAll children => rfl

theorem keys_ofCalls (tag : String) (calls : List Call) :
    (ofCalls tag calls).attributes.map Prod.fst = namesSet calls := by
  induction calls using List.reverseRecOn with
  | nil => rfl
  | append_singleton calls c ih =>
    rw [ofCalls_concat, keys_call, ih, namesSet, namesSet, List.filterMap_append]
    cases hname : c.name? with
    | none => simp [hname]
    | some name => simp [hname, eraseDups_concat]

def Call.value? (name : String) : Call → Option String
  | .setAttribute n value => if n = name then some value else none
  | _ => none

theorem attribute?_call (e : Element) (c : Call) {name : String} (hn : name ≠ "class") :
    (e.call c).attribute? name = (c.value? name).or (e.attribute? name) := by
  cases c with
  | addClass names => exact attribute?_addClass e names hn
  | setAttribute n value =>
    simp only [call, attribute?_setAttribute, Call.value?, eq_comm (a := n)]
    split <;> rfl
  | append child => rfl
  | appendAll children => rfl

theorem attribute?_ofCalls (tag : String) (calls : List Call) {name : String}
    (hn : name ≠ "class") :
    (ofCalls tag calls).attribute? name = (calls.filterMap (Call.value? name)).getLast? := by
  induction calls using List.reverseRecOn with
  | nil => rfl
  | append_singleton calls c ih =>
    rw [ofCalls_concat, attribute?_call _ c hn, ih, List.filterMap_append, List.getLast?_append]
    cases hvalue : c.value? name <;> simp [hvalue]

/-- A call brings class names in a text: it adds them, or it sets the class attribute to the
text. -/
def Call.Brings (text : String) (c : Call) : Prop :=
  c = .addClass text ∨ c = .setAttribute "class" text

/-- A text gives class names in the end: a call brings them, and the class attribute is not set after
that. -/
def GivesClasses (calls : List Call) (text : String) : Prop :=
  ∃ before c after, calls = before ++ c :: after ∧ c.Brings text ∧
    ∀ value, .setAttribute "class" value ∉ after

theorem givesClasses_concat_iff (calls : List Call) (c : Call) (text : String) :
    GivesClasses (calls ++ [c]) text ↔
      c.Brings text ∨ (∀ value, c ≠ .setAttribute "class" value) ∧ GivesClasses calls text := by
  constructor
  · rintro ⟨before, d, after, h, hd, hafter⟩
    rcases List.eq_nil_or_concat after with rfl | ⟨front, last, rfl⟩
    · obtain ⟨-, hc⟩ := List.append_inj' h rfl
      obtain rfl : c = d := List.singleton_inj.1 hc
      exact .inl hd
    · have hsplit : calls ++ [c] = (before ++ d :: front) ++ [last] := by rw [h]; simp
      obtain ⟨rfl, hc⟩ := List.append_inj' hsplit rfl
      obtain rfl : c = last := List.singleton_inj.1 hc
      refine .inr ⟨fun value hvalue => ?_, before, d, front, rfl, hd, fun value hmem => ?_⟩
      · exact hafter value (by simp [hvalue])
      · exact hafter value (by simp [hmem])
  · rintro (hc | ⟨hlast, before, d, after, rfl, hd, hafter⟩)
    · exact ⟨calls, c, [], rfl, hc, fun value => List.not_mem_nil⟩
    · refine ⟨before, d, after ++ [c], by simp, hd, fun value hmem => ?_⟩
      rcases List.mem_append.1 hmem with hmem | hmem
      · exact hafter value hmem
      · exact hlast value (List.mem_singleton.1 hmem).symm

theorem classNames_setClass (e : Element) (value : String) :
    (e.setAttribute "class" value).classNames = Text.words value := by
  simp [classNames, attribute?, setAttribute, lookup_updateAttribute]

/-- A class name comes with the call, or it is there before and the call does not set the class
attribute. -/
theorem mem_classNames_call (e : Element) (c : Call) (name : String) :
    name ∈ (e.call c).classNames ↔
      (∃ text, c.Brings text ∧ name ∈ Text.words text) ∨
        (∀ value, c ≠ .setAttribute "class" value) ∧ name ∈ e.classNames := by
  cases c with
  | addClass names =>
    rw [call, classNames_addClass, Text.words_trim, List.mem_append, or_comm]
    simp [Call.Brings]
  | setAttribute n value =>
    rw [call]
    by_cases h : n = "class"
    · subst h
      rw [classNames_setClass]
      simp [Call.Brings]
    · rw [classNames_setAttribute e h]
      simp [Call.Brings, h]
  | append child => simp [call, Call.Brings, append, classNames, attribute?]
  | appendAll children => simp [call, Call.Brings, appendAll, classNames, attribute?]

theorem mem_classNames_ofCalls (tag : String) (calls : List Call) (name : String) :
    name ∈ (ofCalls tag calls).classNames ↔
      ∃ text, GivesClasses calls text ∧ name ∈ Text.words text := by
  induction calls using List.reverseRecOn with
  | nil => simp [ofCalls, classNames, attribute?, GivesClasses]
  | append_singleton calls c ih =>
    rw [ofCalls_concat, mem_classNames_call, ih]
    simp only [givesClasses_concat_iff, or_and_right, exists_or, and_assoc, exists_and_left]

def Call.nodes : Call → List Node
  | .append child => [child]
  | .appendAll children => children
  | _ => []

theorem children_call (e : Element) (c : Call) : (e.call c).children = e.children ++ c.nodes := by
  cases c with
  | addClass names => exact (children_addClass e names).trans (List.append_nil _).symm
  | setAttribute name value => exact (List.append_nil _).symm
  | append child => rfl
  | appendAll children => rfl

theorem children_ofCalls (tag : String) (calls : List Call) :
    (ofCalls tag calls).children = calls.flatMap Call.nodes := by
  induction calls using List.reverseRecOn with
  | nil => rfl
  | append_singleton calls c ih =>
    rw [ofCalls_concat, children_call, ih, List.flatMap_append, List.flatMap_singleton]

/-- Whatever calls are made on a bare element, and in whatever order, no name has two attributes,
and the attributes stand in the order in which their names were set first. The value of an attribute
other than the class is that of the last call that sets it. The class names are the words of the
last value of the class attribute and of what was added after it, or of all that was added if the
attribute was never set. The children are those that were appended, in order. -/
theorem made_by_calls (tag : String) (calls : List Call) :
    let e := ofCalls tag calls
    (e.attributes.map Prod.fst).Nodup ∧
      e.attributes.map Prod.fst = namesSet calls ∧
      (∀ name, name ≠ "class" →
        e.attribute? name = (calls.filterMap (Call.value? name)).getLast?) ∧
      (∀ name, name ≠ "" → IsSolid name →
        (e.hasClass name = true ↔ ∃ text, GivesClasses calls text ∧ Text.IsWordOf name text)) ∧
      e.children = calls.flatMap Call.nodes := by
  intro e
  refine ⟨(built_ofCalls tag calls).nodup_attributes, keys_ofCalls tag calls,
    fun name hn => attribute?_ofCalls tag calls hn, fun name hne hsolid => ?_,
    children_ofCalls tag calls⟩
  rw [hasClass_eq, decide_eq_true_eq, mem_classNames_ofCalls]
  simp only [Text.mem_words_iff hsolid hne]

/-- A class attribute that is set to a blank text loses the names that it had, and keeps its place
before a link that is set twice. -/
theorem made_by_calls_reset :
    let calls : List Call :=
      [.addClass " big\tred ", .setAttribute "href" "/x", .append (.text "a"),
        .setAttribute "class" "\u00a0", .addClass "nav  bar", .addClass " ",
        .setAttribute "href" "/y", .appendAll [.text "b", .empty]]
    let e := ofCalls "a" calls
    "href" ≠ "class" ∧ "bar" ≠ "" ∧ IsSolid "bar" ∧
      e.attributes.map Prod.fst = ["class", "href"] ∧ e.attribute? "href" = some "/y" ∧
      e.hasClass "bar" = true ∧ e.hasClass "red" = false ∧
      e.children = [.text "a", .text "b", .empty] := by
  intro calls e
  have hbar : IsSolid "bar" := by decide
  have hadded : GivesClasses calls "nav  bar" := by
    refine ⟨calls.take 4, .addClass "nav  bar", calls.drop 5, rfl, .inl rfl, fun value => ?_⟩
    simp [calls]
  obtain ⟨-, hkeys, hvalue, hclass, hchildren⟩ := made_by_calls "a" calls
  have hset : namesSet calls = ["class", "href"] := by decide +kernel
  exact ⟨by decide, by decide, hbar, hkeys.trans hset, hvalue "href" (by decide),
    (hclass "bar" (by decide) hbar).2 ⟨"nav  bar", hadded, by decide +kernel⟩, by decide +kernel,
    hchildren⟩

end Element

end StaticSite
