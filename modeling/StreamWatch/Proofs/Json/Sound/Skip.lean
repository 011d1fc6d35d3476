import StreamWatch.Proofs.Json.Sound.Single

/-!
# What is passed over is a value

The value of a member that no field is named after is passed over with a stack of open brackets.
What still has to come when some brackets are open is `ClosesAll`, and what is passed over when none
is open is one value of the grammar, with white space before it: `Reader.sound_skipValue`.
-/

namespace StreamWatch.Json

open Reader

variable {α : Type} {cs rest sp text : List Char} {bracket : Bracket} {opened outer : List Bracket}

/-- Whatever is read is a value, with white space before it. -/
def Reader.Sound (read : Reader α) : Prop :=
  ∀ ⦃cs a rest⦄, read cs = .ok (a, rest) →
    ∃ sp v, AllSpace sp ∧ IsValue v ∧ cs = sp ++ (v ++ rest)

/-! ## White space and punctuation -/

/-- Looking for a character passes over white space. -/
theorem eq_append_of_peek? {c? : Option Char} (h : peek? cs = .ok (c?, rest)) :
    ∃ sp, AllSpace sp ∧ cs = sp ++ rest := by
  cases h
  exact ⟨cs.takeWhile isSpace, List.all_eq_true.mp List.all_takeWhile,
    List.takeWhile_append_dropWhile.symm⟩

/-- A character that is seen stands behind white space. -/
theorem exists_space_of_peek? {c : Char} (h : peek? cs = .ok (some c, rest)) :
    ∃ sp tail, AllSpace sp ∧ rest = c :: tail ∧ cs = sp ++ c :: tail := by
  obtain ⟨sp, hsp, hcs⟩ := eq_append_of_peek? h
  obtain ⟨hhead, rfl⟩ := Prod.mk.inj (Except.ok.inj h)
  obtain ⟨tail, htail⟩ := List.head?_eq_some_iff.mp hhead
  exact ⟨sp, tail, hsp, htail, htail ▸ hcs⟩

/-- A value that is seen stands behind white space. -/
theorem exists_space_of_peekValue {c : Char} (h : peekValue cs = .ok (c, rest)) :
    ∃ sp tail, AllSpace sp ∧ rest = c :: tail ∧ cs = sp ++ c :: tail := by
  obtain ⟨c?, rest', hpeek, hc⟩ := bind_ok h
  cases c? with
  | none => cases hc
  | some d =>
      cases hc
      exact exists_space_of_peek? hpeek

/-- A colon stands behind white space. -/
theorem exists_space_of_colon {u : Unit} (h : colon cs = .ok (u, rest)) :
    ∃ sp, AllSpace sp ∧ cs = sp ++ ':' :: rest := by
  obtain ⟨c?, rest', hpeek, h⟩ := bind_ok h
  split at h
  · obtain ⟨sp, tail, hsp, rfl, hcs⟩ := exists_space_of_peek? hpeek
    cases h
    exact ⟨sp, hsp, hcs⟩
  · cases h
  · cases h

/-! ## Brackets -/

namespace Bracket

/-- The character that opens a bracket. -/
def opener : Bracket → Char
  | .list => '['
  | .object => '\x7b'

/-- The character that closes a bracket. -/
def closer : Bracket → Char
  | .list => ']'
  | .object => '\x7d'

/-- What closes a bracket is its closing character. -/
theorem eq_closer {c : Char} (h : bracket.closedBy c) : c = bracket.closer := by
  cases bracket <;> exact of_decide_eq_true h

/-- What comes next inside a bracket: an element of a list or a member of an object, without the
white space behind it. -/
inductive Item : Bracket → List Char → Prop
  | element {sp v : List Char} (hsp : AllSpace sp) (hv : IsValue v) : Item .list (sp ++ v)
  | member {m : Member} (hm : m.Spaced) (hafter : m.after = []) (hv : IsValue m.value) :
      Item .object m.text

/-- White space may be put before an item. -/
theorem Item.append {item : List Char} (h : bracket.Item item) (hsp : AllSpace sp) :
    bracket.Item (sp ++ item) := by
  cases h with
  | element hsp' hv =>
      rw [← List.append_assoc]
      exact .element (hsp.append hsp') hv
  | @member m hm hafter hv =>
      have htext : sp ++ m.text = Member.text { m with before := sp ++ m.before } := by
        simp [Member.text, Member.assigned]
      rw [htext]
      exact .member { hm with before := hsp.append hm.before } hafter hv

end Bracket

/-- The text closes all brackets that are open, behind a value in the innermost one. -/
inductive ClosesAll : List Bracket → List Char → Prop
  | nil : ClosesAll [] []
  | list {outer : List Bracket} {sp text : List Char} {es : List Element} (hsp : AllSpace sp)
      (hes : ∀ e ∈ es, e.Spaced ∧ IsValue e.value) (h : ClosesAll outer text) :
      ClosesAll (.list :: outer) (sp ++ (remaining false (es.map Element.text) ++ ']' :: text))
  | object {outer : List Bracket} {sp text : List Char} {ms : List Member} (hsp : AllSpace sp)
      (hms : ∀ m ∈ ms, m.Spaced ∧ IsValue m.value) (h : ClosesAll outer text) :
      ClosesAll (.object :: outer) (sp ++ (remaining false (ms.map Member.text) ++ '}' :: text))

namespace ClosesAll

/-- A bracket may be closed at once. -/
theorem close (hsp : AllSpace sp) (h : ClosesAll outer text) :
    ClosesAll (bracket :: outer) (sp ++ bracket.closer :: text) := by
  cases bracket with
  | list =>
      have hnone : ∀ e ∈ ([] : List Element), e.Spaced ∧ IsValue e.value := List.forall_mem_nil _
      exact .list hsp hnone h
  | object =>
      have hnone : ∀ m ∈ ([] : List Member), m.Spaced ∧ IsValue m.value := List.forall_mem_nil _
      exact .object hsp hnone h

/-- What closes the brackets behind an item closes them behind a comma and the item. -/
theorem next {item : List Char} (hsp : AllSpace sp) (hitem : bracket.Item item)
    (h : ClosesAll (bracket :: outer) text) :
    ClosesAll (bracket :: outer) (sp ++ ',' :: (item ++ text)) := by
  cases hitem with
  | @element before v hbefore hv =>
      obtain _ | @⟨_, after, text, es, hafter, hes, h⟩ := h
      have hall : ∀ e ∈ ⟨before, v, after⟩ :: es, e.Spaced ∧ IsValue e.value :=
        List.forall_mem_cons.mpr ⟨⟨⟨hbefore, hafter⟩, hv⟩, hes⟩
      simpa [remaining, Element.text] using ClosesAll.list hsp hall h
  | @member m hm hnone hv =>
      obtain _ | _ | @⟨_, after, text, ms, hafter, hms, h⟩ := h
      have hall : ∀ n ∈ { m with after } :: ms, n.Spaced ∧ IsValue n.value :=
        List.forall_mem_cons.mpr ⟨⟨{ hm with after := hafter }, hv⟩, hms⟩
      simpa [remaining, Member.text, Member.assigned, hnone] using ClosesAll.object hsp hall h

/-- An opening bracket, an item and what closes the bracket are a value. -/
theorem first {item : List Char} (hitem : bracket.Item item)
    (h : ClosesAll (bracket :: outer) text) :
    ∃ v text', IsValue v ∧ ClosesAll outer text' ∧
      bracket.opener :: (item ++ text) = v ++ text' := by
  cases hitem with
  | @element before v hbefore hv =>
      obtain _ | @⟨_, after, text, es, hafter, hes, h⟩ := h
      have hall : ∀ e ∈ ⟨before, v, after⟩ :: es, e.Spaced ∧ IsValue e.value :=
        List.forall_mem_cons.mpr ⟨⟨⟨hbefore, hafter⟩, hv⟩, hes⟩
      refine ⟨_, text, .of_elements .nil hall, h, ?_⟩
      simp [listText, remaining, Element.text, Bracket.opener]
  | @member m hm hnone hv =>
      obtain _ | _ | @⟨_, after, text, ms, hafter, hms, h⟩ := h
      have hall : ∀ n ∈ { m with after } :: ms, n.Spaced ∧ IsValue n.value :=
        List.forall_mem_cons.mpr ⟨⟨{ hm with after := hafter }, hv⟩, hms⟩
      refine ⟨_, text, .of_members .nil hall, h, ?_⟩
      simp [objectText, remaining, Member.text, Member.assigned, hnone, Bracket.opener]

end ClosesAll

/-- Brackets with nothing between them are a value. -/
theorem IsValue.of_empty (hsp : AllSpace sp) (bracket : Bracket) :
    IsValue (bracket.opener :: (sp ++ [bracket.closer])) := by
  cases bracket with
  | list =>
      have hnone : ∀ e ∈ ([] : List Element), e.Spaced ∧ IsValue e.value := List.forall_mem_nil _
      exact .of_elements hsp hnone
  | object =>
      have hnone : ∀ m ∈ ([] : List Member), m.Spaced ∧ IsValue m.value := List.forall_mem_nil _
      exact .of_members hsp hnone

/-- What may follow once closing brackets are passed over: nothing if none is open, and an item in
the innermost one otherwise. -/
inductive GoesOn : List Bracket → List Char → Prop
  | done : GoesOn [] []
  | next {bracket : Bracket} {outer : List Bracket} {item text : List Char}
      (hitem : bracket.Item item) (h : ClosesAll (bracket :: outer) text) :
      GoesOn (bracket :: outer) (item ++ text)

/-! ## Nested values -/

/-- A value is passed over, or a bracket is opened. -/
theorem exists_of_skipOpening {opening : Option Bracket}
    (h : skipOpening cs = .ok (opening, rest)) :
    ∃ sp, AllSpace sp ∧ ((opening = none ∧ ∃ v, IsValue v ∧ cs = sp ++ (v ++ rest)) ∨
      ∃ bracket, opening = some bracket ∧ cs = sp ++ bracket.opener :: rest) := by
  obtain ⟨c, rest', hpeek, hread⟩ := bind_ok h
  obtain ⟨sp, tail, hsp, rfl, rfl⟩ := exists_space_of_peekValue hpeek
  refine ⟨sp, hsp, ?_⟩
  have hvalue {v : List Char} (hv : IsValue v) (htext : c :: tail = v ++ rest) :
      ∃ v, IsValue v ∧ sp ++ c :: tail = sp ++ (v ++ rest) := ⟨v, hv, congrArg _ htext⟩
  split at hread
  · obtain ⟨u, rest', hword, hpure⟩ := bind_ok hread
    cases hpure
    exact .inl ⟨rfl, hvalue .null (eq_of_word hword)⟩
  · obtain ⟨u, rest', hword, hpure⟩ := bind_ok hread
    cases hpure
    exact .inl ⟨rfl, hvalue .true (eq_of_word hword)⟩
  · obtain ⟨u, rest', hword, hpure⟩ := bind_ok hread
    cases hpure
    exact .inl ⟨rfl, hvalue .false (eq_of_word hword)⟩
  · obtain ⟨u, rest', hskip, hpure⟩ := bind_ok hread
    cases hpure
    obtain ⟨text, htext, hquoted⟩ := exists_quoted_of_skipString hskip
    exact .inl ⟨rfl, hvalue (.string htext) hquoted⟩
  · cases hread
    exact .inr ⟨.list, rfl, rfl⟩
  · cases hread
    exact .inr ⟨.object, rfl, rfl⟩
  · split at hread
    · obtain ⟨u, rest', hskip, hpure⟩ := bind_ok hread
      cases hpure
      obtain ⟨text, htext, hnumber⟩ := exists_isNumber hskip
      exact .inl ⟨rfl, hvalue (.number htext) hnumber⟩
    · cases hread

/-- Behind a value, brackets are closed, and then another item may come. -/
theorem closesAll_of_skipClosing {bound : Nat} {opened' : List Bracket}
    (h : skipClosing bound true opened cs = .ok (opened', text ++ rest))
    (htext : GoesOn opened' text) : ∃ text', ClosesAll opened text' ∧ cs = text' ++ rest := by
  induction bound generalizing opened cs with
  | zero => cases h
  | succ bound ih =>
      cases opened with
      | nil =>
          obtain ⟨rfl, rfl⟩ := Prod.mk.inj (Except.ok.inj h)
          cases htext
          exact ⟨[], .nil, rfl⟩
      | cons bracket outer =>
          rw [skipClosing] at h
          obtain ⟨c?, rest', hpeek, hread⟩ := bind_ok h
          cases c? with
          | none => cases hread
          | some c =>
              obtain ⟨sp, tail, hsp, rfl, rfl⟩ := exists_space_of_peek? hpeek
              by_cases hcomma : c = ','
              · subst hcomma
                obtain ⟨rfl, rfl⟩ := Prod.mk.inj (Except.ok.inj hread)
                cases htext with
                | next hitem hclose =>
                    exact ⟨_, .next hsp hitem hclose, by simp⟩
              · by_cases hclosed : bracket.closedBy c
                · simp only [hcomma, and_false, if_false, hclosed, if_true] at hread
                  obtain ⟨text', hclose, rfl⟩ := ih hread
                  exact ⟨_, .close hsp hclose, by simp [Bracket.eq_closer hclosed]⟩
                · simp [hcomma, hclosed] at hread
                  cases hread

/-- Behind an opening bracket, it is closed at once, or a first item comes. -/
theorem isValue_of_skipClosing {bound : Nat} {opened' : List Bracket}
    (h : skipClosing bound false (bracket :: outer) cs = .ok (opened', text ++ rest))
    (htext : GoesOn opened' text) :
    ∃ v text', IsValue v ∧ ClosesAll outer text' ∧
      bracket.opener :: cs = v ++ (text' ++ rest) := by
  cases bound with
  | zero => cases h
  | succ bound =>
      rw [skipClosing] at h
      obtain ⟨c?, rest', hpeek, hread⟩ := bind_ok h
      cases c? with
      | none => cases hread
      | some c =>
          obtain ⟨sp, tail, hsp, rfl, rfl⟩ := exists_space_of_peek? hpeek
          by_cases hclosed : bracket.closedBy c
          · simp only [Bool.false_eq_true, false_and, if_false, hclosed, if_true] at hread
            obtain ⟨text', hclose, rfl⟩ := closesAll_of_skipClosing hread htext
            exact ⟨_, text', .of_empty hsp bracket, hclose, by simp [Bracket.eq_closer hclosed]⟩
          · simp only [Bool.false_eq_true, false_and, if_false, hclosed] at hread
            obtain ⟨rfl, htail⟩ := Prod.mk.inj (Except.ok.inj hread)
            cases htext with
            | next hitem hclose =>
                obtain ⟨v, text', hv, hclose', htext⟩ := ClosesAll.first (hitem.append hsp) hclose
                refine ⟨v, text', hv, hclose', ?_⟩
                rw [htail, ← List.append_assoc v, ← htext]
                simp

/-- A key and its colon are passed over. -/
theorem exists_of_skipKey {u : Unit} (h : skipKey cs = .ok (u, rest)) :
    ∃ before key space, AllSpace before ∧ IsStringText key ∧ AllSpace space ∧
      cs = before ++ (quoted key ++ (space ++ ':' :: rest)) := by
  obtain ⟨c?, rest', hpeek, hread⟩ := bind_ok h
  split at hread
  · obtain ⟨before, tail, hbefore, rfl, rfl⟩ := exists_space_of_peek? hpeek
    obtain ⟨u', rest', hskip, hcolon⟩ := bind_ok hread
    obtain ⟨key, hkey, hquoted⟩ := exists_quoted_of_skipString hskip
    obtain ⟨space, hspace, rfl⟩ := exists_space_of_colon hcolon
    exact ⟨before, key, space, hbefore, hkey, hspace, congrArg _ hquoted⟩
  · cases hread
  · cases hread

/-- A value in the innermost bracket is passed over, with all that closes the brackets. -/
theorem exists_of_skipValues {bound : Nat} {u : Unit}
    (h : skipValues bound opened cs = .ok (u, rest)) :
    ∃ sp v text, AllSpace sp ∧ IsValue v ∧ ClosesAll opened text ∧
      cs = sp ++ (v ++ (text ++ rest)) := by
  induction bound generalizing opened cs with
  | zero => cases h
  | succ bound ih =>
      rw [skipValues_succ] at h
      obtain ⟨opening, inside, hopening, h⟩ := bind_ok h
      obtain ⟨opened', behind, hclosing, hrest⟩ := bind_ok h
      obtain ⟨text, htext, rfl⟩ : ∃ text, GoesOn opened' text ∧ behind = text ++ rest := by
        match opened', hrest with
        | [], hrest =>
            cases hrest
            exact ⟨[], .done, rfl⟩
        | .list :: outer, hrest =>
            obtain ⟨sp, v, text, hsp, hv, hclose, rfl⟩ := ih hrest
            exact ⟨_, .next (.element hsp hv) hclose, by simp⟩
        | .object :: outer, hrest =>
            obtain ⟨u', rest', hskip, hvalues⟩ := bind_ok hrest
            obtain ⟨before, key, space, hbefore, hkey, hspace, rfl⟩ := exists_of_skipKey hskip
            obtain ⟨gap, v, text, hgap, hv, hclose, rfl⟩ := ih hvalues
            have hitem := Bracket.Item.member (m := ⟨before, key, space, gap, v, []⟩)
              ⟨hbefore, hspace, hgap, .nil, hkey⟩ rfl hv
            exact ⟨_, .next hitem hclose, by simp [Member.text, Member.assigned]⟩
      obtain ⟨sp, hsp, ⟨rfl, v, hv, rfl⟩ | ⟨bracket, rfl, rfl⟩⟩ := exists_of_skipOpening hopening
      · obtain ⟨text', hclose, rfl⟩ := closesAll_of_skipClosing hclosing htext
        exact ⟨sp, v, text', hsp, hv, hclose, rfl⟩
      · obtain ⟨v, text', hv, hclose, hvalue⟩ := isValue_of_skipClosing hclosing htext
        exact ⟨sp, v, text', hsp, hv, hclose, congrArg _ hvalue⟩

/-- What is passed over is a value. -/
theorem Reader.sound_skipValue : skipValue.Sound := by
  intro cs u rest h
  have hskip : skipValues (cs.length + 1) [] cs = .ok (u, rest) := h
  obtain ⟨sp, v, text, hsp, hv, hclose, rfl⟩ := exists_of_skipValues hskip
  cases hclose
  exact ⟨sp, v, hsp, hv, rfl⟩

end StreamWatch.Json
