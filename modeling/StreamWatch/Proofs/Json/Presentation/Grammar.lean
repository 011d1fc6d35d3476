import StreamWatch.Proofs.Json.RoundTrip.Bracket

/-!
# The grammar of JSON

What is a JSON value, with white space wherever it may stand. The parts of lists and objects are
kept apart, so that texts can be taken to pieces and put together again.
-/

namespace StreamWatch.Json

/-- White space and nothing else. -/
def AllSpace (cs : List Char) : Prop := ∀ c ∈ cs, isSpace c

/-- What may follow a value or a key: nothing, white space or punctuation. -/
def Ends (rest : List Char) : Prop :=
  ∀ c ∈ rest.head?, isSpace c ∨ c ∈ [',', ']', '}', ':']

/-! ## Strings -/

/-- What stands between the quotes of a string. -/
inductive IsStringText : List Char → Prop
  | nil : IsStringText []
  | plain {c : Char} {cs : List Char} (hquote : c ≠ '"') (hbackslash : c ≠ '\\')
      (hcontrol : ¬ c.toNat < 0x20) (h : IsStringText cs) : IsStringText (c :: cs)
  | letter {c : Char} {cs : List Char} (hc : c ∈ ['"', '\\', '/', 'b', 'f', 'n', 'r', 't'])
      (h : IsStringText cs) : IsStringText ('\\' :: c :: cs)
  | unicode {a b d e : Char} {cs : List Char} (hdigits : ∀ c ∈ [a, b, d, e], (Hex.value? c).isSome)
      (h : IsStringText cs) : IsStringText ('\\' :: 'u' :: a :: b :: d :: e :: cs)

/-- A text between quotes. -/
def quoted (text : List Char) : List Char := '"' :: (text ++ ['"'])

/-! ## Numbers -/

/-- One digit or more. -/
structure IsDigits (ds : List Char) : Prop where
  ne_nil : ds ≠ []
  isDigit : ∀ d ∈ ds, d.isDigit

/-- The fraction of a number, if it has one. -/
inductive IsFraction : List Char → Prop
  | none : IsFraction []
  | digits {ds : List Char} (h : IsDigits ds) : IsFraction ('.' :: ds)

/-- The exponent of a number, if it has one. -/
inductive IsExponent : List Char → Prop
  | none : IsExponent []
  | digits {e : Char} {sign ds : List Char} (he : e = 'e' ∨ e = 'E')
      (hsign : sign = [] ∨ sign = ['+'] ∨ sign = ['-']) (h : IsDigits ds) :
      IsExponent (e :: (sign ++ ds))

/-- A number: its sign, digits without a leading zero, its fraction and its exponent. -/
inductive IsNumber : List Char → Prop
  | parts {negative : Bool} {whole fraction exponent : List Char} (hwhole : IsDigits whole)
      (hzero : whole.head? = some '0' → whole = ['0']) (hfraction : IsFraction fraction)
      (hexponent : IsExponent exponent) :
      IsNumber ((if negative then ['-'] else []) ++ (whole ++ (fraction ++ exponent)))

/-! ## Lists and objects -/

/-- An element of a list and the white space around it. -/
structure Element where
  before : List Char
  value : List Char
  after : List Char

/-- A member of an object and the white space around its parts. -/
structure Member where
  before : List Char
  /-- What stands between the quotes. -/
  key : List Char
  colon : List Char
  gap : List Char
  value : List Char
  after : List Char

def Element.text (e : Element) : List Char := e.before ++ (e.value ++ e.after)

/-- The colon and the value of a member. -/
def Member.assigned (m : Member) : List Char := m.colon ++ ':' :: (m.gap ++ m.value)

def Member.text (m : Member) : List Char :=
  m.before ++ (quoted m.key ++ (m.assigned ++ m.after))

/-- There is nothing but white space around the element. -/
structure Element.Spaced (e : Element) : Prop where
  before : AllSpace e.before
  after : AllSpace e.after

/-- There is nothing but white space around the parts of the member, and its key is a string. -/
structure Member.Spaced (m : Member) : Prop where
  before : AllSpace m.before
  colon : AllSpace m.colon
  gap : AllSpace m.gap
  after : AllSpace m.after
  key : IsStringText m.key

/-- A member with no white space around its parts. -/
def Member.plain (key : String) (value : List Char) : Member := ⟨[], key.toList, [], [], value, []⟩

/-- The text of a list; white space may stand in it even if there are no elements. -/
def listText (blank : List Char) (elements : List Element) : List Char :=
  '[' :: (blank ++ (remaining true (elements.map Element.text) ++ [']']))

/-- The text of an object. -/
def objectText (blank : List Char) (members : List Member) : List Char :=
  '{' :: (blank ++ (remaining true (members.map Member.text) ++ ['}']))

/-- The text of a JSON value. -/
inductive IsValue : List Char → Prop
  | null : IsValue ['n', 'u', 'l', 'l']
  | true : IsValue ['t', 'r', 'u', 'e']
  | false : IsValue ['f', 'a', 'l', 's', 'e']
  | number {text : List Char} (h : IsNumber text) : IsValue text
  | string {text : List Char} (h : IsStringText text) : IsValue (quoted text)
  | list {blank : List Char} {elements : List Element} (hblank : AllSpace blank)
      (hspaced : ∀ e ∈ elements, e.Spaced) (h : ∀ e ∈ elements, IsValue e.value) :
      IsValue (listText blank elements)
  | object {blank : List Char} {members : List Member} (hblank : AllSpace blank)
      (hspaced : ∀ m ∈ members, m.Spaced) (h : ∀ m ∈ members, IsValue m.value) :
      IsValue (objectText blank members)

/-- A text that needs no escapes. -/
theorem IsStringText.of_all {text : List Char}
    (h : text.all fun c => c ≠ '"' && c ≠ '\\' && !(c.toNat < 0x20)) : IsStringText text := by
  induction text with
  | nil => exact .nil
  | cons c text ih =>
      simp only [List.all_cons, Bool.and_eq_true, decide_eq_true_eq, Bool.not_eq_true',
        decide_eq_false_iff_not] at h
      exact .plain h.1.1.1 h.1.1.2 h.1.2 (ih h.2)

/-- Elements that are values, and have white space around them, make a list. -/
theorem IsValue.of_elements {blank : List Char} {es : List Element} (hblank : AllSpace blank)
    (hes : ∀ e ∈ es, e.Spaced ∧ IsValue e.value) : IsValue (listText blank es) := by
  obtain ⟨hspaced, hvalue⟩ := forall₂_and.mp hes
  exact .list hblank hspaced hvalue

/-- Members with values, and white space around their parts, make an object. -/
theorem IsValue.of_members {blank : List Char} {ms : List Member} (hblank : AllSpace blank)
    (hms : ∀ m ∈ ms, m.Spaced ∧ IsValue m.value) : IsValue (objectText blank ms) := by
  obtain ⟨hspaced, hvalue⟩ := forall₂_and.mp hms
  exact .object hblank hspaced hvalue

/-! ## First characters -/

theorem AllSpace.nil : AllSpace [] := List.forall_mem_nil _

theorem AllSpace.append {sp sp' : List Char} (h : AllSpace sp) (h' : AllSpace sp') :
    AllSpace (sp ++ sp') :=
  List.forall_mem_append.mpr ⟨h, h'⟩

/-- A member whose key needs no escapes is written without white space. -/
theorem Member.spaced_plain {key : String} (h : IsStringText key.toList) (value : List Char) :
    (Member.plain key value).Spaced where
  before := .nil
  colon := .nil
  gap := .nil
  after := .nil
  key := h

/-- White space that is passed over may as well not be there. -/
theorem dropWhile_isSpace_append {sp : List Char} (h : AllSpace sp) (cs : List Char) :
    (sp ++ cs).dropWhile isSpace = cs.dropWhile isSpace :=
  List.dropWhile_append_of_pos h

theorem Ends.nil : Ends [] := by simp [Ends]

/-- White space and punctuation may follow a value. -/
theorem Ends.cons {c : Char} {rest : List Char}
    (h : isSpace c ∨ c ∈ [',', ']', '}', ':']) : Ends (c :: rest) := by
  rintro d ⟨⟩
  exact h

/-- White space may come first. -/
theorem Ends.append {sp rest : List Char} (hsp : AllSpace sp) (h : Ends rest) :
    Ends (sp ++ rest) := by
  cases sp with
  | nil => exact h
  | cons c sp => exact .cons (Or.inl (hsp c List.mem_cons_self))

/-- No digit may follow a value. -/
theorem Ends.not_digit {rest : List Char} (h : Ends rest) : startsWithDigit rest = false := by
  cases rest with
  | nil => rfl
  | cons c rest =>
      rcases h c rfl with hc | hc
      · exact isDigit_of_isSpace hc
      · simp only [List.mem_cons, List.not_mem_nil, or_false] at hc
        rcases hc with rfl | rfl | rfl | rfl <;> rfl

/-- A number starts with a digit or with its sign. -/
theorem IsNumber.starts {text : List Char} (h : IsNumber text) :
    ∃ c rest, text = c :: rest ∧ startsNumber c := by
  cases h with
  | @parts negative whole fraction exponent hwhole _ _ _ =>
      cases negative with
      | true => exact ⟨'-', _, rfl, by decide⟩
      | false =>
          obtain ⟨d, ds, rfl⟩ := List.exists_cons_of_ne_nil hwhole.ne_nil
          have hd := hwhole.isDigit d List.mem_cons_self
          exact ⟨d, _, rfl, by simp [startsNumber, hd]⟩

/-- What a number starts with. -/
theorem IsNumber.startsNumber_of_head {text : List Char} (h : IsNumber text) {c : Char}
    (hc : text.head? = some c) : startsNumber c := by
  obtain ⟨d, rest, rfl, hd⟩ := h.starts
  cases hc
  exact hd

end StreamWatch.Json
