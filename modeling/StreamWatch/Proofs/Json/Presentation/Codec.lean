import StreamWatch.Proofs.Json.Lenient.Codec
import StreamWatch.Proofs.Json.Presentation.Skip

/-!
# Typed values, whatever follows them

A codec is `Regular` if it passes over white space before a value and reads every JSON value exactly
or not at all. Codecs of single values are regular, and codecs of values made of values are regular
where those of their parts are.
-/

namespace StreamWatch.Json

open Reader

variable {α β : Type} {v : List Char}

/-- The codec passes over white space before a value, and takes just the value that it reads. -/
structure Codec.Regular (codec : Codec α) : Prop where
  spaced : codec.read.Spaced
  exact : ∀ {v}, IsValue v → codec.read.Exact v

/-! ## What values start with -/

namespace IsValue

/-- A value that starts with a quote is a string. -/
theorem exists_string (h : IsValue v) (hv : v.head? = some '"') :
    ∃ text, IsStringText text ∧ v = quoted text := by
  cases h with
  | string h => exact ⟨_, h, rfl⟩
  | number h => cases h.startsNumber_of_head hv
  | _ => simp [listText, objectText] at hv

/-- A value that starts with a square bracket is a list. -/
theorem exists_list (h : IsValue v) (hv : v.head? = some '[') :
    ∃ blank es, AllSpace blank ∧ (∀ e ∈ es, e.Spaced) ∧ (∀ e ∈ es, IsValue e.value) ∧
      v = listText blank es := by
  cases h with
  | list hblank hspaced h => exact ⟨_, _, hblank, hspaced, h, rfl⟩
  | number h => cases h.startsNumber_of_head hv
  | _ => simp [quoted, objectText] at hv

/-- A value that starts with a brace is an object. -/
theorem exists_object (h : IsValue v) (hv : v.head? = some '{') :
    ∃ blank ms, AllSpace blank ∧ (∀ m ∈ ms, m.Spaced) ∧ (∀ m ∈ ms, IsValue m.value) ∧
      v = objectText blank ms := by
  cases h with
  | object hblank hspaced h => exact ⟨_, _, hblank, hspaced, h, rfl⟩
  | number h => cases h.startsNumber_of_head hv
  | _ => simp [quoted, listText] at hv

/-- A value that starts with the first letter of the word for no value is that word. -/
theorem eq_null (h : IsValue v) (hv : v.head? = some 'n') : v = ['n', 'u', 'l', 'l'] := by
  cases h with
  | null => rfl
  | number h => cases h.startsNumber_of_head hv
  | _ => simp [quoted, listText, objectText] at hv

theorem eq_true (h : IsValue v) (hv : v.head? = some 't') : v = ['t', 'r', 'u', 'e'] := by
  cases h with
  | true => rfl
  | number h => cases h.startsNumber_of_head hv
  | _ => simp [quoted, listText, objectText] at hv

theorem eq_false (h : IsValue v) (hv : v.head? = some 'f') : v = ['f', 'a', 'l', 's', 'e'] := by
  cases h with
  | false => rfl
  | number h => cases h.startsNumber_of_head hv
  | _ => simp [quoted, listText, objectText] at hv

/-- A value that starts as a number does is a number. -/
theorem isNumber (h : IsValue v) {c : Char} (hv : v.head? = some c) (hc : startsNumber c) :
    IsNumber v := by
  cases h with
  | number h => exact h
  | _ =>
      cases hv
      cases hc

end IsValue

/-! ## Single values -/

/-- A value is read by what its first character says. -/
theorem exact_peekValue (hv : IsValue v) {f : Char → Reader α}
    (h : ∀ c, v.head? = some c → (f c).Exact v) : (peekValue >>= f).Exact v := by
  obtain ⟨c, text, rfl, hc⟩ := Opens.of_isValue hv
  exact Exact.peekValue hc.not_space (h c rfl)

/-- Nothing is read from a value that does not fit. -/
theorem exact_mismatch (expected : String) (v : List Char) :
    (Codec.mismatch expected : Reader α).Exact v :=
  Exact.of_ne_ok fun _ _ _ => mismatch_ne_ok _ _ _

theorem spaced_readText (expected : String) : (Codec.readText expected).Spaced :=
  spaced_peekValue.bind _

/-- A text is read exactly, or nothing is read because the value is no string. -/
theorem exact_readText (expected : String) (hv : IsValue v) :
    (Codec.readText expected).Exact v := by
  refine exact_peekValue hv fun c hc => ?_
  split
  · obtain ⟨text, htext, rfl⟩ := hv.exists_string hc
    exact (constant_string htext).exact
  · exact exact_mismatch _ _

theorem spaced_readNumber (expected : String) : (Codec.readNumber expected).Spaced :=
  spaced_peekValue.bind _

/-- A number is read exactly, or nothing is read because the value is no number. -/
theorem exact_readNumber (expected : String) (hv : IsValue v) :
    (Codec.readNumber expected).Exact v := by
  refine exact_peekValue hv fun c hc => ?_
  split
  · next hstarts => exact (constant_number (hv.isNumber hc hstarts)).exact
  · exact exact_mismatch _ _

theorem spaced_readInteger (expected : String) (least greatest : Int) :
    (Codec.readInteger expected least greatest).Spaced :=
  (spaced_readNumber expected).bind _

/-- An integer is read exactly, and being out of bounds is a fault. -/
theorem exact_readInteger (expected : String) (least greatest : Int) (hv : IsValue v) :
    (Codec.readInteger expected least greatest).Exact v := by
  refine (exact_readNumber expected hv).bind fun number => ?_
  split
  · split
    · exact .pure _
    · exact .throw _ _
  · exact .throw _ _

theorem spaced_readName (names : List (String × α)) : (Codec.readName names).Spaced :=
  (spaced_readText _).bind _

/-- A name is read exactly, and one that is not in the table is a fault. -/
theorem exact_readName (names : List (String × α)) (hv : IsValue v) :
    (Codec.readName names).Exact v := by
  refine (exact_readText _ hv).bind fun name => ?_
  split
  · exact .pure _
  · exact .throw _ _

theorem spaced_readNull : Codec.readNull.Spaced := spaced_peekValue.bind _

/-- The word for no value is read exactly, and nothing is read from another value. -/
theorem exact_readNull (hv : IsValue v) : Codec.readNull.Exact v := by
  refine exact_peekValue hv fun c hc => ?_
  split
  · obtain rfl := hv.eq_null hc
    exact Reads.exact (a := ()) fun _ _ => rfl
  · exact exact_mismatch _ _

namespace Codec.Regular

/-- A flag is one of two words. -/
theorem flag : Codec.flag.Regular where
  spaced := spaced_peekValue.bind _
  exact hv := by
    refine exact_peekValue hv fun c hc => ?_
    split
    · obtain rfl := hv.eq_true hc
      exact Reads.exact (a := true) fun _ _ => rfl
    · obtain rfl := hv.eq_false hc
      exact Reads.exact (a := false) fun _ _ => rfl
    · exact exact_mismatch _ _

theorem text : Codec.text.Regular where
  spaced := spaced_readText _
  exact hv := exact_readText _ hv

theorem uuid : Codec.uuid.Regular where
  spaced := (spaced_readText _).bind _
  exact hv := by
    refine (exact_readText _ hv).bind fun s => ?_
    split
    · exact .pure _
    · exact .throw _ _

theorem int64 : Codec.int64.Regular where
  spaced := (spaced_readInteger _ _ _).bind _
  exact hv := (exact_readInteger _ _ _ hv).bind fun _ => .pure _

theorem uint32 : Codec.uint32.Regular where
  spaced := (spaced_readInteger _ _ _).bind _
  exact hv := (exact_readInteger _ _ _ hv).bind fun _ => .pure _

/-- A number with a fraction or without is read as a double. -/
theorem real : Codec.real.Regular where
  spaced := (spaced_readNumber _).bind _
  exact hv := by
    refine (exact_readNumber _ hv).bind fun number => ?_
    split
    · exact .pure _
    · exact .pure _

end Codec.Regular

/-! ## Names -/

/-- Before a quote, a text is read as a string. -/
theorem readText_quoted (expected : String) (text rest : List Char) :
    Codec.readText expected (quoted text ++ rest) = Reader.string (quoted text ++ rest) :=
  bind_of_ok (peekValue_cons (by decide) _) _

/-- Passes over the closing brace behind an alternative. -/
def Codec.closeSole (a : α) : Reader α := do
  match ← Reader.peek? with
  | some '}' => Reader.advance; return a
  | some _ => throw .expectedValue
  | none => throw .endsInObject

/-- Reads an alternative that is the one member of an object, behind the opening brace. -/
def Codec.readSole (names : List (String × α)) : Reader α := do
  let a ← readName names
  Reader.colon
  readNull
  closeSole a

/-- An alternative ends with the closing brace, past white space. -/
theorem closeSole_close {sp : List Char} (hsp : AllSpace sp) (a : α) (rest : List Char) :
    Codec.closeSole a (sp ++ '}' :: rest) = .ok (a, rest) := by
  rw [Codec.closeSole, bind_of_ok (peek?_before hsp (by decide) rest)]
  rfl

/-- No other member may follow an alternative. -/
theorem closeSole_comma {sp : List Char} (hsp : AllSpace sp) (a : α) (rest : List Char) :
    Codec.closeSole a (sp ++ ',' :: rest) = .error .expectedValue := by
  rw [Codec.closeSole, bind_of_ok (peek?_before hsp (by decide) rest)]
  rfl

section Sole

variable {blank : List Char} (hblank : AllSpace blank)
include hblank

/-- An empty object names no alternative. -/
theorem readSole_nil_ne_ok (names : List (String × α)) (rest : List Char) (r : α × List Char) :
    (advance >>= fun _ => Codec.readSole names) (objectText blank [] ++ rest) ≠ .ok r := by
  intro hread
  have htext : (advance >>= fun _ => Codec.readSole names) (objectText blank [] ++ rest) =
      Codec.readSole names (blank ++ '}' :: rest) := by
    simp [objectText, remaining]
    rfl
  have hmismatch : Codec.readText "variant identifier" ('}' :: rest) =
      Codec.mismatch "variant identifier" ('}' :: rest) := rfl
  rw [htext, Codec.readSole, (spaced_readName names).bind _ hblank] at hread
  obtain ⟨a, r', hname, -⟩ := bind_ok hread
  obtain ⟨name, r'', hname, -⟩ := bind_ok hname
  exact mismatch_ne_ok _ _ _ (hmismatch.symm.trans hname)

/-- An object names an alternative if that is its only member and null. -/
theorem exact_sole (names : List (String × α)) {ms : List Member} (hspaced : ∀ m ∈ ms, m.Spaced)
    (hvalue : ∀ m ∈ ms, IsValue m.value) :
    (advance >>= fun _ => Codec.readSole names).Exact (objectText blank ms) := by
  cases ms with
  | nil => exact .of_ne_ok fun rest a r => readSole_nil_ne_ok hblank names rest (a, r)
  | cons m ms =>
      rw [List.forall_mem_cons] at hspaced hvalue
      have htext (rest : List Char) :
          (advance >>= fun _ => Codec.readSole names) (objectText blank (m :: ms) ++ rest) =
            Codec.readSole names (quoted m.key ++ (m.assigned ++ (m.after ++
              (remaining false (ms.map Member.text) ++ '}' :: rest)))) := by
        have hspace := hblank.append hspaced.1.before
        rw [Codec.readSole, ← (spaced_readName names).bind _ hspace]
        simp [objectText, remaining, Member.text]
        rfl
      have hends (rest : List Char) :=
        (ends_remaining (ms.map Member.text) (Or.inr rfl) rest).append hspaced.1.after
      intro rest a r hrest hread
      rw [htext] at hread
      obtain ⟨a', r', hname, hread⟩ := bind_ok hread
      obtain ⟨rfl, hreadsName⟩ :=
        exact_readName names (.string hspaced.1.key) (ends_assigned hspaced.1 _) hname
      have hassigned := colon_assigned hspaced.1 (spaced_readNull.bind fun _ => Codec.closeSole a')
      rw [hassigned] at hread
      obtain ⟨_, r', hnull, hclose⟩ := bind_ok hread
      obtain ⟨rfl, hreads⟩ := exact_readNull hvalue.1 (hends rest) hnull
      cases ms with
      | nil =>
          cases (closeSole_close hspaced.1.after a' rest).symm.trans hclose
          refine ⟨rfl, fun rest' _ => ?_⟩
          rw [htext, Codec.readSole, bind_of_ok (hreadsName (ends_assigned hspaced.1 _)),
            hassigned, bind_of_ok (hreads (hends rest'))]
          exact closeSole_close hspaced.1.after _ rest'
      | cons m' ms => cases (closeSole_comma hspaced.1.after a' _).symm.trans hclose

end Sole

namespace Codec.Regular

/-- A name is a text, or the one key of an object. -/
theorem named [BEq α] (names : List (String × α)) : (Codec.named names).Regular where
  spaced := spaced_peekValue.bind _
  exact hv := by
    refine exact_peekValue hv fun c hc => ?_
    split
    · exact exact_readName names hv
    · obtain ⟨blank, ms, hblank, hspaced, hvalue, rfl⟩ := hv.exists_object hc
      exact exact_sole hblank names hspaced hvalue
    · exact .throw _ _

end Codec.Regular

/-! ## Values made of values -/

/-- A value that is not null is read by the codec itself. -/
theorem optional_read_append (codec : Codec α) (hv : IsValue v) (hnull : v.head? ≠ some 'n')
    (rest : List Char) :
    (Codec.optional codec).read (v ++ rest) =
      (codec.read >>= fun a => pure (some a)) (v ++ rest) := by
  obtain ⟨c, text, rfl, hc⟩ := Opens.of_isValue hv
  exact optional_read_cons codec hc.not_space (fun hc => hnull (congrArg some hc)) _

/-- Where the value is not the word for no value, it is read by the codec itself. -/
theorem reads_optional_iff {codec : Codec α} (h : codec.Regular) (hv : IsValue v)
    (hnull : v.head? ≠ some 'n') {a? : Option α} :
    (Codec.optional codec).read.Reads v a? ↔ ∃ a, codec.read.Reads v a ∧ some a = a? := by
  rw [← (h.exact hv).reads_map_iff]
  simp only [Reads, optional_read_append codec hv hnull]

/-- A value that may be missing is regular if the value itself is. -/
theorem Codec.Regular.optional {codec : Codec α} (h : codec.Regular) :
    (Codec.optional codec).Regular where
  spaced := spaced_peek?.bind _
  exact := by
    intro v hv
    by_cases hnull : v.head? = some 'n'
    · rw [hv.eq_null hnull]
      exact Reads.exact (a := none) fun _ _ => rfl
    · have hsome : (codec.read >>= fun a => pure (some a)).Exact v :=
        (h.exact hv).bind fun _ => .pure _
      simpa only [Exact, Reads, optional_read_append codec hv hnull] using hsome

/-- A list is regular if its elements are. -/
theorem Codec.Regular.list {codec : Codec α} (h : codec.Regular) : (Codec.list codec).Regular where
  spaced := spaced_peekValue.bind _
  exact hv := by
    refine exact_peekValue hv fun c hc => ?_
    split
    · obtain ⟨blank, es, hblank, hspaced, hvalue, rfl⟩ := hv.exists_list hc
      exact exact_list hspaced hvalue hblank fun e he => h.exact (hvalue e he)
    · exact exact_mismatch _ _

/-- A list is read as its elements are. -/
theorem reads_list_iff {codec : Codec α} (h : codec.Regular) {blank : List Char} {es : List Element}
    (hblank : AllSpace blank) (hspaced : ∀ e ∈ es, e.Spaced) (hvalue : ∀ e ∈ es, IsValue e.value)
    {values : List α} :
    (Codec.list codec).read.Reads (listText blank es) values ↔ codec.read.ReadsAll es values := by
  have hread (rest : List Char) : (Codec.list codec).read (listText blank es ++ rest) =
      Reader.list codec.read (listText blank es ++ rest) :=
    bind_of_ok (peekValue_cons (by decide) _) _
  refine ⟨fun hreads => ?_, fun hall rest hrest => ?_⟩
  · have hok := hreads Ends.nil
    rw [hread] at hok
    exact (readsAll_of_list hspaced hvalue hblank (fun e he => h.exact (hvalue e he)) hok).2
  · rw [hread]
    exact reads_list hspaced hvalue hblank hall hrest

/-- A document that is one value is read as that value is. -/
theorem ofChars_eq_ok_iff {codec : Codec α} (h : codec.Regular) (hv : IsValue v) {a : α} :
    codec.ofChars v = .ok a ↔ codec.read.Reads v a := by
  rw [Codec.ofChars, document]
  refine ⟨fun hok => ?_, fun hreads => ?_⟩
  · cases hvalue : codec.read v with
    | error fault =>
        rw [hvalue] at hok
        cases hok
    | ok result =>
        obtain ⟨a', r⟩ := result
        obtain ⟨rfl, hreads⟩ := h.exact hv Ends.nil (by rwa [List.append_nil])
        rw [hvalue] at hok
        cases hok
        exact hreads
  · have hread := hreads Ends.nil
    rw [List.append_nil] at hread
    rw [hread]
    rfl

/-- White space before a document makes no difference. -/
theorem ofChars_append {codec : Codec α} (h : codec.Regular) {sp : List Char} (hsp : AllSpace sp)
    (text : List Char) : codec.ofChars (sp ++ text) = codec.ofChars text := by
  rw [Codec.ofChars, Codec.ofChars, document, document, h.spaced hsp]

end StreamWatch.Json
