import StreamWatch.Json.Codec
import StreamWatch.Proofs.Json.Lenient.Skip

/-!
# Documents with white space behind them

A codec whose parts are read leniently is read leniently itself, and so white space at the end of a
document changes nothing but maybe the fault that is found first: `Codec.Lenient.ofChars_concat`.
-/

namespace StreamWatch.Json

open Reader

variable {α τ δ : Type} {c : Char}

/-- The codec does not care for white space at the end of the text. -/
structure Codec.Lenient (codec : Codec α) : Prop where
  read : ∀ {c : Char}, isSpace c → codec.read.Lenient c

/-! ## Single values -/

section Single

variable (hc : isSpace c)
include hc

/-- Telling that a value does not fit looks at the value only, not at what follows it. -/
theorem lenient_mismatch (expected : String) : (Codec.mismatch expected : Reader α).Lenient c := by
  refine (lenient_peekValue hc).bind fun d => ?_
  split
  · exact (lenient_null hc).bind fun _ => .throw _
  · exact (lenient_true hc).bind fun _ => .throw _
  · exact (lenient_false hc).bind fun _ => .throw _
  · exact (lenient_string hc).bind fun _ => .throw _
  · exact .throw _
  · exact .throw _
  · split
    · refine (lenient_number hc).bind fun number => ?_
      split
      · exact .throw _
      · exact .throw _
    · exact .throw _

omit hc in
/-- A value that does not fit is not read. -/
theorem mismatch_ne_ok (expected : String) (cs : List Char) (r : α × List Char) :
    (Codec.mismatch expected : Reader α) cs ≠ .ok r := by
  intro h
  obtain ⟨d, rest, -, h⟩ := bind_ok h
  split at h
  · obtain ⟨_, _, -, h⟩ := bind_ok h
    cases h
  · obtain ⟨_, _, -, h⟩ := bind_ok h
    cases h
  · obtain ⟨_, _, -, h⟩ := bind_ok h
    cases h
  · obtain ⟨_, _, -, h⟩ := bind_ok h
    cases h
  · cases h
  · cases h
  · split at h
    · obtain ⟨number, _, -, h⟩ := bind_ok h
      cases number <;> cases h
    · cases h

/-- A text is read without regard to space behind it. -/
theorem lenient_readText (expected : String) : (Codec.readText expected).Lenient c := by
  refine (lenient_peekValue hc).bind fun d => ?_
  split
  · exact lenient_string hc
  · exact lenient_mismatch hc _

theorem lenient_readNumber (expected : String) : (Codec.readNumber expected).Lenient c := by
  refine (lenient_peekValue hc).bind fun d => ?_
  split
  · exact lenient_number hc
  · exact lenient_mismatch hc _

/-- The bounds of an integer are checked after it has been read. -/
theorem lenient_readInteger (expected : String) (least greatest : Int) :
    (Codec.readInteger expected least greatest).Lenient c := by
  refine (lenient_readNumber hc _).bind fun number => ?_
  split
  · split
    · exact .pure _
    · exact .throw _
  · exact .throw _

/-- A name is looked up in its table after it has been read. -/
theorem lenient_readName (names : List (String × α)) : (Codec.readName names).Lenient c := by
  refine (lenient_readText hc _).bind fun name => ?_
  split
  · exact .pure _
  · exact .throw _

theorem lenient_readNull : Codec.readNull.Lenient c := by
  refine (lenient_peekValue hc).bind fun d => ?_
  split
  · exact lenient_null hc
  · exact lenient_mismatch hc _

end Single

namespace Codec.Lenient

/-- A flag is one of two words, and neither has a space in it. -/
theorem flag : Codec.flag.Lenient := by
  refine ⟨fun hc => ?_⟩
  refine (lenient_peekValue hc).bind fun d => ?_
  split
  · exact (lenient_true hc).bind fun _ => .pure _
  · exact (lenient_false hc).bind fun _ => .pure _
  · exact lenient_mismatch hc _

/-- A text ends with its quote, so space behind it is not part of it. -/
theorem text : Codec.text.Lenient := ⟨fun hc => lenient_readText hc _⟩

/-- An identifier is a text that is parsed once it has been read. -/
theorem uuid : Codec.uuid.Lenient := by
  refine ⟨fun hc => ?_⟩
  refine (lenient_readText hc _).bind fun s => ?_
  split
  · exact .pure _
  · exact .throw _

theorem int64 : Codec.int64.Lenient :=
  ⟨fun hc => (lenient_readInteger hc _ _ _).bind fun _ => .pure _⟩

theorem uint32 : Codec.uint32.Lenient :=
  ⟨fun hc => (lenient_readInteger hc _ _ _).bind fun _ => .pure _⟩

/-- A number is read as a double once its digits are known. -/
theorem real : Codec.real.Lenient := by
  refine ⟨fun hc => ?_⟩
  refine (lenient_readNumber hc _).bind fun number => ?_
  split
  · exact .pure _
  · exact .pure _

/-- One of several names is a text that is looked up. -/
theorem named [BEq α] (names : List (String × α)) : (Codec.named names).Lenient := by
  refine ⟨fun hc => ?_⟩
  refine (lenient_peekValue hc).bind fun d => ?_
  split
  · exact lenient_readName hc _
  · refine lenient_advance.bind fun _ => (lenient_readName hc _).bind fun a =>
      (lenient_colon hc).bind fun _ => (lenient_readNull hc).bind fun _ =>
        (lenient_peek? hc).bind fun d? => ?_
    split
    · exact lenient_advance.bind fun _ => .pure _
    · exact .throw _
    · exact .throw _
  · exact .throw _

/-! ## Values made of values -/

/-- A value that may be absent is the word for no value or what its codec reads. -/
theorem optional {codec : Codec α} (h : codec.Lenient) : (Codec.optional codec).Lenient := by
  refine ⟨fun hc => ?_⟩
  refine (lenient_peek? hc).bind fun d? => ?_
  split
  · exact (lenient_null hc).bind fun _ => .pure _
  · exact (h.read hc).bind fun _ => .pure _

/-- A list is read leniently if its elements are. -/
theorem list {codec : Codec α} (h : codec.Lenient) : (Codec.list codec).Lenient := by
  refine ⟨fun hc => ?_⟩
  refine (lenient_peekValue hc).bind fun d => ?_
  split
  · exact lenient_list hc (h.read hc)
  · exact lenient_mismatch hc _

end Codec.Lenient

/-- The codec of every field is lenient. -/
inductive Fields.Lenient : {τ δ : Type} → Fields τ δ → Prop
  | nil : Fields.nil.Lenient
  | cons {α τ δ : Type} {field : Field α} {rest : Fields τ δ} (hfield : field.codec.Lenient)
      (hrest : rest.Lenient) : (Fields.cons field rest).Lenient

/-- A member is read by the codec of its field, or passed over if no field has its name. -/
theorem Fields.Lenient.readMember {fields : Fields τ δ} (h : fields.Lenient) (hc : isSpace c)
    (key : String) (draft : δ) : (fields.readMember key draft).Lenient c := by
  induction h with
  | nil => exact (lenient_colon hc).bind fun _ => (lenient_skipValue hc).bind fun _ => .pure _
  | cons hfield hrest ih =>
      obtain ⟨slot, others⟩ := draft
      unfold Fields.readMember
      split
      · split
        · exact .throw _
        · exact (lenient_colon hc).bind fun _ => (hfield.read hc).bind fun _ => .pure _
      · exact (ih others).bind fun _ => .pure _

/-- A record written as a list reads one element for each field. -/
theorem Fields.Lenient.readElements {fields : Fields τ δ} (h : fields.Lenient) (hc : isSpace c)
    (expected : String) (index : Nat) : (fields.readElements expected index).Lenient c := by
  induction h generalizing index with
  | nil => exact .pure _
  | cons hfield hrest ih =>
      refine (lenient_nextElement hc _).bind fun more => ?_
      split
      · exact (hfield.read hc).bind fun _ => (ih _).bind fun _ => .pure _
      · split
        · exact (ih _).bind fun _ => .pure _
        · exact .throw _

namespace Codec.Lenient

/-- A record is read leniently, as an object or as a list, if each of its fields is. -/
theorem record {fields : Fields τ δ} (h : fields.Lenient) (name : String) (make : τ → α)
    (parts : α → τ) : (Codec.record name fields make parts).Lenient := by
  refine ⟨fun hc => ?_⟩
  refine (lenient_peekValue hc).bind fun d => ?_
  split
  · refine (lenient_object hc (h.readMember hc) _).bind fun draft => ?_
    split
    · exact .pure _
    · exact .throw _
  · exact lenient_advance.bind fun _ => (h.readElements hc _ _).bind fun _ =>
      (lenient_closeList hc).bind fun _ => .pure _
  · exact lenient_mismatch hc _

/-- White space at the end of a document makes no difference to the value that is read. -/
theorem ofChars_concat {codec : Codec α} (h : codec.Lenient) (hc : isSpace c) (text : List Char)
    (a : α) : codec.ofChars (text ++ [c]) = .ok a ↔ codec.ofChars text = .ok a := by
  have hdocument (text rest : List Char) (a' : α) (hread : codec.read text = .ok (a', rest)) :
      codec.ofChars text =
        if (rest.dropWhile isSpace).isEmpty then .ok a' else .error .trailingCharacters := by
    rw [Codec.ofChars, Reader.document, hread]
    rfl
  have hfailed (text : List Char) (fault : Fault) (hread : codec.read text = .error fault) :
      codec.ofChars text = .error fault := by
    rw [Codec.ofChars, Reader.document, hread]
    rfl
  cases (h.read hc).alike text with
  | failed h h' =>
      rw [hfailed _ _ h, hfailed _ _ h']
      simp
  | @read a' rest rest' h h' hrest =>
      have hspace : (rest'.dropWhile isSpace).isEmpty = (rest.dropWhile isSpace).isEmpty := by
        rcases hrest with rfl | rfl
        · rfl
        · rw [List.dropWhile_append]
          split
          · next hempty => simp [hc, hempty]
          · next hempty => simp [hempty]
      rw [hdocument _ _ _ h, hdocument _ _ _ h', hspace]

end Codec.Lenient

end StreamWatch.Json
