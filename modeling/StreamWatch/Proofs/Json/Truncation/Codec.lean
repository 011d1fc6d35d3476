import StreamWatch.Proofs.Json.RoundTrip.Codec
import StreamWatch.Proofs.Json.Truncation.Number

/-!
# Typed values that are cut short

A codec `Follows` a value if its reader follows the text that it writes for the value. Codecs of
single values follow all of them, every finite double included, and codecs of values made of values
follow what their parts do. A record that is cut always ends too early, `Codec.truncated_record`,
since its closing brace is gone.
-/

namespace StreamWatch.Json

open Reader

variable {α τ δ : Type}

/-- The reader of the codec follows what the codec writes for the value. -/
structure Codec.Follows (codec : Codec α) (a : α) : Prop where
  read : codec.read.Follows (codec.write a)
  opens : ∃ c rest, codec.write a = c :: rest ∧ Opens c

/-! ## Strings and numbers -/

/-- A string that is cut ends too early. -/
theorem truncated_readText (expected : String) {s : String} {p : List Char}
    (hp : p <+: Value.writeText s) (hne : p ≠ Value.writeText s) :
    Truncated (Codec.readText expected p) := by
  rcases List.prefix_cons_iff.mp hp with rfl | ⟨p, rfl, -⟩
  · exact truncated_peekValue _
  · rw [Codec.readText, bind_of_ok (peekValue_cons (by decide) p)]
    exact truncated_string hp hne

/-- A text that is followed as a number is followed where a number is asked for. -/
theorem follows_readNumber {text : List Char} (h : number.Follows text)
    (hstarts : ∃ c rest, text = c :: rest ∧ startsNumber c) (expected : String) :
    (Codec.readNumber expected).Follows text := by
  obtain ⟨c, rest, rfl, hc⟩ := hstarts
  refine .peekValue (Opens.of_startsNumber hc).not_space ?_
  rw [if_pos hc]
  exact h

/-- An integer is followed where it lies between bounds on both sides of zero. -/
theorem follows_readInteger {n least greatest : Int} (hleast : least ≤ n)
    (hgreatest : n ≤ greatest) (hzero : least ≤ 0 ∧ 0 ≤ greatest)
    (hbounds : Int64.minValue.toInt ≤ n ∧ n ≤ Int64.maxValue.toInt) (expected : String) :
    (Codec.readInteger expected least greatest).Follows (writeInt n) := by
  have hmin : Int64.minValue.toInt = -2 ^ 63 := rfl
  have hmax : Int64.maxValue.toInt = 2 ^ 63 - 1 := rfl
  refine .of_ne (readInteger_writeInt hleast hgreatest hbounds.1 hbounds.2 expected)
    fun {p} hp _ => ?_
  rcases prefix_writeInt hp with rfl | rfl | ⟨k, rfl, hk⟩
  · exact Or.inl ((truncated_peekValue _).bind _)
  · exact Or.inl ⟨_, rfl, rfl⟩
  · have hread := @readInteger_writeInt k least greatest (by omega) (by omega) (by omega) (by omega)
      expected [] .nil
    rw [List.append_nil] at hread
    exact Or.inr ⟨k, hread⟩

/-- What is written for a double starts as a number does. -/
theorem exists_startsNumber_write (negative : Bool) (m : Magnitude) :
    ∃ c rest, DoubleLayout.json.write (.finite negative m) = c :: rest ∧ startsNumber c := by
  have hdigit := startsWithDigit_of_follows (follows_writeMagnitude negative m)
  rw [DoubleLayout.write]
  cases negative with
  | true => exact ⟨'-', _, rfl, by decide⟩
  | false =>
      cases htext : DoubleLayout.json.writeMagnitude m with
      | nil =>
          rw [htext] at hdigit
          cases hdigit
      | cons c rest =>
          rw [htext] at hdigit
          have hc : c.isDigit := hdigit
          exact ⟨c, rest, rfl, by simp [startsNumber, hc]⟩

namespace Codec.Follows

/-! ## Single values -/

/-- The word of a flag ends too early when it is cut. -/
theorem flag (b : Bool) : Codec.flag.Follows b where
  read := by
    cases b with
    | true => exact .peekValue (by decide) ((follows_word 't' _).bind fun _ => ⟨true, rfl⟩)
    | false => exact .peekValue (by decide) ((follows_word 'f' _).bind fun _ => ⟨false, rfl⟩)
  opens := (Faithful.flag b).compact.opens

theorem text (s : String) : Codec.text.Follows s where
  read := .peekValue (by decide) (follows_string s)
  opens := (Faithful.text s).compact.opens

/-- An identifier ends too early when it is cut. -/
theorem uuid (id : Uuid) : Codec.uuid.Follows id where
  read := by
    refine .of_ne (Faithful.uuid id).read fun hp hne => Or.inl ?_
    rw [write_uuid] at hp hne
    exact (truncated_readText _ hp hne).bind _
  opens := (Faithful.uuid id).compact.opens

/-- An integer that is cut is a smaller integer, or a sign alone. -/
theorem int64 (n : Int64) : Codec.int64.Follows n where
  read := by
    have hbounds := And.intro (Int64.minValue_le_toInt n) (Int64.toInt_le n)
    exact (follows_readInteger hbounds.1 hbounds.2 ⟨by decide, by decide⟩ hbounds "i64").bind
      fun _ => ⟨_, rfl⟩
  opens := (Faithful.int64 n).compact.opens

theorem uint32 (n : UInt32) : Codec.uint32.Follows n where
  read := by
    have hlt := n.toNat_lt
    have hmin : Int64.minValue.toInt = -2 ^ 63 := rfl
    have hmax : Int64.maxValue.toInt = 2 ^ 63 - 1 := rfl
    have hsize : (UInt32.size : Int) = 2 ^ 32 := rfl
    have hinteger := @follows_readInteger n.toNat 0 (UInt32.size - 1) (by omega) (by omega)
      ⟨by omega, by omega⟩ ⟨by omega, by omega⟩ "u32"
    exact hinteger.bind fun _ => ⟨_, rfl⟩
  opens := (Faithful.uint32 n).compact.opens

/-- A double is followed, though it need not be read back. -/
theorem real (negative : Bool) (m : Magnitude) : Codec.real.Follows (.finite negative m) where
  read := by
    have hnumber := follows_readNumber (follows_write negative m)
      (exists_startsNumber_write negative m) "f64"
    refine hnumber.bind fun number => ?_
    cases number <;> exact ⟨_, rfl⟩
  opens := by
    obtain ⟨c, rest, htext, hc⟩ := exists_startsNumber_write negative m
    exact ⟨c, rest, htext, .of_startsNumber hc⟩

/-- A name ends too early when it is cut. -/
theorem named [BEq α] [LawfulBEq α] {names : List (String × α)} {a : α}
    (hnames : (names.map (·.1)).Nodup) (ha : a ∈ names.map (·.2)) :
    (Codec.named names).Follows a where
  read := by
    refine .of_ne (Faithful.named hnames ha).read fun {p} hp hne => Or.inl ?_
    obtain ⟨name, -, hfind⟩ := exists_find?_value ha
    have hwrite : (Codec.named names).write a = Value.writeText name := by
      simp only [Codec.named, hfind, Option.map_some, Option.getD_some]
    rw [hwrite] at hp hne
    rcases List.prefix_cons_iff.mp hp with rfl | ⟨p, rfl, -⟩
    · exact truncated_peekValue _
    · have hname : (Codec.named names).read ('"' :: p) = Codec.readName names ('"' :: p) :=
        bind_of_ok (peekValue_cons (by decide) p) _
      rw [hname]
      exact (truncated_readText _ hp hne).bind _
  opens := (Faithful.named hnames ha).compact.opens

/-! ## Values made of values -/

/-- A value that may be missing is followed, given or missing. -/
theorem optional {codec : Codec α} (a? : Option α) (h : ∀ a, a? = some a → codec.Follows a)
    (hnull : ∀ a, a? = some a → NotNull (codec.write a)) (hnil : Truncated (codec.read [])) :
    (Codec.optional codec).Follows a? := by
  have hempty : CutShort ((Codec.optional codec).read []) :=
    Or.inl (hnil.bind fun a => pure (some a))
  cases a? with
  | none =>
      have hword : (word nullTail >>= fun _ => (pure none : Reader (Option α))).Follows
          ('n' :: nullTail) := (follows_word 'n' nullTail).bind fun _ => ⟨none, rfl⟩
      refine ⟨.of_ne (Faithful.optional_none codec).read fun {p} hp _ => ?_,
        (Faithful.optional_none codec).compact.opens⟩
      rcases List.prefix_cons_iff.mp hp with rfl | ⟨p, rfl, -⟩
      · exact hempty
      · exact hword.cut hp
  | some a =>
      obtain ⟨c, text, htext, hopens⟩ := (h a rfl).opens
      have hne : c ≠ 'n' := by
        rintro rfl
        exact hnull a rfl (by rw [htext]; rfl)
      have hread : (codec.read >>= fun a => pure (some a)).Follows (codec.write a) :=
        (h a rfl).read.bind fun a => ⟨some a, rfl⟩
      refine ⟨⟨?_, fun {p} hp => ?_⟩, (h a rfl).opens⟩
      · obtain ⟨b, hb⟩ := hread.whole
        refine ⟨b, fun {rest} hrest => ?_⟩
        have hwrite : (Codec.optional codec).write (some a) = c :: text := htext
        rw [hwrite, List.cons_append, optional_read_cons codec hopens.not_space hne,
          ← List.cons_append, ← htext]
        exact hb hrest
      · rcases List.prefix_cons_iff.mp (htext ▸ hp : p <+: c :: text) with rfl | ⟨p, rfl, -⟩
        · exact hempty
        · rw [optional_read_cons codec hopens.not_space hne]
          exact hread.cut hp

/-- A list of values that are read back is followed. -/
theorem list {codec : Codec α} {values : List α} (hback : ∀ a ∈ values, codec.Faithful a)
    (h : ∀ a ∈ values, codec.Follows a) : (Codec.list codec).Follows values where
  read := by
    refine .of_ne (Faithful.list hback).read fun {p} hp hne => Or.inl ?_
    have htexts : ∀ text ∈ values.map codec.write,
        codec.read.Follows text ∧ ∃ c rest, text = c :: rest ∧ Opens c := by
      rw [List.forall_mem_map]
      exact fun a ha => ⟨(h a ha).read, (h a ha).opens⟩
    rcases List.prefix_cons_iff.mp hp with rfl | ⟨p, rfl, hcut⟩
    · exact truncated_peekValue _
    · have hlist : (Codec.list codec).read ('[' :: p) = Reader.list codec.read ('[' :: p) :=
        bind_of_ok (peekValue_cons (by decide) p) _
      rw [hlist]
      rcases List.prefix_concat_iff.mp hcut with rfl | hcut
      · exact absurd rfl hne
      · exact truncated_list htexts hcut
  opens := (Faithful.list hback).compact.opens

end Codec.Follows

/-! ## Records -/

namespace Fields

/-- The fields have names of their own, and the codec of each follows its value. -/
inductive Follows : {τ δ : Type} → Fields τ δ → τ → Prop
  | nil : Fields.nil.Follows ()
  | cons {α τ δ : Type} {field : Field α} {rest : Fields τ δ} {a : α} {others : τ}
      (hname : field.name ∉ rest.names) (hfield : field.codec.Follows a)
      (hrest : rest.Follows others) : (Fields.cons field rest).Follows (a, others)

/-- Members that are named after the fields behind the first one leave that one alone. -/
theorem takesCut_cons {field : Field α} {rest : Fields τ δ} {slot : Option α} {draft draft' : δ}
    {items : List (String × List Char)} (h : TakesCut rest.readMember draft items draft')
    (hname : field.name ∉ items.map (·.1)) :
    TakesCut (Fields.cons field rest).readMember (slot, draft) items (slot, draft') := by
  induction h with
  | nil => exact .nil _
  | @cons s s' s'' key value items hmember hcut _ ih =>
      rw [List.map_cons, List.mem_cons, not_or] at hname
      have hother : (Fields.cons field rest).readMember key (slot, s) =
          (rest.readMember key s >>= fun others => pure (slot, others)) :=
        if_neg (Ne.symm hname.1)
      refine .cons (fun hrest => ?_) (fun hp => ?_) (ih hname.2)
      · rw [hother, bind_of_ok (hmember hrest)]
        rfl
      · rw [hother]
        exact (hcut hp).bind fun others => Or.inr ⟨(slot, others), rfl⟩

/-- From no value to all values, member by member, wherever the text is cut. -/
theorem Follows.takesCut {fields : Fields τ δ} {values : τ} (h : fields.Follows values) :
    ∃ read, TakesCut fields.readMember fields.empty (fields.items values) (fields.full read) := by
  induction h with
  | nil => exact ⟨(), .nil _⟩
  | @cons α τ δ field rest a others hname hfield _ ih =>
      obtain ⟨b, hb⟩ := hfield.read.whole
      obtain ⟨read, hread⟩ := ih
      have hfirst : (Fields.cons field rest).readMember field.name (none, rest.empty) =
          (colon >>= fun _ => field.codec.read >>= fun a => pure (some a, rest.empty)) :=
        if_pos rfl
      have hothers : TakesCut (Fields.cons field rest).readMember (some b, rest.empty)
          (rest.items others) (some b, rest.full read) :=
        takesCut_cons hread (by rwa [map_fst_items])
      refine ⟨(b, read), .cons (fun hrest => ?_) (fun {p} hp => ?_) hothers⟩
      · rw [empty, hfirst, List.cons_append, bind_of_ok (colon_colon _), bind_of_ok (hb hrest)]
        rfl
      · rw [empty, hfirst]
        rcases List.prefix_cons_iff.mp hp with rfl | ⟨p, rfl, hvalue⟩
        · exact Or.inl ⟨_, rfl, rfl⟩
        · rw [bind_of_ok (colon_colon p)]
          exact (hfield.read.cut hvalue).bind fun a => Or.inr ⟨(some a, rest.empty), rfl⟩

end Fields

section Record

variable {name : String} {fields : Fields τ δ} {make : τ → α} {parts : α → τ} {a : α}

/-- A record that is cut ends too early. -/
theorem Codec.truncated_record (h : fields.Follows (parts a)) {p : List Char}
    (hp : p <+: (Codec.record name fields make parts).write a)
    (hne : p ≠ (Codec.record name fields make parts).write a) :
    Truncated ((Codec.record name fields make parts).read p) := by
  obtain ⟨read, htakes⟩ := h.takesCut
  have hwrite : (Codec.record name fields make parts).write a =
      '{' :: (Codec.withCommas ((fields.items (parts a)).map memberText) ++ ['}']) := by
    simp [Codec.record, Fields.writeMembers_eq]
  rw [hwrite] at hp hne
  rcases List.prefix_cons_iff.mp hp with rfl | ⟨p, rfl, hcut⟩
  · exact truncated_peekValue _
  · rcases List.prefix_concat_iff.mp hcut with rfl | hcut
    · exact absurd rfl hne
    · rw [record_read_object]
      exact (truncated_object htakes hcut).bind _

/-- A record ends too early when it is cut, if its values are followed. -/
theorem Codec.Follows.record (h : fields.Follows (parts a)) :
    (Codec.record name fields make parts).Follows a where
  read := by
    obtain ⟨read, htakes⟩ := h.takesCut
    refine .of_ne (a := make read) (fun {rest} _ => ?_) fun hp hne =>
      Or.inl (truncated_record h hp hne)
    have hobject := object_write rest htakes.takes
    have hwrite : (Codec.record name fields make parts).write a ++ rest =
        '{' :: Codec.withCommas ((fields.items (parts a)).map memberText) ++ '}' :: rest := by
      simp [Codec.record, Fields.writeMembers_eq]
    rw [hwrite]
    refine (bind_of_ok (peekValue_cons (by decide) _) _).trans ?_
    refine (bind_of_ok hobject _).trans ?_
    rw [Fields.finish_full]
    rfl
  opens := ⟨'{', _, rfl, by decide, by decide⟩

end Record

/-! ## Documents -/

/-- A document that ends too early is reported as one. -/
theorem Truncated.ofChars {codec : Codec α} {text : List Char} (h : Truncated (codec.read text)) :
    ∃ fault, codec.ofChars text = .error fault ∧ fault.isTruncation := by
  obtain ⟨fault, hread, hfault⟩ := h
  refine ⟨fault, ?_, hfault⟩
  rw [Codec.ofChars, Reader.document, hread]
  rfl

end StreamWatch.Json
