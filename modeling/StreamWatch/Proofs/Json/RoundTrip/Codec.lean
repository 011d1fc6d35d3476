import StreamWatch.Proofs.Json.RoundTrip.Bracket

/-!
# Typed values read back

A codec is `Faithful` to a value if it reads that value back from what it writes for it, whatever
may follow a value. Codecs of single values are faithful to all of them, but that doubles must be
whole numbers of up to fifteen digits, and codecs of values made of values are faithful where their
parts are. So are documents: `Codec.Faithful.ofChars_write`.
-/

namespace StreamWatch.Json

open Reader

variable {α τ δ : Type}

/-- The codec reads the value back, and writes it on one line, as something that can stand in a
list. -/
structure Codec.Faithful (codec : Codec α) (a : α) : Prop where
  read : ∀ {rest}, Delimits rest → codec.read (codec.write a ++ rest) = .ok (a, rest)
  compact : IsCompact (codec.write a)

/-- The text of a value does not look like `null`. -/
def NotNull (text : List Char) : Prop := text.head? ≠ some 'n'

/-! ## Strings -/

/-- A string is written on one line, from its opening quote on. -/
theorem isCompact_writeText (s : String) : IsCompact (Value.writeText s) where
  opens := ⟨'"', _, rfl, by decide, by decide⟩
  newline_not_mem := newline_not_mem_writeText s

theorem notNull_writeText (s : String) : NotNull (Value.writeText s) := by
  simp [NotNull, Value.writeText]

/-- A string that was written is read back, whatever follows it. -/
theorem readText_writeText (expected s : String) (rest : List Char) :
    Codec.readText expected (Value.writeText s ++ rest) = .ok (s, rest) := by
  have hpeek : peekValue (Value.writeText s ++ rest) = .ok ('"', Value.writeText s ++ rest) :=
    peekValue_cons (by decide) _
  rw [Codec.readText, bind_of_ok hpeek]
  exact string_writeText s rest

/-- The characters of an identifier need no escapes. -/
theorem write_uuid (id : Uuid) : Codec.uuid.write id = Value.writeText id.toString := by
  have hplain : ∀ c ∈ id.toChars, Value.writeChar c = [c] := by
    intro c hc
    have hdigits : ∀ d : Fin 16, Value.writeChar (Nat.digitChar d) = [Nat.digitChar d] := by decide
    rcases Uuid.eq_of_mem_toChars hc with rfl | ⟨d, hd, rfl⟩
    · rfl
    · exact hdigits ⟨d, hd⟩
  have hflat : id.toChars.flatMap Value.writeChar = id.toChars := by
    rw [List.flatMap_def, List.map_congr_left hplain, ← List.flatMap_def, List.flatMap_singleton']
  rw [Value.writeText, Uuid.toString, String.toList_ofList, hflat]
  rfl

/-! ## Names -/

/-- A name of its own finds what it stands for. -/
theorem find?_name {names : List (String × α)} (h : (names.map (·.1)).Nodup) {name : String} {a : α}
    (hmem : (name, a) ∈ names) :
    (names.find? fun (known, _) => known == name) = some (name, a) := by
  induction names with
  | nil => cases hmem
  | cons p names ih =>
      rw [List.map_cons, List.nodup_cons] at h
      rcases List.mem_cons.mp hmem with rfl | hmem
      · simp
      · have hne : p.1 ≠ name := by
          rintro rfl
          exact h.1 (List.mem_map.mpr ⟨_, hmem, rfl⟩)
        rw [List.find?_cons_of_neg (by simpa using hne), ih h.2 hmem]

/-- What has a name is found, with one of its names. -/
theorem exists_find?_value [BEq α] [LawfulBEq α] {names : List (String × α)} {a : α}
    (h : a ∈ names.map (·.2)) :
    ∃ name, (name, a) ∈ names ∧ (names.find? fun (_, b) => a == b) = some (name, a) := by
  obtain ⟨p, hp, rfl⟩ := List.mem_map.mp h
  have hsome : (names.find? fun q => p.2 == q.2).isSome := by
    rw [List.find?_isSome]
    exact ⟨p, hp, beq_self_eq_true _⟩
  obtain ⟨⟨name, b⟩, hfind⟩ := Option.isSome_iff_exists.mp hsome
  have hfound := List.find?_some hfind
  obtain rfl : p.2 = b := eq_of_beq hfound
  exact ⟨name, List.mem_of_find?_eq_some hfind, hfind⟩

/-! ## Numbers -/

/-- What starts a number can start a value. -/
theorem Opens.of_startsNumber {c : Char} (h : startsNumber c) : Opens c := by
  refine ⟨?_, ?_⟩
  · cases hspace : isSpace c with
    | false => rfl
    | true => rcases eq_of_isSpace hspace with rfl | rfl | rfl | rfl <;> cases h
  · rintro rfl
    cases h

/-- The text of a number starts with its sign or a digit and goes on with digits and a point. -/
structure IsNumeral (text : List Char) : Prop where
  starts : ∃ c rest, text = c :: rest ∧ startsNumber c
  mem : ∀ c ∈ text, startsNumber c ∨ c = '.'

/-- A numeral is on one line and can stand in a list. -/
theorem IsNumeral.isCompact {text : List Char} (h : IsNumeral text) : IsCompact text where
  opens := by
    obtain ⟨c, rest, htext, hc⟩ := h.starts
    exact ⟨c, rest, htext, .of_startsNumber hc⟩
  newline_not_mem hmem := by
    rcases h.mem _ hmem with h | h
    · cases h
    · cases h

theorem IsNumeral.notNull {text : List Char} (h : IsNumeral text) : NotNull text := by
  obtain ⟨c, rest, rfl, hc⟩ := h.starts
  intro hhead
  cases hhead
  cases hc

/-- A numeral that is read as a number is read so where a number is asked for. -/
theorem IsNumeral.readNumber {text : List Char} (h : IsNumeral text) {rest : List Char}
    {number : Number} (hnumber : Reader.number (text ++ rest) = .ok (number, rest))
    (expected : String) : Codec.readNumber expected (text ++ rest) = .ok (number, rest) := by
  obtain ⟨c, text, rfl, hc⟩ := h.starts
  rw [List.cons_append] at hnumber ⊢
  rw [Codec.readNumber, bind_of_ok (peekValue_cons (Opens.of_startsNumber hc).not_space _),
    if_pos hc]
  exact hnumber

/-- Digits are a numeral, with or without a sign before them. -/
theorem isNumeral_toDigits (negative : Bool) (n : Nat) {tail : List Char}
    (htail : ∀ c ∈ tail, startsNumber c ∨ c = '.') :
    IsNumeral ((if negative then ['-'] else []) ++ (Nat.toDigits 10 n ++ tail)) := by
  have hdigits : ∀ c ∈ Nat.toDigits 10 n, startsNumber c := by
    intro c hc
    simp [startsNumber, Nat.isDigit_of_mem_toDigits (by decide) (by decide) hc]
  obtain ⟨d, ds, hcons⟩ := List.exists_cons_of_ne_nil (Nat.toDigits_ne_nil (n := n) (b := 10))
  refine ⟨?_, ?_⟩
  · cases negative with
    | true => exact ⟨'-', _, rfl, by decide⟩
    | false =>
        refine ⟨d, ds ++ tail, by simp [hcons], hdigits d ?_⟩
        rw [hcons]
        exact List.mem_cons_self
  · intro c hc
    rw [List.mem_append, List.mem_append] at hc
    rcases hc with hc | hc | hc
    · cases negative with
      | true =>
          obtain rfl := List.mem_singleton.mp hc
          exact Or.inl (by decide)
      | false => cases hc
    · exact Or.inl (hdigits c hc)
    · exact htail c hc

/-- What is written for an integer is a numeral. -/
theorem isNumeral_writeInt (n : Int) : IsNumeral (writeInt n) := by
  have h := isNumeral_toDigits (decide (n < 0)) n.natAbs (List.forall_mem_nil _)
  simpa [writeInt] using h

/-- What is written for a whole number of up to fifteen digits is a numeral. -/
theorem isNumeral_write {m : Magnitude} {n : Nat} (h : m.IsWhole n) (hn : n ≤ 10 ^ 15)
    (negative : Bool) : IsNumeral (DoubleLayout.json.write (.finite negative m)) := by
  have hwrite := write_append h hn negative []
  rw [List.append_nil] at hwrite
  rw [hwrite]
  exact isNumeral_toDigits negative n (by simp [startsNumber])

/-- An integer is read back where it lies between the bounds. -/
theorem readInteger_writeInt {n least greatest : Int} (hleast : least ≤ n)
    (hgreatest : n ≤ greatest) (h : Int64.minValue.toInt ≤ n) (h' : n ≤ Int64.maxValue.toInt)
    (expected : String) {rest : List Char} (hrest : Delimits rest) :
    Codec.readInteger expected least greatest (writeInt n ++ rest) = .ok (n, rest) := by
  have hlimit : Int64.maxValue.toInt ≤ significandLimit := by decide
  have hnumber := (isNumeral_writeInt n).readNumber
    (number_writeInt h (Int.le_trans h' hlimit) hrest) expected
  rw [Codec.readInteger, bind_of_ok hnumber]
  dsimp only
  rw [if_pos ⟨hleast, hgreatest⟩]
  rfl

/-- A value that is given is read by the codec itself. -/
theorem optional_read_cons (codec : Codec α) {c : Char} (hspace : isSpace c = false) (hne : c ≠ 'n')
    (cs : List Char) :
    (Codec.optional codec).read (c :: cs) =
      (codec.read >>= fun a => pure (some a)) (c :: cs) := by
  refine (bind_of_ok (peek?_cons hspace cs) _).trans ?_
  simp [hne]

namespace Codec.Faithful

/-! ## Single values -/

/-- Both flags are read back. -/
theorem flag (b : Bool) : Codec.flag.Faithful b where
  read _ := by cases b <;> rfl
  compact := by
    cases b with
    | true => exact ⟨⟨'t', _, rfl, by decide, by decide⟩, by decide⟩
    | false => exact ⟨⟨'f', _, rfl, by decide, by decide⟩, by decide⟩

theorem text (s : String) : Codec.text.Faithful s where
  read {rest} _ := readText_writeText "a string" s rest
  compact := isCompact_writeText s

/-- Every identifier is read back. -/
theorem uuid (id : Uuid) : Codec.uuid.Faithful id where
  read {rest} _ := by
    have hid : Uuid.ofString? id.toString = some id := by
      rw [Uuid.ofString?, Uuid.toString, String.toList_ofList, Uuid.ofChars?_toChars]
    rw [write_uuid]
    refine (bind_of_ok (readText_writeText _ _ rest) _).trans ?_
    rw [hid]
    rfl
  compact := by
    rw [write_uuid]
    exact isCompact_writeText _

/-- Every signed integer is read back. -/
theorem int64 (n : Int64) : Codec.int64.Faithful n where
  read {rest} hrest := by
    have hmin := Int64.minValue_le_toInt n
    have hmax := Int64.toInt_le n
    refine (bind_of_ok (readInteger_writeInt hmin hmax hmin hmax "i64" hrest) _).trans ?_
    rw [Int64.ofInt_toInt]
    rfl
  compact := (isNumeral_writeInt _).isCompact

theorem uint32 (n : UInt32) : Codec.uint32.Faithful n where
  read {rest} hrest := by
    have hlt := n.toNat_lt
    have hmin : Int64.minValue.toInt = -2 ^ 63 := rfl
    have hmax : Int64.maxValue.toInt = 2 ^ 63 - 1 := rfl
    have hsize : (UInt32.size : Int) = 2 ^ 32 := rfl
    have hinteger := @readInteger_writeInt n.toNat 0 (UInt32.size - 1) (by omega) (by omega)
      (by omega) (by omega) "u32" _ hrest
    refine (bind_of_ok hinteger _).trans ?_
    rw [Int.toNat_natCast, UInt32.ofNat_toNat]
    rfl
  compact := (isNumeral_writeInt _).isCompact

/-- Every whole number of up to fifteen digits is read back, with its sign. -/
theorem real {m : Magnitude} {n : Nat} (h : m.IsWhole n) (hn : n ≤ 10 ^ 15) (negative : Bool) :
    Codec.real.Faithful (.finite negative m) where
  read hrest :=
    bind_of_ok ((isNumeral_write h hn negative).readNumber (number_write h hn negative hrest) _) _
  compact := (isNumeral_write h hn negative).isCompact

/-- An alternative is read back from its name if no other one has that name. -/
theorem named [BEq α] [LawfulBEq α] {names : List (String × α)} {a : α}
    (hnames : (names.map (·.1)).Nodup) (ha : a ∈ names.map (·.2)) :
    (Codec.named names).Faithful a := by
  obtain ⟨name, hmem, hfind⟩ := exists_find?_value ha
  have hwrite : (Codec.named names).write a = Value.writeText name := by
    simp only [Codec.named, hfind, Option.map_some, Option.getD_some]
  suffices hread : ∀ rest, (Codec.named names).read (Value.writeText name ++ rest) =
      .ok (a, rest) from
    ⟨fun {rest} _ => hwrite ▸ hread rest, hwrite ▸ isCompact_writeText name⟩
  intro rest
  have hpeek : peekValue (Value.writeText name ++ rest) =
      .ok ('"', Value.writeText name ++ rest) := peekValue_cons (by decide) _
  have hname : Codec.readName names (Value.writeText name ++ rest) = .ok (a, rest) := by
    rw [Codec.readName, bind_of_ok (readText_writeText _ name rest)]
    simp only [find?_name hnames hmem]
    rfl
  exact (bind_of_ok hpeek _).trans hname

/-! ## Values made of values -/

/-- That there is no value is read back. -/
theorem optional_none (codec : Codec α) : (Codec.optional codec).Faithful none where
  read _ := rfl
  compact := by
    have hwrite : (Codec.optional codec).write none = ['n', 'u', 'l', 'l'] := rfl
    rw [hwrite]
    exact ⟨⟨'n', _, rfl, by decide, by decide⟩, by decide⟩

/-- A value that may be missing is read back if it does not look like the word for no value. -/
theorem optional_some {codec : Codec α} {a : α} (h : codec.Faithful a)
    (hnull : NotNull (codec.write a)) : (Codec.optional codec).Faithful (some a) where
  read {rest} hrest := by
    obtain ⟨c, text, htext, hopens⟩ := h.compact.opens
    have hread := h.read hrest
    have hne : c ≠ 'n' := by
      rintro rfl
      exact hnull (by rw [htext]; rfl)
    have hwrite : (Codec.optional codec).write (some a) = codec.write a := rfl
    rw [hwrite]
    rw [htext, List.cons_append] at hread ⊢
    rw [optional_read_cons codec hopens.not_space hne, bind_of_ok hread]
    rfl
  compact := h.compact

/-- A value that may be missing is read back, given or missing. -/
theorem optional {codec : Codec α} (a? : Option α) (h : ∀ a, a? = some a → codec.Faithful a)
    (hnull : ∀ a, a? = some a → NotNull (codec.write a)) : (Codec.optional codec).Faithful a? := by
  cases a? with
  | none => exact optional_none codec
  | some a => exact optional_some (h a rfl) (hnull a rfl)

/-- A list is read back if each of its elements is. -/
theorem list {codec : Codec α} {values : List α} (h : ∀ a ∈ values, codec.Faithful a) :
    (Codec.list codec).Faithful values where
  read {rest} hrest := by
    have hback : ∀ a ∈ values, ∀ {rest}, Delimits rest →
        codec.read (codec.write a ++ rest) = .ok (id a, rest) := fun a ha => (h a ha).read
    have hlist := list_write rest hback fun a ha => (h a ha).compact
    rw [List.map_id] at hlist
    have hwrite : (Codec.list codec).write values ++ rest =
        '[' :: Codec.withCommas (values.map codec.write) ++ ']' :: rest := by
      simp [Codec.list]
    rw [hwrite]
    exact (bind_of_ok (peekValue_cons (by decide) _) _).trans hlist
  compact := by
    refine ⟨⟨'[', _, rfl, by decide, by decide⟩, ?_⟩
    have htexts : ∀ text ∈ values.map codec.write, '\n' ∉ text := by
      rw [List.forall_mem_map]
      exact fun a ha => (h a ha).compact.newline_not_mem
    simp [Codec.list, newline_not_mem_withCommas htexts]

end Codec.Faithful

/-! ## Records -/

namespace Fields

/-- The names of the fields. -/
def names {τ δ : Type} : Fields τ δ → List String
  | .nil => []
  | .cons field rest => field.name :: rest.names

/-- The members of an object: the names of the fields and the texts of their values. -/
def items {τ δ : Type} : Fields τ δ → τ → List (String × List Char)
  | .nil, _ => []
  | .cons field rest, (a, others) => (field.name, field.codec.write a) :: rest.items others

/-- The draft in which every value has been found. -/
def full {τ δ : Type} : Fields τ δ → τ → δ
  | .nil, _ => ()
  | .cons _ rest, (a, others) => (some a, rest.full others)

/-- The members that are written are the names of the fields with the texts of their values. -/
theorem writeMembers_eq (fields : Fields τ δ) (values : τ) :
    fields.writeMembers values = (fields.items values).map memberText := by
  induction fields with
  | nil => rfl
  | cons field rest ih =>
      rw [writeMembers, items, ih]
      rfl

/-- The members that are written have the names of the fields, in order. -/
theorem map_fst_items (fields : Fields τ δ) (values : τ) :
    (fields.items values).map (·.1) = fields.names := by
  induction fields with
  | nil => rfl
  | cons field rest ih => rw [items, List.map_cons, ih, names]

/-- A draft in which every field is filled gives the values it was filled with. -/
theorem finish_full (fields : Fields τ δ) (values : τ) :
    fields.finish (fields.full values) = .ok values := by
  induction fields with
  | nil => rfl
  | cons field rest ih =>
      obtain ⟨a, others⟩ := values
      simp only [full, finish]
      rw [ih]
      rfl

/-- The fields have names of their own, and the codec of each is faithful to its value. -/
inductive Faithful : {τ δ : Type} → Fields τ δ → τ → Prop
  | nil : Fields.nil.Faithful ()
  | cons {α τ δ : Type} {field : Field α} {rest : Fields τ δ} {a : α} {others : τ}
      (hname : field.name ∉ rest.names) (hfield : field.codec.Faithful a)
      (hrest : rest.Faithful others) : (Fields.cons field rest).Faithful (a, others)

/-- Members that are named after the fields behind the first one leave that one alone. -/
theorem takes_cons {field : Field α} {rest : Fields τ δ} {slot : Option α} {draft draft' : δ}
    {items : List (String × List Char)} (h : Takes rest.readMember draft items draft')
    (hname : field.name ∉ items.map (·.1)) :
    Takes (Fields.cons field rest).readMember (slot, draft) items (slot, draft') := by
  induction h with
  | nil => exact .nil _
  | @cons s s' s'' key value items hmember _ ih =>
      rw [List.map_cons, List.mem_cons, not_or] at hname
      refine .cons (fun hrest => ?_) (ih hname.2)
      unfold readMember
      rw [if_neg (Ne.symm hname.1), bind_of_ok (hmember hrest)]
      rfl

/-- From no value to all values, member by member. -/
theorem Faithful.takes {fields : Fields τ δ} {values : τ} (h : fields.Faithful values) :
    Takes fields.readMember fields.empty (fields.items values) (fields.full values) := by
  induction h with
  | nil => exact .nil _
  | @cons α τ δ field rest a others hname hfield _ ih =>
      -- the first member fills the first slot, and the others leave it as it is
      have hempty : (Fields.cons field rest).empty = (none, rest.empty) := rfl
      rw [hempty]
      refine .cons (fun hrest => ?_) (takes_cons ih (by rwa [map_fst_items]))
      unfold readMember
      rw [if_pos rfl]
      exact (bind_of_ok (colon_colon _) _).trans (bind_of_ok (hfield.read hrest) _)

/-- The members of a record are written on one line if its values are. -/
theorem Faithful.newline_not_mem {fields : Fields τ δ} {values : τ} (h : fields.Faithful values) :
    ∀ text ∈ fields.writeMembers values, '\n' ∉ text := by
  induction h with
  | nil => exact List.forall_mem_nil _
  | cons _ hfield _ ih =>
      refine List.forall_mem_cons.mpr ⟨?_, ih⟩
      simp [newline_not_mem_writeText, hfield.compact.newline_not_mem]

end Fields

/-- An object is read as its members, and then each field must have its value. -/
theorem record_read_object (name : String) (fields : Fields τ δ) (make : τ → α) (parts : α → τ)
    (cs : List Char) :
    (Codec.record name fields make parts).read ('{' :: cs) =
      (object fields.readMember fields.empty >>= fun draft rest =>
        (fields.finish draft).map fun values => (make values, rest)) ('{' :: cs) := by
  refine (bind_of_ok (peekValue_cons (by decide) cs) _).trans (bind_congr fun draft rest _ => ?_)
  cases fields.finish draft <;> rfl

/-- What is written for a record does not look like the word for no value. -/
theorem notNull_record {name : String} {fields : Fields τ δ} {make : τ → α} {parts : α → τ}
    {a : α} : NotNull ((Codec.record name fields make parts).write a) := by
  simp [NotNull, Codec.record]

namespace Codec.Faithful

/-- A record is read back if its values are and it is made of them. -/
theorem record {name : String} {fields : Fields τ δ} {make : τ → α} {parts : α → τ} {a : α}
    (h : fields.Faithful (parts a)) (hmake : make (parts a) = a) :
    (Codec.record name fields make parts).Faithful a where
  read {rest} _ := by
    have hobject := object_write rest h.takes
    have hwrite : (Codec.record name fields make parts).write a ++ rest =
        '{' :: Codec.withCommas ((fields.items (parts a)).map memberText) ++ '}' :: rest := by
      simp [Codec.record, Fields.writeMembers_eq]
    rw [hwrite]
    rw [List.cons_append] at hobject ⊢
    rw [record_read_object, bind_of_ok hobject, Fields.finish_full]
    simp only [Except.map, hmake]
  compact := by
    refine ⟨⟨'{', _, rfl, by decide, by decide⟩, ?_⟩
    simp [Codec.record, newline_not_mem_withCommas h.newline_not_mem]

/-! ## Documents -/

/-- A document is read back. -/
theorem ofChars_write {codec : Codec α} {a : α} (h : codec.Faithful a) :
    codec.ofChars (codec.write a) = .ok a := by
  have hread := h.read .nil
  rw [List.append_nil] at hread
  rw [Codec.ofChars, Reader.document, hread]
  rfl

end Codec.Faithful

end StreamWatch.Json
