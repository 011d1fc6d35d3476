import StreamWatch.Proofs.Json.Presentation.Grammar
import StreamWatch.Proofs.Json.Tree.Printable
import StreamWatch.Proofs.Json.Tree.Reading
import StreamWatch.Proofs.Json.Truncation.Codec

/-!
# Trees read back

The text of a document is read again, and what is read is the document itself, but that doubles are
read as whatever their digits are read as: `Value.Readable.readsBack`. Without doubles nothing
else is read than what was written: `Value.Readable.readBack_eq`.
-/

namespace StreamWatch.Json

open Reader

variable {rest : List Char}

/-! ## What is read back -/

/-- The number that is read from the text of a number. -/
def Number.readBack (n : Number) : Number :=
  match Reader.number n.write with
  | .ok (m, _) => m
  | .error _ => n

namespace Value

mutual

/-- The value that is read from the text of a value. -/
def readBack : Value → Value
  | .null => .null
  | .flag b => .flag b
  | .number n => .number n.readBack
  | .text s => .text s
  | .list elements => .list (readBackElements elements)
  | .object members => .object (readBackMembers members)

/-- The elements that are read from their texts. -/
def readBackElements : List Value → List Value
  | [] => []
  | v :: rest => readBack v :: readBackElements rest

/-- The members that are read from their texts. -/
def readBackMembers : List (String × Value) → List (String × Value)
  | [] => []
  | (k, v) :: rest => (k, readBack v) :: readBackMembers rest

end

/-- The elements are read back one by one. -/
theorem readBackElements_eq (elements : List Value) :
    readBackElements elements = elements.map readBack := by
  induction elements with
  | nil => rfl
  | cons v rest ih => rw [readBackElements, ih, List.map_cons]

/-- The members are read back one by one, and keep their keys. -/
theorem readBackMembers_eq (members : List (String × Value)) :
    readBackMembers members = members.map fun m => (m.1, m.2.readBack) := by
  induction members with
  | nil => rfl
  | cons m rest ih => rw [readBackMembers, ih, List.map_cons]

/-- None of the numbers in a value is a double. -/
inductive Integral : Value → Prop
  | null : Integral .null
  | flag (b : Bool) : Integral (.flag b)
  | integer (n : Int) : Integral (.number (.integer n))
  | text (s : String) : Integral (.text s)
  | list {elements : List Value} (h : ∀ v ∈ elements, Integral v) : Integral (.list elements)
  | object {members : List (String × Value)} (h : ∀ m ∈ members, Integral m.2) :
      Integral (.object members)

end Value

/-- The text of a number starts as numbers do. -/
theorem Number.Readable.exists_startsNumber {n : Number} (h : n.Readable) :
    ∃ c text, n.write = c :: text ∧ startsNumber c := by
  cases h with
  | integer => exact (isNumeral_writeInt _).starts
  | real negative m => exact exists_startsNumber_write negative m

/-- What is read from the text of a number alone is also read from it before other values. -/
theorem Number.readBack_eq {n m : Number}
    (h : ∀ {rest}, Delimits rest → Reader.number (n.write ++ rest) = .ok (m, rest)) :
    n.readBack = m := by
  have halone := h .nil
  rw [List.append_nil] at halone
  rw [readBack, halone]

/-- The text of a number is read, whatever may follow a value. -/
theorem Number.Readable.number_write {n : Number} (h : n.Readable) (hrest : Delimits rest) :
    Reader.number (n.write ++ rest) = .ok (n.readBack, rest) := by
  obtain ⟨m, hread⟩ : ∃ m, ∀ {rest}, Delimits rest →
      Reader.number (n.write ++ rest) = .ok (m, rest) := by
    cases h with
    | integer hleast hgreatest => exact ⟨_, number_writeInt hleast hgreatest⟩
    | real negative m => exact (follows_write negative m).whole
  rw [hread hrest, Number.readBack_eq hread]

/-- An integer is read back as it is. -/
theorem Number.readBack_integer {n : Int} (h : (Number.integer n).Readable) :
    (Number.integer n).readBack = .integer n := by
  cases h with
  | integer hleast hgreatest => exact Number.readBack_eq (number_writeInt hleast hgreatest)

namespace Value

/-- A document without doubles is read back as it is. -/
theorem Readable.readBack_eq {depth : Nat} {v : Value} (h : v.Readable depth) (hv : v.Integral) :
    v.readBack = v := by
  induction h with
  | null => rfl
  | flag b => rfl
  | text s => rfl
  | number h =>
      cases hv with
      | integer n => rw [readBack, Number.readBack_integer h]
  | @list _ elements h ih =>
      cases hv with
      | list hv =>
          have helement : ∀ v ∈ elements, v.readBack = v := fun v hmem => ih v hmem (hv v hmem)
          rw [readBack, readBackElements_eq, List.map_congr_left helement, List.map_id']
  | @object _ members hsorted h ih =>
      cases hv with
      | object hv =>
          have hmember : ∀ m ∈ members, (m.1, m.2.readBack) = m := fun m hmem =>
            congrArg (Prod.mk m.1) (ih m hmem (hv m hmem))
          rw [readBack, readBackMembers_eq, List.map_congr_left hmember, List.map_id']

/-! ## The text of a value -/

/-- The elements of a list are written with commas between them. -/
theorem writeElements_eq (elements : List Value) :
    writeElements elements = Codec.withCommas (elements.map write) := by
  induction elements with
  | nil => rfl
  | cons v rest ih =>
      cases rest with
      | nil => rfl
      | cons w rest =>
          rw [writeElements, ih]
          · rfl
          · exact List.cons_ne_nil _ _

/-- The key of a member and the text of its value. -/
def item (m : String × Value) : String × List Char := (m.1, m.2.write)

/-- The members of an object are written with commas between them. -/
theorem writeMembers_eq (members : List (String × Value)) :
    writeMembers members = Codec.withCommas ((members.map item).map memberText) := by
  induction members with
  | nil => rfl
  | cons m rest ih =>
      cases rest with
      | nil => rfl
      | cons n rest =>
          rw [writeMembers, ih]
          · rfl
          · exact List.cons_ne_nil _ _

/-- The text of a value can stand in a list. -/
theorem Readable.isCompact_write {depth : Nat} {v : Value} (h : v.Readable depth) :
    IsCompact v.write where
  opens := by
    cases h with
    | null => exact ⟨'n', _, rfl, by decide, by decide⟩
    | flag b => cases b <;> exact ⟨_, _, rfl, by decide, by decide⟩
    | number h =>
        obtain ⟨c, text, htext, hc⟩ := h.exists_startsNumber
        exact ⟨c, text, htext, .of_startsNumber hc⟩
    | text s => exact ⟨'"', _, rfl, by decide, by decide⟩
    | list h => exact ⟨'[', _, rfl, by decide, by decide⟩
    | object hsorted h => exact ⟨'{', _, rfl, by decide, by decide⟩
  newline_not_mem hmem := absurd (v.printable_write _ hmem) (by decide)

/-! ## Reading the text -/

/-- The reader reads what the value is read back as, whatever may follow a value. -/
def ReadsBack (read : Reader Value) (v : Value) : Prop :=
  ∀ ⦃rest⦄, Delimits rest → read (v.write ++ rest) = .ok (v.readBack, rest)

section

variable {read : Reader Value}

/-- Members whose keys come in order are put behind one another. -/
theorem takes_readMember {done members : List (String × Value)}
    (hread : ∀ m ∈ members, ReadsBack read m.2)
    (hbefore : ∀ d ∈ done, ∀ m ∈ members, d.1 < m.1) (hsorted : Sorted members) :
    Takes (readMember read) done (members.map item) (done ++ readBackMembers members) := by
  induction members generalizing done with
  | nil =>
      rw [readBackMembers, List.append_nil]
      exact .nil done
  | cons m members ih =>
      rw [List.forall_mem_cons] at hread
      obtain ⟨hfirst, hsorted⟩ := List.pairwise_cons.mp hsorted
      have hlt : ∀ d ∈ done, d.1 < m.1 := fun d hd => hbefore d hd m List.mem_cons_self
      have hnext : ∀ d ∈ done ++ [(m.1, m.2.readBack)], ∀ n ∈ members, d.1 < n.1 := by
        intro d hd n hn
        rcases List.mem_append.mp hd with hd | hd
        · exact hbefore d hd n (List.mem_cons_of_mem m hn)
        · rw [List.mem_singleton.mp hd]
          exact hfirst n hn
      -- all keys that are there come before this one, so the member is put behind them
      have htail := ih hread.2 hnext hsorted
      rw [List.append_assoc] at htail
      refine .cons (fun {rest} hrest => ?_) htail
      rw [readMember, List.cons_append, bind_of_ok (colon_colon _), bind_of_ok (hread.1 hrest),
        insertMember_of_forall_lt hlt]
      rfl

/-- The text of an object is read, whatever follows it. -/
theorem readerOver_object {members : List (String × Value)}
    (hread : ∀ m ∈ members, ReadsBack read m.2)
    (hsorted : Sorted members) (rest : List Char) :
    readerOver (some read) ((object members).write ++ rest) =
      .ok ((object members).readBack, rest) := by
  have hnone : ∀ d ∈ ([] : List (String × Value)), ∀ m ∈ members, d.1 < m.1 :=
    List.forall_mem_nil _
  have htakes := takes_readMember hread hnone hsorted
  have hobject := object_write rest htakes
  rw [← writeMembers_eq] at hobject
  have htext : (object members).write ++ rest = '{' :: writeMembers members ++ '}' :: rest := by
    simp [write]
  rw [htext]
  refine (bind_of_ok (peekValue_cons (by decide) _) _).trans ?_
  exact bind_of_ok hobject _

/-- The text of a list is read, whatever follows it. -/
theorem readerOver_list {elements : List Value}
    (hread : ∀ v ∈ elements, ReadsBack read v)
    (hcompact : ∀ v ∈ elements, IsCompact v.write) (rest : List Char) :
    readerOver (some read) ((list elements).write ++ rest) =
      .ok ((list elements).readBack, rest) := by
  have hlist := list_write rest hread hcompact
  rw [← writeElements_eq, ← readBackElements_eq] at hlist
  have htext : (list elements).write ++ rest = '[' :: writeElements elements ++ ']' :: rest := by
    simp [write]
  rw [htext]
  refine (bind_of_ok (peekValue_cons (by decide) _) _).trans ?_
  exact bind_of_ok hlist _

end

/-- The text of a number is read, whatever may follow a value. -/
theorem readsBack_number {n : Number} (h : n.Readable) (inner : Option (Reader Value)) :
    ReadsBack (readerOver inner) (.number n) := by
  intro rest hrest
  obtain ⟨c, text, htext, hc⟩ := h.exists_startsNumber
  have hnumber := h.number_write hrest
  rw [write, htext, List.cons_append]
  rw [htext, List.cons_append] at hnumber
  have hspace := (Opens.of_startsNumber hc).not_space
  refine (bind_of_ok (peekValue_cons hspace _) _).trans ?_
  split
  case h_7 =>
    rw [if_pos hc]
    exact bind_of_ok hnumber _
  all_goals cases hc

/-- At every depth a value is read by what may be read inside it. -/
theorem readerOver_of_reader (depth : Nat) : ∃ inner, reader depth = readerOver inner := by
  cases depth with
  | zero => exact ⟨none, rfl⟩
  | succ depth => exact ⟨some (reader depth), rfl⟩

/-- The text of a value that was read is read again. -/
theorem Readable.readsBack {depth : Nat} {v : Value} (h : v.Readable depth) :
    ReadsBack (reader depth) v := by
  intro rest hrest
  induction h generalizing rest with
  | @null depth =>
      obtain ⟨inner, hinner⟩ := readerOver_of_reader depth
      rw [hinner]
      rfl
  | @flag depth b =>
      obtain ⟨inner, hinner⟩ := readerOver_of_reader depth
      rw [hinner]
      cases b <;> rfl
  | @number depth n h =>
      obtain ⟨inner, hinner⟩ := readerOver_of_reader depth
      rw [hinner]
      exact readsBack_number h inner hrest
  | @text depth s =>
      obtain ⟨inner, hinner⟩ := readerOver_of_reader depth
      rw [hinner]
      refine (bind_of_ok (peekValue_cons (by decide) _) _).trans ?_
      exact bind_of_ok (string_writeText s rest) _
  | list h ih =>
      have hread := fun v hv rest hrest => @ih v hv rest hrest
      exact readerOver_list hread (fun v hv => (h v hv).isCompact_write) rest
  | object hsorted h ih =>
      have hread := fun m hm rest hrest => @ih m hm rest hrest
      exact readerOver_object hread hsorted rest

/-- The text of an object is read as a document, with white space behind it. -/
theorem ofChars_write_object {members : List (String × Value)}
    (h : (object members).Readable deepest) {sp : List Char} (hsp : AllSpace sp) :
    ofChars ((object members).write ++ sp) = .ok (object members).readBack := by
  have hread : reader deepest ((object members).write ++ sp) =
      .ok ((object members).readBack, sp) := by
    cases h with
    | object hsorted h =>
        exact readerOver_object (fun m hm => (h m hm).readsBack) hsorted sp
  have hempty : sp.dropWhile isSpace = [] := by
    have hdrop := dropWhile_isSpace_append hsp []
    rwa [List.append_nil] at hdrop
  rw [ofChars, document, hread]
  change (if (sp.dropWhile isSpace).isEmpty then _ else _) = _
  rw [hempty]
  rfl

end Value

end StreamWatch.Json
