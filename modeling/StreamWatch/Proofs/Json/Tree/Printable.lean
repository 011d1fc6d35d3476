import StreamWatch.Json.Value
import StreamWatch.Proofs.Text.Hex

/-!
# Documents are written on one line

What is written for a document has no control characters, whatever characters its strings have:
`Value.printable_write`. So it is one line.
-/

namespace StreamWatch.Json

/-- None of the characters is a control character. -/
def Printable (text : List Char) : Prop := ∀ c ∈ text, 0x20 ≤ c.toNat

instance (text : List Char) : Decidable (Printable text) :=
  List.decidableBAll (fun c : Char => 0x20 ≤ c.toNat) text

theorem Printable.append {text text' : List Char} (h : Printable text) (h' : Printable text') :
    Printable (text ++ text') := List.forall_mem_append.mpr ⟨h, h'⟩

/-- A character that is no control character may be put before such a text. -/
theorem Printable.cons {c : Char} {text : List Char} (hc : 0x20 ≤ c.toNat) (h : Printable text) :
    Printable (c :: text) := List.forall_mem_cons.mpr ⟨hc, h⟩

theorem Printable.nil : Printable [] := List.forall_mem_nil _

/-! ## Numbers -/

/-- Digits are no control characters. -/
theorem printable_toDigits (n : Nat) : Printable (Nat.toDigits 10 n) := by
  intro c hc
  have hdigit : c.isDigit := Nat.isDigit_of_mem_toDigits (by decide) (by decide) hc
  simp only [Char.isDigit, Bool.and_eq_true, decide_eq_true_eq] at hdigit
  have hle : (48 : UInt32).toNat ≤ c.val.toNat := UInt32.le_iff_toNat_le.mp hdigit.1
  exact Nat.le_trans (by decide) hle

theorem printable_sign (negative : Bool) : Printable (if negative then ['-'] else []) := by
  cases negative
  · exact .nil
  · exact .cons (by decide) .nil

/-- An integer is written without control characters. -/
theorem printable_writeInt (n : Int) : Printable (writeInt n) := by
  unfold writeInt
  refine .append ?_ (printable_toDigits _)
  simpa using printable_sign (decide (n < 0))

/-- Digits are laid out with a point and zeros, none of which is a control character. -/
theorem printable_writePositional (layout : DoubleLayout) {digits : List Char}
    (h : Printable digits) (exponent : Int) :
    Printable (layout.writePositional digits exponent) := by
  have hzeros (k : Nat) : Printable (List.replicate k '0') := by
    intro c hc
    rw [List.eq_of_mem_replicate hc]
    decide
  unfold DoubleLayout.writePositional
  split
  · refine (h.append (hzeros _)).append ?_
    split
    · exact .cons (by decide) (.cons (by decide) .nil)
    · exact .nil
  · dsimp only
    split
    · exact .append (fun c hc => h c (List.mem_of_mem_take hc))
        (.cons (by decide) fun c hc => h c (List.mem_of_mem_drop hc))
    · exact .append (.cons (by decide) (.cons (by decide) (hzeros _))) h

/-- Digits are laid out with a point and an exponent, none of which is a control character. -/
theorem printable_writeScientific {digits : List Char} (h : Printable digits) (leading : Int) :
    Printable (DoubleLayout.writeScientific digits leading) := by
  have hsign : 0x20 ≤ (if leading < 0 then '-' else '+').toNat := by
    split <;> decide
  unfold DoubleLayout.writeScientific
  refine .append ?_ (.cons (by decide) (.cons hsign (printable_toDigits _)))
  split
  · next d e rest =>
      have hd := List.forall_mem_cons.mp h
      exact .cons hd.1 (.cons (by decide) hd.2)
  · exact h

/-- A double is written without control characters, in either layout. -/
theorem printable_writeMagnitude (layout : DoubleLayout) (m : Magnitude) :
    Printable (layout.writeMagnitude m) := by
  unfold DoubleLayout.writeMagnitude
  split
  · exact printable_writePositional _ (.cons (by decide) .nil) _
  · dsimp only
    split
    · split
      · exact printable_writePositional _ (printable_toDigits _) _
      · exact printable_writeScientific (printable_toDigits _) _
    · exact printable_writePositional _ (printable_toDigits _) _

/-- A number is written without control characters. -/
theorem printable_writeNumber (n : Number) : Printable n.write := by
  cases n with
  | integer n => exact printable_writeInt n
  | real x =>
      cases x with
      | finite negative m =>
          exact (printable_sign negative).append (printable_writeMagnitude _ m)
      | infinite negative =>
          have hname : Printable ['i', 'n', 'f'] := by decide
          exact (printable_sign negative).append hname
      | nan => exact (by decide : Printable ['N', 'a', 'N'])

/-! ## Strings -/

/-- A character is written as an escape if it is a control character. -/
theorem printable_writeChar (c : Char) : Printable (Value.writeChar c) := by
  unfold Value.writeChar
  split
  case h_8 =>
    split
    · refine .cons (by decide) (.cons (by decide) fun d hd => ?_)
      obtain ⟨k, hk, rfl⟩ := Hex.exists_of_mem_write hd
      have hall : ∀ k : Fin 16, 0x20 ≤ (Nat.digitChar k).toNat := by decide
      exact hall ⟨k, hk⟩
    · next hcontrol => exact .cons (Nat.le_of_not_lt hcontrol) .nil
  all_goals exact .cons (by decide) (.cons (by decide) .nil)

/-- A string is written without control characters, since they are escaped. -/
theorem printable_writeText (s : String) : Printable (Value.writeText s) := by
  refine .append (.cons (by decide) fun c hc => ?_) (.cons (by decide) .nil)
  obtain ⟨d, -, hd⟩ := List.mem_flatMap.mp hc
  exact printable_writeChar d c hd

/-! ## Values -/

namespace Value

mutual

/-- What is written for a value has no control characters. -/
theorem printable_write : ∀ v : Value, Printable v.write
  | .null => by decide
  | .flag true => by decide
  | .flag false => by decide
  | .number n => printable_writeNumber n
  | .text s => printable_writeText s
  | .list elements => by
      have helements := printable_writeElements elements
      exact (Printable.cons (by decide) helements).append (.cons (by decide) .nil)
  | .object members => by
      have hmembers := printable_writeMembers members
      exact (Printable.cons (by decide) hmembers).append (.cons (by decide) .nil)

/-- The elements of a list are written without control characters. -/
theorem printable_writeElements : ∀ elements : List Value, Printable (writeElements elements)
  | [] => .nil
  | [v] => printable_write v
  | v :: w :: elements => by
      have helements := printable_writeElements (w :: elements)
      exact (printable_write v).append (.cons (by decide) helements)

/-- The members of an object are written without control characters. -/
theorem printable_writeMembers :
    ∀ members : List (String × Value), Printable (writeMembers members)
  | [] => .nil
  | [(k, v)] => (printable_writeText k).append (.cons (by decide) (printable_write v))
  | (k, v) :: m :: members => by
      have hvalue : Printable (':' :: write v) := .cons (by decide) (printable_write v)
      have hmember := (printable_writeText k).append hvalue
      have hmembers := printable_writeMembers (m :: members)
      exact hmember.append (.cons (by decide) hmembers)

end

end Value

end StreamWatch.Json
