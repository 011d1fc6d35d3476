import Mathlib.Data.String.Basic
import StreamWatch.Json.Value
import StreamWatch.Proofs.Json.Lenient.Number
import StreamWatch.Proofs.Json.Truncation.Scaled

/-!
# What reading gives

A document that is read is a tree that has the depth it may have, whose integers have 64 bits, whose
doubles are finite, and whose objects have each key once, in order: `gives_reader`. A reader `Gives`
a property if whatever it reads has it.
-/

namespace StreamWatch.Json

variable {α β σ : Type}

/-! ## Members in order -/

namespace Value

/-- The members have each key once, in order. -/
def Sorted (members : List (String × Value)) : Prop :=
  members.Pairwise fun m n => m.1 < n.1

variable {key : String} {value : Value} {members : List (String × Value)}

/-- A member that is put in is there. -/
theorem mem_insertMember (key : String) (value : Value) (members : List (String × Value)) :
    (key, value) ∈ insertMember key value members := by
  fun_induction insertMember key value members with
  | case1 => exact List.mem_cons_self
  | case2 => exact List.mem_cons_self
  | case3 => exact List.mem_cons_self
  | case4 k v rest hlt hne ih => exact List.mem_cons_of_mem _ ih

/-- A member that is there afterwards is the new one or was there before. -/
theorem eq_or_mem_of_mem_insertMember {m : String × Value}
    (h : m ∈ insertMember key value members) : m = (key, value) ∨ m ∈ members := by
  fun_induction insertMember key value members with
  | case1 => exact Or.inl (List.mem_singleton.mp h)
  | case2 k v rest hlt => exact List.mem_cons.mp h
  | case3 v rest hlt =>
      rcases List.mem_cons.mp h with hm | hm
      · exact Or.inl hm
      · exact Or.inr (List.mem_cons_of_mem _ hm)
  | case4 k v rest hlt hne ih =>
      rcases List.mem_cons.mp h with hm | hm
      · exact Or.inr (hm ▸ List.mem_cons_self)
      · exact (ih hm).imp_right (List.mem_cons_of_mem _)

/-- A member that is put in its place leaves the keys in order. -/
theorem Sorted.insertMember (h : Sorted members) (key : String) (value : Value) :
    Sorted (insertMember key value members) := by
  fun_induction Value.insertMember key value members with
  | case1 => exact List.pairwise_singleton _ _
  | case2 k v rest hlt =>
      obtain ⟨hbefore, -⟩ := List.pairwise_cons.mp h
      refine List.pairwise_cons.mpr ⟨fun m hm => ?_, h⟩
      rcases List.mem_cons.mp hm with rfl | hm
      · exact hlt
      · exact lt_trans hlt (hbefore m hm)
  | case3 v rest hlt =>
      obtain ⟨hbefore, hrest⟩ := List.pairwise_cons.mp h
      exact List.pairwise_cons.mpr ⟨hbefore, hrest⟩
  | case4 k v rest hlt hne ih =>
      obtain ⟨hbefore, hrest⟩ := List.pairwise_cons.mp h
      refine List.pairwise_cons.mpr ⟨fun m hm => ?_, ih hrest⟩
      rcases eq_or_mem_of_mem_insertMember hm with rfl | hm
      · exact lt_of_le_of_ne (not_lt.mp hlt) (Ne.symm hne)
      · exact hbefore m hm

/-- Behind keys that are all smaller, a member is put at the end. -/
theorem insertMember_of_forall_lt (h : ∀ m ∈ members, m.1 < key) (value : Value) :
    insertMember key value members = members ++ [(key, value)] := by
  induction members with
  | nil => rfl
  | cons m members ih =>
      rw [List.forall_mem_cons] at h
      rw [insertMember, if_neg (not_lt_of_gt h.1), if_neg (ne_of_gt h.1), ih h.2, List.cons_append]

/-- A member with a key of its own is one more member. -/
theorem perm_insertMember (h : ∀ m ∈ members, m.1 ≠ key) (value : Value) :
    (insertMember key value members).Perm ((key, value) :: members) := by
  induction members with
  | nil => exact List.Perm.refl _
  | cons m members ih =>
      rw [List.forall_mem_cons] at h
      rw [insertMember, if_neg (Ne.symm h.1)]
      split
      · exact List.Perm.refl _
      · exact ((ih h.2).cons m).trans (List.Perm.swap _ _ _)

end Value

/-! ## What is read -/

/-- The numbers that reading gives: integers of 64 bits, with or without a sign, and finite
doubles. -/
inductive Number.Readable : Number → Prop
  | integer {n : Int} (hleast : Int64.minValue.toInt ≤ n) (hgreatest : n ≤ significandLimit) :
      Readable (.integer n)
  | real (negative : Bool) (m : Magnitude) : Readable (.real (.finite negative m))

/-- The values that reading gives when so many lists and objects may be open at once. -/
inductive Value.Readable : Nat → Value → Prop
  | null {depth : Nat} : Readable depth .null
  | flag {depth : Nat} (b : Bool) : Readable depth (.flag b)
  | number {depth : Nat} {n : Number} (h : n.Readable) : Readable depth (.number n)
  | text {depth : Nat} (s : String) : Readable depth (.text s)
  | list {depth : Nat} {elements : List Value} (h : ∀ v ∈ elements, Readable depth v) :
      Readable (depth + 1) (.list elements)
  | object {depth : Nat} {members : List (String × Value)} (hsorted : Sorted members)
      (h : ∀ m ∈ members, Readable depth m.2) : Readable (depth + 1) (.object members)

namespace Reader

/-- Whatever is read has the property. -/
def Gives (read : Reader α) (P : α → Prop) : Prop :=
  ∀ ⦃cs a rest⦄, read cs = .ok (a, rest) → P a

variable {P : α → Prop} {Q : β → Prop}

theorem Gives.pure {a : α} (h : P a) : (Pure.pure a : Reader α).Gives P := by
  intro cs b rest hread
  cases hread
  exact h

theorem Gives.throw (fault : Fault) : (MonadExcept.throw fault : Reader α).Gives P := by
  intro cs a rest hread
  cases hread

/-- The property of what is read second may rest on the property of what is read first. -/
theorem Gives.bind {x : Reader α} {f : α → Reader β} (hx : x.Gives P)
    (hf : ∀ a, P a → (f a).Gives Q) : (x >>= f).Gives Q := by
  intro cs b rest hread
  obtain ⟨a, rest', ha, hb⟩ := bind_ok hread
  exact hf a (hx ha) hb

/-- Whatever is read first, what is read then has the property. -/
theorem Gives.of_bind {x : Reader α} {f : α → Reader β} (hf : ∀ a, (f a).Gives Q) :
    (x >>= f).Gives Q := by
  intro cs b rest hread
  obtain ⟨a, rest', -, hb⟩ := bind_ok hread
  exact hf a hb

/-! ## Lists and objects -/

/-- All elements of a list have the property if each one that is read has it. -/
theorem Gives.elements {read : Reader α} (h : read.Gives P) (bound : Nat) (first : Bool) :
    (elements read bound first).Gives fun values => ∀ a ∈ values, P a := by
  induction bound generalizing first with
  | zero => exact .throw _
  | succ bound ih =>
      refine .of_bind fun more => ?_
      cases more with
      | true =>
          refine h.bind fun a ha => (ih false).bind fun values hvalues => .pure ?_
          exact List.forall_mem_cons.mpr ⟨ha, hvalues⟩
      | false => exact .pure (List.forall_mem_nil _)

/-- The elements of a list are read one by one. -/
theorem Gives.list {read : Reader α} (h : read.Gives P) :
    (list read).Gives fun values => ∀ a ∈ values, P a :=
  .of_bind fun _ => .of_bind fun _ => (h.elements _ true).bind fun _ hvalues =>
    .of_bind fun _ => .pure hvalues

variable {member : String → σ → Reader σ} {I : σ → Prop} {start : σ}

/-- What every member keeps is kept by all of them, by induction on how many there may be. -/
theorem Gives.members (hmember : ∀ key s, I s → (member key s).Gives I) (bound : Nat)
    (first : Bool) (hstart : I start) : (members member bound first start).Gives I := by
  induction bound generalizing first start with
  | zero => exact .throw _
  | succ bound ih =>
      refine .of_bind fun key? => ?_
      cases key? with
      | none => exact .pure hstart
      | some key => exact (hmember key start hstart).bind fun s hs => ih false hs

/-- What holds at the start of an object and is kept by every member holds at its end. -/
theorem Gives.object (hstart : I start) (hmember : ∀ key s, I s → (member key s).Gives I) :
    (object member start).Gives I :=
  .of_bind fun _ => .of_bind fun _ => (Gives.members hmember _ true hstart).bind fun _ hs =>
    .of_bind fun _ => .pure hs

end Reader

open Reader

/-! ## Numbers -/

/-- Digits are taken as long as they fit. -/
theorem takeDigits_le {limit n : Nat} (h : n ≤ limit) (taken : Nat) (cs : List Char) :
    (takeDigits limit n taken cs).1 ≤ limit := by
  fun_induction takeDigits limit n taken cs with
  | case1 => exact h
  | case2 => exact h
  | case3 n taken c rest d hdigit hlimit ih => exact ih (Nat.le_of_not_lt hlimit)
  | case4 => exact h

section Numbers

variable (negative : Bool) (n : Nat)

/-- A number that is computed from its digits is a finite double. -/
theorem gives_scaled (exponent : Int) :
    Gives (fun cs => do return (← scaled negative n exponent, cs)) Number.Readable := by
  intro cs number rest hread
  rw [scaled_def] at hread
  dsimp only at hread
  cases hm : (Magnitude.ofNat? n).bind (scaleByTen · exponent) with
  | none =>
      rw [hm] at hread
      cases hread
  | some m =>
      rw [hm] at hread
      cases hread
      exact .real negative m

/-- A number with an exponent is a finite double. -/
theorem gives_exponentPart (start : Int) :
    Gives (exponentPart negative n start) Number.Readable := by
  intro cs number rest hread
  rw [exponentPart_eq] at hread
  unfold exponentDigits at hread
  split at hread
  · cases hread
  · split at hread
    · cases hread
    · dsimp only at hread
      split at hread
      · split at hread
        · cases hread
        · cases hread
          exact .real negative _
      · exact gives_scaled negative n _ hread

theorem gives_maybeExponent (exponent : Int) :
    Gives (maybeExponent negative n exponent) Number.Readable := by
  intro cs number rest hread
  unfold maybeExponent at hread
  split at hread
  · exact gives_exponentPart negative n exponent hread
  · exact gives_exponentPart negative n exponent hread
  · exact gives_scaled negative n exponent hread

theorem gives_fractionPart (exponent : Int) :
    Gives (fractionPart negative n exponent) Number.Readable := by
  intro cs number rest hread
  unfold fractionPart at hread
  dsimp only at hread
  split at hread
  · exact gives_maybeExponent negative _ _ hread
  · split at hread
    · cases hread
    · exact gives_maybeExponent negative _ _ hread

/-- A number with digits that no longer count is a finite double. -/
theorem gives_afterLongDigits : Gives (afterLongDigits negative n) Number.Readable := by
  intro cs number rest hread
  unfold afterLongDigits at hread
  dsimp only at hread
  split at hread
  · exact gives_fractionPart negative n _ hread
  · exact gives_maybeExponent negative n _ hread

variable {n}

/-- A whole number is an integer of 64 bits, or the double nearest to it. -/
theorem readable_wholeNumber (h : n ≤ significandLimit) :
    (wholeNumber negative n).Readable := by
  have hleast : Int64.minValue.toInt ≤ 0 := by decide
  unfold wholeNumber
  split
  · exact .integer (by omega) (by omega)
  · split
    · obtain ⟨m, hm⟩ := exists_ofNat? h
      rw [hm]
      exact .real true m
    · next hfits => exact .integer (by omega) (by omega)

/-- A number is an integer of 64 bits if its digits fit, and else a finite double. -/
theorem gives_afterDigits (h : n ≤ significandLimit) :
    Gives (afterDigits negative n) Number.Readable := by
  intro cs number rest hread
  unfold afterDigits at hread
  split at hread
  · exact gives_fractionPart negative n 0 hread
  · exact gives_exponentPart negative n 0 hread
  · exact gives_exponentPart negative n 0 hread
  · cases hread
    exact readable_wholeNumber negative h

/-- A number without its sign is one that reading gives. -/
theorem gives_unsignedNumber : Gives (unsignedNumber negative) Number.Readable := by
  intro cs number rest hread
  have hdigits (cs : List Char) := takeDigits_le (Nat.zero_le significandLimit) 0 cs
  unfold unsignedNumber at hread
  split at hread
  · cases hread
  · split at hread
    · cases hread
    · exact gives_afterDigits negative (Nat.zero_le _) hread
  · split at hread
    · cases hread
    · dsimp only at hread
      split at hread
      · exact gives_afterLongDigits negative _ hread
      · exact gives_afterDigits negative (hdigits _) hread

end Numbers

/-- A number is one that reading gives. -/
theorem gives_number : Reader.number.Gives Number.Readable := by
  intro cs number rest hread
  unfold Reader.number at hread
  split at hread
  · exact gives_unsignedNumber true hread
  · exact gives_unsignedNumber false hread

/-! ## Values -/

/-- Puts a member in its place once its value is read. -/
def Value.readMember (read : Reader Value) (key : String) (members : List (String × Value)) :
    Reader (List (String × Value)) := do
  colon
  return insertMember key (← read) members

/-- Members that are read one by one are put in order. -/
theorem gives_members {depth : Nat} {read : Reader Value}
    (h : read.Gives (Value.Readable depth)) :
    (object (Value.readMember read) []).Gives fun members =>
      Value.Sorted members ∧ ∀ m ∈ members, Value.Readable depth m.2 := by
  refine .object ⟨List.Pairwise.nil, List.forall_mem_nil _⟩ fun key members hmembers => ?_
  refine .of_bind fun _ => h.bind fun v hv => .pure ⟨hmembers.1.insertMember key v, ?_⟩
  intro m hm
  rcases Value.eq_or_mem_of_mem_insertMember hm with rfl | hm
  · exact hv
  · exact hmembers.2 m hm

/-- A list or an object takes one level of the depth. -/
theorem gives_readerOver {depth : Nat} {inner : Option (Reader Value)}
    (h : ∀ read, inner = some read → ∃ below, depth = below + 1 ∧
      read.Gives (Value.Readable below)) :
    (Value.readerOver inner).Gives (Value.Readable depth) := by
  refine .of_bind fun c => ?_
  split
  · exact .of_bind fun _ => .pure .null
  · exact .of_bind fun _ => .pure (.flag true)
  · exact .of_bind fun _ => .pure (.flag false)
  · exact .of_bind fun s => .pure (.text s)
  · split
    · exact .throw _
    · next read =>
        obtain ⟨below, rfl, hread⟩ := h read rfl
        exact hread.list.bind fun elements helements => .pure (.list helements)
  · split
    · exact .throw _
    · next read =>
        obtain ⟨below, rfl, hread⟩ := h read rfl
        exact (gives_members hread).bind fun members hmembers =>
          .pure (.object hmembers.1 hmembers.2)
  · split
    · exact gives_number.bind fun n hn => .pure (.number hn)
    · exact .throw _

/-- A value has no more lists and objects in it than may be open at once. -/
theorem gives_reader (depth : Nat) : (Value.reader depth).Gives (Value.Readable depth) := by
  induction depth with
  | zero => exact gives_readerOver fun read hread => by cases hread
  | succ depth ih =>
      refine gives_readerOver fun read hread => ⟨depth, rfl, ?_⟩
      cases hread
      exact ih

/-- Whatever document is read, it is a value of the depth that documents may have. -/
theorem Value.readable_of_ofChars {text : List Char} {v : Value} (h : ofChars text = .ok v) :
    v.Readable deepest := by
  unfold ofChars document at h
  cases hread : reader deepest text with
  | error fault =>
      rw [hread] at h
      cases h
  | ok p =>
      have hvalue := gives_reader deepest hread
      rw [hread] at h
      change (if _ then _ else _) = _ at h
      split at h
      · cases h
        exact hvalue
      · cases h

end StreamWatch.Json
