import Mathlib
import StreamWatch.Log.Tag
import StreamWatch.Proofs.Json.Tree.RoundTrip
import StreamWatch.Proofs.Text.Utf8

/-!
# A tagged line is the line and one member more

A line is left as it is for one of five reasons, which are the cases of `StaysAsIs`. Any other line
is an object without the member that names the connection, and what it is rewritten to is described
by `Extends`: the same object with that member, on one line. `tagLine?_exact` says that there is
nothing else.
-/

namespace StreamWatch

open Json

variable {connection? : Option String} {connection : String} {line : List UInt8}
  {text tagged : List Char} {members : List (String × Value)}

/-! ## Lines that stay as they are -/

/-- Why a line is not rewritten: there is no connection to be named, the line is no text, the text
is no document, the document is no object, or the object names a connection already. -/
inductive StaysAsIs (connection? : Option String) (line : List UInt8) : Prop
  | noConnection (h : connection? = none)
  | noText {fault : Utf8.Fault} (h : Utf8.decode line = .error fault)
  | noDocument {text : List Char} {fault : Json.Fault} (htext : Utf8.decode line = .ok text)
      (h : Value.ofChars text = .error fault)
  | noObject {text : List Char} {v : Value} (htext : Utf8.decode line = .ok text)
      (hdocument : Value.ofChars text = .ok v) (h : ∀ members, v ≠ .object members)
  | named {text : List Char} {members : List (String × Value)} {value : Value}
      (htext : Utf8.decode line = .ok text)
      (hdocument : Value.ofChars text = .ok (.object members))
      (h : (connectionMember, value) ∈ members)

/-- If there is no such reason, the line is an object that does not name a connection. -/
theorem staysAsIs_or (connection? : Option String) (line : List UInt8) :
    StaysAsIs connection? line ∨ ∃ connection text members, connection? = some connection ∧
      Utf8.decode line = .ok text ∧ Value.ofChars text = .ok (.object members) ∧
      ∀ m ∈ members, m.1 ≠ connectionMember := by
  by_contra hnone
  obtain ⟨hchanged, hobject⟩ := not_or.mp hnone
  apply hobject
  cases connection? with
  | none => exact absurd (.noConnection rfl) hchanged
  | some connection =>
      cases htext : Utf8.decode line with
      | error fault => exact absurd (.noText htext) hchanged
      | ok text =>
          cases hdocument : Value.ofChars text with
          | error fault => exact absurd (.noDocument htext hdocument) hchanged
          | ok v =>
              by_cases hv : ∀ members, v ≠ .object members
              · exact absurd (.noObject htext hdocument hv) hchanged
              · obtain ⟨members, hv⟩ := not_forall.mp hv
                obtain rfl := not_not.mp hv
                refine ⟨connection, text, members, rfl, rfl, hdocument, ?_⟩
                rintro ⟨key, value⟩ hmem rfl
                exact hchanged (.named htext hdocument hmem)

/-- What a line ends with: a newline or nothing. -/
def ending (text : List Char) : List Char :=
  if text.getLast? = some '\n' then ['\n'] else []

/-- The members with the one that names the connection. -/
def withConnection (connection : String) (members : List (String × Value)) :
    List (String × Value) :=
  Value.insertMember connectionMember (.text connection) members

/-- A member is found by its name if and only if there is one. -/
theorem any_key_iff : (members.any fun (key, _) => key == connectionMember) = true ↔
    ∃ value, (connectionMember, value) ∈ members := by
  rw [List.any_eq_true]
  constructor
  · rintro ⟨⟨key, value⟩, hmem, hkey⟩
    obtain rfl := eq_of_beq hkey
    exact ⟨value, hmem⟩
  · rintro ⟨value, hmem⟩
    exact ⟨_, hmem, beq_self_eq_true _⟩

/-- A line that is a text is tagged as that text. -/
theorem tagLine?_of_ok (h : Utf8.decode line = .ok text) :
    tagLine? (some connection) line = tagText? connection text := by
  simp only [tagLine?, h]

/-- An object is rewritten unless it names a connection. -/
theorem tagText?_of_object (h : Value.ofChars text = .ok (.object members)) :
    tagText? connection text =
      if members.any fun (key, _) => key == connectionMember then none
      else some ((Value.object (withConnection connection members)).write ++ ending text) := by
  simp only [tagText?, h]
  rfl

/-- A document that is no object stays as it is. -/
theorem tagText?_of_ne_object {v : Value} (h : Value.ofChars text = .ok v)
    (hv : ∀ members, v ≠ .object members) : tagText? connection text = none := by
  cases v with
  | object members => exact absurd rfl (hv members)
  | _ => simp only [tagText?, h]

/-- A line that stays as it is for one of these reasons is not rewritten. -/
theorem StaysAsIs.tagLine?_eq_none (h : StaysAsIs connection? line) :
    tagLine? connection? line = none := by
  cases connection? with
  | none => rfl
  | some connection =>
      cases h with
      | noConnection h => cases h
      | noText h => simp only [tagLine?, h]
      | noDocument htext h => simp only [tagLine?, htext, tagText?, h]
      | noObject htext hdocument h => rw [tagLine?_of_ok htext, tagText?_of_ne_object hdocument h]
      | named htext hdocument h =>
          rw [tagLine?_of_ok htext, tagText?_of_object hdocument, if_pos (any_key_iff.mpr ⟨_, h⟩)]

/-- An object that does not name a connection is rewritten with the connection in it. -/
theorem tagLine?_of_unnamed (htext : Utf8.decode line = .ok text)
    (hdocument : Value.ofChars text = .ok (.object members))
    (hunnamed : ∀ m ∈ members, m.1 ≠ connectionMember) (connection : String) :
    tagLine? (some connection) line =
      some ((Value.object (withConnection connection members)).write ++ ending text) := by
  rw [tagLine?_of_ok htext, tagText?_of_object hdocument, if_neg]
  intro hany
  obtain ⟨value, hmem⟩ := any_key_iff.mp hany
  exact hunnamed _ hmem rfl

/-- A line is not rewritten for exactly these reasons. -/
theorem tagLine?_eq_none_iff : tagLine? connection? line = none ↔ StaysAsIs connection? line := by
  refine ⟨fun hnone => ?_, StaysAsIs.tagLine?_eq_none⟩
  rcases staysAsIs_or connection? line with
    h | ⟨connection, text, members, rfl, htext, hdocument, hunnamed⟩
  · exact h
  · rw [tagLine?_of_unnamed htext hdocument hunnamed] at hnone
    cases hnone

/-- A line that is rewritten is an object that does not name a connection. -/
theorem exists_of_tagLine? (h : tagLine? connection? line = some tagged) :
    ∃ connection text members, connection? = some connection ∧ Utf8.decode line = .ok text ∧
      Value.ofChars text = .ok (.object members) ∧ (∀ m ∈ members, m.1 ≠ connectionMember) ∧
      tagged = (Value.object (withConnection connection members)).write ++ ending text := by
  rcases staysAsIs_or connection? line with
    hstays | ⟨connection, text, members, rfl, htext, hdocument, hunnamed⟩
  · rw [hstays.tagLine?_eq_none] at h
    cases h
  · rw [tagLine?_of_unnamed htext hdocument hunnamed] at h
    exact ⟨connection, text, members, rfl, htext, hdocument, hunnamed, (Option.some.inj h).symm⟩

/-! ## The rewritten line -/

/-- What an object is rewritten to. -/
structure Extends (connection : String) (line : List UInt8) (members : List (String × Value))
    (tagged : List Char) : Prop where
  /-- The line is an object with these members. -/
  reads : ∃ text, Utf8.decode line = .ok text ∧ Value.ofChars text = .ok (.object members)
  /-- The rewritten line ends with a newline if and only if the line does. -/
  ends : tagged.getLast? = some '\n' ↔ line.getLast? = some Utf8.newline
  /-- Before that it has no control characters. -/
  framed : ∃ body, Printable body ∧
    tagged = body ++ if line.getLast? = some Utf8.newline then ['\n'] else []
  /-- The rewritten line is an object with one member more, doubles as their digits are read. -/
  rereads : ∃ extended, extended.Perm ((connectionMember, .text connection) :: members) ∧
    Value.Sorted extended ∧ Value.ofChars tagged = .ok (Value.object extended).readBack ∧
    ((Value.object members).Integral → Value.ofChars tagged = .ok (.object extended))
  /-- The rewritten line is not rewritten again. -/
  stays : ∀ other?, tagLine? other? (Utf8.encode tagged) = none

/-- The connection is a member of its own among members that are in order. -/
theorem readable_withConnection (h : (Value.object members).Readable Value.deepest)
    (connection : String) :
    (Value.object (withConnection connection members)).Readable Value.deepest := by
  cases h with
  | object hsorted h =>
      refine .object (hsorted.insertMember _ _) fun m hm => ?_
      rcases Value.eq_or_mem_of_mem_insertMember hm with rfl | hm
      · exact .text connection
      · exact h m hm

/-- Naming the connection adds no double. -/
theorem integral_withConnection (h : (Value.object members).Integral) (connection : String) :
    (Value.object (withConnection connection members)).Integral := by
  cases h with
  | object h =>
      refine .object fun m hm => ?_
      rcases Value.eq_or_mem_of_mem_insertMember hm with rfl | hm
      · exact .text connection
      · exact h m hm

theorem allSpace_ending (text : List Char) : AllSpace (ending text) := by
  unfold ending
  split
  · exact List.forall_mem_singleton.mpr (by decide)
  · exact .nil

/-- Whether a line ends with a newline is seen from its text or from its bytes. -/
theorem getLast?_eq_newline_iff (h : Utf8.decode line = .ok text) :
    text.getLast? = some '\n' ↔ line.getLast? = some Utf8.newline := by
  rw [← Utf8.getLast?_encode_eq_newline_iff, Utf8.encode_of_decode h]

/-- Behind a text without control characters, only the ending can be a newline. -/
theorem getLast?_append_ending {body : List Char} (h : Printable body) (text : List Char) :
    (body ++ ending text).getLast? = some '\n' ↔ text.getLast? = some '\n' := by
  unfold ending
  split
  · next hlast => exact iff_of_true List.getLast?_concat hlast
  · next hlast =>
      refine iff_of_false (fun hbody => ?_) hlast
      rw [List.append_nil] at hbody
      exact absurd (h _ (List.mem_of_getLast? hbody)) (by decide)

/-- The object with the connection in it has the member that names it. -/
theorem exists_mem_readBack (connection : String) (members : List (String × Value)) :
    ∃ value, (connectionMember, value) ∈
      Value.readBackMembers (withConnection connection members) := by
  have hmem := Value.mem_insertMember connectionMember (.text connection) members
  rw [Value.readBackMembers_eq]
  exact ⟨_, List.mem_map.mpr ⟨_, hmem, rfl⟩⟩

/-- An object that does not name a connection is rewritten to one that does. -/
theorem extends_of_object (htext : Utf8.decode line = .ok text)
    (hdocument : Value.ofChars text = .ok (.object members))
    (hunnamed : ∀ m ∈ members, m.1 ≠ connectionMember) (connection : String) :
    Extends connection line members
      ((Value.object (withConnection connection members)).write ++ ending text) := by
  have hreadable := readable_withConnection (Value.readable_of_ofChars hdocument) connection
  have hread := Value.ofChars_write_object hreadable (allSpace_ending text)
  have hsorted : Value.Sorted (withConnection connection members) := by
    cases hreadable with
    | object hsorted => exact hsorted
  have hprintable := Value.printable_write (.object (withConnection connection members))
  have hends := getLast?_eq_newline_iff htext
  have hexact (hintegral : (Value.object members).Integral) :
      (Value.object (withConnection connection members)).readBack =
        .object (withConnection connection members) :=
    hreadable.readBack_eq (integral_withConnection hintegral connection)
  obtain ⟨value, hmem⟩ := exists_mem_readBack connection members
  exact {
    reads := ⟨text, htext, hdocument⟩
    ends := (getLast?_append_ending hprintable text).trans hends
    framed := ⟨_, hprintable, by simp only [ending, hends]⟩
    rereads := ⟨_, Value.perm_insertMember hunnamed _, hsorted, hread,
      fun hintegral => hread.trans (congrArg Except.ok (hexact hintegral))⟩
    stays := fun other? =>
      (StaysAsIs.named (Utf8.decode_encode _) hread hmem).tagLine?_eq_none }

/-- A line is left as it is for one of the reasons there are. Otherwise it is an object that does
not name a connection, and is rewritten to that object with the connection as one more member. -/
theorem tagLine?_exact (connection? : Option String) (line : List UInt8) :
    (tagLine? connection? line = none ↔ StaysAsIs connection? line) ∧
      ∀ tagged, tagLine? connection? line = some tagged →
        ∃ connection members, connection? = some connection ∧
          (∀ m ∈ members, m.1 ≠ connectionMember) ∧ Extends connection line members tagged := by
  refine ⟨tagLine?_eq_none_iff, fun tagged htag => ?_⟩
  obtain ⟨connection, text, members, rfl, htext, hdocument, hunnamed, rfl⟩ :=
    exists_of_tagLine? htag
  exact ⟨connection, members, rfl, hunnamed, extends_of_object htext hdocument hunnamed connection⟩

/-! ## A line with nested values -/

/-- A line in which a key comes twice. -/
def nestedText : List Char :=
  ("\x7b\"b\":0,\"a\":\"\\u0007\",\"b\": [18446744073709551615,\x7b\"c\":null\x7d]\x7d" ++
    "\n").toList

/-- The members of the line. -/
def nestedMembers : List (String × Value) :=
  [("a", .text "\x07"),
    ("b", .list [.number (.integer 18446744073709551615), .object [("c", .null)]])]

/-- The line with the connection in it. -/
def nestedTagged : List Char :=
  ("\x7b\"a\":\"\\u0007\",\"b\":[18446744073709551615,\x7b\"c\":null\x7d]," ++
    "\"connection_id\":\"conn \\\"1\\\"\"\x7d\n").toList

/-- The line is the document with these members. -/
theorem ofChars_nestedText : Value.ofChars nestedText = .ok (.object nestedMembers) := by
  cbv

theorem integral_nestedMembers : (Value.object nestedMembers).Integral := by
  have hinner : (Value.object [("c", .null)]).Integral :=
    .object (List.forall_mem_singleton.mpr .null)
  have hlist : (Value.list [.number (.integer 18446744073709551615),
      .object [("c", .null)]]).Integral :=
    .list (List.forall_mem_cons.mpr ⟨.integer _, List.forall_mem_singleton.mpr hinner⟩)
  exact .object (List.forall_mem_cons.mpr ⟨.text _, List.forall_mem_singleton.mpr hlist⟩)

/-- The line is read again as its members and the connection, and is not rewritten again. -/
theorem tagLine?_exact_of_nested :
    tagLine? (some "conn \"1\"") (Utf8.encode nestedText) = some nestedTagged ∧
      (∃ extended, extended.Perm ((connectionMember, .text "conn \"1\"") :: nestedMembers) ∧
        Value.ofChars nestedTagged = .ok (.object extended)) ∧
      tagLine? (some "another") (Utf8.encode nestedTagged) = none := by
  have htag : tagLine? (some "conn \"1\"") (Utf8.encode nestedText) = some nestedTagged := by
    decide +kernel
  obtain ⟨connection, members, hconnection, -, hextends⟩ :=
    (tagLine?_exact (some "conn \"1\"") (Utf8.encode nestedText)).2 nestedTagged htag
  obtain rfl := Option.some.inj hconnection
  obtain ⟨text, htext, hdocument⟩ := hextends.reads
  obtain rfl := Except.ok.inj ((Utf8.decode_encode nestedText).symm.trans htext)
  obtain rfl := Value.object.inj (Except.ok.inj (ofChars_nestedText.symm.trans hdocument))
  obtain ⟨extended, hperm, -, -, hexact⟩ := hextends.rereads
  exact ⟨htag, ⟨extended, hperm, hexact integral_nestedMembers⟩, hextends.stays _⟩

end StreamWatch
