import StreamWatch.Proofs.Json.Presentation.Codec

/-!
# Records, however their members stand

What an object says as a record does not depend on the order of its members: each field has the
value of the one member that is named after it, or its default if there is none, and all other
members are passed over: `reads_record_iff`. A record may also be given as a list, whatever follows
it.
-/

namespace StreamWatch.Json

open Reader

variable {α τ δ : Type}

/-- The fields have names of their own and regular codecs. -/
def Fields.Regular {τ δ : Type} : Fields τ δ → Prop
  | .nil => True
  | .cons field rest => field.name ∉ rest.names ∧ field.codec.Regular ∧ rest.Regular

theorem Fields.Regular.nil : Fields.nil.Regular := trivial

theorem Fields.Regular.cons {field : Field α} {rest : Fields τ δ} (hname : field.name ∉ rest.names)
    (hfield : field.codec.Regular) (hrest : rest.Regular) : (Fields.cons field rest).Regular :=
  ⟨hname, hfield, hrest⟩

/-! ## One member -/

section Member

variable {m : Member} (hm : m.Spaced) (hvalue : IsValue m.value)
include hm hvalue

/-- The rest of a member is read exactly, whichever field its key names. -/
theorem Fields.Regular.exact_readMember {fields : Fields τ δ} (h : fields.Regular) (name : String)
    (draft : δ) : (fields.readMember name draft).Exact m.assigned := by
  induction fields with
  | nil =>
      exact exact_assigned hm (spaced_skipValue.bind _)
        ((reads_skipValue hvalue).exact.bind fun _ => .pure _)
  | cons field rest ih =>
      obtain ⟨-, hfield, hrest⟩ := h
      obtain ⟨slot, others⟩ := draft
      unfold Fields.readMember
      split
      · split
        · exact .throw _ _
        · exact exact_assigned hm (hfield.spaced.bind _)
            ((hfield.exact hvalue).bind fun _ => .pure _)
      · exact (ih hrest others).bind fun _ => .pure _

/-- A member that no field is named after changes nothing. -/
theorem Fields.Regular.reads_unknown_iff {fields : Fields τ δ} (h : fields.Regular) {name : String}
    (hname : name ∉ fields.names) {draft draft' : δ} :
    (fields.readMember name draft).Reads m.assigned draft' ↔ draft' = draft := by
  induction fields with
  | nil =>
      have hskip := reads_skipValue hvalue
      refine (reads_assigned_iff hm (spaced_skipValue.bind _)).trans ?_
      refine (hskip.exact.reads_map_iff fun _ => draft).trans ⟨?_, ?_⟩
      · rintro ⟨_, -, rfl⟩
        rfl
      · rintro rfl
        exact ⟨(), hskip, rfl⟩
  | cons field rest ih =>
      obtain ⟨-, -, hrest⟩ := h
      obtain ⟨slot, others⟩ := draft
      rw [Fields.names, List.mem_cons, not_or] at hname
      unfold Fields.readMember
      rw [if_neg hname.1, (hrest.exact_readMember hm hvalue name others).reads_map_iff]
      simp [ih hrest hname.2, eq_comm]

variable {field : Field α} {rest : Fields τ δ} {slot slot' : Option α} {others others' : δ}

/-- A member that the first field is named after gives that field its value, once. -/
theorem reads_self_iff (hfield : field.codec.Regular) :
    ((Fields.cons field rest).readMember field.name (slot, others)).Reads m.assigned
        (slot', others') ↔
      slot = none ∧ (∃ a, field.codec.read.Reads m.value a ∧ some a = slot') ∧
        others = others' := by
  unfold Fields.readMember
  rw [if_pos rfl]
  cases slot with
  | some a =>
      refine ⟨fun h => ?_, fun h => absurd h.1 (by simp)⟩
      cases h Ends.nil
  | none =>
      refine (reads_assigned_iff hm (hfield.spaced.bind _)).trans ?_
      rw [(hfield.exact hvalue).reads_map_iff]
      simp [← and_assoc]

/-- A member with another name is left to the other fields. -/
theorem reads_other_iff (hrest : rest.Regular) {name : String} (hname : name ≠ field.name) :
    ((Fields.cons field rest).readMember name (slot, others)).Reads m.assigned (slot', others') ↔
      slot = slot' ∧ (rest.readMember name others).Reads m.assigned others' := by
  have hread : (Fields.cons field rest).readMember name (slot, others) =
      rest.readMember name others >>= fun others => pure (slot, others) := if_neg hname
  rw [hread, (hrest.exact_readMember hm hvalue name others).reads_map_iff]
  simp [and_left_comm]

end Member

/-! ## All members -/

/-- The members with a name. -/
def named (name : String) (ms : List Member) : List Member := ms.filter fun m => m.name? = some name

/-- The members of a name are the first one and those behind it, if it has the name. -/
theorem named_cons_self {name : String} {m : Member} (h : m.name? = some name) (ms : List Member) :
    named name (m :: ms) = m :: named name ms := by
  simp [named, h]

/-- The members of a name are those behind the first one, if it does not have the name. -/
theorem named_cons_of_ne {name : String} {m : Member} (h : m.name? ≠ some name)
    (ms : List Member) : named name (m :: ms) = named name ms := by
  simp [named, h]

theorem named_cons_of_name {name other : String} {m : Member} (h : m.name? = some other)
    (hne : name ≠ other) (ms : List Member) : named name (m :: ms) = named name ms :=
  named_cons_of_ne (by simp [h, hne.symm]) ms

/-- The members fill the slot of the field, one after the other. -/
def Field.Fills (field : Field α) : List Member → Option α → Option α → Prop
  | [], slot, slot' => slot = slot'
  | m :: ms, slot, slot' =>
      slot = none ∧ ∃ a, field.codec.read.Reads m.value a ∧ field.Fills ms (some a) slot'

/-- The field has its value from the members that are named after it: from the only one, or its
default if there is none. -/
inductive Field.Given (field : Field α) : List Member → α → Prop
  | default {a : α} (h : (field.default <|> field.codec.absent) = some a) : field.Given [] a
  | value {m : Member} {a : α} (h : field.codec.read.Reads m.value a) : field.Given [m] a

/-- The fields have their values from the members of an object. -/
def Fields.Given {τ δ : Type} : Fields τ δ → List Member → τ → Prop
  | .nil, _, _ => True
  | .cons field rest, ms, (a, others) =>
      field.Given (named field.name ms) a ∧ rest.Given ms others

/-- The value of a field is what its members fill into an empty slot, or else its default. -/
theorem Field.given_iff {field : Field α} {ms : List Member} {a : α} :
    field.Given ms a ↔
      ∃ slot, field.Fills ms none slot ∧
        (slot <|> field.default <|> field.codec.absent) = some a := by
  refine ⟨?_, ?_⟩
  · rintro (hdefault | hreads)
    · exact ⟨none, rfl, hdefault⟩
    · exact ⟨some a, ⟨rfl, a, hreads, rfl⟩, rfl⟩
  · rintro ⟨slot, hfills, hslot⟩
    match ms, hfills with
    | [], hfills =>
        obtain rfl := hfills
        exact .default hslot
    | [m], ⟨_, a', hreads, hfills⟩ =>
        obtain rfl := hfills
        cases hslot
        exact .value hreads
    | m :: m' :: ms, ⟨_, a', _, hfull, _⟩ => cases hfull

section Members

variable {ms : List Member} (hspaced : ∀ m ∈ ms, m.Spaced) (hvalue : ∀ m ∈ ms, IsValue m.value)

/-- Members without a name are not read. -/
theorem takesAll_cons_iff {σ : Type} {member : String → σ → Reader σ} {m : Member} {name : String}
    (hname : m.name? = some name) {s s' : σ} :
    TakesAll member (m :: ms) s s' ↔
      ∃ s'', (member name s).Reads m.assigned s'' ∧ TakesAll member ms s'' s' := by
  simp [TakesAll, hname]

include hspaced hvalue

/-- Where there are no fields, any members are taken if they have names. -/
theorem takesAll_nil_iff :
    TakesAll Fields.nil.readMember ms () () ↔ ∀ m ∈ ms, m.name?.isSome := by
  induction ms with
  | nil => simp [TakesAll]
  | cons m ms ih =>
      rw [List.forall_mem_cons] at hspaced hvalue ⊢
      rw [← ih hspaced.2 hvalue.2, Option.isSome_iff_exists]
      have hreads (name : String) : (Fields.nil.readMember name ()).Reads m.assigned () :=
        (Fields.Regular.nil.reads_unknown_iff hspaced.1 hvalue.1 List.not_mem_nil).mpr rfl
      refine ⟨?_, ?_⟩
      · rintro ⟨name, _, hname, -, h⟩
        exact ⟨⟨name, hname⟩, h⟩
      · rintro ⟨⟨name, hname⟩, h⟩
        exact ⟨name, (), hname, hreads name, h⟩

/-- The members that are named after the first field fill its slot, and the other fields are filled
as if it were not there. -/
theorem takesAll_fields_iff {field : Field α} {rest : Fields τ δ}
    (hdistinct : field.name ∉ rest.names) (hfield : field.codec.Regular) (hrest : rest.Regular)
    {slot slot' : Option α} {others others' : δ} :
    TakesAll (Fields.cons field rest).readMember ms (slot, others) (slot', others') ↔
      field.Fills (named field.name ms) slot slot' ∧
        TakesAll rest.readMember ms others others' := by
  induction ms generalizing slot others with
  | nil => simp [TakesAll, named, Field.Fills, eq_comm]
  | cons m ms ih =>
      rw [List.forall_mem_cons] at hspaced hvalue
      have ih {slot : Option α} {others : δ} := @ih hspaced.2 hvalue.2 slot others
      cases hname : m.name? with
      | none => simp [TakesAll, hname]
      | some name =>
          rw [takesAll_cons_iff hname, takesAll_cons_iff hname, Prod.exists]
          by_cases hself : name = field.name
          · subst hself
            have hothers {others'' : δ} :
                (rest.readMember field.name others).Reads m.assigned others'' ↔
                  others'' = others := hrest.reads_unknown_iff hspaced.1 hvalue.1 hdistinct
            simp only [named_cons_self hname, Field.Fills, hothers, ih,
              reads_self_iff hspaced.1 hvalue.1 hfield]
            refine ⟨?_, ?_⟩
            · rintro ⟨_, _, ⟨hslot, ⟨a, hreads, rfl⟩, rfl⟩, hfills, htakes⟩
              exact ⟨⟨hslot, a, hreads, hfills⟩, others, rfl, htakes⟩
            · rintro ⟨⟨hslot, a, hreads, hfills⟩, _, rfl, htakes⟩
              exact ⟨some a, _, ⟨hslot, ⟨a, hreads, rfl⟩, rfl⟩, hfills, htakes⟩
          · simp only [named_cons_of_name hname (Ne.symm hself), ih,
              reads_other_iff hspaced.1 hvalue.1 hrest hself]
            refine ⟨?_, ?_⟩
            · rintro ⟨_, others'', ⟨rfl, hreads⟩, hfills, htakes⟩
              exact ⟨hfills, others'', hreads, htakes⟩
            · rintro ⟨hfills, others'', hreads, htakes⟩
              exact ⟨slot, others'', ⟨rfl, hreads⟩, hfills, htakes⟩

omit hspaced hvalue in
/-- The values are complete if the slot of each field is filled or has a default. -/
theorem finish_eq_ok_iff {field : Field α} {rest : Fields τ δ} {slot : Option α} {draft : δ} {a : α}
    {values : τ} :
    (Fields.cons field rest).finish (slot, draft) = .ok (a, values) ↔
      (slot <|> field.default <|> field.codec.absent) = some a ∧
        rest.finish draft = .ok values := by
  rw [Fields.finish]
  cases slot <|> field.default <|> field.codec.absent with
  | none => simp
  | some a' =>
      cases rest.finish draft with
      | error fault => simp [bind, Except.bind]
      | ok others => simp [bind, Except.bind, pure, Except.pure]

/-- The members of an object give a record its values. -/
theorem takesAll_finish_iff {fields : Fields τ δ} (h : fields.Regular) {values : τ} :
    (∃ draft, TakesAll fields.readMember ms fields.empty draft ∧
        fields.finish draft = .ok values) ↔
      (∀ m ∈ ms, m.name?.isSome) ∧ fields.Given ms values := by
  induction fields with
  | nil => simp [Fields.empty, Fields.finish, Fields.Given, takesAll_nil_iff hspaced hvalue]
  | cons field rest ih =>
      obtain ⟨hname, hfield, hrest⟩ := h
      obtain ⟨a, others⟩ := values
      rw [Fields.Given, and_left_comm, ← ih hrest, Field.given_iff, Prod.exists]
      simp only [finish_eq_ok_iff]
      refine ⟨?_, ?_⟩
      · rintro ⟨slot, draft, h, hslot, hfinish⟩
        obtain ⟨hfills, h⟩ := (takesAll_fields_iff hspaced hvalue hname hfield hrest).mp h
        exact ⟨⟨slot, hfills, hslot⟩, draft, h, hfinish⟩
      · rintro ⟨⟨slot, hfills, hslot⟩, draft, h, hfinish⟩
        have h := (takesAll_fields_iff hspaced hvalue hname hfield hrest).mpr ⟨hfills, h⟩
        exact ⟨slot, draft, h, hslot, hfinish⟩

/-- An object is read as a record if all its keys are names and each field has its value. -/
theorem reads_record_iff {fields : Fields τ δ} (h : fields.Regular) (name : String) (make : τ → α)
    (parts : α → τ) {blank : List Char} (hblank : AllSpace blank) {a : α} :
    (Codec.record name fields make parts).read.Reads (objectText blank ms) a ↔
      (∀ m ∈ ms, m.name?.isSome) ∧ ∃ values, fields.Given ms values ∧ make values = a := by
  have hexact : ∀ m ∈ ms, ∀ name draft, (fields.readMember name draft).Exact m.assigned :=
    fun m hm => h.exact_readMember (hspaced m hm) (hvalue m hm)
  have hread (rest : List Char) :
      (Codec.record name fields make parts).read (objectText blank ms ++ rest) =
        (object fields.readMember fields.empty >>= fun draft rest =>
          (fields.finish draft).map fun values => (make values, rest))
            (objectText blank ms ++ rest) := record_read_object ..
  refine ⟨fun hreads => ?_, ?_⟩
  · have hok := hreads Ends.nil
    rw [hread] at hok
    obtain ⟨draft, r, hobject, hfinish⟩ := bind_ok hok
    have htakes := (takesAll_of_object hspaced hblank hexact hobject).2
    cases hvalues : fields.finish draft with
    | error fault =>
        rw [hvalues] at hfinish
        cases hfinish
    | ok values =>
        rw [hvalues] at hfinish
        cases hfinish
        obtain ⟨hnames, hgiven⟩ :=
          (takesAll_finish_iff hspaced hvalue h).mp ⟨draft, htakes, hvalues⟩
        exact ⟨hnames, values, hgiven, rfl⟩
  · rintro ⟨hnames, values, hgiven, rfl⟩ rest hrest
    obtain ⟨draft, htakes, hfinish⟩ :=
      (takesAll_finish_iff hspaced hvalue h).mpr ⟨hnames, hgiven⟩
    rw [hread, bind_of_ok (reads_object hspaced hblank htakes hrest), hfinish]
    rfl

end Members

/-! ## Records given as lists -/

section Elements

variable {es : List Element} {sp : List Char}

/-- What is left of a list with what follows it: white space, elements and the closing bracket. -/
def listTail (first : Bool) (sp : List Char) (es : List Element) (rest : List Char) : List Char :=
  sp ++ (remaining first (es.map Element.text) ++ ']' :: rest)

/-- A list is closed by its bracket. -/
theorem peek?_of_closeList {cs : List Char} {r : Unit × List Char} (h : closeList cs = .ok r) :
    ∃ rest, peek? cs = .ok (some ']', rest) := by
  obtain ⟨c?, rest, hpeek, h⟩ := bind_ok h
  split at h
  · exact ⟨rest, hpeek⟩
  · obtain ⟨_, _, -, h⟩ := bind_ok h
    obtain ⟨_, _, -, h⟩ := bind_ok h
    split at h <;> cases h
  · cases h
  · cases h

/-- A list is closed where no elements are left. -/
theorem closeList_listTail (hsp : AllSpace sp) (hspaced : ∀ e ∈ es, e.Spaced)
    (hvalue : ∀ e ∈ es, IsValue e.value) {first : Bool} {rest : List Char} {r : Unit × List Char}
    (h : closeList (listTail first sp es rest) = .ok r) : es = [] := by
  obtain ⟨rest', hpeek⟩ := peek?_of_closeList h
  cases es with
  | nil => rfl
  | cons e es =>
      rw [List.forall_mem_cons] at hspaced hvalue
      obtain ⟨c, value, htext, hopens⟩ := Opens.of_isValue hvalue.1
      rw [listTail, List.map_cons, remaining, Element.text, htext] at hpeek
      cases first with
      | true =>
          simp only [if_true, List.nil_append, List.append_assoc] at hpeek
          rw [← List.append_assoc, List.cons_append,
            peek?_before (hsp.append hspaced.1.before) hopens.not_space] at hpeek
          cases hpeek
          exact absurd rfl hopens.ne_bracket
      | false =>
          rw [if_neg (by decide), List.append_assoc, List.singleton_append,
            peek?_before hsp (by decide)] at hpeek
          cases hpeek

/-- A list ends with its bracket, past white space. -/
theorem closeList_nil (hsp : AllSpace sp) (first : Bool) (rest : List Char) :
    closeList (listTail first sp [] rest) = .ok ((), rest) := by
  have htext : listTail first sp [] rest = sp ++ ']' :: rest := rfl
  rw [htext, closeList, bind_of_ok (peek?_before hsp (by decide) rest)]
  rfl

/-- Fields are read from as many elements as there are, and the others get their defaults. -/
theorem Fields.Regular.readElements_listTail {fields : Fields τ δ} (h : fields.Regular)
    (hsp : AllSpace sp) (hspaced : ∀ e ∈ es, e.Spaced) (hvalue : ∀ e ∈ es, IsValue e.value)
    {expected : String} {index : Nat} {rest r : List Char} {values : τ}
    (hread : fields.readElements expected index (listTail (index == 0) sp es rest) =
      .ok (values, r)) :
    ∃ sp' first es', AllSpace sp' ∧ (∀ e ∈ es', e ∈ es) ∧ r = listTail first sp' es' rest ∧
      ∀ rest', fields.readElements expected index (listTail (index == 0) sp es rest') =
        .ok (values, listTail first sp' es' rest') := by
  induction fields generalizing es sp index with
  | nil =>
      cases hread
      exact ⟨sp, index == 0, es, hsp, fun _ => id, rfl, fun _ => rfl⟩
  | cons field others ih =>
      obtain ⟨-, hfield, hrest⟩ := h
      -- without elements the field gets its default, else it takes the first one
      cases es with
      | nil =>
          have hend (rest : List Char) :
              nextElement (index == 0) (listTail (index == 0) sp [] rest) =
                .ok (false, listTail false [] [] rest) := nextElement_end hsp _ rest
          rw [Fields.readElements, bind_of_ok (hend rest)] at hread
          cases hdefault : field.default with
          | none =>
              rw [hdefault] at hread
              cases hread
          | some a =>
              rw [hdefault] at hread
              obtain ⟨values', r', hread, hpure⟩ := bind_ok hread
              cases hpure
              obtain ⟨sp', first, es', hsp', hmem, hr, hothers⟩ :=
                ih hrest AllSpace.nil hspaced hvalue hread
              refine ⟨sp', first, es', hsp', hmem, hr, fun rest' => ?_⟩
              rw [Fields.readElements, bind_of_ok (hend rest'), hdefault]
              exact bind_of_ok (hothers rest') _
      | cons e es =>
          rw [List.forall_mem_cons] at hspaced hvalue
          have hnext (rest : List Char) :
              nextElement (index == 0) (listTail (index == 0) sp (e :: es) rest) =
                .ok (true, e.value ++ listTail false e.after es rest) := by
            have htext := nextElement_text hsp hspaced.1 hvalue.1 (index == 0)
              (remaining false (es.map Element.text) ++ ']' :: rest)
            simpa only [listTail, List.map_cons, remaining, List.append_assoc] using htext
          have hends (rest : List Char) : Ends (listTail false e.after es rest) :=
            (ends_remaining (es.map Element.text) (Or.inl rfl) rest).append hspaced.1.after
          rw [Fields.readElements, bind_of_ok (hnext rest), if_pos rfl] at hread
          obtain ⟨a, r', hfirst, hread⟩ := bind_ok hread
          obtain ⟨rfl, hreads⟩ := hfield.exact hvalue.1 (hends rest) hfirst
          obtain ⟨values', r', hread, hpure⟩ := bind_ok hread
          cases hpure
          obtain ⟨sp', first, es', hsp', hmem, hr, hothers⟩ :=
            ih hrest hspaced.1.after hspaced.2 hvalue.2 hread
          refine ⟨sp', first, es', hsp', fun e' he' => List.mem_cons_of_mem _ (hmem e' he'), hr,
            fun rest' => ?_⟩
          rw [Fields.readElements, bind_of_ok (hnext rest'), if_pos rfl,
            bind_of_ok (hreads (hends rest'))]
          exact bind_of_ok (hothers rest') _

/-- A list is read as a record whatever follows it. -/
theorem exact_elements {fields : Fields τ δ} (h : fields.Regular) (hblank : AllSpace sp)
    (hspaced : ∀ e ∈ es, e.Spaced) (hvalue : ∀ e ∈ es, IsValue e.value) (expected : String)
    (make : τ → α) :
    (advance >>= fun _ => fields.readElements expected 0 >>= fun values =>
      closeList >>= fun _ => pure (make values)).Exact (listText sp es) := by
  have htext (rest : List Char) :
      (advance >>= fun _ => fields.readElements expected 0 >>= fun values =>
        closeList >>= fun _ => pure (make values)) (listText sp es ++ rest) =
      (fields.readElements expected 0 >>= fun values =>
        closeList >>= fun _ => pure (make values)) (listTail (0 == 0) sp es rest) := by
    simp [listText, listTail]
    rfl
  intro rest a r _ hread
  rw [htext] at hread
  obtain ⟨values, r', hvalues, hread⟩ := bind_ok hread
  obtain ⟨sp', first, es', hsp', hmem, rfl, hothers⟩ :=
    h.readElements_listTail hblank hspaced hvalue hvalues
  obtain ⟨_, r', hclose, hpure⟩ := bind_ok hread
  obtain rfl := closeList_listTail hsp' (fun e he => hspaced e (hmem e he))
    (fun e he => hvalue e (hmem e he)) hclose
  rw [closeList_nil hsp'] at hclose
  cases hclose
  cases hpure
  refine ⟨rfl, fun rest' _ => ?_⟩
  rw [htext, bind_of_ok (hothers rest'), bind_of_ok (closeList_nil hsp' first rest')]
  rfl

end Elements

namespace Codec.Regular

/-- A record is regular if its fields are, be it written as an object or as a list. -/
theorem record {fields : Fields τ δ} (h : fields.Regular) (name : String) (make : τ → α)
    (parts : α → τ) : (Codec.record name fields make parts).Regular where
  spaced := spaced_peekValue.bind _
  exact hv := by
    refine exact_peekValue hv fun c hc => ?_
    split
    · obtain ⟨blank, ms, hblank, hspaced, hvalue, rfl⟩ := hv.exists_object hc
      have hexact : ∀ m ∈ ms, ∀ name draft, (fields.readMember name draft).Exact m.assigned :=
        fun m hm => h.exact_readMember (hspaced m hm) (hvalue m hm)
      refine (exact_object hspaced hblank hexact).bind fun draft => ?_
      split
      · exact .pure _
      · exact .throw _ _
    · obtain ⟨blank, es, hblank, hspaced, hvalue, rfl⟩ := hv.exists_list hc
      exact exact_elements h hblank hspaced hvalue _ _
    · exact exact_mismatch _ _

end Codec.Regular

end StreamWatch.Json
