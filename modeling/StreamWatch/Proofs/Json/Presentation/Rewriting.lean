import Mathlib.Data.List.Forall2
import Mathlib.Logic.Relation
import StreamWatch.Proofs.Json.Presentation.Record
import StreamWatch.Proofs.Text.Uuid

/-!
# Other presentations of the same value

A text can be rewritten in many ways without saying anything else: the members of its objects can
be reordered, white space can be put between its parts, members that say nothing can come and go,
and an identifier can be written in another of its forms. `Codec.Rewrites` is one such step,
anywhere in the text, and what is read from the text stays the same: `Codec.Rewrites.reads`.
-/

namespace StreamWatch.Json

open Reader

variable {α τ δ : Type} {ms ms' : List Member}

/-! ## Members -/

/-- The field is one of the fields. -/
inductive Fields.Has {α : Type} (field : Field α) : {τ δ : Type} → Fields τ δ → Prop
  | first {τ δ : Type} {rest : Fields τ δ} : (Fields.cons field rest).Has field
  | behind {β τ δ : Type} {other : Field β} {rest : Fields τ δ} (h : rest.Has field) :
      (Fields.cons other rest).Has field

/-- The same member with other white space around its parts. -/
structure Member.Respaced (m m' : Member) : Prop where
  key : m'.key = m.key
  value : m'.value = m.value

/-- The member says nothing: no field is named after it, or its value is the one that the field has
where the member is missing. -/
inductive Fields.Silent (fields : Fields τ δ) (m : Member) : Prop
  | unknown {name : String} (hname : m.name? = some name) (h : name ∉ fields.names) :
      fields.Silent m
  | default {α : Type} {field : Field α} {a : α} (hfield : fields.Has field)
      (hname : m.name? = some field.name)
      (hdefault : (field.default <|> field.codec.absent) = some a)
      (h : field.codec.read.Reads m.value a) : fields.Silent m

/-- The members of an object are put in another order, get other white space around them, or lose or
gain one that says nothing. -/
inductive Fields.Rearranges (fields : Fields τ δ) : List Member → List Member → Prop
  | reorder {ms ms' : List Member} (h : ms.Perm ms') : fields.Rearranges ms ms'
  | respace {ms ms' : List Member} (h : List.Forall₂ Member.Respaced ms ms') :
      fields.Rearranges ms ms'
  | drop {m : Member} {ms : List Member} (h : fields.Silent m) : fields.Rearranges (m :: ms) ms
  | add {m : Member} {ms : List Member} (h : fields.Silent m)
      (hnew : ∀ m' ∈ ms, m'.name? ≠ m.name?) : fields.Rearranges ms (m :: ms)

/-- A field is named among the fields it belongs to. -/
theorem Fields.Has.name_mem {field : Field α} {fields : Fields τ δ} (h : fields.Has field) :
    field.name ∈ fields.names := by
  induction h with
  | first => exact List.mem_cons_self
  | behind _ ih => exact List.mem_cons_of_mem _ ih

/-- What is read from a value is one thing. -/
theorem Reader.Reads.unique {read : Reader α} {text : List Char} {a b : α}
    (h : read.Reads text a) (h' : read.Reads text b) : a = b := by
  have heq := (h Ends.nil).symm.trans (h' Ends.nil)
  cases heq
  rfl

/-! ## What the members give -/

/-- The value of a field does not depend on the order of its members, for there is one at most. -/
theorem Field.Given.perm {field : Field α} {a : α} (h : field.Given ms a) (hperm : ms.Perm ms') :
    field.Given ms' a := by
  cases h with
  | default h =>
      obtain rfl := hperm.nil_eq
      exact .default h
  | value h =>
      obtain rfl := List.singleton_perm.mp hperm
      exact .value h

/-- The value of a field does not depend on the white space around its members. -/
theorem Field.Given.respace {field : Field α} {a : α} (h : field.Given ms a)
    (hms : List.Forall₂ Member.Respaced ms ms') : field.Given ms' a := by
  cases h with
  | default h =>
      cases hms
      exact .default h
  | value h =>
      obtain _ | ⟨hm, hnil⟩ := hms
      cases hnil
      exact .value (hm.value ▸ h)

theorem Member.Respaced.name? {m m' : Member} (h : m.Respaced m') : m'.name? = m.name? := by
  rw [Member.name?, Member.name?, h.key]

/-- The members of a name get other white space as all members do. -/
theorem respaced_named (h : List.Forall₂ Member.Respaced ms ms') (name : String) :
    List.Forall₂ Member.Respaced (named name ms) (named name ms') := by
  induction h with
  | nil => exact .nil
  | @cons m m' ms ms' hm _ ih =>
      by_cases hname : m.name? = some name
      · rw [named_cons_self hname, named_cons_self (hm.name?.trans hname)]
        exact .cons hm ih
      · rw [named_cons_of_ne hname, named_cons_of_ne (hm.name? ▸ hname)]
        exact ih

/-- The values stay the same if those of all fields do. -/
theorem Fields.Given.imp {fields : Fields τ δ} {values : τ} (h : fields.Given ms values)
    (hfield : ∀ {α : Type} (field : Field α) {a : α}, field.name ∈ fields.names →
      field.Given (named field.name ms) a → field.Given (named field.name ms') a) :
    fields.Given ms' values := by
  induction fields with
  | nil => trivial
  | cons field rest ih =>
      exact ⟨hfield field List.mem_cons_self h.1,
        ih h.2 fun field _ hname => hfield field (List.mem_cons_of_mem _ hname)⟩

/-- The values stay the same if that of one field does, and only members that are named after it
change. -/
theorem Fields.Given.imp_field {fields : Fields τ δ} (hfields : fields.Regular) {field : Field α}
    (hfield : fields.Has field) {values : τ} (h : fields.Given ms values)
    (hothers : ∀ name, name ≠ field.name → named name ms' = named name ms)
    (hgiven : ∀ {a}, field.Given (named field.name ms) a → field.Given (named field.name ms') a) :
    fields.Given ms' values := by
  induction hfield with
  | first =>
      obtain ⟨hdistinct, -, -⟩ := hfields
      refine ⟨hgiven h.1, h.2.imp fun other a hname hother => ?_⟩
      rw [hothers other.name (ne_of_mem_of_not_mem hname hdistinct)]
      exact hother
  | behind hfield ih =>
      obtain ⟨hdistinct, -, hrest⟩ := hfields
      refine ⟨?_, ih hrest h.2⟩
      rw [hothers _ (ne_of_mem_of_not_mem hfield.name_mem hdistinct).symm]
      exact h.1

/-- A field that a member is named after has its value from that one alone. -/
theorem Field.given_cons_iff {field : Field α} {m : Member} {a : α} :
    field.Given (m :: ms) a ↔ ms = [] ∧ field.codec.read.Reads m.value a := by
  refine ⟨?_, ?_⟩
  · rintro ⟨⟩
    next h => exact ⟨rfl, h⟩
  · rintro ⟨rfl, h⟩
    exact .value h

/-- What members say stays the same when they are rearranged. -/
theorem Fields.Rearranges.given {fields : Fields τ δ} (h : fields.Rearranges ms ms')
    (hfields : fields.Regular) {values : τ} (hgiven : fields.Given ms values) :
    fields.Given ms' values := by
  cases h with
  | reorder h => exact hgiven.imp fun field a _ hfield => hfield.perm (h.filter _)
  | respace h => exact hgiven.imp fun field a _ hfield => hfield.respace (respaced_named h _)
  | @drop m _ h =>
      cases h with
      | unknown hname hunknown =>
          refine hgiven.imp fun field a hmem hfield => ?_
          rwa [named_cons_of_name hname (ne_of_mem_of_not_mem hmem hunknown)] at hfield
      | @default β field a hfield hname hdefault h =>
          refine hgiven.imp_field hfields hfield (fun name hne => ?_) fun {b} hb => ?_
          · rw [named_cons_of_name hname hne]
          · rw [named_cons_self hname] at hb
            obtain ⟨hnone, hreads⟩ := Field.given_cons_iff.mp hb
            rw [hnone, ← h.unique hreads]
            exact .default hdefault
  | @add m _ h hnew =>
      cases h with
      | unknown hname hunknown =>
          refine hgiven.imp fun field a hmem hfield => ?_
          rwa [named_cons_of_name hname (ne_of_mem_of_not_mem hmem hunknown)]
      | @default β field a hfield hname hdefault h =>
          refine hgiven.imp_field hfields hfield (fun name hne => ?_) fun {b} hb => ?_
          · rw [named_cons_of_name hname hne]
          · have hnone : named field.name ms = [] :=
              List.filter_eq_nil_iff.mpr fun m' hm' => by simpa [hname] using hnew m' hm'
            rw [hnone] at hb
            obtain ⟨hb⟩ := hb
            rw [named_cons_self hname, hnone]
            obtain rfl : a = b := Option.some.inj (hdefault.symm.trans hb)
            exact .value h

/-- What members say stays the same when the value of one of them is replaced by one that says the
same. -/
theorem Fields.Given.replace {fields : Fields τ δ} (hfields : fields.Regular) {field : Field α}
    (hfield : fields.Has field) {m : Member} (hname : m.name? = some field.name) {v' : List Char}
    (hvalue : ∀ {a}, field.codec.read.Reads m.value a → field.codec.read.Reads v' a) {values : τ}
    (hgiven : fields.Given (m :: ms) values) :
    fields.Given ({ m with value := v' } :: ms) values := by
  have hname' : Member.name? { m with value := v' } = some field.name := hname
  refine hgiven.imp_field hfields hfield (fun name hne => ?_) fun {a} ha => ?_
  · rw [named_cons_of_name hname hne, named_cons_of_name hname' hne]
  · rw [named_cons_self hname, Field.given_cons_iff] at ha
    rw [named_cons_self hname', Field.given_cons_iff]
    exact ⟨ha.1, hvalue ha.2⟩

/-- All members still have names when they are rearranged. -/
theorem Fields.Rearranges.names {fields : Fields τ δ} (h : fields.Rearranges ms ms')
    (hnames : ∀ m ∈ ms, m.name?.isSome) : ∀ m ∈ ms', m.name?.isSome := by
  cases h with
  | reorder h => exact fun m hm => hnames m (h.mem_iff.mpr hm)
  | respace h =>
      induction h with
      | nil => exact hnames
      | cons hm _ ih =>
          rw [List.forall_mem_cons] at hnames ⊢
          exact ⟨hm.name? ▸ hnames.1, ih hnames.2⟩
  | drop h => exact (List.forall_mem_cons.mp hnames).2
  | add h =>
      refine List.forall_mem_cons.mpr ⟨?_, hnames⟩
      cases h with
      | unknown hname => exact Option.isSome_of_eq_some hname
      | default _ hname => exact Option.isSome_of_eq_some hname

/-! ## Texts -/

/-- One step from the text of a value to another text of the same value. -/
inductive Codec.Rewrites : {α : Type} → Codec α → List Char → List Char → Prop
  /-- An identifier is written in another of its forms. -/
  | uuid {id : Uuid} {text text' : List Char} {s s' : String} (htext : IsStringText text)
      (htext' : IsStringText text') (hs : spelled? text = some s) (hs' : spelled? text' = some s')
      (h : id.IsForm s.toList) (h' : id.IsForm s'.toList) :
      Codec.uuid.Rewrites (quoted text) (quoted text')
  /-- A value that may be missing is rewritten. -/
  | optional {α : Type} {codec : Codec α} {v v' : List Char} (hcodec : codec.Regular)
      (h : codec.Rewrites v v') : (Codec.optional codec).Rewrites v v'
  /-- The white space in a list is changed. -/
  | spaces {α : Type} {codec : Codec α} {blank blank' : List Char} {es es' : List Element}
      (hcodec : codec.Regular) (hblank : AllSpace blank) (hblank' : AllSpace blank')
      (hes : ∀ e ∈ es, e.Spaced ∧ IsValue e.value) (hes' : ∀ e ∈ es', e.Spaced ∧ IsValue e.value)
      (h : es.map Element.value = es'.map Element.value) :
      (Codec.list codec).Rewrites (listText blank es) (listText blank' es')
  /-- An element of a list is rewritten. -/
  | element {α : Type} {codec : Codec α} {blank v' : List Char} {es es' : List Element}
      {e : Element} (hcodec : codec.Regular) (hblank : AllSpace blank)
      (hes : ∀ d ∈ es ++ e :: es', d.Spaced ∧ IsValue d.value) (h : codec.Rewrites e.value v') :
      (Codec.list codec).Rewrites (listText blank (es ++ e :: es'))
        (listText blank (es ++ { e with value := v' } :: es'))
  /-- The members of an object are rearranged. -/
  | members {α τ δ : Type} {name : String} {fields : Fields τ δ} {make : τ → α} {parts : α → τ}
      {blank blank' : List Char} {ms ms' : List Member} (hfields : fields.Regular)
      (hblank : AllSpace blank) (hblank' : AllSpace blank')
      (hms : ∀ m ∈ ms, m.Spaced ∧ IsValue m.value) (hms' : ∀ m ∈ ms', m.Spaced ∧ IsValue m.value)
      (h : fields.Rearranges ms ms') :
      (Codec.record name fields make parts).Rewrites (objectText blank ms) (objectText blank' ms')
  /-- The value of a member is rewritten. -/
  | member {α β τ δ : Type} {name : String} {fields : Fields τ δ} {make : τ → α} {parts : α → τ}
      {blank v' : List Char} {ms : List Member} {m : Member} {field : Field β}
      (hfields : fields.Regular) (hblank : AllSpace blank)
      (hms : ∀ n ∈ m :: ms, n.Spaced ∧ IsValue n.value) (hfield : fields.Has field)
      (hname : m.name? = some field.name) (h : field.codec.Rewrites m.value v') :
      (Codec.record name fields make parts).Rewrites (objectText blank (m :: ms))
        (objectText blank ({ m with value := v' } :: ms))

/-- Another value may be put in the place of an element. -/
theorem spaced_replace_element {es es' : List Element} {e : Element} {v' : List Char}
    (hes : ∀ d ∈ es ++ e :: es', d.Spaced ∧ IsValue d.value) (hv' : IsValue v') :
    ∀ d ∈ es ++ { e with value := v' } :: es', d.Spaced ∧ IsValue d.value := by
  rw [List.forall_mem_append, List.forall_mem_cons] at hes ⊢
  exact ⟨hes.1, ⟨{ hes.2.1.1 with }, hv'⟩, hes.2.2⟩

/-- Another value may be put in the place of that of a member. -/
theorem spaced_replace_member {m : Member} {v' : List Char}
    (hms : ∀ n ∈ m :: ms, n.Spaced ∧ IsValue n.value) (hv' : IsValue v') :
    ∀ n ∈ { m with value := v' } :: ms, n.Spaced ∧ IsValue n.value := by
  rw [List.forall_mem_cons] at hms ⊢
  exact ⟨⟨{ hms.1.1 with }, hv'⟩, hms.2⟩

/-- What is rewritten is a JSON value again, and neither text is null. -/
theorem Codec.Rewrites.isValue {codec : Codec α} {v v' : List Char} (h : codec.Rewrites v v') :
    (IsValue v ∧ v.head? ≠ some 'n') ∧ (IsValue v' ∧ v'.head? ≠ some 'n') := by
  have hlist {blank : List Char} {es : List Element} (hblank : AllSpace blank)
      (hes : ∀ e ∈ es, e.Spaced ∧ IsValue e.value) :
      IsValue (listText blank es) ∧ (listText blank es).head? ≠ some 'n' :=
    ⟨.of_elements hblank hes, by simp [listText]⟩
  have hobject {blank : List Char} {ms : List Member} (hblank : AllSpace blank)
      (hms : ∀ m ∈ ms, m.Spaced ∧ IsValue m.value) :
      IsValue (objectText blank ms) ∧ (objectText blank ms).head? ≠ some 'n' :=
    ⟨.of_members hblank hms, by simp [objectText]⟩
  induction h with
  | uuid htext htext' =>
      exact ⟨⟨.string htext, by simp [quoted]⟩, .string htext', by simp [quoted]⟩
  | optional _ _ ih => exact ih
  | spaces _ hblank hblank' hes hes' => exact ⟨hlist hblank hes, hlist hblank' hes'⟩
  | element _ hblank hes _ ih =>
      exact ⟨hlist hblank hes, hlist hblank (spaced_replace_element hes ih.2.1)⟩
  | members _ hblank hblank' hms hms' => exact ⟨hobject hblank hms, hobject hblank' hms'⟩
  | member _ hblank hms _ _ _ ih =>
      exact ⟨hobject hblank hms, hobject hblank (spaced_replace_member hms ih.2.1)⟩

/-- What is read as an identifier is what the text between the quotes stands for. -/
theorem reads_uuid_iff {text : List Char} (htext : IsStringText text) {s : String}
    (hs : spelled? text = some s) {id : Uuid} :
    Codec.uuid.read.Reads (quoted text) id ↔ Uuid.ofString? s = some id := by
  have hread (rest : List Char) : Codec.uuid.read (quoted text ++ rest) =
      (Uuid.ofString? s).elim (.error .notUuid) fun id => .ok (id, rest) := by
    have hstring : Reader.string (quoted text ++ rest) = .ok (s, rest) :=
      (string_quoted_eq_ok_iff htext).mpr ⟨rfl, hs⟩
    refine (bind_of_ok ((readText_quoted _ text rest).trans hstring) _).trans ?_
    cases Uuid.ofString? s <;> rfl
  simp only [Reads, hread]
  cases Uuid.ofString? s with
  | none => simpa using ⟨[], Ends.nil⟩
  | some id' =>
      refine ⟨fun h => ?_, fun h rest _ => ?_⟩
      · cases h Ends.nil
        rfl
      · cases h
        rfl

/-- One element is as good as another if it is read alike. -/
theorem readsAll_replace {read : Reader α} {e e' : Element}
    (h : ∀ {a}, read.Reads e.value a → read.Reads e'.value a) {es es' : List Element}
    {values : List α} (hall : read.ReadsAll (es ++ e :: es') values) :
    read.ReadsAll (es ++ e' :: es') values := by
  induction es generalizing values with
  | nil =>
      obtain _ | ⟨hreads, hall⟩ := hall
      exact .cons (h hreads) hall
  | cons _ es ih =>
      obtain _ | ⟨hreads, hall⟩ := hall
      exact .cons hreads (ih hall)

/-- What is read from a text is read from it when it is rewritten. -/
theorem Codec.Rewrites.reads {codec : Codec α} {v v' : List Char} (h : codec.Rewrites v v') {a : α}
    (hreads : codec.read.Reads v a) : codec.read.Reads v' a := by
  induction h with
  | uuid htext htext' hs hs' hform hform' =>
      rw [reads_uuid_iff htext hs, Uuid.ofString?, Uuid.ofChars?_eq_some_iff.mpr hform] at hreads
      rw [reads_uuid_iff htext' hs', Uuid.ofString?, Uuid.ofChars?_eq_some_iff.mpr hform', hreads]
  | optional hcodec h ih =>
      obtain ⟨⟨hv, hnull⟩, hv', hnull'⟩ := h.isValue
      obtain ⟨a', hreads, ha⟩ := (reads_optional_iff hcodec hv hnull).mp hreads
      exact (reads_optional_iff hcodec hv' hnull').mpr ⟨a', ih hreads, ha⟩
  | @spaces _ codec _ _ es es' hcodec hblank hblank' hes hes' heq =>
      obtain ⟨hspaced, hvalue⟩ := forall₂_and.mp hes
      obtain ⟨hspaced', hvalue'⟩ := forall₂_and.mp hes'
      rw [reads_list_iff hcodec hblank hspaced hvalue] at hreads
      rw [reads_list_iff hcodec hblank' hspaced' hvalue']
      have hall : List.Forall₂ codec.read.Reads (es.map Element.value) a :=
        List.forall₂_map_left_iff.mpr hreads
      rw [heq] at hall
      exact List.forall₂_map_left_iff.mp hall
  | element hcodec hblank hes h ih =>
      obtain ⟨hspaced, hvalue⟩ := forall₂_and.mp hes
      obtain ⟨hspaced', hvalue'⟩ := forall₂_and.mp (spaced_replace_element hes h.isValue.2.1)
      rw [reads_list_iff hcodec hblank hspaced hvalue] at hreads
      rw [reads_list_iff hcodec hblank hspaced' hvalue']
      exact readsAll_replace ih hreads
  | members hfields hblank hblank' hms hms' h =>
      obtain ⟨hspaced, hvalue⟩ := forall₂_and.mp hms
      obtain ⟨hspaced', hvalue'⟩ := forall₂_and.mp hms'
      rw [reads_record_iff hspaced hvalue hfields _ _ _ hblank] at hreads
      obtain ⟨hnames, values, hgiven, ha⟩ := hreads
      rw [reads_record_iff hspaced' hvalue' hfields _ _ _ hblank']
      exact ⟨h.names hnames, values, h.given hfields hgiven, ha⟩
  | member hfields hblank hms hfield hname h ih =>
      obtain ⟨hspaced, hvalue⟩ := forall₂_and.mp hms
      obtain ⟨hspaced', hvalue'⟩ := forall₂_and.mp (spaced_replace_member hms h.isValue.2.1)
      rw [reads_record_iff hspaced hvalue hfields _ _ _ hblank] at hreads
      obtain ⟨hnames, values, hgiven, ha⟩ := hreads
      rw [reads_record_iff hspaced' hvalue' hfields _ _ _ hblank]
      refine ⟨?_, values, hgiven.replace hfields hfield hname ih, ha⟩
      rw [List.forall_mem_cons] at hnames ⊢
      exact ⟨hnames.1, hnames.2⟩

end StreamWatch.Json
