import StreamWatch.Proofs.Json.Presentation.Single
import StreamWatch.Proofs.Json.RoundTrip.Codec

/-!
# Lists and objects with white space

White space may stand before every value and around all punctuation. A reader is `Exact` on a text
if it takes just that text whenever it reads a value from it; then lists are read element by element
and objects member by member, and nothing is read differently for what stands further on.
-/

namespace StreamWatch.Json

open Reader

variable {α β σ : Type}

namespace Reader

/-! ## Readers that pass over white space first -/

/-- The reader does not mind white space before what it reads. -/
def Spaced (read : Reader α) : Prop := ∀ ⦃sp⦄, AllSpace sp → ∀ cs, read (sp ++ cs) = read cs

/-- Looking for a character passes over white space first. -/
theorem spaced_peek? : peek?.Spaced := by
  intro sp hsp cs
  rw [peek?_apply, peek?_apply, dropWhile_isSpace_append hsp]

/-- What starts with a reader that does not mind white space does not mind it either. -/
theorem Spaced.bind {x : Reader α} (h : x.Spaced) (f : α → Reader β) : (x >>= f).Spaced := by
  intro sp hsp cs
  rw [bind_apply, bind_apply, h hsp]

theorem spaced_peekValue : peekValue.Spaced := spaced_peek?.bind _

/-! ## Exact readers -/

/-- If the reader reads a value from the text with something behind it, then it takes the text, and
would take it with anything else behind it. -/
def Exact (read : Reader α) (text : List Char) : Prop :=
  ∀ ⦃rest a r⦄, Ends rest → read (text ++ rest) = .ok (a, r) → r = rest ∧ read.Reads text a

/-- A reader that reads a value from the text is exact on it. -/
theorem Reads.exact {read : Reader α} {text : List Char} {a : α} (h : read.Reads text a) :
    read.Exact text := by
  intro rest b r hrest hread
  rw [h hrest] at hread
  cases hread
  exact ⟨rfl, h⟩

/-- A reader that never reads a value from the text is exact on it. -/
theorem Exact.of_ne_ok {read : Reader α} {text : List Char}
    (h : ∀ rest a r, read (text ++ rest) ≠ .ok (a, r)) : read.Exact text :=
  fun _ _ _ _ hread => absurd hread (h _ _ _)

/-- A reader that does the same whatever follows is exact. -/
theorem Constant.exact {read : Reader α} {text : List Char} (h : read.Constant text) :
    read.Exact text := by
  intro rest a r hrest hread
  obtain ⟨result, hresult⟩ := h
  rw [hresult hrest] at hread
  cases result with
  | error fault => cases hread
  | ok b =>
      cases hread
      exact ⟨rfl, fun _ hrest' => hresult hrest'⟩

/-- What is made of a value that was read exactly. -/
theorem Exact.bind {x : Reader α} {text : List Char} (h : x.Exact text) {f : α → Reader β}
    (hf : ∀ a, (f a).Exact []) : (x >>= f).Exact text := by
  intro rest b r hrest hread
  obtain ⟨a, r', hx, hfa⟩ := bind_ok hread
  obtain ⟨rfl, hreads⟩ := h hrest hx
  obtain ⟨rfl, hreads'⟩ := hf a hrest hfa
  refine ⟨rfl, fun _ hrest' => ?_⟩
  rw [bind_of_ok (hreads hrest')]
  exact hreads' hrest'

theorem Exact.pure (a : α) : (pure a : Reader α).Exact [] :=
  Reads.exact (a := a) fun _ _ => rfl

theorem Exact.throw (fault : Fault) (text : List Char) :
    (MonadExcept.throw fault : Reader α).Exact text :=
  Exact.of_ne_ok fun _ _ _ h => by cases h

/-- What is made of a value is read as the value is. -/
theorem Exact.reads_map_iff {x : Reader α} {text : List Char} (h : x.Exact text) (f : α → β)
    {b : β} : (x >>= fun a => Pure.pure (f a)).Reads text b ↔ ∃ a, x.Reads text a ∧ f a = b := by
  refine ⟨fun hreads => ?_, ?_⟩
  · obtain ⟨a, r, hx, hpure⟩ := bind_ok (hreads Ends.nil)
    cases hpure
    exact ⟨a, (h Ends.nil hx).2, rfl⟩
  · rintro ⟨a, hreads, rfl⟩ rest hrest
    rw [bind_of_ok (hreads hrest)]
    rfl

/-- A value is read once its first character was looked at. -/
theorem Exact.peekValue {c : Char} {text : List Char} {f : Char → Reader α}
    (hc : isSpace c = false) (h : (f c).Exact (c :: text)) :
    (Reader.peekValue >>= f).Exact (c :: text) := by
  have hpeek (rest : List Char) :
      (Reader.peekValue >>= f) (c :: text ++ rest) = f c (c :: text ++ rest) := by
    rw [List.cons_append, bind_of_ok (peekValue_cons hc _)]
  intro rest a r hrest hread
  rw [hpeek] at hread
  obtain ⟨rfl, hreads⟩ := h hrest hread
  exact ⟨rfl, fun _ hrest' => (hpeek _).trans (hreads hrest')⟩

end Reader

/-- What is left of a list or of an object, with what follows it, may follow a value. -/
theorem ends_remaining (texts : List (List Char)) {close : Char} (h : close = ']' ∨ close = '}')
    (rest : List Char) : Ends (remaining false texts ++ close :: rest) := by
  intro c hc
  rcases delimits_remaining texts h rest c hc with rfl | rfl | rfl <;> exact Or.inr (by decide)

/-- The text of a value starts with a character that can start a value. -/
theorem Opens.of_isValue {text : List Char} (h : IsValue text) :
    ∃ c rest, text = c :: rest ∧ Opens c := by
  cases h with
  | null => exact ⟨_, _, rfl, by decide, by decide⟩
  | true => exact ⟨_, _, rfl, by decide, by decide⟩
  | false => exact ⟨_, _, rfl, by decide, by decide⟩
  | number h =>
      obtain ⟨c, rest, htext, hc⟩ := h.starts
      exact ⟨c, rest, htext, .of_startsNumber hc⟩
  | string => exact ⟨_, _, rfl, by decide, by decide⟩
  | list => exact ⟨_, _, rfl, by decide, by decide⟩
  | object => exact ⟨_, _, rfl, by decide, by decide⟩

namespace Reader

/-! ## Lists -/

section List

variable {read : Reader α} {e : Element} {es : List Element} {sp rest : List Char}

theorem spaced_nextElement (first : Bool) : (nextElement first).Spaced := spaced_peek?.bind _

/-- A character that is no white space is found behind white space. -/
theorem peek?_before {c : Char} {before : List Char} (hbefore : AllSpace before)
    (hc : isSpace c = false) (rest : List Char) :
    peek? (before ++ c :: rest) = .ok (some c, c :: rest) := by
  rw [spaced_peek? hbefore, peek?_cons hc]

/-- The next element is found behind white space and its comma. -/
theorem nextElement_text (hsp : AllSpace sp) (he : e.Spaced) (hvalue : IsValue e.value)
    (first : Bool) (rest : List Char) :
    nextElement first (sp ++ ((if first then [] else [',']) ++ (e.text ++ rest))) =
      .ok (true, e.value ++ (e.after ++ rest)) := by
  obtain ⟨c, value, htext, hopens⟩ := Opens.of_isValue hvalue
  have helement : e.text ++ rest = e.before ++ c :: (value ++ (e.after ++ rest)) := by
    simp [Element.text, htext]
  rw [spaced_nextElement first hsp, helement, htext, List.cons_append]
  cases first with
  | true =>
      rw [if_pos rfl, List.nil_append, nextElement,
        bind_of_ok (peek?_before he.before hopens.not_space _)]
      simp [hopens.ne_bracket]
      rfl
  | false =>
      have hcomma (cs : List Char) : nextElement false (',' :: cs) = elementAfterComma cs := rfl
      rw [if_neg (by decide), List.singleton_append, hcomma, elementAfterComma,
        bind_of_ok (peek?_before he.before hopens.not_space _)]
      simp [hopens.ne_bracket]
      rfl

/-- The end of a list is found behind white space. -/
theorem nextElement_end (hsp : AllSpace sp) (first : Bool) (rest : List Char) :
    nextElement first (sp ++ ']' :: rest) = .ok (false, ']' :: rest) := by
  rw [spaced_nextElement first hsp, nextElement_close]

/-- The values that are read from elements. -/
def ReadsAll (read : Reader α) : List Element → List α → Prop :=
  List.Forall₂ fun e a => read.Reads e.value a

section Elements

variable (hspaced : ∀ e ∈ es, e.Spaced) (hvalue : ∀ e ∈ es, IsValue e.value)
include hspaced hvalue

/-- If elements are read, they are read one by one. -/
theorem readsAll_of_elements (hexact : ∀ e ∈ es, read.Exact e.value) {bound : Nat} {first : Bool}
    (hsp : AllSpace sp) {values : List α} {r : List Char}
    (h : elements read bound first
      (sp ++ (remaining first (es.map Element.text) ++ ']' :: rest)) = .ok (values, r)) :
    r = ']' :: rest ∧ read.ReadsAll es values := by
  induction es generalizing bound first sp values with
  | nil =>
      cases bound with
      | zero => cases h
      | succ bound =>
          rw [elements, List.map_nil, remaining, List.nil_append,
            bind_of_ok (nextElement_end hsp first rest)] at h
          cases h
          exact ⟨rfl, .nil⟩
  | cons e es ih =>
      cases bound with
      | zero => cases h
      | succ bound =>
          rw [List.forall_mem_cons] at hspaced hvalue hexact
          rw [List.map_cons, remaining, List.append_assoc, List.append_assoc, elements,
            bind_of_ok (nextElement_text hsp hspaced.1 hvalue.1 first _), if_pos rfl] at h
          obtain ⟨a, r', hread, h⟩ := bind_ok h
          have hends := (ends_remaining (es.map Element.text) (Or.inl rfl) rest).append
            hspaced.1.after
          obtain ⟨rfl, hreads⟩ := hexact.1 hends hread
          obtain ⟨others, r'', helements, hpure⟩ := bind_ok h
          cases hpure
          obtain ⟨hr, hall⟩ := ih hspaced.2 hvalue.2 hexact.2 hspaced.1.after helements
          exact ⟨hr, .cons hreads hall⟩

/-- Elements from which values are read one by one are read. -/
theorem elements_of_readsAll {values : List α} (h : read.ReadsAll es values) {bound : Nat}
    (hbound : es.length < bound) {first : Bool} (hsp : AllSpace sp) :
    elements read bound first (sp ++ (remaining first (es.map Element.text) ++ ']' :: rest)) =
      .ok (values, ']' :: rest) := by
  induction h generalizing bound first sp with
  | nil =>
      obtain ⟨bound, rfl⟩ := Nat.exists_eq_add_one.mpr hbound
      rw [elements, List.map_nil, remaining, List.nil_append,
        bind_of_ok (nextElement_end hsp first rest)]
      rfl
  | @cons e a es values hreads _ ih =>
      obtain ⟨bound, rfl⟩ := Nat.exists_eq_add_one.mpr (Nat.zero_lt_of_lt hbound)
      rw [List.forall_mem_cons] at hspaced hvalue
      have hends := (ends_remaining (es.map Element.text) (Or.inl rfl) rest).append
        hspaced.1.after
      rw [List.map_cons, remaining, List.append_assoc, List.append_assoc, elements,
        bind_of_ok (nextElement_text hsp hspaced.1 hvalue.1 first _), if_pos rfl,
        bind_of_ok (hreads hends),
        bind_of_ok (ih hspaced.2 hvalue.2 (by simpa using hbound) hspaced.1.after)]
      rfl

end Elements

/-- A list is its elements and its closing bracket. -/
theorem list_listText (read : Reader α) (blank : List Char) (es : List Element) (rest : List Char) :
    ∃ bound, es.length < bound ∧
      list read (listText blank es ++ rest) =
        (elements read bound true >>= fun values => closeList >>= fun _ => pure values)
          (blank ++ (remaining true (es.map Element.text) ++ ']' :: rest)) := by
  have hlength := length_le_length_remaining true (es.map Element.text)
  rw [List.length_map] at hlength
  have htext : listText blank es ++ rest =
      '[' :: (blank ++ (remaining true (es.map Element.text) ++ ']' :: rest)) := by
    simp [listText]
  rw [htext]
  exact ⟨_, by simp; omega, rfl⟩

section Elements

variable (hspaced : ∀ e ∈ es, e.Spaced) (hvalue : ∀ e ∈ es, IsValue e.value) {blank : List Char}
  (hblank : AllSpace blank)
include hspaced hvalue hblank

/-- A list is read as its elements are. -/
theorem reads_list {values : List α} (h : read.ReadsAll es values) :
    (list read).Reads (listText blank es) values := by
  intro rest _
  obtain ⟨bound, hbound, hlist⟩ := list_listText read blank es rest
  rw [hlist, bind_of_ok (elements_of_readsAll hspaced hvalue h hbound hblank),
    bind_of_ok (closeList_close rest)]
  rfl

/-- If a list is read, its elements are. -/
theorem readsAll_of_list (hexact : ∀ e ∈ es, read.Exact e.value) {values : List α} {r : List Char}
    (h : list read (listText blank es ++ rest) = .ok (values, r)) :
    r = rest ∧ read.ReadsAll es values := by
  obtain ⟨bound, -, hlist⟩ := list_listText read blank es rest
  rw [hlist] at h
  obtain ⟨values', r', helements, h⟩ := bind_ok h
  obtain ⟨rfl, hall⟩ := readsAll_of_elements hspaced hvalue hexact hblank helements
  rw [bind_of_ok (closeList_close rest)] at h
  cases h
  exact ⟨rfl, hall⟩

/-- A list is read exactly if each of its elements is. -/
theorem exact_list (hexact : ∀ e ∈ es, read.Exact e.value) :
    (list read).Exact (listText blank es) := by
  intro rest values r _ hread
  obtain ⟨hr, hall⟩ := readsAll_of_list hspaced hvalue hblank hexact hread
  exact ⟨hr, reads_list hspaced hvalue hblank hall⟩

end Elements

end List

end Reader

/-! ## Keys -/

/-- The name that the key of a member spells. -/
def Member.name? (m : Member) : Option String := spelled? m.key

namespace Reader

/-! ## Objects -/

section Object

variable {member : String → σ → Reader σ} {m : Member} {ms : List Member} {s s' : σ}
  {sp rest : List Char}

theorem spaced_nextKey? (first : Bool) : (nextKey? first).Spaced := spaced_peek?.bind _

/-- The next key is found behind white space and its comma. -/
theorem nextKey?_text (hsp : AllSpace sp) (hm : m.Spaced) (first : Bool) (rest : List Char) :
    nextKey? first (sp ++ ((if first then [] else [',']) ++ (m.text ++ rest))) =
      (string >>= fun key => pure (some key))
        (quoted m.key ++ (m.assigned ++ (m.after ++ rest))) := by
  have hpeek (cs : List Char) :
      peek? (m.before ++ (quoted m.key ++ cs)) = .ok (some '"', quoted m.key ++ cs) :=
    peek?_before hm.before (by decide) _
  have htext : m.text ++ rest =
      m.before ++ (quoted m.key ++ (m.assigned ++ (m.after ++ rest))) := by
    simp [Member.text]
  rw [spaced_nextKey? first hsp, htext]
  cases first with
  | true =>
      rw [if_pos rfl, List.nil_append, nextKey?, bind_of_ok (hpeek _)]
      rfl
  | false =>
      have hcomma (cs : List Char) : nextKey? false (',' :: cs) = keyAfterComma cs := rfl
      rw [if_neg (by decide), List.singleton_append, hcomma, keyAfterComma, bind_of_ok (hpeek _)]
      rfl

/-- The end of an object is found behind white space. -/
theorem nextKey?_end (hsp : AllSpace sp) (first : Bool) (rest : List Char) :
    nextKey? first (sp ++ '}' :: rest) = .ok (none, '}' :: rest) := by
  rw [spaced_nextKey? first hsp, nextKey?_close]

/-- The colon is found behind white space. -/
theorem colon_text (hsp : AllSpace sp) (rest : List Char) :
    colon (sp ++ ':' :: rest) = .ok ((), rest) := by
  rw [colon, bind_of_ok (peek?_before hsp (by decide) rest)]
  rfl

/-- What is read behind the colon is the value. -/
theorem colon_assigned (hm : m.Spaced) {read : Reader α} (hread : read.Spaced) (rest : List Char) :
    (colon >>= fun _ => read) (m.assigned ++ rest) = read (m.value ++ rest) := by
  have htext : m.assigned ++ rest = m.colon ++ ':' :: (m.gap ++ (m.value ++ rest)) := by
    simp [Member.assigned]
  rw [htext, bind_of_ok (colon_text hm.colon _), hread hm.gap]

/-- The colon may follow a key. -/
theorem ends_assigned (hm : m.Spaced) (rest : List Char) : Ends (m.assigned ++ rest) := by
  have hcolon : Ends (':' :: (m.gap ++ m.value) ++ rest) := .cons (Or.inr (by decide))
  rw [Member.assigned, List.append_assoc]
  exact hcolon.append hm.colon

/-- What is read of a member behind its key is what is read of its value. -/
theorem reads_assigned_iff (hm : m.Spaced) {read : Reader α} (hread : read.Spaced) {a : α} :
    (colon >>= fun _ => read).Reads m.assigned a ↔ read.Reads m.value a := by
  simp only [Reads, colon_assigned hm hread]

/-- The rest of a member is read exactly if its value is. -/
theorem exact_assigned (hm : m.Spaced) {read : Reader α} (hread : read.Spaced)
    (h : read.Exact m.value) : (colon >>= fun _ => read).Exact m.assigned := by
  intro rest a r hrest hok
  rw [colon_assigned hm hread] at hok
  obtain ⟨hr, hreads⟩ := h hrest hok
  exact ⟨hr, (reads_assigned_iff hm hread).mpr hreads⟩

/-- Members take the state from the first to the second. -/
def TakesAll (member : String → σ → Reader σ) : List Member → σ → σ → Prop
  | [], s, s' => s' = s
  | m :: ms, s, s' => ∃ name s'', m.name? = some name ∧ (member name s).Reads m.assigned s'' ∧
      TakesAll member ms s'' s'

section Members

variable (hspaced : ∀ m ∈ ms, m.Spaced)
include hspaced

/-- If members are read, they are read one by one. -/
theorem takesAll_of_members (hexact : ∀ m ∈ ms, ∀ name s, (member name s).Exact m.assigned)
    {bound : Nat} {first : Bool} (hsp : AllSpace sp) {r : List Char}
    (h : members member bound first s
      (sp ++ (remaining first (ms.map Member.text) ++ '}' :: rest)) = .ok (s', r)) :
    r = '}' :: rest ∧ TakesAll member ms s s' := by
  induction ms generalizing bound first sp s with
  | nil =>
      cases bound with
      | zero => cases h
      | succ bound =>
          rw [members, List.map_nil, remaining, List.nil_append,
            bind_of_ok (nextKey?_end hsp first rest)] at h
          cases h
          exact ⟨rfl, rfl⟩
  | cons m ms ih =>
      cases bound with
      | zero => cases h
      | succ bound =>
          rw [List.forall_mem_cons] at hspaced hexact
          rw [List.map_cons, remaining, List.append_assoc, List.append_assoc, members] at h
          obtain ⟨name?, r', hkey, h⟩ := bind_ok h
          rw [nextKey?_text hsp hspaced.1] at hkey
          obtain ⟨name, r', hstring, hpure⟩ := bind_ok hkey
          cases hpure
          obtain ⟨rfl, hname⟩ := (string_quoted_eq_ok_iff hspaced.1.key).mp hstring
          obtain ⟨s'', r', hmember, h⟩ := bind_ok h
          have hends := (ends_remaining (ms.map Member.text) (Or.inr rfl) rest).append
            hspaced.1.after
          obtain ⟨rfl, hreads⟩ := hexact.1 name s hends hmember
          obtain ⟨hr, htakes⟩ := ih hspaced.2 hexact.2 hspaced.1.after h
          exact ⟨hr, name, s'', hname, hreads, htakes⟩

/-- Members that are read one by one are read. -/
theorem members_of_takesAll (h : TakesAll member ms s s') {bound : Nat}
    (hbound : ms.length < bound) {first : Bool} (hsp : AllSpace sp) :
    members member bound first s (sp ++ (remaining first (ms.map Member.text) ++ '}' :: rest)) =
      .ok (s', '}' :: rest) := by
  induction ms generalizing bound first sp s with
  | nil =>
      obtain ⟨bound, rfl⟩ := Nat.exists_eq_add_one.mpr hbound
      obtain rfl := h
      rw [members, List.map_nil, remaining, List.nil_append,
        bind_of_ok (nextKey?_end hsp first rest)]
      rfl
  | cons m ms ih =>
      obtain ⟨bound, rfl⟩ := Nat.exists_eq_add_one.mpr (Nat.zero_lt_of_lt hbound)
      rw [List.forall_mem_cons] at hspaced
      obtain ⟨name, s'', hname, hreads, h⟩ := h
      have hends := (ends_remaining (ms.map Member.text) (Or.inr rfl) rest).append hspaced.1.after
      have hkey := nextKey?_text (m := m) hsp hspaced.1 first
        (remaining false (ms.map Member.text) ++ '}' :: rest)
      rw [bind_of_ok ((string_quoted_eq_ok_iff hspaced.1.key).mpr ⟨rfl, hname⟩)] at hkey
      rw [List.map_cons, remaining, List.append_assoc, List.append_assoc, members,
        bind_of_ok hkey]
      exact (bind_of_ok (hreads hends) _).trans
        (ih hspaced.2 h (by simpa using hbound) hspaced.1.after)

end Members

/-- An object is its members and its closing brace. -/
theorem object_objectText (member : String → σ → Reader σ) (s : σ) (blank : List Char)
    (ms : List Member) (rest : List Char) :
    ∃ bound, ms.length < bound ∧
      object member s (objectText blank ms ++ rest) =
        (members member bound true s >>= fun state => closeObject >>= fun _ => pure state)
          (blank ++ (remaining true (ms.map Member.text) ++ '}' :: rest)) := by
  have hlength := length_le_length_remaining true (ms.map Member.text)
  rw [List.length_map] at hlength
  have htext : objectText blank ms ++ rest =
      '{' :: (blank ++ (remaining true (ms.map Member.text) ++ '}' :: rest)) := by
    simp [objectText]
  rw [htext]
  exact ⟨_, by simp; omega, rfl⟩

section Members

variable (hspaced : ∀ m ∈ ms, m.Spaced) {blank : List Char} (hblank : AllSpace blank)
include hspaced hblank

/-- An object is read as its members are. -/
theorem reads_object (h : TakesAll member ms s s') :
    (object member s).Reads (objectText blank ms) s' := by
  intro rest _
  obtain ⟨bound, hbound, hobject⟩ := object_objectText member s blank ms rest
  rw [hobject, bind_of_ok (members_of_takesAll hspaced h hbound hblank),
    bind_of_ok (closeObject_close rest)]
  rfl

/-- If an object is read, its members are. -/
theorem takesAll_of_object (hexact : ∀ m ∈ ms, ∀ name s, (member name s).Exact m.assigned)
    {r : List Char} (h : object member s (objectText blank ms ++ rest) = .ok (s', r)) :
    r = rest ∧ TakesAll member ms s s' := by
  obtain ⟨bound, -, hobject⟩ := object_objectText member s blank ms rest
  rw [hobject] at h
  obtain ⟨state, r', hmembers, h⟩ := bind_ok h
  obtain ⟨rfl, hall⟩ := takesAll_of_members hspaced hexact hblank hmembers
  rw [bind_of_ok (closeObject_close rest)] at h
  cases h
  exact ⟨rfl, hall⟩

/-- An object is read exactly if the rest of each of its members is. -/
theorem exact_object (hexact : ∀ m ∈ ms, ∀ name s, (member name s).Exact m.assigned) :
    (object member s).Exact (objectText blank ms) := by
  intro rest s' r _ hread
  obtain ⟨hr, hall⟩ := takesAll_of_object hspaced hblank hexact hread
  exact ⟨hr, reads_object hspaced hblank hall⟩

end Members

end Object

end Reader

end StreamWatch.Json
