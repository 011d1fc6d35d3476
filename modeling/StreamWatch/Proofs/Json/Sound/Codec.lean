import Mathlib.Data.List.TakeWhile
import StreamWatch.Proofs.Json.Lenient.Codec
import StreamWatch.Proofs.Json.Presentation.Codec
import StreamWatch.Proofs.Json.Sound.Skip

/-!
# What is read is a value

Whatever a codec reads stands in the grammar, with white space before it, be it that a single value
is read, a list, or a record with members that are not asked for. So a document that is read is one
value with white space around it: `exists_element_of_ofChars`.
-/

namespace StreamWatch.Json

open Reader

variable {α β σ τ δ : Type} {cs rest : List Char}

/-! ## Single values -/

/-- The reader takes nothing off the text. -/
def Reader.Quiet (read : Reader α) : Prop :=
  ∀ ⦃cs a rest⦄, read cs = .ok (a, rest) → rest = cs

theorem Reader.Quiet.pure (a : α) : (pure a : Reader α).Quiet := by
  intro cs b rest h
  cases h
  rfl

theorem Reader.Quiet.throw (fault : Fault) : (throw fault : Reader α).Quiet := by
  intro cs a rest h
  cases h

/-- A reader that takes nothing leaves what the reader before it leaves. -/
theorem Reader.Quiet.of_bind {x : Reader α} {f : α → Reader β} (hf : ∀ a, (f a).Quiet) {b : β}
    (h : (x >>= f) cs = .ok (b, rest)) : ∃ a, x cs = .ok (a, rest) := by
  obtain ⟨a, rest', hread, hquiet⟩ := bind_ok h
  obtain rfl := hf a hquiet
  exact ⟨a, hread⟩

/-- What is made of a value without reading on. -/
theorem Reader.Sound.bind {x : Reader α} (hx : x.Sound) {f : α → Reader β}
    (hf : ∀ a, (f a).Quiet) : (x >>= f).Sound := by
  intro cs b rest h
  obtain ⟨a, hread⟩ := Quiet.of_bind hf h
  exact hx hread

/-- A value is read by what its first character says. -/
theorem Reader.Sound.peekValue {f : Char → Reader α}
    (hf : ∀ c tail a rest, f c (c :: tail) = .ok (a, rest) →
      ∃ v, IsValue v ∧ c :: tail = v ++ rest) : (Reader.peekValue >>= f).Sound := by
  intro cs a rest h
  obtain ⟨c, rest', hpeek, hread⟩ := bind_ok h
  obtain ⟨sp, tail, hsp, rfl, rfl⟩ := exists_space_of_peekValue hpeek
  obtain ⟨v, hv, htext⟩ := hf c tail a rest hread
  exact ⟨sp, v, hsp, hv, congrArg _ htext⟩

/-- A value that comes at once has no white space before it. -/
theorem Reader.Sound.isValue {read : Reader α} (h : read.Sound) {c : Char} (hc : isSpace c = false)
    {tail : List Char} {a : α} (hread : read (c :: tail) = .ok (a, rest)) :
    ∃ v, IsValue v ∧ c :: tail = v ++ rest := by
  obtain ⟨sp, v, hsp, hv, hcs⟩ := h hread
  cases sp with
  | nil => exact ⟨v, hv, hcs⟩
  | cons d sp =>
      obtain ⟨rfl, -⟩ := List.cons.inj hcs
      rw [hsp c List.mem_cons_self] at hc
      cases hc

/-- What is read as a text is a string. -/
theorem exists_of_readText {expected s : String} (h : Codec.readText expected cs = .ok (s, rest)) :
    ∃ sp text, AllSpace sp ∧ IsStringText text ∧ cs = sp ++ (quoted text ++ rest) := by
  obtain ⟨c, rest', hpeek, hread⟩ := bind_ok h
  obtain ⟨sp, tail, hsp, rfl, rfl⟩ := exists_space_of_peekValue hpeek
  split at hread
  · obtain ⟨text, htext, hquoted⟩ := exists_quoted hread
    exact ⟨sp, text, hsp, htext, congrArg _ hquoted⟩
  · exact absurd hread (mismatch_ne_ok _ _ _)

/-- What is read as a text is a value of the grammar. -/
theorem sound_readText (expected : String) : (Codec.readText expected).Sound := by
  intro cs s rest h
  obtain ⟨sp, text, hsp, htext, hcs⟩ := exists_of_readText h
  exact ⟨sp, _, hsp, .string htext, hcs⟩

theorem sound_readNumber (expected : String) : (Codec.readNumber expected).Sound := by
  refine .peekValue fun c tail number rest h => ?_
  split at h
  · obtain ⟨text, htext, hnumber⟩ := exists_isNumber (skipNumber_of_number h)
    exact ⟨_, .number htext, hnumber⟩
  · exact absurd h (mismatch_ne_ok _ _ _)

/-- What is read as an integer between bounds is a value of the grammar. -/
theorem sound_readInteger (expected : String) (least greatest : Int) :
    (Codec.readInteger expected least greatest).Sound := by
  refine (sound_readNumber expected).bind fun number => ?_
  split
  · split
    · exact .pure _
    · exact .throw _
  · exact .throw _

/-- What is read as a name is a string. -/
theorem exists_of_readName {names : List (String × α)} {a : α}
    (h : Codec.readName names cs = .ok (a, rest)) :
    ∃ sp text, AllSpace sp ∧ IsStringText text ∧ cs = sp ++ (quoted text ++ rest) := by
  obtain ⟨s, htext⟩ := Quiet.of_bind (fun name => by
    split
    · exact .pure _
    · exact .throw _) h
  exact exists_of_readText htext

/-- What is read as a name of a table is a value of the grammar. -/
theorem sound_readName (names : List (String × α)) : (Codec.readName names).Sound := by
  intro cs a rest h
  obtain ⟨sp, text, hsp, htext, hcs⟩ := exists_of_readName h
  exact ⟨sp, _, hsp, .string htext, hcs⟩

/-- What is read as no value is a value of the grammar. -/
theorem sound_readNull : Codec.readNull.Sound := by
  refine .peekValue fun c tail u rest h => ?_
  split at h
  · exact ⟨_, .null, eq_of_word h⟩
  · exact absurd h (mismatch_ne_ok _ _ _)

/-- Whatever the codec reads is a value. -/
def Codec.Sound (codec : Codec α) : Prop := codec.read.Sound

namespace Codec.Sound

/-- What is read as a flag is a value of the grammar. -/
theorem flag : Codec.flag.Sound := by
  refine .peekValue fun c tail b rest h => ?_
  split at h
  · obtain ⟨u, rest', hword, hpure⟩ := bind_ok h
    cases hpure
    exact ⟨_, .true, eq_of_word hword⟩
  · obtain ⟨u, rest', hword, hpure⟩ := bind_ok h
    cases hpure
    exact ⟨_, .false, eq_of_word hword⟩
  · exact absurd h (mismatch_ne_ok _ _ _)

theorem text : Codec.text.Sound := sound_readText _

theorem uuid : Codec.uuid.Sound := by
  refine (sound_readText _).bind fun s => ?_
  split
  · exact .pure _
  · exact .throw _

theorem int64 : Codec.int64.Sound := (sound_readInteger _ _ _).bind fun _ => .pure _

theorem uint32 : Codec.uint32.Sound := (sound_readInteger _ _ _).bind fun _ => .pure _

theorem real : Codec.real.Sound := by
  refine (sound_readNumber _).bind fun number => ?_
  split
  · exact .pure _
  · exact .pure _

end Codec.Sound

/-! ## Lists -/

section Lists

variable {first : Bool}

/-- Where another element comes, a comma is passed over, and white space around it. -/
theorem exists_of_nextElement (h : nextElement first cs = .ok (true, rest)) :
    ∃ sp before, AllSpace sp ∧ AllSpace before ∧
      cs = sp ++ ((if first then [] else [',']) ++ (before ++ rest)) := by
  obtain ⟨c?, rest', hpeek, hread⟩ := bind_ok h
  obtain ⟨sp, hsp, rfl⟩ := eq_append_of_peek? hpeek
  cases first with
  | true =>
      refine ⟨sp, [], hsp, .nil, ?_⟩
      split at hread
      · cases hread
      · cases hread
      · cases hread
        rfl
  | false =>
      split at hread
      · cases hread
      · cases hread
      · next c _ =>
          obtain ⟨-, tail, -, rfl, -⟩ := exists_space_of_peek? hpeek
          by_cases hcomma : c = ','
          · subst hcomma
            have hnext : elementAfterComma tail = .ok (true, rest) := hread
            obtain ⟨c?, rest', hpeek', hread'⟩ := bind_ok hnext
            obtain ⟨before, hbefore, rfl⟩ := eq_append_of_peek? hpeek'
            refine ⟨sp, before, hsp, hbefore, ?_⟩
            split at hread'
            · cases hread'
            · cases hread'
              rfl
            · cases hread'
          · simp [hcomma] at hread
            cases hread

/-- Where no other element comes, the closing bracket does. -/
theorem exists_of_nextElement_false (h : nextElement first cs = .ok (false, rest)) :
    ∃ sp tail, AllSpace sp ∧ rest = ']' :: tail ∧ cs = sp ++ ']' :: tail := by
  obtain ⟨c?, rest', hpeek, hread⟩ := bind_ok h
  split at hread
  · cases hread
  · obtain ⟨sp, tail, hsp, rfl, rfl⟩ := exists_space_of_peek? hpeek
    cases hread
    exact ⟨sp, tail, hsp, rfl, rfl⟩
  · next c _ =>
      split at hread
      · cases hread
      · by_cases hcomma : c = ','
        · subst hcomma
          obtain ⟨-, tail, -, rfl, -⟩ := exists_space_of_peek? hpeek
          have hnext : elementAfterComma tail = .ok (false, rest) := hread
          obtain ⟨c?, rest', -, hread'⟩ := bind_ok hnext
          split at hread' <;> cases hread'
        · simp [hcomma] at hread
          cases hread

/-- The end of a list is its bracket, behind white space. -/
theorem exists_of_closeList {u : Unit} (h : closeList cs = .ok (u, rest)) :
    ∃ sp, AllSpace sp ∧ cs = sp ++ ']' :: rest := by
  obtain ⟨c?, rest', hpeek, hread⟩ := bind_ok h
  split at hread
  · obtain ⟨sp, tail, hsp, rfl, rfl⟩ := exists_space_of_peek? hpeek
    cases hread
    exact ⟨sp, hsp, rfl⟩
  · obtain ⟨_, _, -, hread⟩ := bind_ok hread
    obtain ⟨_, _, -, hread⟩ := bind_ok hread
    split at hread <;> cases hread
  · cases hread
  · cases hread

/-- Elements are read up to the closing bracket. -/
theorem exists_of_elements {read : Reader α} (hread : read.Sound) {bound : Nat} {values : List α}
    (h : elements read bound first cs = .ok (values, rest)) :
    ∃ sp tail, ∃ es : List Element, AllSpace sp ∧ (∀ e ∈ es, e.Spaced ∧ IsValue e.value) ∧
      rest = ']' :: tail ∧ cs = sp ++ (remaining first (es.map Element.text) ++ rest) := by
  induction bound generalizing first cs values with
  | zero => cases h
  | succ bound ih =>
      obtain ⟨more, rest', hnext, hmore⟩ := bind_ok h
      cases more with
      | false =>
          obtain ⟨sp, tail, hsp, rfl, rfl⟩ := exists_of_nextElement_false hnext
          cases hmore
          exact ⟨sp, tail, [], hsp, List.forall_mem_nil _, rfl, rfl⟩
      | true =>
          obtain ⟨sp, before, hsp, hbefore, hcs⟩ := exists_of_nextElement hnext
          obtain ⟨a, behind, ha, hbehind⟩ := bind_ok hmore
          obtain ⟨between, v, hbetween, hv, rfl⟩ := hread ha
          obtain ⟨others, behind', hothers, hpure⟩ := bind_ok hbehind
          cases hpure
          obtain ⟨after, tail, es, hafter, hes, hrest, rfl⟩ := ih hothers
          refine ⟨sp, tail, ⟨before ++ between, v, after⟩ :: es, hsp,
            List.forall_mem_cons.mpr ⟨⟨⟨hbefore.append hbetween, hafter⟩, hv⟩, hes⟩, hrest, ?_⟩
          simp [hcs, remaining, Element.text]

/-- What is read as a list is one. -/
theorem isValue_of_list {read : Reader α} (hread : read.Sound) {values : List α}
    (h : list read ('[' :: cs) = .ok (values, rest)) :
    ∃ v, IsValue v ∧ '[' :: cs = v ++ rest := by
  obtain ⟨_, _, hadvance, h⟩ := bind_ok h
  cases hadvance
  obtain ⟨_, _, hget, h⟩ := bind_ok h
  cases hget
  obtain ⟨values', rest', helements, h⟩ := bind_ok h
  obtain ⟨_, rest'', hclose, hpure⟩ := bind_ok h
  cases hpure
  obtain ⟨blank, tail, es, hblank, hes, rfl, hcs⟩ := exists_of_elements hread helements
  cases (closeList_close tail).symm.trans hclose
  refine ⟨_, .of_elements hblank hes, ?_⟩
  have hcs : cs = blank ++ (remaining true (es.map Element.text) ++ ']' :: rest) := hcs
  simp [listText, hcs]

end Lists

/-! ## Objects -/

section Objects

variable {first : Bool}

/-- Where another key comes, a comma is passed over, and white space around it. -/
theorem exists_of_nextKey? {key : String} (h : nextKey? first cs = .ok (some key, rest)) :
    ∃ sp before text, AllSpace sp ∧ AllSpace before ∧ IsStringText text ∧
      cs = sp ++ ((if first then [] else [',']) ++ (before ++ (quoted text ++ rest))) := by
  have hkey {tail : List Char}
      (h : (string >>= fun key => pure (some key)) ('"' :: tail) = .ok (some key, rest)) :
      ∃ text, IsStringText text ∧ '"' :: tail = quoted text ++ rest := by
    obtain ⟨key', rest', hstring, hpure⟩ := bind_ok h
    cases hpure
    exact exists_quoted hstring
  obtain ⟨c?, rest', hpeek, hread⟩ := bind_ok h
  split at hread
  · cases hread
  · cases hread
  · next c _ =>
      obtain ⟨sp, tail, hsp, rfl, rfl⟩ := exists_space_of_peek? hpeek
      cases first with
      | true =>
          by_cases hc : c = '"'
          · subst hc
            obtain ⟨text, htext, hquoted⟩ := hkey hread
            exact ⟨sp, [], text, hsp, .nil, htext, congrArg _ hquoted⟩
          · simp [hc] at hread
            cases hread
      | false =>
          by_cases hcomma : c = ','
          · subst hcomma
            have hnext : keyAfterComma tail = .ok (some key, rest) := hread
            obtain ⟨c?, rest', hpeek', hread'⟩ := bind_ok hnext
            split at hread'
            · obtain ⟨before, tail', hbefore, rfl, rfl⟩ := exists_space_of_peek? hpeek'
              obtain ⟨text, htext, hquoted⟩ := hkey hread'
              refine ⟨sp, before, text, hsp, hbefore, htext, ?_⟩
              rw [hquoted]
              rfl
            · cases hread'
            · cases hread'
            · cases hread'
          · simp [hcomma] at hread
            cases hread

/-- Where no other key comes, the closing brace does. -/
theorem exists_of_nextKey?_none (h : nextKey? first cs = .ok (none, rest)) :
    ∃ sp tail, AllSpace sp ∧ rest = '}' :: tail ∧ cs = sp ++ '}' :: tail := by
  have hkey {cs : List Char}
      (h : (string >>= fun key => pure (some key)) cs = .ok (none, rest)) : False := by
    obtain ⟨key, rest', -, hpure⟩ := bind_ok h
    cases hpure
  obtain ⟨c?, rest', hpeek, hread⟩ := bind_ok h
  split at hread
  · cases hread
  · obtain ⟨sp, tail, hsp, rfl, rfl⟩ := exists_space_of_peek? hpeek
    cases hread
    exact ⟨sp, tail, hsp, rfl, rfl⟩
  · next c _ =>
      obtain ⟨-, tail, -, rfl, -⟩ := exists_space_of_peek? hpeek
      cases first with
      | true =>
          by_cases hc : c = '"'
          · subst hc
            exact (hkey hread).elim
          · simp [hc] at hread
            cases hread
      | false =>
          by_cases hcomma : c = ','
          · subst hcomma
            have hnext : keyAfterComma tail = .ok (none, rest) := hread
            obtain ⟨c?, rest', -, hread'⟩ := bind_ok hnext
            split at hread'
            · exact (hkey hread').elim
            · cases hread'
            · cases hread'
            · cases hread'
          · simp [hcomma] at hread
            cases hread

/-- Whatever is read is a value behind a colon. -/
def Reader.Assigns (read : Reader σ) : Prop :=
  ∀ ⦃cs s rest⦄, read cs = .ok (s, rest) →
    ∃ colon gap v, AllSpace colon ∧ AllSpace gap ∧ IsValue v ∧
      cs = colon ++ ':' :: (gap ++ (v ++ rest))

/-- What reads a value reads it behind a colon. -/
theorem Reader.Sound.assigns {read : Reader σ} (h : read.Sound) :
    (colon >>= fun _ => read).Assigns := by
  intro cs s rest hok
  obtain ⟨_, rest', hcolon, hread⟩ := bind_ok hok
  obtain ⟨space, hspace, rfl⟩ := exists_space_of_colon hcolon
  obtain ⟨gap, v, hgap, hv, rfl⟩ := h hread
  exact ⟨space, gap, v, hspace, hgap, hv, rfl⟩

/-- What is made of an assigned value without reading on. -/
theorem Reader.Assigns.bind {x : Reader α} (hx : x.Assigns) {f : α → Reader σ}
    (hf : ∀ a, (f a).Quiet) : (x >>= f).Assigns := by
  intro cs s rest h
  obtain ⟨a, hread⟩ := Quiet.of_bind hf h
  exact hx hread

variable {member : String → σ → Reader σ} (hmember : ∀ key s, (member key s).Assigns)
include hmember

/-- Members are read up to the closing brace. -/
theorem exists_of_members {bound : Nat} {s s' : σ}
    (h : members member bound first s cs = .ok (s', rest)) :
    ∃ sp tail, ∃ ms : List Member, AllSpace sp ∧ (∀ m ∈ ms, m.Spaced ∧ IsValue m.value) ∧
      rest = '}' :: tail ∧ cs = sp ++ (remaining first (ms.map Member.text) ++ rest) := by
  induction bound generalizing first cs s with
  | zero => cases h
  | succ bound ih =>
      obtain ⟨key?, rest', hnext, hmore⟩ := bind_ok h
      cases key? with
      | none =>
          obtain ⟨sp, tail, hsp, rfl, rfl⟩ := exists_of_nextKey?_none hnext
          cases hmore
          exact ⟨sp, tail, [], hsp, List.forall_mem_nil _, rfl, rfl⟩
      | some key =>
          obtain ⟨sp, before, text, hsp, hbefore, htext, hcs⟩ := exists_of_nextKey? hnext
          obtain ⟨s'', behind, hread, hbehind⟩ := bind_ok hmore
          obtain ⟨space, gap, v, hspace, hgap, hv, rfl⟩ := hmember key s hread
          obtain ⟨after, tail, ms, hafter, hms, hrest, rfl⟩ := ih hbehind
          refine ⟨sp, tail, ⟨before, text, space, gap, v, after⟩ :: ms, hsp,
            List.forall_mem_cons.mpr ⟨⟨⟨hbefore, hspace, hgap, hafter, htext⟩, hv⟩, hms⟩, hrest, ?_⟩
          simp [hcs, remaining, Member.text, Member.assigned]

/-- What is read as an object is one. -/
theorem isValue_of_object {start s : σ} (h : object member start ('{' :: cs) = .ok (s, rest)) :
    ∃ v, IsValue v ∧ '{' :: cs = v ++ rest := by
  obtain ⟨_, _, hadvance, h⟩ := bind_ok h
  cases hadvance
  obtain ⟨_, _, hget, h⟩ := bind_ok h
  cases hget
  obtain ⟨s', rest', hmembers, h⟩ := bind_ok h
  obtain ⟨_, rest'', hclose, hpure⟩ := bind_ok h
  cases hpure
  obtain ⟨blank, tail, ms, hblank, hms, rfl, hcs⟩ := exists_of_members hmember hmembers
  cases (closeObject_close tail).symm.trans hclose
  refine ⟨_, .of_members hblank hms, ?_⟩
  have hcs : cs = blank ++ (remaining true (ms.map Member.text) ++ '}' :: rest) := hcs
  simp [objectText, hcs]

end Objects

/-! ## Values made of values -/

/-- A value that may be missing is the word for no value or a value. -/
theorem Codec.Sound.optional {codec : Codec α} (h : codec.Sound) :
    (Codec.optional codec).Sound := by
  intro cs a? rest hok
  obtain ⟨c?, rest', hpeek, hread⟩ := bind_ok hok
  split at hread
  · obtain ⟨sp, tail, hsp, rfl, rfl⟩ := exists_space_of_peek? hpeek
    obtain ⟨_, rest', hword, hpure⟩ := bind_ok hread
    cases hpure
    exact ⟨sp, _, hsp, .null, congrArg _ (eq_of_word hword)⟩
  · obtain ⟨sp, hsp, rfl⟩ := eq_append_of_peek? hpeek
    obtain ⟨a, rest', ha, hpure⟩ := bind_ok hread
    cases hpure
    obtain ⟨sp', v, hsp', hv, rfl⟩ := h ha
    exact ⟨sp ++ sp', v, hsp.append hsp', hv, by simp⟩

/-- Whatever is read as a list is a list of the grammar. -/
theorem Codec.Sound.list {codec : Codec α} (h : codec.Sound) : (Codec.list codec).Sound := by
  refine .peekValue fun c tail values rest hok => ?_
  split at hok
  · exact isValue_of_list h hok
  · exact absurd hok (mismatch_ne_ok _ _ _)

/-- An alternative is the key of a member. -/
theorem exists_of_readSole {names : List (String × α)} {a : α}
    (h : Codec.readSole names cs = .ok (a, rest)) :
    ∃ m : Member, m.Spaced ∧ IsValue m.value ∧ cs = m.text ++ '}' :: rest := by
  obtain ⟨a', rest', hname, hcolon⟩ := bind_ok h
  obtain ⟨before, text, hbefore, htext, rfl⟩ := exists_of_readName hname
  obtain ⟨_, rest', hassign, hnull⟩ := bind_ok hcolon
  obtain ⟨space, hspace, rfl⟩ := exists_space_of_colon hassign
  obtain ⟨_, rest', hread, hclose⟩ := bind_ok hnull
  obtain ⟨gap, v, hgap, hv, rfl⟩ := sound_readNull hread
  obtain ⟨c?, rest', hpeek, hbrace⟩ := bind_ok hclose
  split at hbrace
  · obtain ⟨after, tail, hafter, rfl, rfl⟩ := exists_space_of_peek? hpeek
    cases hbrace
    exact ⟨⟨before, text, space, gap, v, after⟩, ⟨hbefore, hspace, hgap, hafter, htext⟩, hv,
      by simp [Member.text, Member.assigned]⟩
  · cases hbrace
  · cases hbrace

/-- A name is a string, or the one key of an object. -/
theorem Codec.Sound.named [BEq α] (names : List (String × α)) : (Codec.named names).Sound := by
  refine .peekValue fun c tail a rest hok => ?_
  split at hok
  · exact (sound_readName names).isValue rfl hok
  · have hsole : Codec.readSole names tail = .ok (a, rest) := hok
    obtain ⟨m, hm, hv, rfl⟩ := exists_of_readSole hsole
    have hall : ∀ n ∈ [m], n.Spaced ∧ IsValue n.value := List.forall_mem_singleton.mpr ⟨hm, hv⟩
    exact ⟨_, .of_members .nil hall, by simp [objectText, remaining]⟩
  · cases hok

/-- The codecs of all fields read values. -/
inductive Fields.Sound : {τ δ : Type} → Fields τ δ → Prop
  | nil : Fields.nil.Sound
  | cons {α τ δ : Type} {field : Field α} {rest : Fields τ δ} (hfield : field.codec.Sound)
      (hrest : rest.Sound) : (Fields.cons field rest).Sound

/-- Every member that is read is a value behind a colon, whichever field its key names. -/
theorem Fields.Sound.assigns {fields : Fields τ δ} (h : fields.Sound) (key : String) (draft : δ) :
    (fields.readMember key draft).Assigns := by
  induction h with
  | nil => exact (sound_skipValue.bind fun _ => .pure _).assigns
  | cons hfield _ ih =>
      obtain ⟨slot, others⟩ := draft
      unfold Fields.readMember
      split
      · split
        · intro cs s rest hok
          cases hok
        · exact (Reader.Sound.bind hfield fun _ => .pure _).assigns
      · exact (ih others).bind fun _ => .pure _

/-- A closing bracket that comes first is the one behind the elements. -/
theorem eq_of_closed {sp tail : List Char} (hsp : AllSpace sp) {es : List Element}
    (h : ']' :: tail = sp ++ (remaining false (es.map Element.text) ++ ']' :: rest)) :
    ']' :: tail = ']' :: rest := by
  cases sp with
  | cons c sp =>
      obtain ⟨rfl, -⟩ := List.cons.inj h
      cases hsp ']' List.mem_cons_self
  | nil =>
      cases es with
      | nil => exact h
      | cons e es => cases h

/-- Fields are read from a list up to its closing bracket. -/
theorem Fields.Sound.exists_of_readElements {fields : Fields τ δ} (h : fields.Sound)
    {expected : String} {index : Nat} {values : τ} {behind : List Char} {u : Unit}
    (hread : fields.readElements expected index cs = .ok (values, behind))
    (hclose : closeList behind = .ok (u, rest)) :
    ∃ sp, ∃ es : List Element, AllSpace sp ∧ (∀ e ∈ es, e.Spaced ∧ IsValue e.value) ∧
      cs = sp ++ (remaining (index == 0) (es.map Element.text) ++ ']' :: rest) := by
  induction h generalizing index cs with
  | nil =>
      cases hread
      obtain ⟨sp, hsp, rfl⟩ := exists_of_closeList hclose
      exact ⟨sp, [], hsp, List.forall_mem_nil _, rfl⟩
  | @cons α τ δ field others hfield _ ih =>
      rw [Fields.readElements] at hread
      obtain ⟨more, rest', hnext, hmore⟩ := bind_ok hread
      cases more with
      | true =>
          obtain ⟨sp, before, hsp, hbefore, hcs⟩ := exists_of_nextElement hnext
          obtain ⟨a, rest', ha, hbehind⟩ := bind_ok hmore
          obtain ⟨between, v, hbetween, hv, rfl⟩ := hfield ha
          obtain ⟨values', rest'', hothers, hpure⟩ := bind_ok hbehind
          cases hpure
          obtain ⟨after, es, hafter, hes, rfl⟩ := ih hothers
          refine ⟨sp, ⟨before ++ between, v, after⟩ :: es, hsp,
            List.forall_mem_cons.mpr ⟨⟨⟨hbefore.append hbetween, hafter⟩, hv⟩, hes⟩, ?_⟩
          simp [hcs, remaining, Element.text]
      | false =>
          -- the list ends for the fields behind as well
          obtain ⟨sp, tail, hsp, rfl, rfl⟩ := exists_of_nextElement_false hnext
          cases hdefault : field.default with
          | none =>
              rw [hdefault] at hmore
              cases hmore
          | some a =>
              rw [hdefault] at hmore
              obtain ⟨values', rest'', hothers, hpure⟩ := bind_ok hmore
              cases hpure
              obtain ⟨sp', es, hsp', -, htail⟩ := ih hothers
              exact ⟨sp, [], hsp, List.forall_mem_nil _, congrArg _ (eq_of_closed hsp' htail)⟩

/-- Whatever is read as a record is an object or a list of the grammar. -/
theorem Codec.Sound.record {fields : Fields τ δ} (h : fields.Sound) (name : String) (make : τ → α)
    (parts : α → τ) : (Codec.record name fields make parts).Sound := by
  refine .peekValue fun c tail a rest hok => ?_
  split at hok
  · obtain ⟨draft, rest', hobject, hok⟩ := bind_ok hok
    obtain ⟨v, hv, htext⟩ := isValue_of_object h.assigns hobject
    cases hfinish : fields.finish draft with
    | error fault =>
        rw [hfinish] at hok
        cases hok
    | ok values =>
        rw [hfinish] at hok
        cases hok
        exact ⟨v, hv, htext⟩
  · obtain ⟨_, _, hadvance, hok⟩ := bind_ok hok
    cases hadvance
    obtain ⟨values, behind, hread, hok⟩ := bind_ok hok
    obtain ⟨_, rest', hclose, hpure⟩ := bind_ok hok
    cases hpure
    obtain ⟨blank, es, hblank, hes, hcs⟩ := h.exists_of_readElements hread hclose
    refine ⟨_, .of_elements hblank hes, ?_⟩
    have hcs : tail = blank ++ (remaining true (es.map Element.text) ++ ']' :: rest) := hcs
    simp [listText, hcs]
  · exact absurd hok (mismatch_ne_ok _ _ _)

/-- A document that is read is one value, with white space around it. -/
theorem exists_element_of_ofChars {codec : Codec α} (h : codec.Sound) {text : List Char} {a : α}
    (hok : codec.ofChars text = .ok a) :
    ∃ e : Element, e.Spaced ∧ IsValue e.value ∧ text = e.text := by
  rw [Codec.ofChars, document] at hok
  cases hread : codec.read text with
  | error fault =>
      rw [hread] at hok
      cases hok
  | ok p =>
      obtain ⟨a', rest⟩ := p
      obtain ⟨sp, v, hsp, hv, rfl⟩ := h hread
      rw [hread] at hok
      have hrest : (if (rest.dropWhile isSpace).isEmpty then .ok a'
          else .error .trailingCharacters : Except Fault α) = .ok a := hok
      split at hrest
      · next hend =>
          have hafter := List.dropWhile_eq_nil_iff.mp (List.isEmpty_iff.mp hend)
          exact ⟨⟨sp, v, rest⟩, ⟨hsp, hafter⟩, hv, rfl⟩
      · cases hrest

end StreamWatch.Json
