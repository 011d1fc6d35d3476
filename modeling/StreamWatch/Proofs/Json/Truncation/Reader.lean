import StreamWatch.Proofs.Json.RoundTrip.Bracket

/-!
# Texts that are cut short

A text that ends too early is told from one that is wrong. A reader `Follows` a text if it reads a
value from it, whatever may follow, and if from each part of the text up to some character it either
reads a value that takes all of that part or finds that the part ends too early. Numbers can be cut
down to smaller ones; words, strings, lists and objects that are cut always end too early.
-/

namespace StreamWatch.Json

variable {α β σ : Type}

/-- A part of two texts is a part of the first one, or all of it and a part of the second. -/
theorem prefix_append_cases {γ : Type} {p s t : List γ} (h : p <+: s ++ t) :
    p <+: s ∨ ∃ p', p = s ++ p' ∧ p' <+: t := by
  rcases List.prefix_or_prefix_of_prefix h (List.prefix_append s t) with h' | ⟨p', rfl⟩
  · exact Or.inl h'
  · exact Or.inr ⟨p', rfl, (List.prefix_append_right_inj s).mp h⟩

/-- What is cut off what may follow a value may follow a value. -/
theorem Delimits.of_cut {p rest : List Char} (h : Delimits rest) (hp : p <+: rest) :
    Delimits p := by
  cases p with
  | nil => simp [Delimits]
  | cons c p =>
      obtain ⟨q, rfl⟩ := hp
      exact h

/-- What is left of a list may follow a value even if its bracket is cut off. -/
theorem delimits_remaining_nil (texts : List (List Char)) : Delimits (remaining false texts) :=
  (delimits_remaining texts (Or.inl rfl) []).of_cut (List.prefix_append _ _)

/-! ## Results -/

/-- Nothing is wrong with the text but that it ends too early. -/
def Truncated (r : Except Fault α) : Prop := ∃ fault, r = .error fault ∧ fault.isTruncation

/-- The text ends too early, or a value takes all of it. -/
def CutShort (r : Except Fault (α × List Char)) : Prop := Truncated r ∨ ∃ a, r = .ok (a, [])

/-- The reader reads the text, and what is cut off it is cut short. -/
structure Reader.Follows (read : Reader α) (text : List Char) : Prop where
  whole : ∃ a, ∀ {rest}, Delimits rest → read (text ++ rest) = .ok (a, rest)
  cut : ∀ {p}, p <+: text → CutShort (read p)

theorem Truncated.map {r : Except Fault α} (h : Truncated r) (f : α → β) : Truncated (r.map f) := by
  obtain ⟨fault, rfl, hfault⟩ := h
  exact ⟨fault, rfl, hfault⟩

/-- A text that ends too early does so for the readers that come next. -/
theorem Truncated.bind {x : Reader α} {cs : List Char} (h : Truncated (x cs)) (f : α → Reader β) :
    Truncated ((x >>= f) cs) := by
  obtain ⟨fault, hx, hfault⟩ := h
  rw [Reader.bind_apply, hx]
  exact ⟨fault, rfl, hfault⟩

/-- A text that is cut short is so for a reader that can do with nothing. -/
theorem CutShort.bind {x : Reader α} {cs : List Char} (h : CutShort (x cs)) {f : α → Reader β}
    (hf : ∀ a, CutShort (f a [])) : CutShort ((x >>= f) cs) := by
  rcases h with h | ⟨a, ha⟩
  · exact Or.inl (h.bind f)
  · rw [Reader.bind_of_ok ha]
    exact hf a

/-- Where more must come a text that is cut short ends too early. -/
theorem CutShort.bind_truncated {x : Reader α} {cs : List Char} (h : CutShort (x cs))
    {f : α → Reader β} (hf : ∀ a, Truncated (f a [])) : Truncated ((x >>= f) cs) := by
  rcases h with h | ⟨a, ha⟩
  · exact h.bind f
  · rw [Reader.bind_of_ok ha]
    exact hf a

namespace Reader

theorem Follows.pure_nil (a : α) : (pure a : Reader α).Follows [] where
  whole := ⟨a, fun _ => rfl⟩
  cut hp := by
    obtain rfl := List.prefix_nil.mp hp
    exact Or.inr ⟨a, rfl⟩

/-- It is enough to look at what is really cut. -/
theorem Follows.of_ne {read : Reader α} {text : List Char} {a : α}
    (whole : ∀ {rest}, Delimits rest → read (text ++ rest) = .ok (a, rest))
    (cut : ∀ {p}, p <+: text → p ≠ text → CutShort (read p)) : read.Follows text where
  whole := ⟨a, whole⟩
  cut {p} hp := by
    by_cases hall : p = text
    · rw [hall, ← List.append_nil text]
      exact Or.inr ⟨a, whole .nil⟩
    · exact cut hp hall

/-- What is made of a value does not matter. -/
theorem Follows.bind {x : Reader α} {text : List Char} (h : x.Follows text) {f : α → Reader β}
    (hf : ∀ a, ∃ b, f a = pure b) : (x >>= f).Follows text where
  whole := by
    obtain ⟨a, ha⟩ := h.whole
    obtain ⟨b, hb⟩ := hf a
    refine ⟨b, fun hrest => ?_⟩
    rw [bind_of_ok (ha hrest), hb]
    rfl
  cut hp := (h.cut hp).bind fun a => by
    obtain ⟨b, hb⟩ := hf a
    rw [hb]
    exact Or.inr ⟨b, rfl⟩

/-- No value stands in an empty text. -/
theorem truncated_peekValue (f : Char → Reader α) : Truncated ((peekValue >>= f) []) :=
  ⟨_, rfl, rfl⟩

/-- A value is read once its first character was looked at. -/
theorem Follows.peekValue {c : Char} {text : List Char} {f : Char → Reader α}
    (hc : isSpace c = false) (h : (f c).Follows (c :: text)) :
    (Reader.peekValue >>= f).Follows (c :: text) where
  whole := by
    obtain ⟨a, ha⟩ := h.whole
    refine ⟨a, fun hrest => ?_⟩
    rw [List.cons_append, bind_of_ok (peekValue_cons hc _)]
    exact ha hrest
  cut {p} hp := by
    rcases List.prefix_cons_iff.mp hp with rfl | ⟨p, rfl, -⟩
    · exact Or.inl (truncated_peekValue f)
    · rw [bind_of_ok (peekValue_cons hc p)]
      exact h.cut hp

/-! ## Words and strings -/

/-- The letters of a word are followed one by one. -/
theorem follows_letters (ws : List Char) : (letters ws).Follows ws := by
  induction ws with
  | nil => exact .pure_nil ()
  | cons w ws ih =>
      have hcons (cs : List Char) : letters (w :: ws) (w :: cs) = letters ws cs := if_pos rfl
      obtain ⟨a, ha⟩ := ih.whole
      refine ⟨⟨a, fun hrest => ?_⟩, fun {p} hp => ?_⟩
      · rw [List.cons_append, hcons]
        exact ha hrest
      · rcases List.prefix_cons_iff.mp hp with rfl | ⟨p, rfl, htail⟩
        · exact Or.inl ⟨_, rfl, rfl⟩
        · rw [hcons]
          exact ih.cut htail

/-- A word is followed from its first character on. -/
theorem follows_word (c : Char) (tail : List Char) : (word tail).Follows (c :: tail) := by
  obtain ⟨a, ha⟩ := (follows_letters tail).whole
  refine ⟨⟨a, ha⟩, fun {p} hp => ?_⟩
  rcases List.prefix_cons_iff.mp hp with rfl | ⟨p, rfl, htail⟩
  · exact (follows_letters tail).cut List.nil_prefix
  · exact (follows_letters tail).cut htail

end Reader

/-- Four hexadecimal digits that are cut end too early. -/
theorem hexQuad_of_cut {n : Nat} {p : List Char} (hp : p <+: Hex.write n 4)
    (hne : p ≠ Hex.write n 4) : hexQuad p = .error .endsInString := by
  have hsize {c : Char} (hc : c ∈ Hex.write n 4) : c.utf8Size = 1 := by
    obtain ⟨d, hd, rfl⟩ := Hex.exists_of_mem_write hc
    exact utf8Size_digitChar hd
  obtain ⟨c₁, c₂, c₃, c₄, hwrite⟩ : ∃ c₁ c₂ c₃ c₄, Hex.write n 4 = [c₁, c₂, c₃, c₄] :=
    ⟨_, _, _, _, rfl⟩
  simp only [hwrite, List.mem_cons, List.not_mem_nil, or_false] at hp hne hsize
  have hcases : p = [] ∨ p = [c₁] ∨ p = [c₁, c₂] ∨ p = [c₁, c₂, c₃] := by
    simp only [List.prefix_cons_iff, List.prefix_nil] at hp
    grind
  rcases hcases with rfl | rfl | rfl | rfl <;> simp [hexQuad, hsize]

/-- An escape that is cut ends too early. -/
theorem truncated_escape {escaped p : List Char} (hp : p <+: '\\' :: escaped)
    (hne : p ≠ '\\' :: escaped)
    (h : ∀ {p}, p <+: escaped → p ≠ escaped → escape p = .error .endsInString) :
    Truncated (stringBody 0 p) := by
  rcases List.prefix_cons_iff.mp hp with rfl | ⟨p, rfl, hescaped⟩
  · exact ⟨_, rfl, rfl⟩
  · have hescape := h hescaped fun heq => hne (heq ▸ rfl)
    have hbody : stringBody 0 ('\\' :: p) = .error .endsInString := by
      rw [stringBody, if_neg (by decide), if_pos rfl, hescape]
      rfl
    exact ⟨_, hbody, rfl⟩

/-- The text of a character that is cut ends too early. -/
theorem truncated_writeChar {c : Char} {p : List Char} (hp : p <+: Value.writeChar c)
    (hne : p ≠ Value.writeChar c) : Truncated (stringBody 0 p) := by
  have hnil {d : Char} {p : List Char} (hp : p <+: [d]) (hne : p ≠ [d]) : p = [] := by
    rcases List.prefix_cons_iff.mp hp with rfl | ⟨p, rfl, hp'⟩
    · rfl
    · exact absurd (congrArg _ (List.prefix_nil.mp hp')) hne
  have hletter {d : Char} (hp : p <+: ['\\', d]) (hne : p ≠ ['\\', d]) :
      Truncated (stringBody 0 p) := by
    refine truncated_escape hp hne fun hp hne => ?_
    rw [hnil hp hne]
    rfl
  unfold Value.writeChar at hp hne
  split at hp
  -- but for seven characters with escapes of their own, all stand for themselves or for a number
  case h_8 =>
    split at hp
    · refine truncated_escape hp (by simpa [*] using hne) fun {p} hp hne => ?_
      rcases List.prefix_cons_iff.mp hp with rfl | ⟨p, rfl, hdigits⟩
      · rfl
      · have hquad := hexQuad_of_cut hdigits fun heq => hne (heq ▸ rfl)
        rw [escape, numberEscape, hquad]
        rfl
    · rw [hnil hp (by simpa [*] using hne)]
      exact ⟨_, rfl, rfl⟩
  all_goals exact hletter hp hne

/-- A string that is cut ends too early. -/
theorem truncated_stringBody {cs p : List Char} (hp : p <+: cs.flatMap Value.writeChar) :
    Truncated (stringBody 0 p) := by
  induction cs generalizing p with
  | nil =>
      obtain rfl := List.prefix_nil.mp hp
      exact ⟨_, rfl, rfl⟩
  | cons c cs ih =>
      rw [List.flatMap_cons] at hp
      rcases prefix_append_cases hp with hchar | ⟨p, rfl, hrest⟩
      · by_cases hall : p = Value.writeChar c
        · rw [hall, ← List.append_nil (Value.writeChar c), stringBody_writeChar]
          exact (ih List.nil_prefix).map _
        · exact truncated_writeChar hchar hall
      · rw [stringBody_writeChar]
        exact (ih hrest).map _

namespace Reader

/-- A string that is cut ends too early, wherever an escape in it is cut. -/
theorem truncated_string {s : String} {p : List Char} (hp : p <+: Value.writeText s)
    (hne : p ≠ Value.writeText s) : Truncated (string p) := by
  have hbody : Truncated ((stringBody 0 : Reader (List Char)) (p.drop 1)) := by
    rcases List.prefix_cons_iff.mp hp with rfl | ⟨p, rfl, htext⟩
    · exact ⟨_, rfl, rfl⟩
    · rcases List.prefix_concat_iff.mp htext with rfl | htext
      · exact absurd rfl hne
      · exact truncated_stringBody htext
  exact hbody.bind (f := fun text => pure (String.ofList text))

/-- A string is followed. -/
theorem follows_string (s : String) : string.Follows (Value.writeText s) :=
  .of_ne (fun _ => string_writeText s _) fun hp hne => Or.inl (truncated_string hp hne)

/-! ## Commas -/

/-- A cut leaves nothing, or the comma alone, or something of what is behind the comma. -/
theorem prefix_comma_cases {first : Bool} {p text : List Char}
    (hp : p <+: (if first then [] else [',']) ++ text) :
    p = [] ∨ first = false ∧ p = [','] ∨
      ∃ c p', p = (if first then [] else [',']) ++ c :: p' ∧ c :: p' <+: text := by
  have hvalue {p : List Char} (hp : p <+: text) :
      p = [] ∨ ∃ c p', p = c :: p' ∧ c :: p' <+: text := by
    cases p with
    | nil => exact Or.inl rfl
    | cons c p => exact Or.inr ⟨c, p, rfl, hp⟩
  cases first with
  | true => exact (hvalue hp).imp_right Or.inr
  | false =>
      rcases List.prefix_cons_iff.mp hp with hnil | ⟨p, rfl, htext⟩
      · exact Or.inl hnil
      · rcases hvalue htext with rfl | ⟨c, p', rfl, hcons⟩
        · exact Or.inr (Or.inl ⟨rfl, rfl⟩)
        · exact Or.inr (Or.inr ⟨c, p', rfl, hcons⟩)

/-! ## Lists -/

section List

variable {read : Reader α} {texts : List (List Char)}

/-- Where nothing is left of a list, it ends too early. -/
theorem truncated_elements_nil (bound : Nat) (first : Bool) :
    Truncated (elements read bound first []) := by
  cases bound <;> exact ⟨_, rfl, rfl⟩

/-- Elements that are cut end too early. -/
theorem truncated_elements
    (h : ∀ text ∈ texts, read.Follows text ∧ ∃ c rest, text = c :: rest ∧ Opens c) {first : Bool}
    {p : List Char} (hp : p <+: remaining first texts) (bound : Nat) :
    Truncated (elements read bound first p) := by
  induction texts generalizing bound first p with
  | nil =>
      obtain rfl := List.prefix_nil.mp hp
      exact truncated_elements_nil _ _
  | cons text texts ih =>
      cases bound with
      | zero => exact ⟨_, rfl, rfl⟩
      | succ bound =>
          rw [List.forall_mem_cons] at h
          obtain ⟨hfollows, c, rest, htext, hopens⟩ := h.1
          rcases prefix_comma_cases hp with rfl | ⟨rfl, rfl⟩ | ⟨d, p, rfl, hvalue⟩
          · exact truncated_elements_nil _ _
          · exact ⟨_, rfl, rfl⟩
          · obtain rfl : d = c := by
              rw [htext] at hvalue
              exact (List.cons_prefix_cons.mp hvalue).1
            rw [elements, bind_of_ok (nextElement_cons p hopens first), if_pos rfl]
            -- the element itself may be cut, and what is behind it may be
            rcases prefix_append_cases hvalue with hcut | ⟨p', hp', hrest⟩
            · exact (hfollows.cut hcut).bind_truncated fun a =>
                (truncated_elements_nil _ _).bind _
            · obtain ⟨a, ha⟩ := hfollows.whole
              rw [hp', bind_of_ok (ha ((delimits_remaining_nil texts).of_cut hrest))]
              exact (ih h.2 hrest bound).bind _

/-- A list that is cut ends too early. -/
theorem truncated_list
    (h : ∀ text ∈ texts, read.Follows text ∧ ∃ c rest, text = c :: rest ∧ Opens c)
    {p : List Char} (hp : p <+: Codec.withCommas texts) : Truncated (list read ('[' :: p)) := by
  have hlist : list read ('[' :: p) = (elements read (p.length + 1) true >>= fun values =>
      closeList >>= fun _ => pure values) p := rfl
  rw [withCommas_eq] at hp
  rw [hlist]
  exact (truncated_elements h hp _).bind _

end List

/-! ## Objects -/

section Object

variable {member : String → σ → Reader σ} {s s' : σ} {items : List (String × List Char)}

/-- The members take the state from the first to the second, and each of them may be cut. -/
inductive TakesCut (member : String → σ → Reader σ) : σ → List (String × List Char) → σ → Prop
  | nil (s : σ) : TakesCut member s [] s
  | cons {s s' s'' : σ} {key : String} {value : List Char} {items : List (String × List Char)}
      (hmember : ∀ {rest}, Delimits rest →
        member key s (':' :: value ++ rest) = .ok (s', rest))
      (hcut : ∀ {p}, p <+: ':' :: value → CutShort (member key s p))
      (hitems : TakesCut member s' items s'') : TakesCut member s ((key, value) :: items) s''

/-- Members that may be cut are members that are taken. -/
theorem TakesCut.takes (h : TakesCut member s items s') : Takes member s items s' := by
  induction h with
  | nil s => exact .nil s
  | cons hmember _ _ ih => exact .cons hmember ih

/-- Where nothing is left of an object, it ends too early. -/
theorem truncated_members_nil (bound : Nat) (first : Bool) (s : σ) :
    Truncated (members member bound first s []) := by
  cases bound <;> exact ⟨_, rfl, rfl⟩

/-- A member is read once its key is. -/
theorem members_writeText (bound : Nat) (first : Bool) (key : String) (rest : List Char) :
    members member (bound + 1) first s
        ((if first then [] else [',']) ++ (Value.writeText key ++ rest)) =
      (member key s >>= members member bound false) rest :=
  bind_of_ok (nextKey?_writeText rest first key) _

/-- A key that is cut ends too early. -/
theorem truncated_nextKey? {first : Bool} {key : String} {c : Char} {p : List Char}
    (hp : c :: p <+: Value.writeText key) (hne : c :: p ≠ Value.writeText key) :
    Truncated (nextKey? first ((if first then [] else [',']) ++ c :: p)) := by
  obtain rfl : c = '"' := (List.cons_prefix_cons.mp hp).1
  have hkey : nextKey? first ((if first then [] else [',']) ++ '"' :: p) =
      (string >>= fun key => pure (some key)) ('"' :: p) := by
    cases first <;> rfl
  rw [hkey]
  exact (truncated_string hp hne).bind _

/-- Members that are cut end too early. -/
theorem truncated_members (h : TakesCut member s items s') {first : Bool} {p : List Char}
    (hp : p <+: remaining first (items.map memberText)) (bound : Nat) :
    Truncated (members member bound first s p) := by
  induction h generalizing bound first p with
  | nil s =>
      obtain rfl := List.prefix_nil.mp hp
      exact truncated_members_nil _ _ _
  | @cons s s' s'' key value items hmember hcut _ ih =>
      cases bound with
      | zero => exact ⟨_, rfl, rfl⟩
      | succ bound =>
          -- the cut is in the value of the member or before it
          have hvalue {p : List Char} (hp : p <+: ':' :: value) :
              Truncated (members member (bound + 1) first s
                ((if first then [] else [',']) ++ (Value.writeText key ++ p))) := by
            rw [members_writeText]
            exact (hcut hp).bind_truncated fun s => truncated_members_nil _ _ _
          rcases prefix_comma_cases hp with rfl | ⟨rfl, rfl⟩ | ⟨c, p, rfl, htext⟩
          · exact truncated_members_nil _ _ _
          · exact ⟨_, rfl, rfl⟩
          · rcases prefix_append_cases htext with hcuts | ⟨p', hp', hrest⟩
            · rcases prefix_append_cases hcuts with hkey | ⟨p', hp', hvalue'⟩
              · by_cases hall : c :: p = Value.writeText key
                · rw [hall, ← List.append_nil (Value.writeText key)]
                  exact hvalue List.nil_prefix
                · exact (truncated_nextKey? hkey hall).bind _
              · rw [hp']
                exact hvalue hvalue'
            · have hrest' := (delimits_remaining_nil _).of_cut hrest
              rw [hp', memberText, List.append_assoc, members_writeText,
                bind_of_ok (hmember hrest')]
              exact ih hrest bound

/-- An object that is cut ends too early. -/
theorem truncated_object (h : TakesCut member s items s') {p : List Char}
    (hp : p <+: Codec.withCommas (items.map memberText)) :
    Truncated (object member s ('{' :: p)) := by
  have hobject : object member s ('{' :: p) = (members member (p.length + 1) true s >>=
      fun state => closeObject >>= fun _ => pure state) p := rfl
  rw [withCommas_eq] at hp
  rw [hobject]
  exact (truncated_members h hp _).bind _

end Object

end Reader

end StreamWatch.Json
