import StreamWatch.Proofs.Event.Trailing
import StreamWatch.Proofs.Json.Presentation.Rewriting
import StreamWatch.Proofs.Json.Sound.Codec

/-!
# Event lines presented in another way

A line that holds an event is a JSON value, and the event does not depend on how the line presents
it: on the order of members, on white space, on members that say nothing, or on the forms of
identifiers: `Event.ofLine_rewritten`.
-/

namespace StreamWatch

open Json

/-- The members of a reason may be given in any order and with any white space. -/
theorem Reason.regular_codec : Reason.codec.Regular := by
  have hlimit : RateLimit.reasonCodec.Regular :=
    .record (.cons (by decide) (.optional .int64) .nil) _ _ _
  exact .record (.cons (by decide) (.named _) <| .cons (by decide) (.optional hlimit) .nil) _ _ _

theorem Descriptor.regular_codec : Descriptor.codec.Regular :=
  .record (.cons (by decide) (.optional .text) <| .cons (by decide) (.optional .text) .nil) _ _ _

theorem Message.regular_codec : Message.codec.Regular :=
  .record (.cons (by decide) Descriptor.regular_codec <| .cons (by decide) (.named _) <|
    .cons (by decide) .real <| .cons (by decide) (.list Reason.regular_codec) .nil) _ _ _

theorem RunContext.regular_codec : RunContext.codec.Regular :=
  .record (.cons (by decide) .flag <| .cons (by decide) .uuid <| .cons (by decide) .uuid <|
    .cons (by decide) .uuid <| .cons (by decide) .int64 <| .cons (by decide) .uint32 <|
    .cons (by decide) .uuid <| .cons (by decide) .text <| .cons (by decide) .text <|
    .cons (by decide) .uuid <| .cons (by decide) .uuid .nil) _ _ _

/-- The members of an event may be given in any order and with any white space. -/
theorem Event.regular_codec : Event.codec.Regular :=
  .record (.cons (by decide) (.named _) <| .cons (by decide) Message.regular_codec <|
    .cons (by decide) RunContext.regular_codec <| .cons (by decide) (.optional (.named _)) .nil)
    _ _ _

/-- Whatever is read as an event is a value of the grammar. -/
theorem Event.sound_codec : Event.codec.Sound := by
  have hlimit : RateLimit.reasonCodec.Sound := .record (.cons (.optional .int64) .nil) _ _ _
  have hreason : Reason.codec.Sound :=
    .record (.cons (.named _) <| .cons (.optional hlimit) .nil) _ _ _
  have hdescriptor : Descriptor.codec.Sound :=
    .record (.cons (.optional .text) <| .cons (.optional .text) .nil) _ _ _
  have hmessage : Message.codec.Sound :=
    .record (.cons hdescriptor <| .cons (.named _) <| .cons .real <| .cons (.list hreason) .nil)
      _ _ _
  have hcontext : RunContext.codec.Sound :=
    .record (.cons .flag <| .cons .uuid <| .cons .uuid <| .cons .uuid <| .cons .int64 <|
      .cons .uint32 <| .cons .uuid <| .cons .text <| .cons .text <| .cons .uuid <| .cons .uuid .nil)
      _ _ _
  exact .record (.cons (.named _) <| .cons hmessage <| .cons hcontext <|
    .cons (.optional (.named _)) .nil) _ _ _

/-- A line that holds an event is a value with white space around it. -/
theorem Event.exists_element_of_ofLine {line : List Char} {event : Event}
    (h : Event.ofLine line = .ok event) :
    ∃ e : Element, e.Spaced ∧ IsValue e.value ∧ line = e.text := by
  obtain ⟨event', hread, -⟩ := Event.ofLine_eq_ok_iff.mp h
  exact exists_element_of_ofChars Event.sound_codec hread

/-- White space around a document makes no difference to the event. -/
theorem Event.ofLine_text_iff {e : Element} (he : e.Spaced) {event : Event} :
    Event.ofLine e.text = .ok event ↔ Event.ofLine e.value = .ok event := by
  have hafter (sp text : List Char) (hsp : AllSpace sp) :
      Event.ofLine (text ++ sp) = .ok event ↔ Event.ofLine text = .ok event := by
    induction sp generalizing text with
    | nil => rw [List.append_nil]
    | cons c sp ih =>
        rw [AllSpace, List.forall_mem_cons] at hsp
        rw [List.append_cons, ih _ hsp.2, Event.ofLine_concat hsp.1]
  rw [Element.text, Event.ofLine, ofChars_append Event.regular_codec he.before, ← Event.ofLine]
  exact hafter _ _ he.after

/-- What is read from a document is read from it when it is rewritten. -/
theorem Event.ofLine_of_rewrites {v v' : List Char} (h : Event.codec.Rewrites v v') {event : Event}
    (hline : Event.ofLine v = .ok event) : Event.ofLine v' = .ok event := by
  obtain ⟨⟨hv, -⟩, hv', -⟩ := h.isValue
  obtain ⟨event', hread, hcheck⟩ := Event.ofLine_eq_ok_iff.mp hline
  rw [ofChars_eq_ok_iff Event.regular_codec hv] at hread
  rw [Event.ofLine_eq_ok_iff]
  exact ⟨event', (ofChars_eq_ok_iff Event.regular_codec hv').mpr (h.reads hread), hcheck⟩

/-- A line that holds an event is a JSON value with white space around it, and holds the same event
when it is rewritten, step by step. -/
theorem Event.ofLine_rewritten {line : List Char} {event : Event}
    (hline : Event.ofLine line = .ok event) :
    (∃ e : Element, e.Spaced ∧ IsValue e.value ∧ line = e.text) ∧
    ∀ e e' : Element, e.Spaced → e'.Spaced → line = e.text →
      Relation.ReflTransGen Event.codec.Rewrites e.value e'.value →
      Event.ofLine e'.text = .ok event := by
  refine ⟨exists_element_of_ofLine hline, fun e e' he he' htext h => ?_⟩
  rw [htext, Event.ofLine_text_iff he] at hline
  rw [Event.ofLine_text_iff he']
  generalize e'.value = v' at h ⊢
  induction h with
  | refl => exact hline
  | tail _ hstep ih => exact ofLine_of_rewrites hstep ih

/-- An identifier deep inside gets another form, and a member that says nothing is added. -/
theorem Event.ofLine_rewritten_nested :
    let id := quoted "00000000-0000-0000-0000-000000000001".toList
    let context (form : String) : List Member :=
      [.plain "connection_id" (quoted form.toList), .plain "is_reset" ['t', 'r', 'u', 'e'],
        .plain "source_id" id, .plain "destination_id" id, .plain "job_id" ['7'],
        .plain "attempt" ['0'], .plain "workspace_id" id, .plain "source_definition_id" id,
        .plain "destination_definition_id" id]
    let message : List Member :=
      [.plain "stream_descriptor" (objectText [] []), .plain "status" (quoted "RUNNING".toList),
        .plain "emitted_at" ['1']]
    let members (form : String) : List Member :=
      [.plain "replication_context" (objectText [] (context form)),
        .plain "message" (objectText [] message), .plain "origin" (quoted "INTERNAL".toList)]
    let unknown := Member.plain "trace" (listText [' '] [])
    let e : Element := ⟨[], objectText [] (members "000000000000000000000000000000AB"), []⟩
    let e' : Element := ⟨[' '], objectText ['\t']
      (unknown :: members "urn:uuid:00000000-0000-0000-0000-0000000000ab"), ['\t']⟩
    e.Spaced ∧ e'.Spaced ∧ Relation.ReflTransGen Event.codec.Rewrites e.value e'.value ∧
      ∃ event, Event.ofLine e.text = .ok event ∧ Event.ofLine e'.text = .ok event := by
  intro id context message members unknown e e'
  have hspace (sp : List Char) (h : sp.all isSpace) : AllSpace sp := List.all_eq_true.mp h
  have hplain (key : String) {value : List Char} (hvalue : IsValue value)
      (hkey : IsStringText key.toList) :
      (Member.plain key value).Spaced ∧ IsValue (Member.plain key value).value :=
    ⟨Member.spaced_plain hkey value, hvalue⟩
  have hdigit (d : Char) (hd : d.isDigit) : IsValue [d] :=
    .number <| @IsNumber.parts false [d] [] [] ⟨by simp, by simpa using hd⟩
      (fun h => congrArg Option.toList h) .none .none
  have hid : IsValue id := .string (.of_all rfl)
  have hcontext {form : String} (hform : IsStringText form.toList) :
      ∀ m ∈ context form, m.Spaced ∧ IsValue m.value := by
    simp only [context, List.forall_mem_cons]
    exact ⟨hplain _ (.string hform) (.of_all rfl), hplain _ .true (.of_all rfl),
      hplain _ hid (.of_all rfl), hplain _ hid (.of_all rfl), hplain _ (hdigit _ rfl) (.of_all rfl),
      hplain _ (hdigit _ rfl) (.of_all rfl), hplain _ hid (.of_all rfl), hplain _ hid (.of_all rfl),
      hplain _ hid (.of_all rfl), List.forall_mem_nil _⟩
  have hmessage : ∀ m ∈ message, m.Spaced ∧ IsValue m.value := by
    simp only [message, List.forall_mem_cons]
    exact ⟨hplain _ (.of_members .nil (List.forall_mem_nil _)) (.of_all rfl),
      hplain _ (.string (.of_all rfl)) (.of_all rfl), hplain _ (hdigit _ rfl) (.of_all rfl),
      List.forall_mem_nil _⟩
  have hmembers {form : String} (hform : IsStringText form.toList) :
      ∀ m ∈ members form, m.Spaced ∧ IsValue m.value := by
    simp only [members, List.forall_mem_cons]
    exact ⟨hplain _ (.of_members .nil (hcontext hform)) (.of_all rfl),
      hplain _ (.of_members .nil hmessage) (.of_all rfl),
      hplain _ (.string (.of_all rfl)) (.of_all rfl), List.forall_mem_nil _⟩
  have hunknown : unknown.Spaced ∧ IsValue unknown.value :=
    hplain _ (.of_elements (hspace _ rfl) (List.forall_mem_nil _)) (.of_all rfl)
  have hform : IsStringText "000000000000000000000000000000AB".toList := .of_all rfl
  have hform' : IsStringText "urn:uuid:00000000-0000-0000-0000-0000000000ab".toList :=
    .of_all rfl
  have he : e.Spaced := ⟨.nil, .nil⟩
  have he' : e'.Spaced := ⟨hspace _ rfl, hspace _ rfl⟩
  have hidentifier : Event.codec.Rewrites e.value
      (objectText [] (members "urn:uuid:00000000-0000-0000-0000-0000000000ab")) := by
    refine .member (.cons (by decide) (.named _) <| .cons (by decide) Message.regular_codec <|
      .cons (by decide) RunContext.regular_codec <| .cons (by decide) (.optional (.named _)) .nil)
      .nil (hmembers hform) (.behind (.behind .first)) (by decide +kernel) ?_
    refine .member (.cons (by decide) .flag <| .cons (by decide) .uuid <| .cons (by decide) .uuid <|
      .cons (by decide) .uuid <| .cons (by decide) .int64 <| .cons (by decide) .uint32 <|
      .cons (by decide) .uuid <| .cons (by decide) .text <| .cons (by decide) .text <|
      .cons (by decide) .uuid <| .cons (by decide) .uuid .nil) .nil (hcontext hform)
      (.behind .first) (by decide +kernel) ?_
    have hlong : Uuid.IsForm ⟨0xab⟩ "000000000000000000000000000000AB".toList := by
      rw [Uuid.IsForm]
      decide +kernel
    have hurn : Uuid.IsForm ⟨0xab⟩ "urn:uuid:00000000-0000-0000-0000-0000000000ab".toList := by
      rw [Uuid.IsForm]
      decide +kernel
    exact .uuid hform hform' (by decide +kernel) (by decide +kernel) hlong hurn
  have hadded : Event.codec.Rewrites
      (objectText [] (members "urn:uuid:00000000-0000-0000-0000-0000000000ab")) e'.value := by
    refine .members (.cons (by decide) (.named _) <| .cons (by decide) Message.regular_codec <|
      .cons (by decide) RunContext.regular_codec <| .cons (by decide) (.optional (.named _)) .nil)
      .nil (hspace _ rfl) (hmembers hform')
      (List.forall_mem_cons.mpr ⟨hunknown, hmembers hform'⟩) (.add ?_ ?_)
    · have hname : unknown.name? = some "trace" := by decide +kernel
      exact .unknown hname (by decide)
    · decide +kernel
  have hsteps : Relation.ReflTransGen Event.codec.Rewrites e.value e'.value :=
    .tail (.single hidentifier) hadded
  refine ⟨he, he', hsteps, ?_⟩
  cases hline : Event.ofLine e.text with
  | ok event => exact ⟨event, rfl, (Event.ofLine_rewritten hline).2 e e' he he' rfl hsteps⟩
  | error failure =>
      have hok : (Event.ofLine e.text).isOk = true := by decide +kernel
      rw [hline] at hok
      cases hok

end StreamWatch
