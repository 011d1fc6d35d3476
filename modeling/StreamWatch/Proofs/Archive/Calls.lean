import StreamWatch.Archive
import StreamWatch.Proofs.Roster.Step
import Mathlib.Data.List.Induction

/-!
# What calls leave in an archive

An archive keeps three collections in step: the requests for records, the updates, and the records
themselves. After any calls they are what the calls that succeeded say: one record for every request
for one, which says what its last update said, or what it was created with if it has none
(`records_of_calls`). A call that is refused leaves no trace.
-/

namespace StreamWatch

/-! ## Calls one after the other -/

/-- Makes some requests one after the other: the calls, and the state of the status API after
them. -/
def StatusApi.serve {σ : Type} (api : StatusApi σ) : List Request → σ → List Call × σ
  | [], s => ([], s)
  | request :: rest, s =>
    let answered := api.answer request s
    let served := api.serve rest answered.2
    (⟨request, answered.1⟩ :: served.1, served.2)

/-- Some requests and then one more. -/
theorem StatusApi.serve_concat {σ : Type} (api : StatusApi σ) (requests : List Request)
    (request : Request) (s : σ) :
    api.serve (requests ++ [request]) s =
      let served := api.serve requests s
      let answered := api.answer request served.2
      (served.1 ++ [⟨request, answered.1⟩], answered.2) := by
  induction requests generalizing s with
  | nil => rfl
  | cons first rest ih => simp only [List.cons_append, serve, ih]

/-- The record that a request asks for. -/
def Request.wanted? : Request → Option Report
  | .create report => some report
  | .update _ _ => none

/-- The record that a call created: its identifier, and what it was created with. -/
def Call.created? (c : Call) : Option (Uuid × Report) :=
  match c.request, c.answer with
  | .create report, .ok record => some (record.id, report)
  | _, _ => none

/-- The update that a call made. -/
def Call.updated? (c : Call) : Option (Uuid × Report) :=
  match c.request, c.answer with
  | .update id report, .ok _ => some (id, report)
  | _, _ => none

/-- The records that some calls created, in order. -/
def createdBy (calls : List Call) : List (Uuid × Report) := calls.filterMap Call.created?

/-- The updates that some calls made, in order. -/
def updatedBy (calls : List Call) : List (Uuid × Report) := calls.filterMap Call.updated?

/-- What is created is created call by call. -/
theorem createdBy_concat (calls : List Call) (call : Call) :
    createdBy (calls ++ [call]) = createdBy calls ++ call.created?.toList := by
  rw [createdBy, createdBy, List.filterMap_append]
  cases h : call.created? <;> simp [h]

theorem updatedBy_concat (calls : List Call) (call : Call) :
    updatedBy (calls ++ [call]) = updatedBy calls ++ call.updated?.toList := by
  rw [updatedBy, updatedBy, List.filterMap_append]
  cases h : call.updated? <;> simp [h]

namespace Archive

/-! ## The three collections -/

/-- What is last said of a record: by an update, or else when it was created. -/
def lastWord? (calls : List Call) (id : Uuid) : Option Report :=
  (((updatedBy calls).filter (·.1 = id)).getLast? <|> (createdBy calls).find? (·.1 = id)).map (·.2)

/-- `a.Keeps calls`: the archive `a` holds what the calls that succeeded say. -/
structure Keeps (a : Archive) (calls : List Call) : Prop where
  creates : a.creates.toList = (createdBy calls).map (·.2)
  updates : a.updates.toList = updatedBy calls
  /-- There is one record for every identifier that was given out, in the same order. -/
  keys : a.records.keys = (createdBy calls).map (·.1)
  /-- Only records were updated. -/
  known : ∀ update ∈ updatedBy calls, update.1 ∈ a.records.keys
  get? : ∀ id, a.records.get? id = lastWord? calls id

variable {supply : Nat → Uuid} {a : Archive} {calls : List Call} {id : Uuid} {report : Report}

/-- A new archive holds nothing. -/
theorem keeps_nil : Keeps {} [] where
  creates := rfl
  updates := rfl
  keys := rfl
  known _ h := by cases h
  get? _ := rfl

/-- A record with a new identifier is kept beside the others. -/
theorem Keeps.create (h : a.Keeps calls)
    (hnew : ((createdBy (calls ++ [⟨.create report, .ok ⟨id, report⟩⟩])).map (·.1)).Nodup) :
    (a.create id report).Keeps (calls ++ [⟨.create report, .ok ⟨id, report⟩⟩]) := by
  have hcreated : createdBy (calls ++ [⟨.create report, .ok ⟨id, report⟩⟩]) =
      createdBy calls ++ [(id, report)] := createdBy_concat calls _
  have hupdated : updatedBy (calls ++ [⟨.create report, .ok ⟨id, report⟩⟩]) = updatedBy calls := by
    rw [updatedBy_concat]
    exact List.append_nil _
  have hfresh : id ∉ a.records.keys := by
    rw [hcreated, List.map_append, List.nodup_append] at hnew
    rw [h.keys]
    exact fun hmem => hnew.2.2 id hmem id (List.mem_singleton_self _) rfl
  have hkeys : (a.create id report).records.keys = a.records.keys ++ [id] := by
    rw [Archive.create, Table.keys_put, if_neg hfresh]
  refine ⟨?_, ?_, ?_, fun update hupdate => ?_, fun other => ?_⟩
  · rw [hcreated, Archive.create, Array.toList_push, h.creates, List.map_append]
    rfl
  · rw [hupdated, ← h.updates]
    rfl
  · rw [hkeys, h.keys, hcreated, List.map_append]
    rfl
  · rw [hkeys]
    exact List.mem_append_left _ (h.known update (hupdated ▸ hupdate))
  · rw [get?_create, h.get?, lastWord?, lastWord?, hupdated, hcreated, List.find?_append]
    split
    · next heq =>
        -- nobody can have spoken of it before
        subst heq
        have hsilent : (updatedBy calls).filter (·.1 = id) = [] := by
          refine List.filter_eq_nil_iff.mpr fun update hupdate hid => hfresh ?_
          exact of_decide_eq_true hid ▸ h.known update hupdate
        have hnone : (createdBy calls).find? (·.1 = id) = none := by
          refine List.find?_eq_none.mpr fun record hrecord hid => hfresh ?_
          rw [h.keys, List.mem_map]
          exact ⟨record, hrecord, of_decide_eq_true hid⟩
        rw [hsilent, hnone]
        simp
    · next hne => simp [hne]

/-- A record that is updated stays the one record of its identifier. -/
theorem Keeps.update (h : a.Keeps calls) (hknown : a.records.get? id ≠ none) :
    (a.update id report).Keeps (calls ++ [⟨.update id report, .ok ⟨id, report⟩⟩]) := by
  have hcreated : createdBy (calls ++ [⟨.update id report, .ok ⟨id, report⟩⟩]) =
      createdBy calls := by
    rw [createdBy_concat]
    exact List.append_nil _
  have hupdated : updatedBy (calls ++ [⟨.update id report, .ok ⟨id, report⟩⟩]) =
      updatedBy calls ++ [(id, report)] := updatedBy_concat calls _
  have hkeys : (a.update id report).records.keys = a.records.keys := by
    rw [Archive.update, Table.keys_put, if_pos (Table.mem_keys.mpr hknown)]
  refine ⟨?_, ?_, ?_, fun update hupdate => ?_, fun other => ?_⟩
  · rw [hcreated, ← h.creates]
    rfl
  · rw [hupdated, Archive.update, Array.toList_push, h.updates]
  · rw [hkeys, h.keys, hcreated]
  · rw [hkeys]
    rw [hupdated, List.mem_append, List.mem_singleton] at hupdate
    rcases hupdate with hupdate | rfl
    · exact h.known update hupdate
    · exact Table.mem_keys.mpr hknown
  · rw [get?_update, h.get?, lastWord?, lastWord?, hcreated, hupdated, List.filter_append]
    split
    · next heq => simp [heq]
    · next hne => simp [hne]

/-- A call that is refused leaves no trace. -/
theorem Keeps.refused (h : a.Keeps calls) (request : Request) (failure : Failure) :
    a.Keeps (calls ++ [⟨request, .error failure⟩]) := by
  have hcreated : createdBy (calls ++ [⟨request, .error failure⟩]) = createdBy calls := by
    rw [createdBy_concat]
    cases request <;> exact List.append_nil _
  have hupdated : updatedBy (calls ++ [⟨request, .error failure⟩]) = updatedBy calls := by
    rw [updatedBy_concat]
    cases request <;> exact List.append_nil _
  refine ⟨hcreated ▸ h.creates, hupdated ▸ h.updates, hcreated ▸ h.keys, hupdated ▸ h.known,
    fun id => ?_⟩
  rw [h.get?, lastWord?, lastWord?, hcreated, hupdated]

/-! ## Runs of calls -/

/-- An update is answered with what it says if there is a record, and else refused. -/
theorem answer_update_cases (supply : Nat → Uuid) (id : Uuid) (report : Report) (a : Archive) :
    a.records.get? id ≠ none ∧
        (api supply).answer (.update id report) a = (.ok ⟨id, report⟩, a.update id report) ∨
      a.records.get? id = none ∧
        (api supply).answer (.update id report) a = (.error (.recordNotFound id), a) := by
  cases h : a.records.get? id with
  | some before => exact Or.inl ⟨by simp, answer_update report h⟩
  | none => exact Or.inr ⟨rfl, by simp only [api, h]⟩

/-- As long as no identifier is given out twice, one more call is kept like those before it. -/
theorem Keeps.answered (h : a.Keeps calls) (request : Request)
    (hdistinct : ((createdBy (calls ++ [⟨request, ((api supply).answer request a).1⟩])).map
      (·.1)).Nodup) :
    ((api supply).answer request a).2.Keeps
      (calls ++ [⟨request, ((api supply).answer request a).1⟩]) := by
  cases request with
  | create report => exact h.create hdistinct
  | update id report =>
      rcases answer_update_cases supply id report a with ⟨hknown, hanswer⟩ | ⟨-, hanswer⟩
      · rw [hanswer]
        exact h.update hknown
      · rw [hanswer]
        exact h.refused _ _

/-- What an archive holds after some calls. -/
theorem keeps_of_serve (supply : Nat → Uuid) (requests : List Request)
    (hdistinct : ((createdBy ((api supply).serve requests {}).1).map (·.1)).Nodup) :
    ((api supply).serve requests {}).2.Keeps ((api supply).serve requests {}).1 := by
  induction requests using List.reverseRecOn with
  | nil => exact keeps_nil
  | append_singleton requests request ih =>
      rw [StatusApi.serve_concat] at hdistinct ⊢
      refine (ih ?_).answered request hdistinct
      -- what is distinct with one more identifier is distinct without it
      rw [createdBy_concat, List.map_append] at hdistinct
      exact (List.nodup_append.mp hdistinct).1

/-- Every request for a record is granted. -/
theorem map_createdBy_serve (supply : Nat → Uuid) (requests : List Request) (a : Archive) :
    (createdBy ((api supply).serve requests a).1).map (·.2) =
      requests.filterMap Request.wanted? := by
  induction requests generalizing a with
  | nil => rfl
  | cons request rest ih =>
      have hrest := ih ((api supply).answer request a).2
      cases request with
      | create report => exact congrArg (report :: ·) hrest
      | update id report => exact hrest

/-- The calls are those that were asked for. -/
theorem map_request_serve {σ : Type} (api : StatusApi σ) (requests : List Request) (s : σ) :
    (api.serve requests s).1.map Call.request = requests := by
  induction requests generalizing s with
  | nil => rfl
  | cons request rest ih => exact congrArg (request :: ·) (ih _)

/-- After any calls of which no two were given the same identifier, there is one record for every
request for one, under the identifier it was answered with. It says what its last update said, or
what it was created with if there was none. The requests on file are those of the calls that
succeeded, in order. One more call is answered as follows. A request for a record is granted; an
update is accepted exactly if there is a record of that identifier; what is accepted is answered
with the record that it leaves; and what is refused is refused for its identifier and changes
nothing. -/
theorem records_of_calls (supply : Nat → Uuid) (requests : List Request)
    (hdistinct : ((createdBy ((api supply).serve requests {}).1).map (·.1)).Nodup) :
    let calls := ((api supply).serve requests {}).1
    let a := ((api supply).serve requests {}).2
    calls.map Call.request = requests ∧
    (createdBy calls).map (·.2) = requests.filterMap Request.wanted? ∧
    a.records.keys = (createdBy calls).map (·.1) ∧
    (∀ id, a.records.get? id =
      (((updatedBy calls).filter (·.1 = id)).getLast? <|>
        (createdBy calls).find? (·.1 = id)).map (·.2)) ∧
    a.creates.toList = (createdBy calls).map (·.2) ∧ a.updates.toList = updatedBy calls ∧
    ∀ request,
      let answered := (api supply).answer request a
      (∀ record, answered.1 = .ok record →
        record.report = request.report ∧ answered.2.records.get? record.id = some record.report) ∧
      (∀ report, request = .create report → ∃ record, answered.1 = .ok record) ∧
      (∀ id report, request = .update id report →
        ((∃ record, answered.1 = .ok record) ↔ id ∈ (createdBy calls).map (·.1)) ∧
        ∀ record, answered.1 = .ok record → record.id = id) ∧
      ∀ failure, answered.1 = .error failure →
        (∃ id report, request = .update id report ∧ failure.kind = .requestFailed ∧
          failure.detail = some id.toString) ∧ answered.2 = a := by
  intro calls a
  have hkeeps : a.Keeps calls := keeps_of_serve supply requests hdistinct
  refine ⟨map_request_serve _ _ _, map_createdBy_serve _ _ _, hkeeps.keys, hkeeps.get?,
    hkeeps.creates, hkeeps.updates, fun request => ?_⟩
  intro answered
  cases request with
  | create report =>
      refine ⟨fun record hrecord => ?_, fun _ _ => ⟨_, rfl⟩, fun _ _ h => (by cases h),
        fun _ h => (by cases h)⟩
      cases hrecord
      exact ⟨rfl, (get?_create _ _ _ _).trans (if_pos rfl)⟩
  | update id report =>
      have hiff : a.records.get? id ≠ none ↔ id ∈ (createdBy calls).map (·.1) := by
        rw [← hkeeps.keys, Table.mem_keys]
      rcases answer_update_cases supply id report a with ⟨hknown, hanswer⟩ | ⟨hnone, hanswer⟩
      · have hanswered : answered = (.ok ⟨id, report⟩, a.update id report) := hanswer
        rw [hanswered]
        refine ⟨fun record hrecord => ?_, fun _ h => (by cases h), fun id' report' h => ?_,
          fun _ h => (by cases h)⟩
        · cases hrecord
          exact ⟨rfl, (get?_update _ _ _ _).trans (if_pos rfl)⟩
        · cases h
          refine ⟨iff_of_true ⟨_, rfl⟩ (hiff.mp hknown), fun record hrecord => ?_⟩
          cases hrecord
          rfl
      · have hanswered : answered = (.error (.recordNotFound id), a) := hanswer
        rw [hanswered]
        refine ⟨fun _ h => (by cases h), fun _ h => (by cases h), fun id' report' h => ?_,
          fun failure h => ?_⟩
        · cases h
          refine ⟨iff_of_false (fun ⟨_, h⟩ => by cases h) (fun hmem => hiff.mpr hmem hnone),
            fun _ h => (by cases h)⟩
        · cases h
          exact ⟨⟨id, report, rfl, rfl, rfl⟩, rfl⟩

/-- Two streams, of which the first is updated twice, and an update of no stream in between. -/
theorem records_of_calls_about_two_streams :
    let supply (n : Nat) : Uuid := ⟨BitVec.ofNat 128 n⟩
    let said (runState : RunState) (time : Int64) : Report :=
      ⟨Sample.orders, .sync, runState, time, none, none⟩
    let requests : List Request := [.create (said .running 1), .update ⟨0⟩ (said .rateLimited 2),
      .update ⟨5⟩ (said .complete 3), .create (said .running 4), .update ⟨0⟩ (said .complete 5)]
    let a := ((api supply).serve requests {}).2
    a.records.keys = [⟨0⟩, ⟨1⟩] ∧ a.records.get? ⟨0⟩ = some (said .complete 5) ∧
      a.records.get? ⟨1⟩ = some (said .running 4) ∧
      a.updates.toList = [(⟨0⟩, said .rateLimited 2), (⟨0⟩, said .complete 5)] ∧
      ((api supply).answer (.update ⟨5⟩ (said .complete 6)) a).2 = a := by
  intro supply said requests a
  obtain ⟨-, -, hkeys, hget, -, hupdates, hnext⟩ := records_of_calls supply requests (by decide)
  obtain ⟨-, -, -, hrefused⟩ := hnext (.update ⟨5⟩ (said .complete 6))
  exact ⟨hkeys, hget ⟨0⟩, hget ⟨1⟩, hupdates, (hrefused (.recordNotFound ⟨5⟩) rfl).2⟩

end Archive

end StreamWatch
