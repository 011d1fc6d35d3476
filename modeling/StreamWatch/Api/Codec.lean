import StreamWatch.Api
import StreamWatch.Event.Codec

/-!
# Requests and records in JSON

A report is written flat, the parts of its key among its other fields; updates and records add the
identifier.
-/

namespace StreamWatch

open Json

/-- The fields of a report that follow the identifier of the connection, in front of `rest`. -/
def Report.jobFields {τ δ : Type} (rest : Fields τ δ) :=
  Fields.cons ⟨"job_id", .int64, none⟩ <|
    .cons ⟨"job_type", JobKind.codec, none⟩ <|
    .cons ⟨"run_state", RunState.codec, none⟩ <|
    .cons ⟨"stream_name", .text, none⟩ <|
    .cons ⟨"transitioned_at", .int64, none⟩ <|
    .cons ⟨"workspace_id", .uuid, none⟩ rest

/-- The last fields of a report. -/
def Report.lastFields :=
  Fields.cons ⟨"incomplete_run_cause", .optional Cause.codec, none⟩ <|
    .cons ⟨"stream_namespace", .optional .text, none⟩ <|
    .cons ⟨"rate_limited_metadata", .optional RateLimit.codec, none⟩ .nil

/-- Requests for a record. -/
def Report.codec : Codec Report :=
  .record "StreamStatusCreateRequest"
    (.cons ⟨"attempt_number", .uint32, none⟩ <|
      .cons ⟨"connection_id", .uuid, none⟩ <|
      Report.jobFields Report.lastFields)
    (fun (attempt, connection, job, jobKind, runState, name, time, workspace, cause?, space,
        limit?, _) =>
      ⟨⟨name, space, ⟨workspace, connection, job, attempt⟩⟩, jobKind, runState, time, cause?,
        limit?⟩)
    fun r => (r.key.run.attempt, r.key.run.connection, r.key.run.job, r.jobKind, r.runState,
      r.key.name, r.time, r.key.run.workspace, r.cause?, r.key.space, r.limit?, ())

/-- Updates of a record. -/
def Report.updateCodec : Codec (Uuid × Report) :=
  .record "StreamStatusUpdateRequest"
    (.cons ⟨"attempt_number", .uint32, none⟩ <|
      .cons ⟨"connection_id", .uuid, none⟩ <|
      Report.jobFields (.cons ⟨"id", .uuid, none⟩ Report.lastFields))
    (fun (attempt, connection, job, jobKind, runState, name, time, workspace, id, cause?, space,
        limit?, _) =>
      (id, ⟨⟨name, space, ⟨workspace, connection, job, attempt⟩⟩, jobKind, runState, time, cause?,
        limit?⟩))
    fun (id, r) => (r.key.run.attempt, r.key.run.connection, r.key.run.job, r.jobKind, r.runState,
      r.key.name, r.time, r.key.run.workspace, id, r.cause?, r.key.space, r.limit?, ())

/-- Records. -/
def Record.codec : Codec Record :=
  .record "StreamStatusRead"
    (.cons ⟨"attempt_number", .uint32, none⟩ <|
      .cons ⟨"connection_id", .uuid, none⟩ <|
      .cons ⟨"id", .uuid, none⟩ <|
      Report.jobFields Report.lastFields)
    (fun (attempt, connection, id, job, jobKind, runState, name, time, workspace, cause?, space,
        limit?, _) =>
      ⟨id, ⟨⟨name, space, ⟨workspace, connection, job, attempt⟩⟩, jobKind, runState, time, cause?,
        limit?⟩⟩)
    fun ⟨id, r⟩ => (r.key.run.attempt, r.key.run.connection, id, r.key.run.job, r.jobKind,
      r.runState, r.key.name, r.time, r.key.run.workspace, r.cause?, r.key.space, r.limit?, ())

end StreamWatch
