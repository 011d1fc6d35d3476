import StreamWatch.Event
import StreamWatch.Json.Codec

/-!
# Events in JSON

The documents that events and their parts are written as. Fields with a default may be left out;
fields that may be missing are read as missing when they are left out, but not when a record is
given as a list that ends before them.
-/

namespace StreamWatch

open Json

/-- Origins by their tags. -/
def Origin.codec : Codec Origin := .named Origin.tags

/-- Statuses by their tags. -/
def Status.codec : Codec Status := .named Status.tags

/-- Run states by their tags. -/
def RunState.codec : Codec RunState := .named RunState.tags

/-- Causes by their tags. -/
def Cause.codec : Codec Cause := .named Cause.tags

/-- Kinds of jobs by their tags. -/
def JobKind.codec : Codec JobKind := .named JobKind.tags

/-- Kinds of reasons by their tags. -/
def ReasonKind.codec : Codec ReasonKind := .named ReasonKind.tags

/-- Rate limits as the status API knows them. -/
def RateLimit.codec : Codec RateLimit :=
  .record "RateLimitedMetadata"
    (.cons ⟨"quota_reset", .optional .int64, none⟩ .nil)
    (fun (quotaReset, _) => ⟨quotaReset⟩)
    fun limit => (limit.quotaReset, ())

/-- Rate limits inside a reason. -/
def RateLimit.reasonCodec : Codec RateLimit :=
  .record "RateLimitedReason"
    (.cons ⟨"quota_reset", .optional .int64, some none⟩ .nil)
    (fun (quotaReset, _) => ⟨quotaReset⟩)
    fun limit => (limit.quotaReset, ())

/-- Reasons. -/
def Reason.codec : Codec Reason :=
  .record "StreamStatusReason"
    (.cons ⟨"type", ReasonKind.codec, none⟩ <|
      .cons ⟨"rate_limited", .optional RateLimit.reasonCodec, some none⟩ .nil)
    (fun (kind, limit, _) => ⟨kind, limit⟩)
    fun reason => (reason.kind, reason.limit, ())

/-- Descriptors. -/
def Descriptor.codec : Codec Descriptor :=
  .record "StreamDescriptor"
    (.cons ⟨"name", .optional .text, some none⟩ <|
      .cons ⟨"namespace", .optional .text, some none⟩ .nil)
    (fun (name, space, _) => ⟨name, space⟩)
    fun descriptor => (descriptor.name, descriptor.space, ())

/-- Messages. -/
def Message.codec : Codec Message :=
  .record "StreamStatusMessage"
    (.cons ⟨"stream_descriptor", Descriptor.codec, none⟩ <|
      .cons ⟨"status", Status.codec, none⟩ <|
      .cons ⟨"emitted_at", .real, none⟩ <|
      .cons ⟨"reasons", .list Reason.codec, some []⟩ .nil)
    (fun (stream, status, emittedAt, reasons, _) => ⟨stream, status, emittedAt, reasons⟩)
    fun message => (message.stream, message.status, message.emittedAt, message.reasons, ())

/-- Run contexts. -/
def RunContext.codec : Codec RunContext :=
  .record "ReplicationContext"
    (.cons ⟨"is_reset", .flag, none⟩ <|
      .cons ⟨"connection_id", .uuid, none⟩ <|
      .cons ⟨"source_id", .uuid, none⟩ <|
      .cons ⟨"destination_id", .uuid, none⟩ <|
      .cons ⟨"job_id", .int64, none⟩ <|
      .cons ⟨"attempt", .uint32, none⟩ <|
      .cons ⟨"workspace_id", .uuid, none⟩ <|
      .cons ⟨"source_image", .text, some ""⟩ <|
      .cons ⟨"destination_image", .text, some ""⟩ <|
      .cons ⟨"source_definition_id", .uuid, none⟩ <|
      .cons ⟨"destination_definition_id", .uuid, none⟩ .nil)
    (fun (isReset, connection, source, destination, job, attempt, workspace, sourceImage,
        destinationImage, sourceDefinition, destinationDefinition, _) =>
      ⟨isReset, connection, source, destination, job, attempt, workspace, sourceImage,
        destinationImage, sourceDefinition, destinationDefinition⟩)
    fun c => (c.isReset, c.connection, c.source, c.destination, c.job, c.attempt, c.workspace,
      c.sourceImage, c.destinationImage, c.sourceDefinition, c.destinationDefinition, ())

/-- Events. -/
def Event.codec : Codec Event :=
  .record "ReplicationMessageEvent"
    (.cons ⟨"origin", Origin.codec, none⟩ <|
      .cons ⟨"message", Message.codec, none⟩ <|
      .cons ⟨"replication_context", RunContext.codec, none⟩ <|
      .cons ⟨"incomplete_run_cause", .optional Cause.codec, some none⟩ .nil)
    (fun (origin, message, context, cause?, _) => ⟨origin, message, context, cause?⟩)
    fun event => (event.origin, event.message, event.context, event.cause?, ())

end StreamWatch
