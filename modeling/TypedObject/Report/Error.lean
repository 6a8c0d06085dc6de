import TypedObject.Message.Codec
import TypedObject.SchemaError

/-!
# Why there is no report

A report is read from an encoding.  When that fails, the error names the step that failed as well
as the cause.
-/

namespace TypedObject

/-- Why there is no report, as the step that failed and the cause. -/
inductive ReportError where
  | registry (cause : SchemaError)
  /-- The schema is not registered, or a part of the value cannot be read. -/
  | schema (cause : SchemaError)
  | measuring (name : String) (cause : SchemaError)
  | message (type? : Option MessageType) (cause : MessageError)
  | carriedRegistry (cause : SchemaError)

namespace ReportError

def chain : ReportError → List String
  | registry cause => ["decoding registry", cause.message]
  | schema cause => [cause.message]
  | measuring name cause => ["measuring data as " ++ name, cause.message]
  | message (some type) cause => ["decoding " ++ type.text ++ " message", cause.message]
  | message none cause => ["decoding message", cause.message]
  | carriedRegistry cause => ["decoding carried registry", cause.message]

def outermost (error : ReportError) : String := error.chain.headD ""

end ReportError

end TypedObject
