import EventKernel.Config.Basic
import EventKernel.Text.Integer
import EventKernel.Text.Utf8

/-!
# Settings from the environment

Environment variables override the default settings. A value that is not text, or cannot be read as
what it should be, is ignored.
-/

namespace EventKernel

/-- Environment variables with their values as bytes. -/
abbrev Environment := List (String × List UInt8)

namespace Environment

/-- The value of a variable, if it is set and is text. -/
def text? (env : Environment) (name : String) : Option String :=
  (env.lookup name).bind fun bytes => (decodeStrict? bytes).map String.ofList

end Environment

namespace Config

/-- The default settings with the overrides of an environment. -/
def ofEnvironment (env : Environment) : Config :=
  let base : Config := {}
  { kind := ((env.text? "EVENTIDE_SCHEDULER").bind QueueKind.read?).getD base.kind
    resolution := ((env.text? "EVENTIDE_RESOLUTION").bind TimeUnit.read?).getD base.resolution
    stopAfterNanos :=
      ((env.text? "EVENTIDE_STOP_AFTER_NS").bind IntRange.signed64.read?).map Int64.ofInt
    bufferSize :=
      (((env.text? "EVENTIDE_READ_BUFFER").bind IntRange.word64.read?).map
        fun n => UInt64.ofNat n.toNat).getD base.bufferSize
    calendarBuckets := base.calendarBuckets
    sync := base.sync }

end Config

end EventKernel
