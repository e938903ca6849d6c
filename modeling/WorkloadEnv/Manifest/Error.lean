import WorkloadEnv.Decode.Error

/-! # Manifest errors

    What can go wrong with a manifest as a whole.  The message tells of parsing
    for every error of the YAML part and of writing for every error of a stream,
    whichever way the data went. -/

namespace WorkloadEnv

/-- An error of the YAML part. -/
inductive YamlError where
  /-- The text is no YAML, or a document of it has no value. -/
  | malformed
  /-- A document repeats nodes too often. -/
  | repetitionLimit
  /-- A value is no resource. -/
  | document (cause : DecodeError)
  /-- A document could not be handed to its writer, which gave this reason. -/
  | refused (reason : String)
  deriving DecidableEq, Repr

/-- What went wrong, where that has fixed words. -/
def YamlError.message? : YamlError → Option String
  | malformed => none
  | repetitionLimit => some "repetition limit exceeded"
  | document cause => some (cause.message .yaml)
  | refused reason => some reason

inductive ManifestError where
  | yaml (cause : YamlError)
  /-- A stream could not be read or written, for the given reason. -/
  | stream (reason : String)
  deriving DecidableEq, Repr

def ManifestError.message? : ManifestError → Option String
  | yaml cause => cause.message?.map ("failed to parse manifest: " ++ ·)
  | stream reason => some ("failed to write manifest: " ++ reason)

end WorkloadEnv
