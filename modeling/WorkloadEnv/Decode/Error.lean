import WorkloadEnv.Number.Layout
import WorkloadEnv.Text.Quoted

/-! # What a value was found to be

    A typed reader that meets the wrong value tells what it found and what it
    expected.  The cause is kept as data (`DecodeError`), and worded when it is
    shown: JSON and YAML call an absent value by different names, and lay out
    floating-point numbers differently. -/

namespace WorkloadEnv

/-- Shows a value in a message: the value itself if it is short, else its kind. -/
inductive Found where
  | null
  | bool (b : Bool)
  | int (n : Int)
  | float (x : Double)
  | text (s : String)
  | list
  | map
  /-- A value under a tag of its own. -/
  | tagged
  deriving DecidableEq, Repr

/-- The words in which a format tells of a value. -/
inductive Wording where
  | json
  | yaml
  deriving DecidableEq, Repr

namespace Found

/-- The absent value. -/
def nullWord : Wording → String
  | .json => "null"
  | .yaml => "unit value"

/-- A value between backticks after the name of its kind. -/
private def shown (kind text : String) : String := kind ++ " `" ++ text ++ "`"

/-- A number as a format shows it in a message. -/
def numberText (w : Wording) (x : Double) : String :=
  if x.isNotANumber then "NaN"
  else if !x.isFinite then if x.isNegative then "-inf" else "inf"
  else match w with
    | .json => x.compactSigned
    | .yaml => x.positional

/-- The words for what was found. -/
def describe (w : Wording) : Found → String
  | null => nullWord w
  | bool b => shown "boolean" (if b then "true" else "false")
  | int n => shown "integer" (toString n)
  | float x => shown "floating point" (numberText w x)
  | text s => "string " ++ Text.quoted s
  | list => "sequence"
  | map => "map"
  | tagged => "enum"

end Found

/-- Why a text is no date and time. -/
inductive TimeFault where
  | tooShort
  | invalid
  | outOfRange
  /-- The date lies within the range of years, but not so in UTC. -/
  | impossible
  | tooLong
  deriving DecidableEq, Repr

def TimeFault.message : TimeFault → String
  | .tooShort => "premature end of input"
  | .invalid => "input contains invalid characters"
  | .outOfRange => "input is out of range"
  | .impossible => "no possible date and time matching input"
  | .tooLong => "trailing input"

/-- Why a value has not the shape it should have. -/
inductive DecodeError where
  | wrongType (found : Found) (expected : String)
  | wrongValue (found : Found) (expected : String)
  | badTime (fault : TimeFault)
  /-- A member that may be there once is there again. -/
  | repeatedMember (name : String)
  /-- A tag stands where free-form data is kept. -/
  | tagInData
  deriving DecidableEq, Repr

/-- The message of a decode error, in the words of the format it came from. -/
def DecodeError.message (w : Wording) : DecodeError → String
  | wrongType found expected => "invalid type: " ++ found.describe w ++ ", expected " ++ expected
  | wrongValue found expected => "invalid value: " ++ found.describe w ++ ", expected " ++ expected
  | badTime fault => fault.message
  | repeatedMember name => "duplicate field `" ++ name ++ "`"
  | tagInData => "untagged and internally tagged enums do not support enum input"

end WorkloadEnv
