import PathCover.Rule.Json

/-!
# Loading rule sets

A rule set is the contents of a file, which have to be text and to be JSON of the right form.
-/

namespace PathCover

/-- Why a file cannot be read as text. -/
inductive FileFault where
  | notFound
  /-- The contents are not UTF-8. -/
  | notText
  | isDirectory
  | other
  deriving DecidableEq, Inhabited

/-- The name of a file fault in answers. -/
def FileFault.name : FileFault → String
  | .notFound => "NotFound"
  | .notText => "InvalidData"
  | .isDirectory => "IsADirectory"
  | .other => "Other"

/-- Why a rule set cannot be had. -/
inductive LoadError where
  | unreadable (file : String) (cause : FileFault)
  | malformed (fault : Json.Fault)
  deriving DecidableEq, Inhabited

/-- The message of a load error.  Of a text that is no JSON it says no more than that. -/
def LoadError.message : LoadError → String
  | .unreadable file _ => "cannot read rule set `" ++ file ++ "`"
  | .malformed (.mismatch reason) => "malformed rule set: " ++ reason
  | .malformed fault => "malformed rule set: " ++ fault.category

namespace RuleSet

/-- The rule set in a JSON text. -/
def ofText (text : String) : Except LoadError RuleSet :=
  (ofJsonText text).mapError .malformed

/-- The text of a file from its bytes, without any mark at its front being dropped. -/
def textOfBytes (bytes : ByteArray) : Except FileFault String :=
  match String.fromUTF8? bytes with
  | some text => .ok text
  | none => .error .notText

/-- The rule set in a file, given what comes of reading it. -/
def load (file : String) (contents : Except FileFault ByteArray) : Except LoadError RuleSet :=
  match contents.bind textOfBytes with
  | .error cause => .error (.unreadable file cause)
  | .ok text => ofText text

end RuleSet

end PathCover
