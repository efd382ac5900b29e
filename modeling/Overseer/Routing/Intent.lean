import Overseer.Document.Decode
import Overseer.Text.Blank

/-! # Intents

The closed set of things a payload can ask for.
-/

namespace Overseer

inductive Intent
  | generate
  | git
  | browse
  | fileEdit
  | codeFix
  deriving Repr, DecidableEq, Inhabited

namespace Intent

def all : List Intent := [.generate, .git, .browse, .fileEdit, .codeFix]

def name : Intent → String
  | .generate => "generate"
  | .git => "git"
  | .browse => "browse"
  | .fileEdit => "file_edit"
  | .codeFix => "code_fix"

def ofName? (s : String) : Option Intent := all.find? fun intent => intent.name == s

/-- White space around the name does not count. -/
def parse? (raw : String) : Option Intent := ofName? (Text.trim raw)

def decode? (d : Document) : Option Intent := d.variant?.bind ofName?

end Intent

end Overseer
