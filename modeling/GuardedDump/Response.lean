import GuardedDump.Text.Blank
import GuardedDump.Text.Case
import GuardedDump.Text.Numeral
import GuardedDump.Text.Quoted

namespace GuardedDump

inductive Response where
  | fatal
  | warn
  | other (code : Int)
  deriving DecidableEq

namespace Response

def ofCode (code : Int) : Response :=
  if code = 0 then fatal else if code = 1 then warn else other code

def label : Response → String
  | fatal => "fatal"
  | warn => "warn"
  | other code => "AssertMode(" ++ Numeral.ofInt code ++ ")"

def ofWord? (word : List Char) : Option Response :=
  if word = [] || word = "fatal".toList then some fatal
  else if word = "warn".toList || word = "warning".toList then some warn
  else none

/-- Read a response, blanks around it and letter case aside. The empty text means fatal. -/
def parse? (text : String) : Option Response :=
  ofWord? ((Text.trimChars text.toList).map Text.lower)

def unknownMessage (text : String) : String :=
  "unknown assert mode " ++ Text.quoted text

def read (text : String) : Response × Option String :=
  match parse? text with
  | some response => (response, none)
  | none => (fatal, some (unknownMessage text))

end Response

end GuardedDump
