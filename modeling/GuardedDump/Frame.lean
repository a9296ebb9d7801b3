import GuardedDump.Text.Lines
import GuardedDump.Text.Numeral

namespace GuardedDump

structure Frame where
  function : String
  file : String
  line : Nat
  deriving DecidableEq

namespace Frame

def internalStarts : List String :=
  ["runtime.", "testing.", "fmt.", "log.", "github.com/christophcemper/lockeddump."]

def isInternal (frame : Frame) : Bool :=
  !Text.endsWith frame.file "_test.go" && internalStarts.any (Text.startsWith frame.function)

def isApplication (frame : Frame) : Bool :=
  !frame.function.isEmpty && !frame.isInternal

def window : Nat := 32

def blank : Frame := ⟨"", "", 0⟩

def note (found : List Frame) (frame : Frame) : List Frame :=
  if frame.isApplication then found ++ [frame] else found

/-- Walk outward until `limit` application frames are found or no frame is left behind the one that
was looked at. Even of an empty stack one frame is looked at, a blank one. -/
def walk (limit : Nat) (found : List Frame) : List Frame → List Frame
  | [] => if found.length < limit then note found blank else found
  | frame :: ahead =>
    if found.length < limit then
      if ahead.isEmpty then note found frame else walk limit (note found frame) ahead
    else found

def collect (limit : Nat) (frames : List Frame) : List Frame :=
  walk limit [] frames

def nearest (limit : Int) (stack : List Frame) : List Frame :=
  collect limit.toNat (stack.take window)

def place (frame : Frame) : String :=
  frame.file ++ ":" ++ Numeral.ofNat frame.line

def shortName (frame : Frame) : String :=
  String.ofList (Text.afterLast '/' frame.function.toList)

def entry (frame : Frame) : String :=
  frame.shortName ++ "\n\t" ++ frame.place

def nowhere : String := "unknown"

def entries : List Frame → String
  | [] => ""
  | [frame] => frame.entry
  | frame :: next :: more => frame.entry ++ "\n" ++ entries (next :: more)

/-- The three nearest application frames, recorded with a hold. -/
def origin (stack : List Frame) : String :=
  match nearest 3 stack with
  | [] => nowhere
  | frames => entries frames

def callSite (stack : List Frame) : String :=
  match nearest 1 stack with
  | [] => nowhere
  | frame :: _ => frame.place

end Frame

end GuardedDump
