import GuardedDump.Duration.Basic
import GuardedDump.Mode
import GuardedDump.Text.Blank
import GuardedDump.Text.Lines

namespace GuardedDump

structure Hold where
  mode : Mode
  purpose : String
  acquiredAt : Instant
  origin : String
  /-- How often the thread has entered and not yet left. It has no bound here. -/
  count : Int
  deriving DecidableEq

namespace Hold

def age (hold : Hold) (now : Instant) : Duration :=
  .between hold.acquiredAt now

def place (hold : Hold) : String :=
  match Text.pieces '\n' hold.origin.toList with
  | name :: place :: _ =>
    String.ofList name ++ " " ++ String.ofList (Text.trimChars place)
  | _ => hold.origin

def text (hold : Hold) : String :=
  hold.mode.label ++ " x" ++ Numeral.ofInt hold.count ++ " for '" ++ hold.purpose ++ "' " ++ hold.place

end Hold

end GuardedDump
