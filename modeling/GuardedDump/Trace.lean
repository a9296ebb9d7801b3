import GuardedDump.Text.Lines

/-!
# Stack traces

A trace is pruned line by line: lines that mention the machinery are dropped, unless they mention a
test file. The lines that stay are gathered in the row that they are read from.
-/

namespace GuardedDump.Trace

def hiddenMarks : List String :=
  ["runtime/", "runtime.", "testing/", "testing.", "lockeddump.", "debug.Stack", "debug/stack"]

def keepsLine (line : List Char) : Bool :=
  Text.occursIn "_test.go".toList line ||
    hiddenMarks.all fun mark => !Text.occursIn mark.toList line

def keeps (line : String) : Bool :=
  keepsLine line.toList

/-- Lines that are sifted in place: those kept so far are in the first `kept` of the cells that all
lines were in. -/
structure Sieve where
  cells : Array (List Char)
  kept : Nat

namespace Sieve

def keep (sieve : Sieve) (line : List Char) : Sieve :=
  ⟨sieve.cells.setIfInBounds sieve.kept line, sieve.kept + 1⟩

def read (sieve : Sieve) (cell : Nat) : Sieve :=
  match sieve.cells[cell]? with
  | none => sieve
  | some line => if keepsLine line then sieve.keep line else sieve

def after (lines : List (List Char)) : Nat → Sieve
  | 0 => ⟨lines.toArray, 0⟩
  | count + 1 => (after lines count).read count

def result (sieve : Sieve) : List (List Char) :=
  sieve.cells.toList.take sieve.kept

end Sieve

def sift (lines : List (List Char)) : List (List Char) :=
  (Sieve.after lines lines.length).result

def pruneChars (trace : List Char) : List Char :=
  Text.join '\n' (sift (Text.pieces '\n' trace))

def prune (trace : String) : String :=
  String.ofList (pruneChars trace.toList)

end GuardedDump.Trace
