namespace GuardedDump.Text

def pieces (separator : Char) : List Char → List (List Char)
  | [] => [[]]
  | c :: rest =>
    if c = separator then [] :: pieces separator rest
    else
      match pieces separator rest with
      | [] => [[c]]
      | piece :: more => (c :: piece) :: more

def join (separator : Char) : List (List Char) → List Char
  | [] => []
  | [piece] => piece
  | piece :: next :: more => piece ++ separator :: join separator (next :: more)

def afterLast (separator : Char) (text : List Char) : List Char :=
  (pieces separator text).getLast?.getD []

/-- `needle` is a contiguous part of the text. -/
def occursIn (needle : List Char) : List Char → Bool
  | [] => needle.isEmpty
  | c :: rest => needle.isPrefixOf (c :: rest) || occursIn needle rest

def contains (text needle : String) : Bool :=
  occursIn needle.toList text.toList

def startsWith (text start : String) : Bool :=
  start.toList.isPrefixOf text.toList

def endsWith (text ending : String) : Bool :=
  ending.toList.isSuffixOf text.toList

def bytes (text : String) : List UInt8 :=
  text.toList.flatMap String.utf8EncodeChar

def bytesLe : List UInt8 → List UInt8 → Bool
  | [], _ => true
  | _ :: _, [] => false
  | a :: left, b :: right =>
    if a.toNat = b.toNat then bytesLe left right else Nat.blt a.toNat b.toNat

end GuardedDump.Text
