import GuardedDump.Text.Lines
import GuardedDump.Text.Printable

namespace GuardedDump.Text

def hex : Nat → Nat → List Char
  | 0, _ => []
  | width + 1, n => hex width (n / 16) ++ [Nat.digitChar (n % 16)]

def needsBackslash (c : Char) : Bool :=
  c.toNat == 34 || c.toNat == 92

def controlLetter? (code : Nat) : Option Char :=
  match code with
  | 7 => some 'a'
  | 8 => some 'b'
  | 9 => some 't'
  | 10 => some 'n'
  | 11 => some 'v'
  | 12 => some 'f'
  | 13 => some 'r'
  | _ => none

def quotedChar (c : Char) : List Char :=
  let code := c.toNat
  if needsBackslash c then ['\\', c]
  else if isPrintable c then [c]
  else
    match controlLetter? code with
    | some letter => ['\\', letter]
    | none =>
      if Nat.blt code 0x20 || code == 0x7F then '\\' :: 'x' :: hex 2 code
      else if Nat.blt code 0x10000 then '\\' :: 'u' :: hex 4 code
      else '\\' :: 'U' :: hex 8 code

def byteQuotedChar (c : Char) : List Char :=
  if Nat.blt c.toNat 0x20 || Nat.ble 0x80 c.toNat then
    (String.utf8EncodeChar c).flatMap fun byte => '\\' :: 'x' :: hex 2 byte.toNat
  else if needsBackslash c then ['\\', c]
  else [c]

def between (shown : List Char) : String :=
  "\"" ++ String.ofList shown ++ "\""

def quoted (text : String) : String :=
  between (text.toList.flatMap quotedChar)

def byteQuoted (text : String) : String :=
  between (text.toList.flatMap byteQuotedChar)

end GuardedDump.Text
