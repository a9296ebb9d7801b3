namespace GuardedDump.Text

/-- Characters with the `White_Space` property. -/
def isBlank (c : Char) : Bool :=
  let code := c.toNat
  (Nat.ble 9 code && Nat.ble code 13) || code == 0x20 || code == 0x85 || code == 0xA0 ||
    code == 0x1680 || (Nat.ble 0x2000 code && Nat.ble code 0x200A) || code == 0x2028 ||
    code == 0x2029 || code == 0x202F || code == 0x205F || code == 0x3000

def trimChars (text : List Char) : List Char :=
  ((text.dropWhile isBlank).reverse.dropWhile isBlank).reverse

end GuardedDump.Text
