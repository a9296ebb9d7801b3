import GuardedDump.Text.Lines
import GuardedDump.Text.Numeral

namespace GuardedDump

structure Thread where
  id : UInt64
  deriving DecidableEq

namespace Thread

def unknown : Thread := ⟨0⟩

def isKnown (t : Thread) : Bool :=
  t.id.toNat != 0

theorem isKnown_eq_false_iff (t : Thread) : t.isKnown = false ↔ t = unknown := by
  obtain ⟨id⟩ := t
  simp [isKnown, unknown, ← UInt64.toNat_inj]

def label (t : Thread) : String :=
  if t.isKnown then "goroutine " ++ Numeral.ofNat t.id.toNat else "unknown goroutine"

def headerStart : List UInt8 :=
  Text.bytes "goroutine "

/-- The number before the first blank, if there is one and it fits. -/
def ofNumber (text : List UInt8) : Thread :=
  let number := text.takeWhile fun byte => byte.toNat != 32
  if number.length = text.length then unknown
  else
    match Numeral.readNat 0xFFFFFFFFFFFFFFFF (number.map UInt8.toNat) with
    | .error _ => unknown
    | .ok n => ⟨UInt64.ofNat n⟩

def ofHeader (header : List UInt8) : Thread :=
  if headerStart.isPrefixOf header then ofNumber (header.drop headerStart.length) else unknown

def captured : Nat := 64

def ofTrace (trace : List UInt8) : Thread :=
  ofHeader (trace.take captured)

end Thread

end GuardedDump
