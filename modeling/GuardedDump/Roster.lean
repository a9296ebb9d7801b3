import GuardedDump.Order
import GuardedDump.Text.Lines

namespace GuardedDump

abbrev LockId := Nat

structure Roster where
  entries : List (String × LockId)

namespace Roster

def empty : Roster := ⟨[]⟩

def size (roster : Roster) : Nat := roster.entries.length

def get? (roster : Roster) (name : String) : Option LockId :=
  (roster.entries.find? fun entry => entry.1 == name).map Prod.snd

def erase (roster : Roster) (name : String) : Roster :=
  ⟨roster.entries.filter fun entry => entry.1 != name⟩

def enroll (roster : Roster) (name : String) (id : LockId) : Roster :=
  ⟨(name, id) :: (roster.erase name).entries⟩

/-- Remove a lock, unless its name has since gone to another one. -/
def strike (roster : Roster) (name : String) (id : LockId) : Roster :=
  if roster.get? name = some id then roster.erase name else roster

def byName (a b : String × LockId) : Bool :=
  Text.bytesLe (Text.bytes a.1) (Text.bytes b.1)

def ordered (roster : Roster) : List (String × LockId) :=
  Order.sort byName roster.entries

@[simp] theorem get?_enroll_self (roster : Roster) (name : String) (id : LockId) :
    (roster.enroll name id).get? name = some id := by
  simp [get?, enroll]

theorem get?_erase_of_ne (roster : Roster) {name other : String} (different : other ≠ name) :
    (roster.erase name).get? other = roster.get? other := by
  unfold get? erase
  rw [List.find?_filter]
  congr 2
  funext entry
  by_cases same : entry.1 = other <;> simp [same, different]

@[simp] theorem get?_erase_self (roster : Roster) (name : String) :
    (roster.erase name).get? name = none := by
  simp [get?, erase]

theorem get?_enroll_of_ne (roster : Roster) {name other : String} (different : other ≠ name)
    (id : LockId) : (roster.enroll name id).get? other = roster.get? other := by
  rw [← get?_erase_of_ne roster different]
  simp [get?, enroll, Ne.symm different]

end Roster

end GuardedDump
