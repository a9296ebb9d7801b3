import GuardedDump.Hold
import GuardedDump.Order
import GuardedDump.Thread

namespace GuardedDump

structure Table where
  entries : List (Thread × Hold)

namespace Table

def empty : Table := ⟨[]⟩

def size (table : Table) : Nat := table.entries.length

def get? (table : Table) (t : Thread) : Option Hold :=
  (table.entries.find? fun entry => entry.1 == t).map Prod.snd

def contains (table : Table) (t : Thread) : Bool :=
  (table.get? t).isSome

def erase (table : Table) (t : Thread) : Table :=
  ⟨table.entries.filter fun entry => entry.1 != t⟩

def insert (table : Table) (t : Thread) (hold : Hold) : Table :=
  ⟨(t, hold) :: (table.erase t).entries⟩

def byThread (a b : Thread × Hold) : Bool :=
  Nat.ble a.1.id.toNat b.1.id.toNat

def ordered (table : Table) : List (Thread × Hold) :=
  Order.sort byThread table.entries

@[simp] theorem get?_insert_self (table : Table) (t : Thread) (hold : Hold) :
    (table.insert t hold).get? t = some hold := by
  simp [get?, insert]

theorem get?_erase_of_ne (table : Table) {t u : Thread} (different : u ≠ t) :
    (table.erase t).get? u = table.get? u := by
  unfold get? erase
  rw [List.find?_filter]
  congr 2
  funext entry
  by_cases same : entry.1 = u <;> simp [same, different]

@[simp] theorem get?_erase_self (table : Table) (t : Thread) : (table.erase t).get? t = none := by
  simp [get?, erase]

theorem get?_insert_of_ne (table : Table) {t u : Thread} (different : u ≠ t) (hold : Hold) :
    (table.insert t hold).get? u = table.get? u := by
  rw [← get?_erase_of_ne table different]
  simp [get?, insert, Ne.symm different]

end Table

end GuardedDump
