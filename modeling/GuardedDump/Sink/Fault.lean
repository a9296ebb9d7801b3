import GuardedDump.Sink

namespace GuardedDump.Sink

structure FaultPlan where
  failOn : List Nat := []
  short : Nat := 0
  message : String := ""
  capacity : Option Nat := none
  cutAt : Option Nat := none

namespace FaultPlan

/-- Bytes that still fit when a payload is too large; nothing if all of it fits. -/
def room? (plan : FaultPlan) (stored size : Nat) : Option Nat :=
  match plan.capacity with
  | none => none
  | some capacity => if Nat.blt capacity (stored + size) then some (capacity - stored) else none

def kept (plan : FaultPlan) (size : Nat) : Nat :=
  match plan.cutAt with
  | none => size
  | some bound => if Nat.blt bound size then bound else size

def receipt (plan : FaultPlan) (call stored size : Nat) : Receipt :=
  if plan.failOn.contains call then
    ⟨if Nat.ble size plan.short then size else plan.short, some (.plain plan.message)⟩
  else
    match plan.room? stored size with
    | some room => ⟨room, some (.plain plan.message)⟩
    | none => ⟨plan.kept size, none⟩

def sink (plan : FaultPlan) : Sink :=
  ⟨fun call stored payload => plan.receipt call stored.length payload.length, [], 0⟩

end FaultPlan

end GuardedDump.Sink
