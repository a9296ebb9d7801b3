import GuardedDump.Failure

/-!
# Violations as objects

An error is handed about, wrapped and joined with others, and the violations in it stay the same
objects: whoever refers to one sees what is written into it. `Failures.toViolation` turns an error
into a violation and writes the call site into the object, if there is none yet. `Failure` and
`Violation` are what such an error says at one moment.
-/

namespace GuardedDump

abbrev Address := Nat

/-- An error as it is handed about. It knows its violations by address. -/
inductive Complaint where
  | plain (text : String)
  | notHeld
  | wrap (context : String) (inner : Complaint)
  | join (members : List Complaint)
  | violation (address : Address)

structure Breach where
  finding : Finding
  cause : Option Complaint

namespace Complaint

mutual
/-- The violations in an error, in the order of a depth-first search that stops at each. -/
def addresses : Complaint → List Address
  | plain _ => []
  | notHeld => []
  | wrap _ inner => addresses inner
  | join members => addressesOf members
  | violation address => [address]
def addressesOf : List Complaint → List Address
  | [] => []
  | member :: more => addresses member ++ addressesOf more
end

def first? (complaint : Complaint) : Option Address :=
  complaint.addresses.head?

def Within (bound : Nat) (complaint : Complaint) : Prop :=
  ∀ address ∈ complaint.addresses, address < bound

instance (bound : Nat) (complaint : Complaint) : Decidable (complaint.Within bound) :=
  inferInstanceAs (Decidable (∀ address ∈ complaint.addresses, address < bound))

theorem Within.mono {bound further : Nat} {complaint : Complaint} (within : complaint.Within bound)
    (le : bound ≤ further) : complaint.Within further :=
  fun address member => Nat.lt_of_lt_of_le (within address member) le

mutual
def read (seen : List Violation) : Complaint → Failure
  | plain message => .plain message
  | notHeld => .notHeld
  | wrap context inner => .wrap context (read seen inner)
  | join members => .join (readAll seen members)
  | violation address => (seen[address]?.map Violation.toFailure).getD (.join [])
def readAll (seen : List Violation) : List Complaint → List Failure
  | [] => []
  | member :: more => read seen member :: readAll seen more
end

end Complaint

namespace Breach

def locate (site : String) (breach : Breach) : Breach :=
  { breach with finding := breach.finding.locate site }

def read (seen : List Violation) (breach : Breach) : Violation :=
  ⟨breach.finding, breach.cause.map (Complaint.read seen)⟩

/-- What all of them say. A cause is older than what it causes. -/
def readings (breaches : List Breach) : List Violation :=
  breaches.foldl (fun seen breach => seen ++ [breach.read seen]) []

end Breach

abbrev FailureId := Nat

structure Failures where
  breaches : List Breach
  handed : List Complaint
  older : ∀ (address : Address) (breach : Breach), breaches[address]? = some breach →
    ∀ cause ∈ breach.cause, cause.Within address
  known : ∀ complaint ∈ handed, complaint.Within breaches.length

namespace Failures

def empty : Failures where
  breaches := []
  handed := []
  older := nofun
  known := nofun

abbrev Known (failures : Failures) : Type :=
  { complaint : Complaint // complaint.Within failures.breaches.length }

def read (failures : Failures) (complaint : Complaint) : Failure :=
  complaint.read (Breach.readings failures.breaches)

def violation? (failures : Failures) (address : Address) : Option Violation :=
  (Breach.readings failures.breaches)[address]?

def complaint? (failures : Failures) (id : FailureId) : Option failures.Known :=
  if there : id < failures.handed.length then
    some ⟨failures.handed[id], failures.known _ (List.getElem_mem there)⟩
  else none

def locate (failures : Failures) (address : Address) (site : String) : Failures where
  breaches := failures.breaches.modify address (Breach.locate site)
  handed := failures.handed
  older := by
    intro other breach there
    rw [List.getElem?_modify] at there
    obtain ⟨original, before, rfl⟩ := Option.map_eq_some_iff.mp there
    split <;> exact failures.older other original before
  known := by
    rw [List.length_modify]
    exact failures.known

def add (failures : Failures) (finding : Finding) (cause : Option failures.Known) : Failures where
  breaches := failures.breaches ++ [⟨finding, cause.map Subtype.val⟩]
  handed := failures.handed
  older := by
    intro address breach there
    rcases Nat.lt_trichotomy address failures.breaches.length with old | new | beyond
    · rw [List.getElem?_append_left old] at there
      exact failures.older address breach there
    · subst new
      rw [List.getElem?_concat_length] at there
      cases there
      intro complaint member
      obtain ⟨known, -, rfl⟩ := Option.map_eq_some_iff.mp member
      exact known.property
    · rw [List.getElem?_eq_none (by rw [List.length_append]; exact beyond)] at there
      cases there
  known complaint member := by
    rw [List.length_append]
    exact (failures.known complaint member).mono (Nat.le_add_right ..)

def offer (failures : Failures) (complaint : failures.Known) : Failures where
  breaches := failures.breaches
  handed := failures.handed ++ [complaint.val]
  older := failures.older
  known other member := by
    rcases List.mem_append.mp member with before | own
    · exact failures.known other before
    · rw [List.mem_singleton.mp own]
      exact complaint.property

/-- The violation that a failed check of `self` amounts to: the first one in the error, or else a new
one. -/
def toViolation (failures : Failures) (complaint : failures.Known) (self : Thread) (site : String) :
    Address × Failures :=
  match complaint.val.first? with
  | some address => (address, failures.locate address site)
  | none => (failures.breaches.length, failures.add (.missing self site) (some complaint))

def hand (failures : Failures) (id : FailureId) (self : Thread) (site : String) :
    Option Violation × Failures :=
  match failures.complaint? id with
  | none => (none, failures)
  | some complaint =>
    let (address, after) := failures.toViolation complaint self site
    (after.violation? address, after)

end Failures

end GuardedDump
