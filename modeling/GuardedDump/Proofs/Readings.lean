import GuardedDump.Failures
import Mathlib.Data.List.Induction

namespace GuardedDump

namespace Failure

mutual
def first? : Failure → Option Violation
  | plain _ => none
  | notHeld => none
  | wrap _ inner => first? inner
  | join members => firstOf? members
  | violation finding cause => some ⟨finding, cause⟩
def firstOf? : List Failure → Option Violation
  | [] => none
  | member :: more =>
    match first? member with
    | some v => some v
    | none => firstOf? more
end

end Failure

def Violation.locate (site : String) (v : Violation) : Violation :=
  { v with finding := v.finding.locate site }

def Failure.toViolation (failure : Failure) (self : Thread) (site : String) : Violation :=
  match failure.first? with
  | some v => v.locate site
  | none => ⟨.missing self site, some failure⟩

namespace Complaint

variable {seen other : List Violation}

mutual
theorem read_congr {complaint : Complaint}
    (same : ∀ address ∈ complaint.addresses, seen[address]? = other[address]?) :
    complaint.read seen = complaint.read other := by
  cases complaint with
  | plain | notHeld => rfl
  | wrap context inner => exact congrArg (Failure.wrap context) (read_congr same)
  | join members => exact congrArg Failure.join (readAll_congr same)
  | violation address => simp only [read, same address (List.mem_singleton_self address)]
theorem readAll_congr {members : List Complaint}
    (same : ∀ address ∈ addressesOf members, seen[address]? = other[address]?) :
    readAll seen members = readAll other members := by
  cases members with
  | nil => rfl
  | cons member more =>
      have here : member.read seen = member.read other :=
        read_congr fun address member => same address (List.mem_append_left _ member)
      have there : readAll seen more = readAll other more :=
        readAll_congr fun address member => same address (List.mem_append_right _ member)
      exact congrArg₂ List.cons here there
end

mutual
theorem first?_read {complaint : Complaint} (within : complaint.Within seen.length) :
    (complaint.read seen).first? = complaint.first?.bind fun address => seen[address]? := by
  cases complaint with
  | plain | notHeld => rfl
  | wrap context inner =>
      have below := first?_read (show inner.Within seen.length from within)
      exact below
  | join members => exact firstOf?_readAll within
  | violation address =>
      have there := List.getElem?_eq_getElem (within address (List.mem_singleton_self address))
      simp [read, first?, addresses, there, Violation.toFailure, Failure.first?]
theorem firstOf?_readAll {members : List Complaint}
    (within : ∀ address ∈ addressesOf members, address < seen.length) :
    Failure.firstOf? (readAll seen members) =
      (addressesOf members).head?.bind fun address => seen[address]? := by
  cases members with
  | nil => rfl
  | cons member more =>
      have here : (member.read seen).first? = member.first?.bind fun address => seen[address]? :=
        first?_read fun address member => within address (List.mem_append_left _ member)
      have there := firstOf?_readAll
        fun address (member : address ∈ addressesOf more) =>
          within address (List.mem_append_right _ member)
      simp only [readAll, Failure.firstOf?, addressesOf, List.head?_append, here, there]
      cases found : member.first? with
      | none =>
          rw [show member.addresses.head? = none from found]
          rfl
      | some address =>
          have first : member.addresses.head? = some address := found
          have inside := within address (List.mem_append_left _ (List.mem_of_head? first))
          simp [first, List.getElem?_eq_getElem inside]
end

end Complaint

namespace Breach

theorem readings_concat (breaches : List Breach) (breach : Breach) :
    readings (breaches ++ [breach]) = readings breaches ++ [breach.read (readings breaches)] := by
  simp [readings]

@[simp] theorem length_readings (breaches : List Breach) :
    (readings breaches).length = breaches.length := by
  induction breaches using List.reverseRecOn with
  | nil => rfl
  | append_singleton breaches breach ih => simp [readings_concat, ih]

theorem getElem?_readings (breaches : List Breach) (address : Address) :
    (readings breaches)[address]? =
      breaches[address]?.map (read (readings (breaches.take address))) := by
  induction breaches using List.reverseRecOn with
  | nil => rfl
  | append_singleton breaches breach ih =>
      rw [readings_concat]
      rcases Nat.lt_trichotomy address breaches.length with old | rfl | beyond
      · rw [List.getElem?_append_left (by simpa using old), List.getElem?_append_left old,
          List.take_append_of_le_length (Nat.le_of_lt old), ih]
      · rw [← length_readings, List.getElem?_concat_length, length_readings,
          List.getElem?_concat_length, List.take_left]
        rfl
      · have none (items : List Violation) (last : Violation)
            (short : items.length = breaches.length) : (items ++ [last])[address]? = none :=
          List.getElem?_eq_none (by rw [List.length_append, short]; exact beyond)
        rw [none _ _ (length_readings _), List.getElem?_eq_none (by
          rw [List.length_append]
          exact beyond)]
        rfl

/-- Later violations do not change what earlier ones say. -/
theorem getElem?_readings_take (breaches : List Breach) {address bound : Address}
    (earlier : address < bound) :
    (readings (breaches.take bound))[address]? = (readings breaches)[address]? := by
  rw [getElem?_readings, getElem?_readings, List.getElem?_take_of_lt earlier, List.take_take,
    Nat.min_eq_left (Nat.le_of_lt earlier)]

end Breach

namespace Failures

variable (failures : Failures)

theorem violation?_eq (address : Address) : failures.violation? address =
    failures.breaches[address]?.map (Breach.read (Breach.readings failures.breaches)) := by
  rw [violation?, Breach.getElem?_readings]
  cases there : failures.breaches[address]? with
  | none => rfl
  | some breach =>
      obtain ⟨finding, cause⟩ := breach
      have older := failures.older address _ there
      cases cause with
      | none => rfl
      | some cause =>
          simp only [Option.map_some, Breach.read]
          rw [Complaint.read_congr fun other member =>
            Breach.getElem?_readings_take _ (older cause rfl other member)]

theorem violation?_locate (address : Address) (site : String) :
    (failures.locate address site).violation? address =
      (failures.violation? address).map (Violation.locate site) := by
  have before : (failures.breaches.modify address (Breach.locate site)).take address =
      failures.breaches.take address := by
    rw [List.take_modify, List.modify_eq_self (List.length_take_le ..)]
  rw [violation?, violation?, Breach.getElem?_readings, Breach.getElem?_readings, locate, before,
    List.getElem?_modify_eq]
  cases failures.breaches[address]? <;> rfl

theorem violation?_add (finding : Finding) (cause : failures.Known) :
    (failures.add finding (some cause)).violation? failures.breaches.length =
      some ⟨finding, some (failures.read cause.val)⟩ := by
  have last := List.getElem?_concat_length (l := Breach.readings failures.breaches)
    (a := ⟨finding, some (failures.read cause.val)⟩)
  rw [Breach.length_readings] at last
  rw [violation?, add, Breach.readings_concat]
  exact last

theorem first?_read (complaint : failures.Known) : (failures.read complaint.val).first? =
    complaint.val.first?.bind failures.violation? :=
  Complaint.first?_read (by simpa using complaint.property)

theorem violation?_toViolation (complaint : failures.Known) (self : Thread) (site : String) :
    (failures.toViolation complaint self site).2.violation?
        (failures.toViolation complaint self site).1 =
      some ((failures.read complaint.val).toViolation self site) := by
  have search := failures.first?_read complaint
  unfold toViolation Failure.toViolation
  cases found : complaint.val.first? with
  | none =>
      rw [found] at search
      rw [search]
      exact failures.violation?_add ..
  | some address =>
      have inside := complaint.property address (List.mem_of_head? found)
      have located := failures.violation?_locate address site
      rw [found, Option.bind_some] at search
      rw [search]
      rw [violation?_eq failures, List.getElem?_eq_getElem inside] at located ⊢
      exact located

def failure? (id : FailureId) : Option Failure :=
  failures.handed[id]?.map failures.read

theorem complaint?_val (id : FailureId) :
    (failures.complaint? id).map Subtype.val = failures.handed[id]? := by
  unfold complaint?
  split
  case isTrue there => exact (List.getElem?_eq_getElem there).symm
  case isFalse missing => exact (List.getElem?_eq_none (Nat.le_of_not_lt missing)).symm

theorem failure?_eq (id : FailureId) :
    failures.failure? id =
      (failures.complaint? id).map fun complaint => failures.read complaint.val := by
  rw [failure?, ← complaint?_val, Option.map_map]
  rfl

def origin? (id : FailureId) : Option Address :=
  failures.handed[id]?.bind Complaint.first?

theorem origin?_eq (id : FailureId) : failures.origin? id =
    (failures.complaint? id).bind fun complaint => complaint.val.first? := by
  rw [origin?, ← complaint?_val]
  cases failures.complaint? id <;> rfl

theorem first?_of_failure? {failures : Failures} {id : FailureId} {failure : Failure}
    (told : failures.failure? id = some failure) :
    failure.first? = (failures.origin? id).bind failures.violation? := by
  rw [failure?_eq] at told
  obtain ⟨complaint, found, rfl⟩ := Option.map_eq_some_iff.mp told
  rw [failures.first?_read, origin?_eq, found]
  rfl

theorem hand_eq (id : FailureId) (self : Thread) (site : String) :
    (failures.hand id self site).1 =
      (failures.failure? id).map fun failure => failure.toViolation self site := by
  rw [failure?_eq]
  unfold hand
  cases failures.complaint? id with
  | none => rfl
  | some complaint => exact failures.violation?_toViolation ..

theorem hand_of_none {failures : Failures} {id : FailureId} (missing : failures.failure? id = none)
    (self : Thread) (site : String) : failures.hand id self site = (none, failures) := by
  rw [failure?_eq, Option.map_eq_none_iff] at missing
  unfold hand
  rw [missing]

@[simp] theorem handed_hand (id : FailureId) (self : Thread) (site : String) :
    (failures.hand id self site).2.handed = failures.handed := by
  unfold hand
  cases failures.complaint? id with
  | none => rfl
  | some complaint =>
      simp only [toViolation]
      split <;> rfl

end Failures

end GuardedDump
