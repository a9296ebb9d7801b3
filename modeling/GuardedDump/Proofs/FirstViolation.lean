import GuardedDump.Proofs.CallSites

/-!
# The first violation of an error

The parts of an error have positions: the numbers of the children taken on the way down, where the
cause of a violation is its child. The lexicographic order of positions is the order of a search in
depth. `Failures.toViolation` takes the violation at the least position that has one and writes into
this object alone; it shows wherever the object occurs (`Failures.toViolation_takes_first`).
-/

namespace GuardedDump

theorem Finding.text_locate (finding : Finding) (site : String) :
    (finding.locate site).text = finding.text := by
  unfold locate
  split <;> rfl

namespace Failures

def children (failures : Failures) : Complaint → List Complaint
  | .plain _ => []
  | .notHeld => []
  | .wrap _ inner => [inner]
  | .join members => members
  | .violation address => (failures.breaches[address]?.bind Breach.cause).toList

def at? (failures : Failures) (complaint : Complaint) : List Nat → Option Complaint
  | [] => some complaint
  | number :: path =>
    (failures.children complaint)[number]?.bind fun child => failures.at? child path

def FirstAt (failures : Failures) (complaint : Complaint) (path : List Nat) (address : Address) :
    Prop :=
  failures.at? complaint path = some (.violation address) ∧
    ∀ earlier < path, ∀ other, failures.at? complaint earlier ≠ some (.violation other)

end Failures

namespace Complaint

inductive Search : Complaint → List Nat → Address → Prop where
  | here (address : Address) : Search (violation address) [] address
  | wrap {context : String} {inner : Complaint} {path : List Nat} {address : Address}
      (inside : Search inner path address) : Search (wrap context inner) (0 :: path) address
  | join {skipped more : List Complaint} {member : Complaint} {path : List Nat} {address : Address}
      (none : ∀ other ∈ skipped, other.addresses = []) (inside : Search member path address) :
      Search (join (skipped ++ member :: more)) (skipped.length :: path) address

mutual
theorem exists_search {complaint : Complaint} {address : Address}
    (found : complaint.first? = some address) : ∃ path, Search complaint path address := by
  cases complaint with
  | plain | notHeld => cases found
  | wrap context inner =>
      obtain ⟨path, inside⟩ := exists_search (show inner.first? = some address from found)
      exact ⟨0 :: path, .wrap inside⟩
  | join members =>
      obtain ⟨skipped, member, more, path, rfl, none, inside⟩ := exists_searchOf found
      exact ⟨skipped.length :: path, .join none inside⟩
  | violation =>
      cases found
      exact ⟨[], .here address⟩
theorem exists_searchOf {members : List Complaint} {address : Address}
    (found : (addressesOf members).head? = some address) :
    ∃ skipped member more path, members = skipped ++ member :: more ∧
      (∀ other ∈ skipped, other.addresses = []) ∧ Search member path address := by
  cases members with
  | nil => cases found
  | cons member more =>
      rw [addressesOf, List.head?_append] at found
      cases first : member.addresses.head? with
      | some own =>
          rw [first] at found
          cases found
          obtain ⟨path, inside⟩ := exists_search (show member.first? = some address from first)
          exact ⟨[], member, more, path, rfl, nofun, inside⟩
      | none =>
          rw [first, Option.none_or] at found
          obtain ⟨skipped, next, rest, path, rfl, none, inside⟩ := exists_searchOf found
          refine ⟨member :: skipped, next, rest, path, rfl, ?_, inside⟩
          exact List.forall_mem_cons.mpr ⟨List.head?_eq_none_iff.mp first, none⟩
end

theorem addressesOf_eq_flatMap (members : List Complaint) :
    addressesOf members = members.flatMap addresses := by
  induction members with
  | nil => rfl
  | cons member more ih => rw [addressesOf, ih, List.flatMap_cons]

end Complaint

namespace Failures

open Complaint (Search)

variable {failures : Failures} {complaint child : Complaint} {path : List Nat} {address : Address}

theorem addresses_child (none : complaint.addresses = [])
    (member : child ∈ failures.children complaint) : child.addresses = [] := by
  cases complaint with
  | plain | notHeld => cases member
  | wrap context inner =>
      rw [List.mem_singleton.mp member]
      exact none
  | join members =>
      rw [Complaint.addresses, Complaint.addressesOf_eq_flatMap, List.flatMap_eq_nil_iff] at none
      exact none child member
  | violation => cases none

theorem within_child {bound : Nat} (known : complaint.Within bound)
    (member : child ∈ failures.children complaint) : child.Within bound := by
  cases complaint with
  | plain | notHeld => cases member
  | wrap context inner => exact List.mem_singleton.mp member ▸ known
  | join members =>
      intro address inside
      refine known address ?_
      rw [Complaint.addresses, Complaint.addressesOf_eq_flatMap]
      exact List.mem_flatMap.mpr ⟨child, member, inside⟩
  | violation address =>
      have old := known address (List.mem_singleton_self address)
      obtain ⟨breach, there, cause⟩ := Option.bind_eq_some_iff.mp (Option.mem_toList.mp member)
      exact (failures.older address breach there child cause).mono (Nat.le_of_lt old)

theorem no_violation (none : complaint.addresses = []) (path : List Nat) (address : Address) :
    failures.at? complaint path ≠ some (.violation address) := by
  induction path generalizing complaint with
  | nil =>
      intro same
      cases same
      cases none
  | cons number path ih =>
      intro there
      obtain ⟨child, taken, below⟩ := Option.bind_eq_some_iff.mp there
      exact ih (addresses_child none (List.mem_of_getElem? taken)) below

theorem at?_search (search : Search complaint path address) :
    failures.at? complaint path = some (.violation address) := by
  induction search with
  | here => rfl
  | wrap inside ih => exact ih
  | join none inside ih => simpa [at?, children] using ih

theorem earliest (search : Search complaint path address) {earlier : List Nat}
    (before : earlier < path) (other : Address) :
    failures.at? complaint earlier ≠ some (.violation other) := by
  induction search generalizing earlier with
  | here => exact absurd before (List.not_lt_nil _)
  | wrap inside ih =>
      cases earlier with
      | nil => nofun
      | cons number rest =>
          rcases List.cons_lt_cons_iff.mp before with less | ⟨rfl, less⟩
          · exact absurd less (Nat.not_lt_zero number)
          · exact ih less
  | @join skipped more member path address none inside ih =>
      cases earlier with
      | nil => nofun
      | cons number rest =>
          rcases List.cons_lt_cons_iff.mp before with less | ⟨rfl, less⟩
          · -- A member that the search has passed by.
            have skip : failures.at? skipped[number] rest ≠ some (.violation other) :=
              no_violation (none _ (List.getElem_mem less)) rest other
            simpa [at?, children, List.getElem?_append_left less, less] using skip
          · simpa [at?, children] using ih less

theorem firstAt (search : Search complaint path address) :
    failures.FirstAt complaint path address :=
  ⟨at?_search search, fun _ before => earliest search before⟩

end Failures

theorem Failure.texts_congr {members others : List Failure}
    (same : members.map text = others.map text) : texts members = texts others := by
  induction members generalizing others with
  | nil =>
      rw [List.map_nil, eq_comm, List.map_eq_nil_iff] at same
      rw [same]
  | cons member more ih =>
      cases others with
      | nil => cases same
      | cons other rest =>
          obtain ⟨head, tail⟩ := List.cons.inj same
          cases more with
          | nil =>
              rw [List.map_nil, eq_comm, List.map_eq_nil_iff] at tail
              rw [tail]
              exact head
          | cons =>
              cases rest with
              | nil => cases tail
              | cons => simp only [texts, head, ih tail]

namespace Complaint

variable {seen other : List Violation}

mutual
theorem text_read {complaint : Complaint} (same : ∀ address ∈ complaint.addresses,
      seen[address]?.map Violation.text = other[address]?.map Violation.text) :
    (complaint.read seen).text = (complaint.read other).text := by
  cases complaint with
  | plain | notHeld => rfl
  | wrap context inner => exact congrArg (context ++ ": " ++ ·) (text_read same)
  | join members => exact Failure.texts_congr (texts_readAll same)
  | violation address =>
      have own := same address (List.mem_singleton_self address)
      simp only [read]
      cases first : seen[address]? <;> cases second : other[address]? <;>
        simp_all [Violation.text]
theorem texts_readAll {members : List Complaint} (same : ∀ address ∈ addressesOf members,
      seen[address]?.map Violation.text = other[address]?.map Violation.text) :
    (readAll seen members).map Failure.text = (readAll other members).map Failure.text := by
  cases members with
  | nil => rfl
  | cons member more =>
      have here : (member.read seen).text = (member.read other).text :=
        text_read fun address inside => same address (List.mem_append_left _ inside)
      have there : (readAll seen more).map Failure.text = (readAll other more).map Failure.text :=
        texts_readAll fun address inside => same address (List.mem_append_right _ inside)
      exact congrArg₂ List.cons here there
end

end Complaint

theorem Failure.anyNotHeld_iff {members : List Failure} :
    anyNotHeld members = true ↔ ∃ member ∈ members, member.isNotHeld = true := by
  induction members with
  | nil => simp [anyNotHeld]
  | cons member more ih => simp [anyNotHeld, ih]

theorem Complaint.readAll_eq_map (seen : List Violation) (members : List Complaint) :
    readAll seen members = members.map (read seen) := by
  induction members with
  | nil => rfl
  | cons member more ih => rw [readAll, ih, List.map_cons]

namespace Failures

mutual
theorem exists_at? (failures : Failures) {seen : List Violation} {complaint : Complaint}
    (said : (complaint.read seen).isNotHeld = true) : ∃ path part,
      failures.at? complaint path = some part ∧
        (part = .notHeld ∨ ∃ address, part = .violation address) := by
  cases complaint with
  | plain => cases said
  | notHeld => exact ⟨[], _, rfl, .inl rfl⟩
  | wrap context inner =>
      obtain ⟨path, part, there, speaks⟩ :=
        failures.exists_at? (show (inner.read seen).isNotHeld = true from said)
      exact ⟨0 :: path, part, there, speaks⟩
  | join members =>
      obtain ⟨number, member, path, part, taken, there, speaks⟩ := failures.exists_at?_of_any said
      refine ⟨number :: path, part, ?_, speaks⟩
      simp only [at?, children, taken, Option.bind_some, there]
  | violation address => exact ⟨[], _, rfl, .inr ⟨address, rfl⟩⟩
theorem exists_at?_of_any (failures : Failures) {seen : List Violation} {members : List Complaint}
    (said : Failure.anyNotHeld (Complaint.readAll seen members) = true) :
    ∃ (number : Nat) (member : Complaint) (path : List Nat) (part : Complaint),
      members[number]? = some member ∧ failures.at? member path = some part ∧
        (part = .notHeld ∨ ∃ address, part = .violation address) := by
  cases members with
  | nil => cases said
  | cons member more =>
      rw [Complaint.readAll, Failure.anyNotHeld, Bool.or_eq_true] at said
      rcases said with here | there
      · obtain ⟨path, part, below, speaks⟩ := failures.exists_at? here
        exact ⟨0, member, path, part, rfl, below, speaks⟩
      · obtain ⟨number, other, path, part, taken, below, speaks⟩ :=
          failures.exists_at?_of_any there
        exact ⟨number + 1, other, path, part, taken, below, speaks⟩
end

variable {failures : Failures}

theorem isNotHeld_violation {address : Address} (old : address < failures.breaches.length) :
    (failures.read (.violation address)).isNotHeld = true := by
  rw [read, Complaint.read, List.getElem?_eq_getElem (by simpa using old)]
  rfl

theorem isNotHeld_of_child {complaint child : Complaint}
    (known : complaint.Within failures.breaches.length)
    (member : child ∈ failures.children complaint)
    (said : (failures.read child).isNotHeld = true) :
    (failures.read complaint).isNotHeld = true := by
  cases complaint with
  | plain | notHeld => cases member
  | wrap context inner =>
      cases List.mem_singleton.mp member
      exact said
  | join members =>
      rw [read, Complaint.read, Failure.isNotHeld, Failure.anyNotHeld_iff,
        Complaint.readAll_eq_map]
      exact ⟨_, List.mem_map_of_mem member, said⟩
  | violation address => exact isNotHeld_violation (known address (List.mem_singleton_self address))

theorem isNotHeld_iff (other : failures.Known) :
    (failures.read other.val).isNotHeld = true ↔ ∃ path part,
      failures.at? other.val path = some part ∧
        (part = .notHeld ∨ ∃ address, part = .violation address) := by
  constructor
  · exact fun said => failures.exists_at? said
  · rintro ⟨path, part, there, speaks⟩
    obtain ⟨complaint, known⟩ := other
    induction path generalizing complaint with
    | nil =>
        cases there
        rcases speaks with rfl | ⟨address, rfl⟩
        · rfl
        · exact isNotHeld_violation (known address (List.mem_singleton_self address))
    | cons number path ih =>
        obtain ⟨child, taken, below⟩ := Option.bind_eq_some_iff.mp there
        have member := List.mem_of_getElem? taken
        exact isNotHeld_of_child known member
          (ih child (within_child known member) below)

/-- The violations of before are there afterwards, and at most their call sites have changed. -/
def Keeps (failures after : Failures) : Prop :=
  ∀ address < failures.breaches.length, ∃ before later, failures.breaches[address]? = some before ∧
    after.breaches[address]? = some later ∧ later.cause = before.cause ∧
    later.finding.text = before.finding.text

variable {after : Failures}

theorem Keeps.length_le (keeps : failures.Keeps after) :
    failures.breaches.length ≤ after.breaches.length := by
  by_contra longer
  obtain ⟨-, later, -, there, -⟩ := keeps after.breaches.length (Nat.lt_of_not_le longer)
  rw [List.getElem?_eq_none (Nat.le_refl _)] at there
  cases there

theorem Keeps.at? (keeps : failures.Keeps after) {complaint : Complaint}
    (known : complaint.Within failures.breaches.length) (path : List Nat) :
    after.at? complaint path = failures.at? complaint path := by
  induction path generalizing complaint with
  | nil => rfl
  | cons number path ih =>
      have same : after.children complaint = failures.children complaint := by
        cases complaint with
        | violation address =>
            obtain ⟨before, later, there, now, cause, -⟩ :=
              keeps address (known address (List.mem_singleton_self address))
            simp only [children, there, now, Option.bind_some, cause]
        | _ => rfl
      simp only [Failures.at?, same]
      cases taken : (failures.children complaint)[number]? with
      | none => rfl
      | some child =>
          exact ih (within_child known (List.mem_of_getElem? taken))

theorem Keeps.text_violation? (keeps : failures.Keeps after) (address : Address)
    (old : address < failures.breaches.length) :
    (after.violation? address).map Violation.text =
      (failures.violation? address).map Violation.text := by
  induction address using Nat.strongRecOn with
  | ind address ih =>
      obtain ⟨before, later, there, now, cause, text⟩ := keeps address old
      rw [violation?_eq, violation?_eq, there, now]
      simp only [Option.map_some, Option.some.injEq, Breach.read, cause, Violation.text,
        Violation.toFailure]
      cases found : before.cause with
      | none => exact text
      | some complaint =>
          have older := failures.older address before there complaint found
          have same : (after.read complaint).text = (failures.read complaint).text :=
            Complaint.text_read fun earlier member =>
              ih earlier (older earlier member) (Nat.lt_trans (older earlier member) old)
          exact congrArg₂ (fun own behind => own ++ ": " ++ behind) text same

theorem Keeps.text (keeps : failures.Keeps after) (other : failures.Known) :
    (after.read other.val).text = (failures.read other.val).text :=
  Complaint.text_read fun address member =>
    keeps.text_violation? address (other.property address member)

theorem Keeps.isNotHeld (keeps : failures.Keeps after) (other : failures.Known) :
    (after.read other.val).isNotHeld = (failures.read other.val).isNotHeld := by
  have later := isNotHeld_iff ⟨other.val, other.property.mono keeps.length_le⟩
  simp only [keeps.at? other.property] at later
  rw [Bool.eq_iff_iff, later, isNotHeld_iff other]

theorem keeps_locate (failures : Failures) (address : Address) (site : String) :
    failures.Keeps (failures.locate address site) := by
  intro other old
  have there := List.getElem?_eq_getElem old
  refine ⟨_, _, there, by rw [locate, List.getElem?_modify, there]; rfl, ?_, ?_⟩
  · split <;> rfl
  · split
    · exact Finding.text_locate ..
    · rfl

theorem keeps_add (failures : Failures) (finding : Finding) (cause : Option failures.Known) :
    failures.Keeps (failures.add finding cause) := by
  intro other old
  exact ⟨_, _, List.getElem?_eq_getElem old, by
    rw [add, List.getElem?_append_left old, List.getElem?_eq_getElem old], rfl, rfl⟩

/-- What an error becomes as a violation at `site`: the violation at `address`, among what the
violations are `after` that. -/
structure Becomes (failures : Failures) (error : failures.Known) (self : Thread) (site : String)
    (address : Address) (after : Failures) : Prop where
  origin :
    (∃ path breach, failures.FirstAt error.val path address ∧
      failures.breaches[address]? = some breach ∧
      after.breaches = failures.breaches.set address { breach with finding := { breach.finding with
        caller := if breach.finding.caller = "" then site else breach.finding.caller } }) ∨
    (∀ path other, failures.at? error.val path ≠ some (.violation other)) ∧
      address = failures.breaches.length ∧
      after.breaches = failures.breaches ++
        [⟨⟨"mutator lock", self, .shared, false, .shared, site⟩, some error.val⟩]
  handed : after.handed = failures.handed
  placed : ∃ breach, after.breaches[address]? = some breach ∧ breach.finding.caller ≠ ""
  parts : ∀ path, after.at? error.val path = failures.at? error.val path
  text : ∀ other : failures.Known, (after.read other.val).text = (failures.read other.val).text
  notHeld : ∀ other : failures.Known,
    (after.read other.val).isNotHeld = (failures.read other.val).isNotHeld
  sentinel : ∀ other : failures.Known, (failures.read other.val).isNotHeld = true ↔
    ∃ path part, failures.at? other.val path = some part ∧
      (part = .notHeld ∨ ∃ address, part = .violation address)
  violated : (after.read (.violation address)).isNotHeld = true
  again : ∃ known, ∀ other stack,
    after.toViolation ⟨.violation address, known⟩ other (Frame.callSite stack) = (address, after)

theorem breaches_locate {address : Address} {breach : Breach}
    (there : failures.breaches[address]? = some breach) (site : String) :
    (failures.locate address site).breaches = failures.breaches.set address
      { breach with finding := { breach.finding with
        caller := if breach.finding.caller = "" then site else breach.finding.caller } } := by
  have : Inhabited Breach := ⟨breach⟩
  simp only [locate, List.modify_eq_set, there, Breach.locate, Finding.locate_eq, Option.getD_some]

theorem toViolation_of_placed {address : Address} {breach : Breach}
    (there : failures.breaches[address]? = some breach) (placed : breach.finding.caller ≠ "") :
    ∃ known, ∀ other site,
      failures.toViolation ⟨.violation address, known⟩ other site = (address, failures) := by
  have old := (List.getElem?_eq_some_iff.mp there).choose
  refine ⟨fun own member => List.mem_singleton.mp member ▸ old, fun other site => ?_⟩
  have same : failures.breaches.modify address (Breach.locate site) = failures.breaches := by
    apply List.ext_getElem?
    intro place
    rw [List.getElem?_modify]
    split
    case isTrue own =>
      subst own
      rw [there]
      simp [Breach.locate, Finding.locate_eq, placed]
    case isFalse => exact Option.map_id'
  simp only [toViolation, Complaint.first?, Complaint.addresses, List.head?_cons, locate, same]

theorem becomes_of_first {error : failures.Known} {address : Address} {site : String}
    (first : error.val.first? = some address) (placed : site ≠ "") (self : Thread) :
    failures.Becomes error self site address (failures.locate address site) := by
  obtain ⟨path, search⟩ := Complaint.exists_search first
  have old := error.property address (List.mem_of_head? first)
  have there := List.getElem?_eq_getElem old
  have keeps := failures.keeps_locate address site
  have now : (failures.locate address site).breaches[address]? =
      some (failures.breaches[address].locate site) := by
    rw [locate, List.getElem?_modify_eq, there]
    rfl
  have filled : (failures.breaches[address].locate site).finding.caller ≠ "" := by
    simp only [Breach.locate, Finding.locate_eq]
    split <;> assumption
  obtain ⟨known, again⟩ := toViolation_of_placed now filled
  exact {
    origin := .inl ⟨path, _, firstAt search, there, breaches_locate there _⟩
    handed := rfl
    placed := ⟨_, now, filled⟩
    parts := keeps.at? error.property
    text := keeps.text
    notHeld := keeps.isNotHeld
    sentinel := isNotHeld_iff
    violated := isNotHeld_violation (Nat.lt_of_lt_of_le old keeps.length_le)
    again := ⟨known, fun other _ => again other _⟩ }

theorem becomes_of_none {error : failures.Known} {site : String} (none : error.val.first? = none)
    (placed : site ≠ "") (self : Thread) :
    failures.Becomes error self site failures.breaches.length
      (failures.add (.missing self site) (some error)) := by
  have keeps := failures.keeps_add (.missing self site) (some error)
  have now : (failures.add (.missing self site) (some error)).breaches[
      failures.breaches.length]? = some ⟨.missing self site, some error.val⟩ :=
    List.getElem?_concat_length
  obtain ⟨known, again⟩ := toViolation_of_placed now placed
  exact {
    origin := .inr ⟨no_violation (List.head?_eq_none_iff.mp none), rfl, rfl⟩
    handed := rfl
    placed := ⟨_, now, placed⟩
    parts := keeps.at? error.property
    text := keeps.text
    notHeld := keeps.isNotHeld
    sentinel := isNotHeld_iff
    violated := isNotHeld_violation (by simp [add])
    again := ⟨known, fun other _ => again other _⟩ }

theorem toViolation_takes_first (failures : Failures) (error : failures.Known) (self : Thread)
    (stack : List Frame) :
    failures.Becomes error self (Frame.callSite stack)
      (failures.toViolation error self (Frame.callSite stack)).1
      (failures.toViolation error self (Frame.callSite stack)).2 := by
  have placed := Frame.callSite_ne_empty stack
  unfold toViolation
  split
  case h_1 address first => exact becomes_of_first first placed self
  case h_2 none => exact becomes_of_none none placed self

/-- Behind the sentinel and another error, and there a second time with context in front. -/
example :
    let blank : Finding := ⟨"heap", ⟨9⟩, .exclusive, true, .shared, ""⟩
    let failures := Failures.empty.add blank none
    let error : failures.Known := ⟨.wrap "guard" <| .join
      [.notHeld, .plain "stale", .violation 0, .wrap "again" (.violation 0)], by decide⟩
    let located : Failure := .violation { blank with caller := "/app/a.go:11" } none
    (failures.toViolation error ⟨7⟩ "/app/a.go:11").2.read error.val =
      .wrap "guard" (.join [.notHeld, .plain "stale", located, .wrap "again" located]) := rfl

end Failures

end GuardedDump
