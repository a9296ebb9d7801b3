import GuardedDump.Proofs.Refusal
import GuardedDump.Session.Schedule
import GuardedDump.Sink.Fault

namespace GuardedDump

/-! ## Texts to a sink -/

namespace Sink

def Honest (sink : Sink) : Prop :=
  ∀ call stored payload, (sink.policy call stored payload).count ≤ payload.length ∧
    ((sink.policy call stored payload).count < payload.length →
      (sink.policy call stored payload).failure.isSome = true)

def Steady (sink : Sink) : Prop :=
  ∀ call stored payload, (sink.policy call stored payload).failure = none

def writeAll (sink : Sink) : List (List UInt8) → Sink
  | [] => sink
  | payload :: more => (sink.write payload).2.writeAll more

def receipts (sink : Sink) : List (List UInt8) → List Receipt
  | [] => []
  | payload :: more =>
    (sink.write payload).1 :: (sink.write payload).2.receipts more

def deliver (sink : Sink) : List (List UInt8) → Receipt × Sink
  | [] => (⟨0, none⟩, sink)
  | payload :: more =>
    let (receipt, sink) := sink.write payload
    match receipt.failure with
    | some _ => (receipt, sink)
    | none =>
      let (later, sink) := sink.deliver more
      (⟨receipt.count + later.count, later.failure⟩, sink)

variable {sink : Sink}

theorem Honest.write (honest : sink.Honest) (payload : List UInt8) :
    (sink.write payload).2.Honest :=
  honest

theorem Steady.write (steady : sink.Steady) (payload : List UInt8) :
    (sink.write payload).1.failure = none ∧ (sink.write payload).2.Steady :=
  ⟨steady .., steady⟩

theorem unlimited_steady : unlimited.Steady := fun _ _ _ => rfl

theorem Honest.count_le (honest : sink.Honest) (payload : List UInt8) :
    (sink.write payload).1.count ≤ payload.length :=
  (honest ..).1

theorem Honest.count_eq (honest : sink.Honest) {payload : List UInt8}
    (accepted : (sink.write payload).1.failure = none) :
    (sink.write payload).1.count = payload.length := by
  obtain ⟨le, short⟩ := honest (sink.calls + 1) sink.stored payload
  have silent : (sink.policy (sink.calls + 1) sink.stored payload).failure = none := accepted
  rw [silent] at short
  exact Nat.le_antisymm le (Nat.le_of_not_lt fun less => Bool.false_ne_true (short less))

theorem deliver_cons_some {payload : List UInt8} {failure : Failure}
    (complains : (sink.write payload).1.failure = some failure) (more : List (List UInt8)) :
    sink.deliver (payload :: more) = sink.write payload := by
  simp only [deliver, complains]

theorem deliver_cons_none {payload : List UInt8}
    (accepted : (sink.write payload).1.failure = none) (more : List (List UInt8)) :
    sink.deliver (payload :: more) =
      (⟨(sink.write payload).1.count +
          ((sink.write payload).2.deliver more).1.count,
        ((sink.write payload).2.deliver more).1.failure⟩,
        ((sink.write payload).2.deliver more).2) := by
  simp only [deliver, accepted]

theorem deliver_append_some {payloads : List (List UInt8)} {failure : Failure}
    (complains : (sink.deliver payloads).1.failure = some failure) (more : List (List UInt8)) :
    sink.deliver (payloads ++ more) = sink.deliver payloads := by
  induction payloads generalizing sink with
  | nil => cases complains
  | cons payload rest ih =>
      cases result : (sink.write payload).1.failure with
      | some _ => rw [List.cons_append, deliver_cons_some result, deliver_cons_some result]
      | none =>
          rw [deliver_cons_none result] at complains
          rw [List.cons_append, deliver_cons_none result, deliver_cons_none result, ih complains]

theorem deliver_append_none {payloads : List (List UInt8)}
    (accepted : (sink.deliver payloads).1.failure = none) (more : List (List UInt8)) :
    (sink.deliver (payloads ++ more)).1.failure = ((sink.deliver payloads).2.deliver more).1.failure ∧
      (sink.deliver (payloads ++ more)).2 = ((sink.deliver payloads).2.deliver more).2 := by
  induction payloads generalizing sink with
  | nil => exact ⟨rfl, rfl⟩
  | cons payload rest ih =>
      cases result : (sink.write payload).1.failure with
      | some failure =>
          rw [deliver_cons_some result, result] at accepted
          cases accepted
      | none =>
          rw [deliver_cons_none result] at accepted
          rw [List.cons_append, deliver_cons_none result, deliver_cons_none result]
          exact ih accepted

/-- What came of writing `payloads` up to the first complaint: all of `sent` was written and nothing of
`unsent`, and only the last of the writes can have met a complaint. -/
structure Delivered (sink : Sink) (payloads sent unsent : List (List UInt8)) (receipt : Receipt)
    (after : Sink) : Prop where
  parts : payloads = sent ++ unsent
  written : after = sink.writeAll sent
  last : ∀ earlier ∈ (sink.receipts sent).dropLast, earlier.failure = none
  first : receipt.failure = (sink.receipts sent).findSome? Receipt.failure
  complete : receipt.failure = none → unsent = []

theorem deliver_delivered (sink : Sink) (payloads : List (List UInt8)) :
    ∃ sent unsent, sink.Delivered payloads sent unsent (sink.deliver payloads).1 (sink.deliver payloads).2 := by
  induction payloads generalizing sink with
  | nil => exact ⟨[], [], rfl, rfl, nofun, rfl, fun _ => rfl⟩
  | cons payload more ih =>
      cases result : (sink.write payload).1.failure with
      | some failure =>
          rw [deliver_cons_some result]
          refine ⟨[payload], more, rfl, rfl, nofun, ?_, ?_⟩
          · simp [receipts, result]
          · rw [result]
            exact nofun
      | none =>
          obtain ⟨sent, unsent, parts, written, last, first, complete⟩ :=
            ih (sink.write payload).2
          rw [deliver_cons_none result]
          refine ⟨payload :: sent, unsent, by rw [parts]; rfl, written, ?_, ?_, complete⟩
          · cases sent with
            | nil => exact nofun
            | cons next rest =>
                simp only [receipts, List.dropLast_cons_cons, List.forall_mem_cons] at last ⊢
                exact ⟨result, last⟩
          · simp only [receipts, List.findSome?_cons, result]
            exact first

theorem deliver_stored {sink : Sink} (honest : sink.Honest) (payloads : List (List UInt8)) :
    ∃ bytes, (sink.deliver payloads).2.stored = sink.stored ++ bytes ∧
      bytes <+: payloads.flatten ∧ (sink.deliver payloads).1.count = bytes.length ∧
      ((sink.deliver payloads).1.failure = none → bytes = payloads.flatten) := by
  induction payloads generalizing sink with
  | nil => exact ⟨[], (List.append_nil _).symm, List.prefix_rfl, rfl, fun _ => rfl⟩
  | cons payload more ih =>
      have stored : (sink.write payload).2.stored =
        sink.stored ++ payload.take (sink.write payload).1.count := rfl
      cases result : (sink.write payload).1.failure with
      | some failure =>
          rw [deliver_cons_some result]
          refine ⟨_, stored, ?_, ?_, ?_⟩
          · exact (List.take_prefix ..).trans (List.prefix_append ..)
          · rw [List.length_take, Nat.min_eq_left (honest.count_le _)]
          · rw [result]
            exact nofun
      | none =>
          obtain ⟨bytes, grown, start, count, complete⟩ := ih (honest.write payload)
          rw [honest.count_eq result, List.take_length] at stored
          rw [deliver_cons_none result]
          refine ⟨payload ++ bytes, ?_, ?_, ?_, ?_⟩
          · rw [grown, stored, List.append_assoc]
          · exact List.prefix_append_right_inj _ |>.mpr start
          · simp only [count, honest.count_eq result, List.length_append]
          · intro silent
            rw [complete silent, List.flatten_cons]

theorem Steady.deliver {sink : Sink} (steady : sink.Steady) (payloads : List (List UInt8)) :
    (sink.deliver payloads).1.failure = none ∧ (sink.deliver payloads).2 = sink.writeAll payloads := by
  induction payloads generalizing sink with
  | nil => exact ⟨rfl, rfl⟩
  | cons payload more ih =>
      obtain ⟨accepted, still⟩ := steady.write payload
      rw [deliver_cons_none accepted]
      exact ih still

theorem unlimited_writeAll (payloads : List (List UInt8)) :
    (unlimited.writeAll payloads).stored = payloads.flatten := by
  have honest : unlimited.Honest := fun _ _ payload =>
    ⟨Nat.le_refl _, fun less => absurd less (Nat.lt_irrefl _)⟩
  obtain ⟨accepted, all⟩ := unlimited_steady.deliver payloads
  obtain ⟨bytes, stored, -, -, complete⟩ := deliver_stored honest payloads
  rw [← all, stored, complete accepted]
  rfl

end Sink

theorem Sink.FaultPlan.sink_honest {plan : FaultPlan} (uncut : plan.cutAt = none) :
    plan.sink.Honest := by
  intro call stored payload
  simp only [sink, receipt]
  split
  · split
    case isTrue fits => exact ⟨Nat.le_refl _, fun _ => rfl⟩
    case isFalse large =>
      rw [Nat.ble_eq] at large
      exact ⟨by simp only; omega, fun _ => rfl⟩
  · split
    case h_1 room full =>
      simp only [room?] at full
      split at full
      · cases full
      case h_2 capacity bounded =>
        split at full
        case isTrue overfull =>
          cases full
          rw [Nat.blt_eq] at overfull
          exact ⟨by simp only; omega, fun _ => rfl⟩
        case isFalse => cases full
    case h_2 => simp [kept, uncut]

/-! ## Meters over meters -/

namespace Writer

def blocked (writer : Writer) : Option Failure :=
  writer.meters.head?.bind Meter.failure

def under (meter : Meter) (writer : Writer) : Writer :=
  ⟨meter :: writer.meters, writer.sink⟩

/-- Every complaint shuts a meter, or there is none to come. -/
def Latching (writer : Writer) : Prop :=
  writer.meters ≠ [] ∨ writer.sink.Steady

variable {writer : Writer} {meter : Meter}

theorem put_of_blocked (blocked : writer.blocked.isSome = true) (payload : List UInt8) :
    writer.put payload = writer := by
  obtain ⟨meters, sink⟩ := writer
  cases meters with
  | nil => cases blocked
  | cons meter outer =>
      obtain ⟨failure, shut⟩ := Option.isSome_iff_exists.mp blocked
      simp only [Writer.blocked, List.head?_cons, Option.bind_some] at shut
      simp only [put, write, send, shut]

theorem putAll_of_blocked (blocked : writer.blocked.isSome = true) (payloads : List (List UInt8)) :
    writer.putAll payloads = writer := by
  induction payloads with
  | nil => rfl
  | cons payload more ih =>
      simp only [putAll, List.foldl_cons, put_of_blocked blocked]
      exact ih

theorem send_meters (payload : List UInt8) (meters : List Meter) (sink : Sink) :
    (send payload meters sink).2.meters.length = meters.length ∧
      (send payload meters sink).2.sink.policy = sink.policy := by
  induction meters with
  | nil => exact ⟨rfl, rfl⟩
  | cons meter outer ih =>
      unfold send
      split
      · exact ⟨rfl, rfl⟩
      · exact ⟨congrArg Nat.succ ih.1, ih.2⟩

theorem push_latching (writer : Writer) : writer.push.Latching :=
  .inl (List.cons_ne_nil _ _)

theorem Latching.put (latching : writer.Latching) (payload : List UInt8) :
    (writer.put payload).Latching := by
  obtain ⟨length, policy⟩ := send_meters payload writer.meters writer.sink
  rcases latching with metered | steady
  · left
    have some_left : (writer.put payload).meters.length = writer.meters.length := length
    rwa [← List.length_pos_iff, some_left, List.length_pos_iff]
  · right
    have same : (writer.put payload).sink.policy = writer.sink.policy := policy
    unfold Sink.Steady
    rwa [same]

theorem Latching.putAll (latching : writer.Latching) (payloads : List (List UInt8)) :
    (writer.putAll payloads).Latching := by
  induction payloads generalizing writer with
  | nil => exact latching
  | cons payload more ih => exact ih (latching.put payload)

theorem Latching.blocked_of_failure (latching : writer.Latching) {payload : List UInt8}
    (complains : (writer.write payload).1.failure.isSome = true) :
    (writer.write payload).2.blocked.isSome = true := by
  obtain ⟨meters, sink⟩ := writer
  cases meters with
  | nil =>
      have steady := latching.resolve_left (fun none => none rfl)
      have accepted : ((⟨[], sink⟩ : Writer).write payload).1.failure = none := steady ..
      rw [accepted] at complains
      cases complains
  | cons meter outer =>
      unfold write send at complains ⊢
      split at complains
      case h_1 failure shut =>
        simp only [shut, blocked, List.head?_cons, Option.bind_some, Option.isSome_some]
      case h_2 opened =>
        simp only [blocked, List.head?_cons, Option.bind_some]
        exact complains

theorem put_under (latching : writer.Latching)
    (covered : meter.failure.isSome = true → writer.blocked.isSome = true) (payload : List UInt8) :
    ∃ later, (under meter writer).put payload = under later (writer.put payload) ∧
      (later.failure.isSome = true → (writer.put payload).blocked.isSome = true) := by
  cases shut : meter.failure with
  | some failure =>
      have blocked := covered (by rw [shut]; rfl)
      have closed : (under meter writer).put payload = under meter writer :=
        put_of_blocked (by simp [Writer.blocked, under, shut]) payload
      refine ⟨meter, ?_, ?_⟩
      · rw [closed, put_of_blocked blocked]
      · rw [put_of_blocked blocked]
        exact covered
  | none =>
      refine ⟨meter.add (writer.write payload).1, ?_, latching.blocked_of_failure⟩
      simp only [under, put, write, send, shut]

theorem putAll_under (latching : writer.Latching) (meter : Meter)
    (covered : meter.failure.isSome = true → writer.blocked.isSome = true) (payloads : List (List UInt8)) :
    ∃ later, (under meter writer).putAll payloads = under later (writer.putAll payloads) := by
  induction payloads generalizing writer meter with
  | nil => exact ⟨meter, rfl⟩
  | cons payload more ih =>
      obtain ⟨later, same, still⟩ := put_under latching covered payload
      simp only [putAll, List.foldl_cons, same]
      exact ih (latching.put payload) later still

theorem putAll_append (writer : Writer) (payloads more : List (List UInt8)) :
    writer.putAll (payloads ++ more) = (writer.putAll payloads).putAll more :=
  List.foldl_append

theorem pop_putAll_push (latching : writer.Latching) (payloads : List (List UInt8)) :
    (writer.push.putAll payloads).pop.2 = writer.putAll payloads := by
  obtain ⟨later, same⟩ := putAll_under latching .fresh nofun payloads
  rw [show writer.push = under .fresh writer from rfl, same]
  rfl

theorem putAll_meter (meter : Meter) (opened : meter.failure = none) (sink : Sink)
    (payloads : List (List UInt8)) :
    (under meter (.ofSink sink)).putAll payloads =
      under ⟨meter.count + (sink.deliver payloads).1.count, (sink.deliver payloads).1.failure⟩
        (.ofSink (sink.deliver payloads).2) := by
  induction payloads generalizing meter sink with
  | nil =>
      obtain ⟨count, failure⟩ := meter
      cases opened
      rfl
  | cons payload more ih =>
      have first : (under meter (.ofSink sink)).put payload =
          under (meter.add (sink.write payload).1)
            (.ofSink (sink.write payload).2) := by
        simp only [under, ofSink, put, write, send, opened]
      have step : (under meter (.ofSink sink)).putAll (payload :: more) =
          ((under meter (.ofSink sink)).put payload).putAll more := rfl
      rw [step, first]
      cases result : (sink.write payload).1.failure with
      | some failure =>
          rw [Sink.deliver_cons_some result, putAll_of_blocked]
          · rfl
          · simp only [blocked, under, Meter.add, List.head?_cons, Option.bind_some, result,
              Option.isSome_some]
      | none =>
          rw [ih _ result, Sink.deliver_cons_none result]
          simp only [Meter.add, Nat.add_assoc]

def metered (writer : Writer) (payloads : List (List UInt8)) : Receipt × Writer :=
  (writer.push.putAll payloads).pop

theorem metered_ofSink (sink : Sink) (payloads : List (List UInt8)) :
    (ofSink sink).metered payloads = ((sink.deliver payloads).1, .ofSink (sink.deliver payloads).2) := by
  have metered : (ofSink sink).push.putAll payloads = _ := putAll_meter .fresh rfl sink payloads
  simp only [Writer.metered, metered, under, pop, Meter.receipt, Meter.fresh, Nat.zero_add]

end Writer

/-! ## Dumps as scripts -/

namespace Value

/-- How a dump goes wherever it is written to: how it ends, the payloads it writes, one call each, and
the world it leaves. -/
def script (ctx : Context) : Value → World → Except Panic Unit × List (List UInt8) × World
  | done, world => (.ok (), [], world)
  | bytes part rest, world =>
    let (ending, more, after) := rest.script ctx world
    (ending, part :: more, after)
  | listing lock selection rest, world =>
    let (ending, more, after) := rest.script ctx world
    (ending, (world.lock lock).payloads selection world.now ++ more, after)
  | guarded way precondition inner rest, world =>
    match world.demand (ctx.inside way) precondition with
    | (.error panic, after) => (.error panic, [], after)
    | (.ok (some _), after) => rest.script ctx after
    | (.ok none, after) =>
      match inner.script (ctx.inside way) after with
      | (.error panic, sent, last) => (.error panic, sent, last)
      | (.ok (), sent, between) =>
        let (ending, more, last) := rest.script ctx between
        (ending, sent ++ more, last)
  | raise message, world => (.error (.raised message), [], world)

def payloads (ctx : Context) (value : Value) (world : World) : List (List UInt8) :=
  (value.script ctx world).2.1

theorem dump_eq_script (ctx : Context) (value : Value) {writer : Writer}
    (latching : writer.Latching) (world : World) :
    value.dump ctx writer world =
      ((value.script ctx world).1, writer.putAll (value.payloads ctx world),
        (value.script ctx world).2.2) := by
  induction value generalizing ctx writer world with
  | done => rfl
  | bytes part rest ih => exact ih ctx (latching.put part) world
  | listing lock selection rest ih =>
      have follows := ih ctx (latching.putAll ((world.lock lock).payloads selection world.now)) world
      simp only [dump, follows, payloads, script, Writer.putAll_append]
  | guarded way p inner rest innerScript restScript =>
      simp only [dump, payloads, script]
      cases world.demand (ctx.inside way) p with
      | mk verdict after =>
          rcases verdict with panic | (none | v)
          · rfl
          · have inside := innerScript (ctx.inside way) writer.push_latching after
            have below := Writer.pop_putAll_push latching (inner.payloads (ctx.inside way) after)
            simp only [inside]
            unfold payloads at below ⊢
            generalize inner.script (ctx.inside way) after = part at below ⊢
            obtain ⟨ending, sent, between⟩ := part
            cases ending with
            | error panic => simp only [below]
            | ok =>
                have follows := restScript ctx (latching.putAll sent) between
                simp only [below, follows, payloads, Writer.putAll_append]
          · exact restScript ctx latching after
  | raise message => rfl

end Value

theorem Writer.ofSink_putAll (sink : Sink) (payloads : List (List UInt8)) :
    (ofSink sink).putAll payloads = .ofSink (sink.writeAll payloads) := by
  induction payloads generalizing sink with
  | nil => rfl
  | cons payload more ih => exact ih _

namespace World

variable {world : World} {ctx : Context} {value : Value}

theorem dump_unlimited (world : World) (ctx : Context) (value : Value) :
    value.dump ctx (.ofSink .unlimited) world =
      ((value.script ctx world).1, .ofSink (Sink.unlimited.writeAll (value.payloads ctx world)),
        (value.script ctx world).2.2) := by
  rw [value.dump_eq_script ctx (.inr Sink.unlimited_steady), Writer.ofSink_putAll]

theorem writeUnguarded_delivers (calm : (value.script ctx world).1 = .ok ()) (sink : Sink) :
    world.writeUnguarded ctx value (.ofSink sink) =
      (.ok (sink.deliver (value.payloads ctx world)).1,
        .ofSink (sink.deliver (value.payloads ctx world)).2, (value.script ctx world).2.2) := by
  have metered := Writer.metered_ofSink sink (value.payloads ctx world)
  unfold Writer.metered at metered
  simp only [writeUnguarded, value.dump_eq_script ctx (Writer.push_latching _), calm, metered]

theorem write_delivers {p : Precondition} {sink buffer : Sink} {last : World}
    (honest : sink.Honest) (passes : world.objection ctx p = none)
    (direct : value.dump ctx (.ofSink .unlimited) world = (.ok (), .ofSink buffer, last)) :
    ∃ receipt after sent unsent,
      world.write ctx p value (.ofSink sink) = (.ok receipt, .ofSink after, last) ∧
      Call.Leads world ((Operation.write p value sink).call ctx)
        (last, ⟨ctx, [], .ofSink after, receipt, none⟩) ∧
      buffer = Sink.unlimited.writeAll (value.payloads ctx world) ∧
      sink.Delivered (value.payloads ctx world) sent unsent receipt after ∧
      ∃ bytes, after.stored = sink.stored ++ bytes ∧ bytes <+: buffer.stored ∧
        receipt.count = bytes.length ∧ (receipt.failure = none → bytes = buffer.stored) := by
  rw [dump_unlimited] at direct
  obtain ⟨calm, same, rfl⟩ : (value.script ctx world).1 = .ok () ∧
      Sink.unlimited.writeAll (value.payloads ctx world) = buffer ∧
      (value.script ctx world).2.2 = last := by
    simpa [Writer.ofSink] using direct
  obtain ⟨sent, unsent, delivered⟩ := sink.deliver_delivered (value.payloads ctx world)
  have taken := Sink.deliver_stored honest (value.payloads ctx world)
  rw [← Sink.unlimited_writeAll, same] at taken
  have written := (write_of_no_objection passes value (.ofSink sink)).trans
    (writeUnguarded_delivers calm sink)
  have leads := Call.operation_write_leads world ctx p value sink
  rw [written] at leads
  exact ⟨_, _, sent, unsent, written, leads, same.symm, delivered, taken⟩

def admitted : Precondition := { checker := .rule fun _ => none }

def nest : Value :=
  .text "heap " <| .guarded .direct admitted
    (.text "roots " <| .guarded .direct admitted (.listing 0 .all <| .text "." .done) <| .text "!" .done)
    (.text "end" .done)

def hiccup : Sink := Sink.FaultPlan.sink { failOn := [3], short := 2, message := "full" }

theorem nest_write_delivers :
    hiccup.Honest ∧ (initial .empty).objection (.bare 7) admitted = none ∧
      ∃ receipt after buffer last,
        nest.dump (.bare 7) (.ofSink .unlimited) (initial .empty) = (.ok (), .ofSink buffer, last) ∧
        (initial .empty).write (.bare 7) admitted nest (.ofSink hiccup) =
          (.ok receipt, .ofSink after, last) ∧
        ((initial .empty).write (.bare 7) admitted nest (.ofSink hiccup)).2.1.sink.calls = 3 ∧
        ∃ bytes, after.stored = hiccup.stored ++ bytes ∧ bytes <+: buffer.stored ∧
          receipt.count = bytes.length := by
  have honest : hiccup.Honest := Sink.FaultPlan.sink_honest rfl
  have passes : (initial .empty).objection (.bare 7) admitted = none := rfl
  have direct : nest.dump (.bare 7) (.ofSink .unlimited) (initial .empty) =
      (.ok (), .ofSink (nest.dump (.bare 7) (.ofSink .unlimited) (initial .empty)).2.1.sink,
        initial .empty) := rfl
  refine ⟨honest, passes, ?_⟩
  obtain ⟨receipt, after, -, -, written, -, -, -, bytes, stored, start, count, -⟩ :=
    write_delivers honest passes direct
  exact ⟨receipt, after, _, _, direct, written, by decide +kernel, bytes, stored, start, count⟩

end World

end GuardedDump
