import GuardedDump.Proofs.CallPaths
import GuardedDump.Proofs.Verbosity

/-!
# Renderings of a guarded value

A guarded value can be turned into text, be part of a formatted text, or be written to a sink, alone
or between two plain writes. All of these make the same check and deliver the same bytes, and leave
the same world, whichever way the call came in (`World.renderings_agree`). They differ where a
handler panics, as the formatter catches the panic and leaves a note in its text, and where the
process ends, as its last words show the way of the call (`World.panic_shows_in_format`).
-/

namespace GuardedDump

namespace Sink

def Unfailing (sink : Sink) : Prop :=
  ∀ call stored payload, sink.policy call stored payload = ⟨payload.length, none⟩

structure Grows (sink : Sink) (bytes : List UInt8) (after : Sink) : Prop where
  policy : after.policy = sink.policy
  stored : after.stored = sink.stored ++ bytes

variable {sink after last : Sink} {bytes more : List UInt8}

theorem unlimited_unfailing : unlimited.Unfailing := fun _ _ _ => rfl

theorem Unfailing.steady (unfailing : sink.Unfailing) : sink.Steady := by
  intro call stored payload
  rw [unfailing]

theorem Grows.unfailing (grows : sink.Grows bytes after) (unfailing : sink.Unfailing) :
    after.Unfailing := by
  unfold Unfailing
  rw [grows.policy]
  exact unfailing

theorem Grows.trans (first : sink.Grows bytes after) (second : after.Grows more last) :
    sink.Grows (bytes ++ more) last :=
  ⟨second.policy.trans first.policy, by rw [second.stored, first.stored, List.append_assoc]⟩

theorem Unfailing.write_grows (unfailing : sink.Unfailing) (payload : List UInt8) :
    sink.Grows payload (sink.write payload).2 := by
  refine ⟨rfl, ?_⟩
  simp only [write, unfailing _ _ _, List.take_length]

theorem Unfailing.writeAll_grows (unfailing : sink.Unfailing) (payloads : List (List UInt8)) :
    sink.Grows (payloads.flatten) (sink.writeAll payloads) := by
  induction payloads generalizing sink with
  | nil => exact ⟨rfl, (List.append_nil _).symm⟩
  | cons text more ih =>
      have first := unfailing.write_grows text
      exact first.trans (ih (first.unfailing unfailing))

end Sink

namespace World

variable {world : World} {ctx : Context} {p : Precondition} {value : Value}

def alone (p : Precondition) (value : Value) : Value :=
  .guarded .direct p value .done

theorem ways_alone (p : Precondition) (value : Value) :
    (alone p value).ways = .direct :: value.ways := by
  have same : Way.direct.further = id := by
    funext way
    simp [Way.further, Way.direct]
  simp [alone, Value.ways, same]

def ending (world : World) (ctx : Context) (p : Precondition) (value : Value) : Except Panic Unit :=
  ((alone p value).script ctx world).1

def output (world : World) (ctx : Context) (p : Precondition) (value : Value) : List UInt8 :=
  ((alone p value).payloads ctx world).flatten

def leaves (world : World) (ctx : Context) (p : Precondition) (value : Value) : World :=
  ((alone p value).script ctx world).2.2

theorem write_unfailing (world : World) (ctx : Context) (p : Precondition) (value : Value)
    {sink : Sink} (unfailing : sink.Unfailing) :
    ∃ result after, world.write ctx p value (.ofSink sink) =
        (result, .ofSink after, world.leaves ctx p value) ∧
      result.map (fun _ => ()) = world.ending ctx p value ∧
      sink.Grows (world.output ctx p value) after := by
  have latching : (Writer.ofSink sink).Latching := .inr unfailing.steady
  have dumped := (alone p value).dump_eq_script ctx latching world
  have grows := unfailing.writeAll_grows ((alone p value).payloads ctx world)
  rw [alone, Value.dump_guarded, Context.inside_direct, Writer.ofSink_putAll] at dumped
  generalize world.write ctx p value (.ofSink sink) = outcome at dumped ⊢
  obtain ⟨result, written, last⟩ := outcome
  cases result with
  | error panic =>
      obtain ⟨panics, rest⟩ := Prod.mk.inj dumped
      exact ⟨.error panic, _, congrArg _ rest, panics, grows⟩
  | ok receipt =>
      obtain ⟨returns, rest⟩ := Prod.mk.inj dumped
      exact ⟨.ok receipt, _, congrArg _ rest, returns, grows⟩

theorem output_of_objection (objects : (world.objection ctx p).isSome = true) (value : Value) :
    world.output ctx p value = [] := by
  obtain ⟨failure, answer⟩ := Option.isSome_iff_exists.mp objects
  have found := violationOf_of_objection answer
  simp only [output, Value.payloads, alone, Value.script, Context.inside_direct, demand]
  generalize world.violationOf ctx (p.self.getD ctx.thread) p.checker = verdict at found ⊢
  obtain ⟨v, after⟩ := verdict
  cases found
  simp only
  generalize after.report ctx (charge ctx p failure) p.handler = report
  obtain ⟨result, last⟩ := report
  cases result <;> rfl

theorem ending_calm (returns : world.Returns p.handler)
    (calm : world.objection ctx p = none →
      (value.dump ctx (.ofSink .unlimited) world).1 = .ok ()) :
    world.ending ctx p value = .ok () := by
  cases answer : world.objection ctx p with
  | some failure =>
      simp only [ending, alone, Value.script, Context.inside_direct,
        demand_of_objection answer returns]
  | none =>
      have inner := calm answer
      rw [dump_unlimited] at inner
      simp only at inner
      simp only [ending, alone, Value.script, Context.inside_direct, demand_of_no_objection answer]
      generalize value.script ctx world = part at inner ⊢
      obtain ⟨result, sent, last⟩ := part
      cases inner
      rfl

def endNote (verb : Char) : Except Panic Unit → List UInt8
  | .ok () => []
  | .error panic => Text.bytes (panicNote verb panic)

/-- What the renderings of a guarded value have in common: the end they come to, `bytes`, and the
world they leave. -/
structure Renders (world : World) (ctx : Context) (p : Precondition) (value : Value)
    (ending : Except Panic Unit) (bytes : List UInt8) (last : World) : Prop where
  text : world.render ctx (some p) value = (ending.map fun _ => bytes, last)
  formatted : ∀ verb lead tail, world.format ctx (some p) value verb lead tail =
    (Text.bytes lead ++ bytes ++ endNote verb ending ++ Text.bytes tail, last)
  written : ∀ sink : Sink, sink.Unfailing → ∃ result after,
    world.write ctx p value (.ofSink sink) = (result, .ofSink after, last) ∧
      result.map (fun _ => ()) = ending ∧ sink.Grows bytes after ∧
      Call.Leads world ((Operation.write p value sink).call ctx)
        (Call.ended ctx (result, .ofSink after, last))
  between : ∀ (sink : Sink) lead tail, sink.Unfailing → ∃ after,
    world.writeBetween ctx p value lead tail (.ofSink sink) = (ending, .ofSink after, last) ∧
      sink.Grows (Text.bytes lead ++ bytes ++ if ending.isOk then Text.bytes tail else []) after

theorem renders (world : World) (ctx : Context) (p : Precondition) (value : Value) :
    world.Renders ctx p value (world.ending ctx p value) (world.output ctx p value)
      (world.leaves ctx p value) := by
  -- The first plain write to a sink, and the guarded write behind it.
  have behind {sink : Sink} (unfailing : sink.Unfailing) (lead : String) :
      ∃ result after, world.write ctx p value ((Writer.ofSink sink).put (Text.bytes lead)) =
          (result, .ofSink after, world.leaves ctx p value) ∧
        result.map (fun _ => ()) = world.ending ctx p value ∧ after.Unfailing ∧
        sink.Grows (Text.bytes lead ++ world.output ctx p value) after := by
    have first := unfailing.write_grows (Text.bytes lead)
    obtain ⟨result, after, written, ends, grows⟩ :=
      world.write_unfailing ctx p value (first.unfailing unfailing)
    exact ⟨result, after, written, ends, grows.unfailing (first.unfailing unfailing),
      first.trans grows⟩
  constructor
  case text =>
    obtain ⟨result, after, written, ends, grows⟩ :=
      world.write_unfailing ctx p value Sink.unlimited_unfailing
    simp only [render, writeAny, written, ← ends]
    cases result with
    | error panic => rfl
    | ok receipt => exact congrArg (fun bytes => (Except.ok bytes, _)) grows.stored
  case formatted =>
    intro verb lead tail
    obtain ⟨result, after, written, ends, unfailing, grows⟩ := behind Sink.unlimited_unfailing lead
    simp only [format, writeAny, written, ← ends]
    cases result with
    | error panic =>
        have noted := unfailing.write_grows (Text.bytes (panicNote verb panic))
        have closed := (noted.unfailing unfailing).write_grows (Text.bytes tail)
        have all := ((grows.trans noted).trans closed).stored
        exact congrArg (fun bytes => (bytes, _)) all
    | ok receipt =>
        have all := (grows.trans (unfailing.write_grows (Text.bytes tail))).stored
        simp only [endNote, Except.map, List.append_nil]
        exact congrArg (fun bytes => (bytes, _)) all
  case written =>
    intro sink unfailing
    obtain ⟨result, after, written, ends, grows⟩ := world.write_unfailing ctx p value unfailing
    have leads := Call.operation_write_leads world ctx p value sink
    rw [written] at leads
    exact ⟨result, after, written, ends, grows, leads⟩
  case between =>
    intro sink lead tail unfailing
    obtain ⟨result, after, written, ends, ready, grows⟩ := behind unfailing lead
    simp only [writeBetween, written, ← ends]
    cases result with
    | error panic =>
        refine ⟨after, rfl, ?_⟩
        simpa [Except.map, Except.isOk, Except.toBool] using grows
    | ok receipt => exact ⟨_, rfl, grows.trans (ready.write_grows (Text.bytes tail))⟩

def checksOf (value : Value) : List Way :=
  .direct :: value.ways

/-- Calls of the thread `t` from the application stack `app` agree in every rendering: they end in
the same way and deliver the same bytes. -/
structure Agree (world : World) (p : Precondition) (value : Value) (t : Thread) (app : List Frame)
    (ending : Except Panic Unit) (bytes : List UInt8) : Prop where
  renders : ∀ ctx : Context, ctx.Comes t app (checksOf value) →
    world.Renders ctx p value ending bytes (world.render ctx (some p) value).2
  twins : ∀ here there : Context, here.Comes t app (checksOf value) →
    there.Comes t app (checksOf value) →
    Twin (here.Traces there (checksOf value)) (world.render here (some p) value).2
      (world.render there (some p) value).2
  same : ∀ here there : Context, here.Comes t app (checksOf value) →
    there.Comes t app (checksOf value) →
    (∀ way ∈ checksOf value, Trace.prune (here.inside way).trace =
      Trace.prune (there.inside way).trace) ∨ ¬ world.hooks.Unwatched →
    (world.render there (some p) value).2 = (world.render here (some p) value).2
  refused : ∀ ctx : Context, ctx.Comes t app (checksOf value) →
    (world.objection ctx p).isSome = true → bytes = []
  unguarded : ∀ ctx : Context, ctx.Comes t app (checksOf value) → world.objection ctx p = none →
    (∀ writer, world.writeUnguarded ctx value writer = world.write ctx p value writer) ∧
      world.render ctx none value = world.render ctx (some p) value ∧
      ∀ verb lead tail,
        world.format ctx none value verb lead tail = world.format ctx (some p) value verb lead tail
  calm : ∀ ctx : Context, ctx.Comes t app (checksOf value) → world.Returns p.handler →
    (world.objection ctx p = none →
      (value.dump ctx (.ofSink .unlimited) world).1 = .ok ()) → ending = .ok ()

theorem renderings_agree (world : World) (p : Precondition) (value : Value) (t : Thread)
    (app : List Frame) : ∃ ending bytes, world.Agree p value t app ending bytes := by
  have left (ctx : Context) : (world.render ctx (some p) value).2 = world.leaves ctx p value :=
    congrArg Prod.snd (world.renders ctx p value).text
  have unguarded (ctx : Context) (silent : world.objection ctx p = none) (writer : Writer) :
      world.writeUnguarded ctx value writer = world.write ctx p value writer :=
    (write_of_no_objection silent value writer).symm
  let direct : Context := ⟨t, app, ""⟩
  have alike {here there : Context} (own : here.Comes t app (checksOf value))
      (other : there.Comes t app (checksOf value)) :=
    (alone p value).script_twin
      (fun way member => own.alike other (by rwa [ways_alone] at member))
      (Twin.refl (here.Traces there (checksOf value)) world)
  have ends (ctx : Context) (own : ctx.Comes t app (checksOf value)) :
      world.ending ctx p value = world.ending direct p value := (alike own.direct own).1
  have delivers (ctx : Context) (own : ctx.Comes t app (checksOf value)) :
      world.output ctx p value = world.output direct p value :=
    congrArg List.flatten (alike own.direct own).2.1
  have twins (here there : Context) (own : here.Comes t app (checksOf value))
      (other : there.Comes t app (checksOf value)) :
      Twin (here.Traces there (checksOf value)) (world.render here (some p) value).2
        (world.render there (some p) value).2 := by
    rw [left, left]
    exact (alike own other).2.2
  refine ⟨world.ending direct p value, world.output direct p value, ?_, twins, ?_, ?_, ?_, ?_⟩
  · intro ctx own
    rw [← ends ctx own, ← delivers ctx own, left]
    exact world.renders ctx p value
  · intro here there own other blind
    apply (twins here there own other).eq
    rw [(world.render_unmoved here (some p) value).hooks]
    refine blind.imp_left fun pruned first second met => ?_
    obtain ⟨way, member, rfl, rfl⟩ := met
    exact pruned way member
  · intro ctx own objects
    rw [← delivers ctx own, output_of_objection objects]
  · intro ctx own silent
    have plain := unguarded ctx silent
    refine ⟨plain, ?_, ?_⟩
    · simp only [render, writeAny, plain]
    · intro verb lead tail
      simp only [format, writeAny, plain]
  · intro ctx own returns calm
    rw [← ends ctx own]
    exact ending_calm returns calm

def shop : List Frame := [⟨"main.serve", "/app/a.go", 11⟩]

def asText : Context :=
  ⟨⟨7⟩, ⟨"github.com/christophcemper/lockeddump.String", "dumpable.go", 147⟩ :: shop,
    "main.serve()"⟩

def asPrinted : Context :=
  ⟨⟨7⟩, ⟨"fmt.Sprintf", "print.go", 239⟩ :: shop, "fmt.Sprintf()\nmain.serve()"⟩

def watchedBy (handler : Handler) : World :=
  { initial .empty with hooks := ⟨some handler, .fatal, none⟩ }

def account : Value :=
  let way : Way := ⟨[⟨"github.com/christophcemper/lockeddump.WriteTo", "dumpable.go", 132⟩,
    ⟨"main.Account.Dump", "/app/account.go", 8⟩], fun trace => "main.Account.Dump()\n" ++ trace⟩
  .text "cash " <| .guarded way {} (.text "debt " .done) <| .text "stock" .done

theorem asText_comes : asText.Comes ⟨7⟩ shop (checksOf account) :=
  ⟨rfl, by decide +kernel, by decide +kernel⟩

theorem asPrinted_comes : asPrinted.Comes ⟨7⟩ shop (checksOf account) :=
  ⟨rfl, by decide +kernel, by decide +kernel⟩

/-- The inner violation names the place in the outer dump. -/
theorem account_renderings_agree :
    asText.Comes ⟨7⟩ shop (checksOf account) ∧ asPrinted.Comes ⟨7⟩ shop (checksOf account) ∧
      ∃ bytes last, (watchedBy ⟨"watch", none⟩).render asText (some admitted) account =
          (.ok bytes, last) ∧
        (watchedBy ⟨"watch", none⟩).format asPrinted (some admitted) account 'v' "<" ">" =
          (Text.bytes "<" ++ bytes ++ Text.bytes ">", last) ∧
        bytes = Text.bytes "cash stock" ∧
        ∃ v, last.history = [⟨⟨7⟩, .delivered ⟨"watch", none⟩ v⟩] ∧
          v.finding.caller = "/app/account.go:8" := by
  refine ⟨asText_comes, asPrinted_comes, ?_⟩
  obtain ⟨ending, bytes, agree⟩ :=
    renderings_agree (watchedBy ⟨"watch", none⟩) admitted account ⟨7⟩ shop
  have returns : (watchedBy ⟨"watch", none⟩).Returns admitted.handler := by
    refine .inr fun handler chosen => ?_
    cases chosen
    rfl
  have calm : ending = .ok () := agree.calm asText asText_comes returns fun _ => rfl
  subst calm
  have watched : ¬ (watchedBy ⟨"watch", none⟩).hooks.Unwatched :=
    fun unwatched => nomatch unwatched.2
  have same := agree.same asText asPrinted asText_comes asPrinted_comes (.inr watched)
  have text := (agree.renders asText asText_comes).text
  have printed := (agree.renders asPrinted asPrinted_comes).formatted 'v' "<" ">"
  rw [same] at printed
  refine ⟨bytes, _, text, ?_, ?_, _, rfl, by decide +kernel⟩
  · simpa only [endNote, List.append_nil] using printed
  · have shown : ((watchedBy ⟨"watch", none⟩).render asText (some admitted) account).1 =
        .ok (Text.bytes "cash stock") := by decide +kernel
    rw [text] at shown
    exact Except.ok.inj shown

theorem logText_length (text : String) :
    text.length ≤ (logText text).length ∧ (logText text).length ≤ text.length + 1 := by
  unfold logText
  split
  · exact ⟨Nat.le_refl _, Nat.le_succ _⟩
  · rw [String.length_append]
    exact ⟨Nat.le_add_right _ _, Nat.le_refl _⟩

theorem last_words_differ (v : Violation) {first second : String}
    (longer : (Trace.prune first).length + 1 < (Trace.prune second).length) :
    logText (fatalText v second) ≠ logText (fatalText v first) := by
  obtain ⟨opening, parts⟩ : ∃ opening, ∀ trace, fatalText v trace = opening ++ Trace.prune trace :=
    ⟨_, fun _ => rfl⟩
  rw [parts, parts]
  intro same
  have upper := (logText_length (opening ++ Trace.prune first)).2
  have lower := (logText_length (opening ++ Trace.prune second)).1
  rw [same] at lower
  rw [String.length_append] at upper lower
  omega

theorem panic_shows_in_format :
    asText.Comes ⟨7⟩ shop (checksOf (.text "cash" .done)) ∧
      asPrinted.Comes ⟨7⟩ shop (checksOf (.text "cash" .done)) ∧
      (∀ ctx writer world, ((Value.text "cash" .done).dump ctx writer world).1 = .ok ()) ∧
      ((watchedBy ⟨"alarm", some "alarm"⟩).write asText {} (.text "cash" .done)
        (.ofSink .unlimited)).2.1.sink.stored = [] ∧
      ((watchedBy ⟨"alarm", some "alarm"⟩).format asPrinted (some {}) (.text "cash" .done)
        'v' "<" ">").1 = Text.bytes "<%!v(PANIC=Format method: alarm)>" ∧
      ((initial .empty).format asPrinted (some {}) (.text "cash" .done) 'v' "<" ">").2.lines .standard ≠
        ((initial .empty).render asText (some {}) (.text "cash" .done)).2.lines .standard := by
  have here : asText.Comes ⟨7⟩ shop (checksOf (.text "cash" .done)) :=
    ⟨rfl, by decide +kernel, by decide +kernel⟩
  have there : asPrinted.Comes ⟨7⟩ shop (checksOf (.text "cash" .done)) :=
    ⟨rfl, by decide +kernel, by decide +kernel⟩
  refine ⟨here, there, fun _ _ _ => rfl, by decide +kernel, by decide +kernel, ?_⟩
  have first : asText.callSite = Frame.home shop := here.callSite List.mem_cons_self
  have second : asPrinted.callSite = Frame.home shop := there.callSite List.mem_cons_self
  let missing : Violation := ⟨⟨"mutator lock", ⟨7⟩, .shared, false, .shared, Frame.home shop⟩, none⟩
  have text : ((initial .empty).render asText (some {}) (.text "cash" .done)).2.lines .standard =
      [logText (fatalText missing asText.trace)] := by
    simp only [missing, ← first]
    rfl
  have printed : ((initial .empty).format asPrinted (some {}) (.text "cash" .done) 'v' "<" ">").2.lines
      .standard = [logText (fatalText missing asPrinted.trace)] := by
    simp only [missing, ← second]
    rfl
  have differ := last_words_differ missing
    (by decide +kernel : (Trace.prune asText.trace).length + 1 < (Trace.prune asPrinted.trace).length)
  rw [text, printed]
  exact fun same => differ (List.cons.inj same).1

end World

end GuardedDump
