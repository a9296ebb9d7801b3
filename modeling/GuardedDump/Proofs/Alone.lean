import GuardedDump.Call

namespace GuardedDump

@[simp] theorem Writer.close_pop (writer : Writer) : writer.pop.2.close = writer.close := by
  unfold Writer.pop
  split <;> rfl

theorem Value.dump_guarded (ctx : Context) (way : Way) (p : Precondition) (inner rest : Value)
    (writer : Writer) (world : World) :
    (Value.guarded way p inner rest).dump ctx writer world =
      match world.write (ctx.inside way) p inner writer with
      | (.error panic, writer, world) => (.error panic, writer, world)
      | (.ok _, writer, world) => rest.dump ctx writer world := by
  simp only [Value.dump, World.write, World.writeUnguarded]
  cases world.demand (ctx.inside way) p with
  | mk verdict after =>
      rcases verdict with panic | (none | v)
      · rfl
      · simp only
        cases inner.dump (ctx.inside way) writer.push after with
        | mk result left => cases result <;> rfl
      · rfl

namespace Call

/-- From one state to another by steps of the call alone, with `P` before every step. -/
inductive Runs (P : World → Call → Prop) : World → Call → World → Call → Prop where
  | stop {world : World} {call : Call} : Runs P world call world call
  | step {world next last : World} {call after ended : Call} (here : P world call)
      (first : call.step world = some (next, after)) (more : Runs P next after last ended) :
      Runs P world call last ended

theorem Runs.trans {P : World → Call → Prop} {world middle last : World} {call halfway ended : Call}
    (first : Runs P world call middle halfway) (second : Runs P middle halfway last ended) :
    Runs P world call last ended := by
  induction first with
  | stop => exact second
  | step here action _ ih => exact .step here action (ih second)

theorem Runs.mono {P Q : World → Call → Prop} (weaker : ∀ world call, P world call → Q world call)
    {world last : World} {call ended : Call} (runs : Runs P world call last ended) :
    Runs Q world call last ended := by
  induction runs with
  | stop => exact .stop
  | step here action _ ih => exact .step (weaker _ _ here) action ih

def Leads (world : World) (call : Call) (outcome : World × Call) : Prop :=
  Runs (fun _ _ => True) world call outcome.1 outcome.2

theorem Leads.refl (world : World) (call : Call) : Leads world call (world, call) :=
  Runs.stop

theorem Leads.step {world : World} {call : Call} {next outcome : World × Call}
    (first : call.step world = some next) (more : Leads next.1 next.2 outcome) :
    Leads world call outcome :=
  Runs.step trivial first more

def dumped (call : Call) (role : Role) (p : Precondition) : Dumped Unit → World × Call
  | (.ok (), writer, world) => (world, { call with writer }.next (.dump role p .done))
  | (.error panic, writer, world) => (world, { call with writer }.abandon panic)

def written (call : Call) (role : Role) : Dumped Receipt → World × Call
  | (.ok receipt, writer, world) => (world, { call with writer }.settle role receipt)
  | (.error panic, writer, world) => (world, { call with writer }.abandon panic)

theorem abandon_pop (call : Call) (writer : Writer) (panic : Panic) :
    { call with writer := writer.pop.2 }.abandon panic = { call with writer }.abandon panic := by
  simp only [abandon, Writer.close_pop]

section Parts

variable {value : Value}
  (dumps : ∀ (world : World) (call : Call) (role : Role) (p : Precondition),
    Leads world (call.next (.dump role p value))
      (call.dumped role p (value.dump (call.ctx.inside role.way) call.writer world)))
include dumps

theorem writeUnguarded_leads (world : World) (call : Call) (role : Role) (p : Precondition) :
    Leads world ({ call with writer := call.writer.push }.next (.dump role p value))
      (call.written role
        (world.writeUnguarded (call.ctx.inside role.way) value call.writer)) := by
  have inside := dumps world { call with writer := call.writer.push } role p
  unfold World.writeUnguarded
  simp only at inside
  cases result : value.dump (call.ctx.inside role.way) call.writer.push world with
  | mk ending rest =>
      obtain ⟨writer, after⟩ := rest
      rw [result] at inside
      cases ending with
      | ok => exact inside.trans (Leads.step rfl (.refl ..))
      | error panic =>
          simp only [written, abandon_pop]
          exact inside

theorem write_leads_of_dump (world : World) (call : Call) (role : Role) (p : Precondition) :
    Leads world (call.next (.demand role p value))
      (call.written role (world.write (call.ctx.inside role.way) p value call.writer)) := by
  have first : (call.next (.demand role p value)).step world =
      some (stepDemand world call role p value) := rfl
  apply Leads.step first
  unfold stepDemand World.write
  cases world.demand (call.ctx.inside role.way) p with
  | mk verdict after =>
      rcases verdict with panic | (none | v)
      · exact .refl ..
      · exact writeUnguarded_leads dumps after call role p
      · exact .refl ..

end Parts

theorem dump_leads (value : Value) (world : World) (call : Call) (role : Role) (p : Precondition) :
    Leads world (call.next (.dump role p value))
      (call.dumped role p (value.dump (call.ctx.inside role.way) call.writer world)) := by
  induction value generalizing world call role p with
  | done => exact .refl ..
  | bytes part rest ih =>
      exact .step rfl (ih world { call with writer := call.writer.put part } role p)
  | listing lock selection rest ih =>
      exact .step rfl (ih world _ role p)
  | guarded way q inner rest innerLeads restLeads =>
      rw [Value.dump_guarded, ← Context.inside_further]
      have inside := write_leads_of_dump innerLeads world (call.next (.dump role p rest))
        (.inner (role.way.further way)) q
      apply Leads.step rfl
      simp only [next, Role.way_inner] at inside
      cases result : world.write (call.ctx.inside (role.way.further way)) q inner call.writer with
      | mk ending last =>
          obtain ⟨writer, after⟩ := last
          rw [result] at inside
          cases ending with
          | ok receipt => exact inside.trans (restLeads after { call with writer } role p)
          | error panic => exact inside
  | raise message => exact .step rfl (.refl ..)

theorem write_leads (world : World) (call : Call) (role : Role) (p : Precondition) (value : Value) :
    Leads world (call.next (.demand role p value))
      (call.written role (world.write (call.ctx.inside role.way) p value call.writer)) :=
  write_leads_of_dump (dump_leads value) world call role p

def ended (ctx : Context) : Dumped Receipt → World × Call
  | (.ok receipt, writer, world) => (world, ⟨ctx, [], writer, receipt, none⟩)
  | (.error panic, writer, world) => (world, ⟨ctx, [], writer.close, ⟨0, none⟩, some panic⟩)

theorem written_start (ctx : Context) (sink : Sink) (outcome : Dumped Receipt) :
    (start ctx [] sink).written .result outcome = ended ctx outcome := by
  obtain ⟨ending, writer, world⟩ := outcome
  cases ending with
  | ok receipt =>
      obtain ⟨count, failure⟩ := receipt
      cases failure <;> rfl
  | error panic => rfl

theorem operation_write_leads (world : World) (ctx : Context) (p : Precondition) (value : Value)
    (sink : Sink) :
    Leads world ((Operation.write p value sink).call ctx)
      (ended ctx (world.write ctx p value (.ofSink sink))) := by
  rw [← written_start ctx sink]
  exact write_leads world (start ctx [] sink) .result p value

end Call

end GuardedDump
