import GuardedDump.Dump

namespace GuardedDump

namespace World

structure Unmoved (before after : World) : Prop where
  locks : after.locks = before.locks
  roster : after.roster = before.roster
  hooks : after.hooks = before.hooks
  now : after.now = before.now

theorem Unmoved.refl (world : World) : Unmoved world world := ⟨rfl, rfl, rfl, rfl⟩

theorem Unmoved.trans {a b c : World} (first : Unmoved a b) (second : Unmoved b c) : Unmoved a c :=
  ⟨second.locks.trans first.locks, second.roster.trans first.roster,
    second.hooks.trans first.hooks, second.now.trans first.now⟩

theorem Unmoved.lock {before after : World} (unmoved : Unmoved before after) (id : LockId) :
    after.lock id = before.lock id := by
  simp only [World.lock, unmoved.locks]

theorem warn_unmoved (world : World) (t : Thread) (key text : String) :
    Unmoved world (world.warn t key text).2 := by
  unfold warn
  split <;> exact ⟨rfl, rfl, rfl, rfl⟩

theorem deliver_unmoved (world : World) (t : Thread) (handler : Handler) (v : Violation) :
    Unmoved world (world.deliver t handler v).2 := by
  unfold deliver
  cases handler.panic <;> exact ⟨rfl, rfl, rfl, rfl⟩

theorem report_unmoved (world : World) (ctx : Context) (v : Violation) (override : Option Handler) :
    Unmoved world (world.report ctx v override).2 := by
  unfold report
  split
  · exact warn_unmoved ..
  · split
    · exact deliver_unmoved ..
    · exact deliver_unmoved ..
    · exact ⟨rfl, rfl, rfl, rfl⟩

theorem violationOf_unmoved (world : World) (ctx : Context) (self : Thread) (checker : Checker) :
    Unmoved world (world.violationOf ctx self checker).2 := by
  cases checker with
  | lock id => exact .refl world
  | rule verdict =>
    simp only [violationOf]
    split
    · exact .refl world
    · exact ⟨rfl, rfl, rfl, rfl⟩

theorem demand_unmoved (world : World) (ctx : Context) (p : Precondition) :
    Unmoved world (world.demand ctx p).2 := by
  have found := violationOf_unmoved world ctx (p.self.getD ctx.thread) p.checker
  unfold demand
  split
  case h_1 after outcome => rw [outcome] at found; exact found
  case h_2 v after outcome =>
    rw [outcome] at found
    have reported := report_unmoved after ctx v p.handler
    split
    case h_1 last result => rw [result] at reported; exact found.trans reported
    case h_2 panic last result => rw [result] at reported; exact found.trans reported

end World

theorem Value.dump_unmoved (ctx : Context) (value : Value) (writer : Writer) (world : World) :
    World.Unmoved world (value.dump ctx writer world).2.2 := by
  induction value generalizing ctx writer world with
  | done => exact .refl world
  | bytes part rest ih => exact ih _ _ _
  | listing lock selection rest ih => exact ih _ _ _
  | guarded way p inner rest innerUnmoved restUnmoved =>
    have checked := world.demand_unmoved (ctx.inside way) p
    unfold Value.dump
    split
    case h_1 panic after outcome => rw [outcome] at checked; exact checked
    case h_2 v after outcome => rw [outcome] at checked; exact checked.trans (restUnmoved _ _ _)
    case h_3 after outcome =>
      rw [outcome] at checked
      have dumped := checked.trans (innerUnmoved (ctx.inside way) writer.push after)
      split
      case h_1 panic last world' result => rw [result] at dumped; exact dumped
      case h_2 last world' result => rw [result] at dumped; exact dumped.trans (restUnmoved _ _ _)
  | raise message => exact .refl world

namespace World

theorem writeUnguarded_unmoved (world : World) (ctx : Context) (value : Value) (writer : Writer) :
    Unmoved world (world.writeUnguarded ctx value writer).2.2 := by
  have dumped := value.dump_unmoved ctx writer.push world
  unfold writeUnguarded
  split
  case h_1 panic last after result => rw [result] at dumped; exact dumped
  case h_2 last after result => rw [result] at dumped; exact dumped

theorem write_unmoved (world : World) (ctx : Context) (p : Precondition) (value : Value)
    (writer : Writer) : Unmoved world (world.write ctx p value writer).2.2 := by
  have checked := world.demand_unmoved ctx p
  unfold write
  split
  case h_1 panic after outcome => rw [outcome] at checked; exact checked
  case h_2 v after outcome => rw [outcome] at checked; exact checked
  case h_3 after outcome =>
    rw [outcome] at checked
    exact checked.trans (after.writeUnguarded_unmoved ctx value writer)

theorem writeAny_unmoved (world : World) (ctx : Context) (p : Option Precondition) (value : Value)
    (writer : Writer) : Unmoved world (world.writeAny ctx p value writer).2.2 := by
  cases p with
  | none => exact world.writeUnguarded_unmoved ctx value writer
  | some p => exact world.write_unmoved ctx p value writer

theorem writeBetween_unmoved (world : World) (ctx : Context) (p : Precondition) (value : Value)
    (lead tail : String) (writer : Writer) :
    Unmoved world (world.writeBetween ctx p value lead tail writer).2.2 := by
  have written := world.write_unmoved ctx p value (writer.put (Text.bytes lead))
  unfold writeBetween
  split
  case h_1 panic last after result => rw [result] at written; exact written
  case h_2 receipt last after result => rw [result] at written; exact written

theorem render_unmoved (world : World) (ctx : Context) (p : Option Precondition) (value : Value) :
    Unmoved world (world.render ctx p value).2 := by
  have written := world.writeAny_unmoved ctx p value (.ofSink .unlimited)
  unfold render
  split
  case h_1 panic last after result => rw [result] at written; exact written
  case h_2 receipt last after result => rw [result] at written; exact written

theorem format_unmoved (world : World) (ctx : Context) (p : Option Precondition) (value : Value)
    (verb : Char) (lead tail : String) :
    Unmoved world (world.format ctx p value verb lead tail).2 := by
  have written := world.writeAny_unmoved ctx p value ((Writer.ofSink .unlimited).put (Text.bytes lead))
  unfold format
  split
  case h_1 panic last after result => rw [result] at written; exact written
  case h_2 receipt last after result => rw [result] at written; exact written

end World

end GuardedDump
