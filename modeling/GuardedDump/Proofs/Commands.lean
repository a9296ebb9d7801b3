import GuardedDump.Dump.Unmoved
import GuardedDump.Session.Request

namespace GuardedDump

namespace World

structure Tuned (before after : World) : Prop where
  count : after.locks.length = before.locks.length
  gate : ∀ id, (after.lock id).gate = (before.lock id).gate
  table : ∀ id, (after.lock id).table = (before.lock id).table
  internal : ∀ id, (after.lock id).internal = (before.lock id).internal
  name : ∀ id, (after.lock id).name = (before.lock id).name
  acquired : ∀ id, (after.lock id).acquired = (before.lock id).acquired
  contentions : ∀ id, (after.lock id).contentions = (before.lock id).contentions
  roster : after.roster = before.roster

theorem Tuned.refl (world : World) : Tuned world world :=
  ⟨rfl, fun _ => rfl, fun _ => rfl, fun _ => rfl, fun _ => rfl, fun _ => rfl, fun _ => rfl, rfl⟩

theorem tuned_of_locks {before after : World} (locks : after.locks = before.locks)
    (roster : after.roster = before.roster) : Tuned before after := by
  have lock (id : LockId) : after.lock id = before.lock id := by simp only [World.lock, locks]
  exact ⟨by rw [locks], fun id => by rw [lock], fun id => by rw [lock], fun id => by rw [lock],
    fun id => by rw [lock], fun id => by rw [lock], fun id => by rw [lock], roster⟩

theorem Unmoved.tuned {before after : World} (unmoved : Unmoved before after) :
    Tuned before after :=
  tuned_of_locks unmoved.locks unmoved.roster

theorem modifyLock_keeps {α : Type} (view : Lock → α) (world : World) (id : LockId)
    {f : Lock → Lock} (kept : ∀ lock, view (f lock) = view lock) (other : LockId) :
    view ((world.modifyLock id f).lock other) = view (world.lock other) := by
  unfold modifyLock
  by_cases same : other = id
  · subst same
    rw [lock_setLock]
    split
    · exact kept _
    · rfl
  · rw [lock_setLock_of_ne world same]

theorem modifyLock_tuned (world : World) (id : LockId) {f : Lock → Lock}
    (settings : ∀ lock, ∃ level timeout, f lock = { lock with level, timeout }) :
    Tuned world (world.modifyLock id f) := by
  have kept {α : Type} (view : Lock → α)
      (blind : ∀ lock level timeout, view { lock with level, timeout } = view lock) :
      ∀ other, view ((world.modifyLock id f).lock other) = view (world.lock other) := by
    apply world.modifyLock_keeps view id
    intro lock
    obtain ⟨level, timeout, same⟩ := settings lock
    rw [same, blind]
  exact ⟨List.length_set .., kept Lock.gate fun _ _ _ => rfl, kept Lock.table fun _ _ _ => rfl,
    kept Lock.internal fun _ _ _ => rfl, kept Lock.name fun _ _ _ => rfl, kept Lock.acquired fun _ _ _ => rfl,
    kept Lock.contentions fun _ _ _ => rfl, rfl⟩

theorem apply_tuned {world after : World} {settings : Settings}
    (applied : world.apply settings = .ok after) : Tuned world after := by
  unfold apply at applied
  split at applied
  · cases applied
  · split at applied
    · cases applied
    · cases applied
      have tuned := world.modifyLock_tuned mainLock
        (f := fun lock => { lock.setLevel settings.level with timeout := settings.timeout })
        fun _ => ⟨_, _, rfl⟩
      exact ⟨tuned.count, tuned.gate, tuned.table, tuned.internal, tuned.name, tuned.acquired, tuned.contentions,
        tuned.roster⟩

end World

def Command.isPlain : Command → Bool
  | newLock .. => false
  | inject .. => false
  | _ => true

def Command.isInert : Command → Bool
  | newLock .. | inject .. | setTimeout .. | setLevel .. => false
  | setHandler .. | setResponse .. | restore .. | setLogger .. => false
  | apply .. | readAndApply .. => false
  | _ => true

namespace Session

theorem applied_pending (session : Session) (settings : Settings) :
    (session.applied settings).2.pending = session.pending := by
  unfold applied
  split <;> rfl

theorem applied_tuned (session : Session) (settings : Settings) :
    World.Tuned session.world (session.applied settings).2.world := by
  unfold applied
  split
  case h_1 => exact .refl _
  case h_2 world applied => exact World.apply_tuned applied

theorem applied_keeps {α : Type} (view : World → α)
    (blind : ∀ world locks hooks, view { world with locks, hooks } = view world) (session : Session)
    (settings : Settings) : view (session.applied settings).2.world = view session.world := by
  unfold applied
  split
  · rfl
  case h_2 world result =>
    unfold World.apply at result
    split at result
    · cases result
    · split at result <;> cases result
      exact blind session.world _ _

theorem ofResult_world (session : Session) (reply : Reply) (result : Except Panic Unit × World) :
    (session.ofResult reply result).2.world = result.2 ∧
      (session.ofResult reply result).2.pending = session.pending := by
  obtain ⟨outcome, world⟩ := result
  cases outcome <;> exact ⟨rfl, rfl⟩

theorem perform_pending (session : Session) (ctx : Context) (command : Command) :
    (session.perform ctx command).2.pending = session.pending := by
  cases command with
  | enterUnknown id access =>
      simp only [perform]
      split <;> rfl
  | insist id thread required =>
      simp only [perform]
      split
      · rfl
      · exact (ofResult_world ..).2
  | writeUnguarded value sink =>
      simp only [perform]
      split <;> rfl
  | writeBetween p value lead tail sink =>
      simp only [perform]
      split <;> rfl
  | render p value =>
      simp only [perform]
      split <;> rfl
  | restore index =>
      simp only [perform]
      split <;> rfl
  | report v handler => exact (ofResult_world ..).2
  | apply settings => exact applied_pending ..
  | readAndApply reader environment =>
      simp only [perform]
      split
      · rfl
      · exact applied_pending ..
  | _ => rfl

theorem ofResult_restores (session : Session) (reply : Reply) (result : Except Panic Unit × World) :
    (session.ofResult reply result).2.restores = session.restores := by
  obtain ⟨outcome, world⟩ := result
  cases outcome <;> rfl

theorem perform_enterUnknown (session : Session) (ctx : Context) (id : LockId) (access : Access) :
    session.perform ctx (.enterUnknown id access) =
      (.panicked (.unknownThread (session.world.lock id).name .unknown), session) := by
  simp only [perform, Lock.consult, show Thread.unknown.isKnown = false from rfl, Bool.not_false,
    if_true, World.setLock_lock]

theorem perform_inert (session : Session) (ctx : Context) {command : Command}
    (inert : command.isInert = true) :
    World.Unmoved session.world (session.perform ctx command).2.world ∧
      (session.perform ctx command).2.restores = session.restores := by
  cases command with
  | newLock | inject | setTimeout | setLevel | setHandler | setResponse | restore | setLogger
  | apply | readAndApply => cases inert
  | enterUnknown id access =>
      rw [perform_enterUnknown]
      exact ⟨.refl _, rfl⟩
  | insist id thread required =>
      simp only [perform]
      split
      · exact ⟨.refl _, rfl⟩
      case h_2 v found =>
        rw [(ofResult_world ..).1]
        exact ⟨session.world.report_unmoved ctx v none, session.ofResult_restores ..⟩
  | writeUnguarded value sink =>
      have written := session.world.writeUnguarded_unmoved ctx value (.ofSink sink)
      simp only [perform]
      split
      case h_1 panic writer world result => rw [result] at written; exact ⟨written, rfl⟩
      case h_2 receipt writer world result => rw [result] at written; exact ⟨written, rfl⟩
  | writeBetween p value lead tail sink =>
      have written := session.world.writeBetween_unmoved ctx p value lead tail (.ofSink sink)
      simp only [perform]
      split
      case h_1 panic writer world result => rw [result] at written; exact ⟨written, rfl⟩
      case h_2 writer world result => rw [result] at written; exact ⟨written, rfl⟩
  | render p value =>
      have written := session.world.render_unmoved ctx p value
      simp only [perform]
      split
      case h_1 panic world result => rw [result] at written; exact ⟨written, rfl⟩
      case h_2 bytes world result => rw [result] at written; exact ⟨written, rfl⟩
  | format p value verb lead tail =>
      exact ⟨session.world.format_unmoved ctx p value verb lead tail, rfl⟩
  | report v handler =>
      simp only [perform]
      rw [(ofResult_world ..).1]
      exact ⟨session.world.report_unmoved ctx v handler, session.ofResult_restores ..⟩
  | warn key text => exact ⟨session.world.warn_unmoved ctx.thread key text, rfl⟩
  | _ => exact ⟨⟨rfl, rfl, rfl, rfl⟩, rfl⟩

theorem perform_tuned (session : Session) (ctx : Context) {command : Command}
    (plain : command.isPlain = true) :
    World.Tuned session.world (session.perform ctx command).2.world := by
  by_cases inert : command.isInert = true
  · exact (session.perform_inert ctx inert).1.tuned
  cases command with
  | newLock | inject => cases plain
  | setTimeout id timeout =>
      exact session.world.modifyLock_tuned id fun _ => ⟨_, _, rfl⟩
  | setLevel id level =>
      exact session.world.modifyLock_tuned id fun _ => ⟨_, _, rfl⟩
  | setHandler | setResponse | setLogger => exact World.tuned_of_locks rfl rfl
  | restore index =>
      simp only [perform]
      split
      · exact .refl _
      · exact World.tuned_of_locks rfl rfl
  | apply settings => exact session.applied_tuned settings
  | readAndApply reader environment =>
      simp only [perform]
      split
      · exact .refl _
      · exact session.applied_tuned _
  | _ => exact absurd rfl inert

end Session

end GuardedDump
