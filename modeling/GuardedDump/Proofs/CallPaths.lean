import GuardedDump.Proofs.CallSites
import GuardedDump.Proofs.Delivery
import Mathlib.Data.List.Forall2

namespace GuardedDump

namespace Frame

def Near (stack : List Frame) : Prop :=
  stack.findIdx isApplication < window ∨ ∀ frame ∈ stack, frame.isApplication = false

instance (stack : List Frame) : Decidable (Near stack) :=
  inferInstanceAs (Decidable (_ ∨ _))

def home (stack : List Frame) : String :=
  ((stack.find? isApplication).map place).getD nowhere

theorem Near.callSite {stack : List Frame} (near : Near stack) : callSite stack = home stack := by
  rw [callSite_eq, home]
  congr 2
  have whole : (stack.take window ++ stack.drop window).find? isApplication = _ :=
    List.find?_append
  rw [List.take_append_drop] at whole
  cases found : (stack.take window).find? isApplication with
  | some frame => rw [whole, found, Option.some_or]
  | none =>
      rw [whole, found, Option.none_or, eq_comm, List.find?_eq_none]
      intro frame member application
      rcases near with reached | internal
      · -- The frame at the least index would be in the window.
        have long : stack.findIdx isApplication < stack.length :=
          List.findIdx_lt_length_of_exists ⟨frame, List.mem_of_mem_drop member, application⟩
        have inside : stack[stack.findIdx isApplication] ∈ stack.take window :=
          List.mem_take_iff_getElem.mpr ⟨_, by omega, rfl⟩
        exact List.find?_eq_none.mp found _ inside List.findIdx_getElem
      · rw [internal frame (List.mem_of_mem_drop member)] at application
        cases application

theorem home_append (inner outer : List Frame) :
    home (inner ++ outer.filter isApplication) = home (inner ++ outer) := by
  unfold home
  rw [List.find?_append, List.find?_append, List.find?_filter]
  simp only [and_self, Bool.decide_eq_true]

theorem Near.filter {inner outer : List Frame} (near : Near (inner ++ outer)) :
    Near (inner ++ outer.filter isApplication) := by
  rcases near with reached | internal
  · have first : (outer.filter isApplication).findIdx isApplication = 0 := by
      cases found : outer.filter isApplication with
      | nil => rfl
      | cons frame rest =>
          have member : frame ∈ outer.filter isApplication := by simp [found]
          simp [List.findIdx_cons, (List.mem_filter.mp member).2]
    refine .inl ?_
    rw [List.findIdx_append] at reached ⊢
    split at reached
    case isTrue own => rwa [if_pos own]
    case isFalse none =>
      rw [if_neg none, first]
      omega
  · refine .inr fun frame member => internal frame ?_
    rcases List.mem_append.mp member with own | outside
    · exact List.mem_append_left _ own
    · exact List.mem_append_right _ (List.mem_filter.mp outside).1

end Frame

def Value.ways : Value → List Way
  | done => []
  | bytes _ rest => rest.ways
  | listing _ _ rest => rest.ways
  | guarded way _ inner rest => way :: inner.ways.map way.further ++ rest.ways
  | raise _ => []

/-- The thread `t` makes the call from the application stack `app`, and on each of these ways into
the call the nearest application frame is in reach. -/
structure Context.Comes (ctx : Context) (t : Thread) (app : List Frame) (ways : List Way) : Prop where
  thread : ctx.thread = t
  frames : ctx.stack.filter Frame.isApplication = app
  near : ∀ way ∈ ways, Frame.Near (ctx.inside way).stack

namespace Context.Comes

variable {ctx : Context} {t : Thread} {app : List Frame} {ways : List Way} {way : Way}

theorem callSite (comes : ctx.Comes t app ways) (member : way ∈ ways) :
    (ctx.inside way).callSite = Frame.home (way.frames ++ app) := by
  rw [Context.callSite, (comes.near way member).callSite, ← comes.frames]
  exact (Frame.home_append ..).symm

theorem direct (comes : ctx.Comes t app ways) : Comes ⟨t, app, ""⟩ t app ways := by
  refine ⟨rfl, ?_, fun way member => ?_⟩
  · rw [← comes.frames, List.filter_filter]
    congr 1
    funext frame
    exact Bool.and_self _
  · have near := (comes.near way member).filter
    rwa [comes.frames] at near

end Context.Comes

structure Context.Alike (traces : String → String → Prop) (here there : Context) : Prop where
  thread : there.thread = here.thread
  site : there.callSite = here.callSite
  met : traces here.trace there.trace

def Context.Traces (here there : Context) (ways : List Way) (first second : String) : Prop :=
  ∃ way ∈ ways, (here.inside way).trace = first ∧ (there.inside way).trace = second

theorem Context.Comes.alike {here there : Context} {t : Thread} {app : List Frame} {ways : List Way}
    (first : here.Comes t app ways) (second : there.Comes t app ways) {way : Way}
    (member : way ∈ ways) :
    Alike (here.Traces there ways) (here.inside way) (there.inside way) where
  thread := second.thread.trans first.thread.symm
  site := (second.callSite member).trans (first.callSite member).symm
  met := ⟨way, member, rfl, rfl⟩

def Hooks.Unwatched (hooks : Hooks) : Prop :=
  hooks.response ≠ .warn ∧ hooks.handler = none

inductive Event.Twin (hooks : Hooks) (traces : String → String → Prop) : Event → Event → Prop where
  | same (event : Event) : Twin hooks traces event event
  | fatal {first second : String} (unwatched : hooks.Unwatched) (met : traces first second)
      (t : Thread) (logger : Logger) (v : Violation) :
      Twin hooks traces ⟨t, .logged logger (World.logText (World.fatalText v first))⟩
        ⟨t, .logged logger (World.logText (World.fatalText v second))⟩

namespace World

/-- Two worlds that only the traces in last words tell apart. -/
structure Twin (traces : String → String → Prop) (a b : World) : Prop where
  now : b.now = a.now
  locks : b.locks = a.locks
  roster : b.roster = a.roster
  hooks : b.hooks = a.hooks
  warned : b.warned = a.warned
  failures : b.failures = a.failures
  history : List.Forall₂ (Event.Twin a.hooks traces) a.history b.history

variable {traces : String → String → Prop} {a b : World} {here there : Context}

theorem Twin.refl (traces : String → String → Prop) (world : World) : Twin traces world world :=
  ⟨rfl, rfl, rfl, rfl, rfl, rfl, List.forall₂_same.mpr fun event _ => .same event⟩

theorem Twin.eq (twin : Twin traces a b)
    (blind : (∀ first second, traces first second → Trace.prune first = Trace.prune second) ∨
      ¬ a.hooks.Unwatched) : b = a := by
  have equal : ∀ x y, Event.Twin a.hooks traces x y → x = y := by
    intro x y pair
    cases pair with
    | same => rfl
    | @fatal first second unwatched met t logger v =>
        have pruned := blind.resolve_right (not_not_intro unwatched) first second met
        have text : fatalText v first = fatalText v second := by
          unfold fatalText
          rw [pruned]
        rw [text]
  have history := twin.history.imp equal
  rw [List.forall₂_eq_eq_eq] at history
  obtain ⟨now, locks, roster, hooks, warned, failures, -⟩ := twin
  cases a
  cases b
  simp only at now locks roster hooks warned failures history
  rw [now, locks, roster, hooks, warned, failures, history]

theorem Twin.emit (twin : Twin traces a b) (t : Thread) {x y : Happening}
    (pair : Event.Twin a.hooks traces ⟨t, x⟩ ⟨t, y⟩) :
    Twin traces (a.emit t x) (b.emit t y) :=
  { twin with history := List.rel_append twin.history (.cons pair .nil) }

theorem Twin.log (twin : Twin traces a b) (t : Thread) (logger : Logger) (text : String) :
    Twin traces (a.log t logger text) (b.log t logger text) :=
  twin.emit t (.same _)

theorem Twin.warn (twin : Twin traces a b) (t : Thread) (key text : String) :
    Twin traces (a.warn t key text).2 (b.warn t key text).2 := by
  have logger : b.hooks.diagnostics = a.hooks.diagnostics := by rw [twin.hooks]
  unfold World.warn
  rw [twin.warned, logger]
  split
  · exact twin
  · have noted : Twin traces { a with warned := key :: a.warned }
        { b with warned := key :: a.warned } := { twin with warned := rfl }
    exact noted.log t _ text

theorem Twin.abort (twin : Twin traces a b) (unwatched : a.hooks.Unwatched)
    (alike : Context.Alike traces here there) (v : Violation) :
    Twin traces (a.abort here v) (b.abort there v) := by
  unfold World.abort World.log
  rw [alike.thread, twin.hooks]
  exact (twin.emit here.thread (.fatal unwatched alike.met ..)).emit here.thread (.same _)

theorem Twin.deliver (twin : Twin traces a b) (t : Thread) (handler : Handler)
    (v : Violation) :
    (b.deliver t handler v).1 = (a.deliver t handler v).1 ∧
      Twin traces (a.deliver t handler v).2 (b.deliver t handler v).2 := by
  unfold World.deliver
  cases handler.panic with
  | none => exact ⟨rfl, twin.emit t (.same _)⟩
  | some text => exact ⟨rfl, twin.emit t (.same _)⟩

theorem Twin.report (twin : Twin traces a b) (alike : Context.Alike traces here there)
    (v : Violation) (override : Option Handler) :
    (b.report there v override).1 = (a.report here v override).1 ∧
      Twin traces (a.report here v override).2 (b.report there v override).2 := by
  unfold World.report
  rw [twin.hooks, alike.thread]
  split
  · exact ⟨rfl, twin.warn ..⟩
  case h_2 fatal =>
    split
    · exact twin.deliver ..
    · exact twin.deliver ..
    case h_3 nobody => exact ⟨rfl, twin.abort ⟨fatal, nobody⟩ alike v⟩

theorem Twin.lock (twin : Twin traces a b) (id : LockId) : b.lock id = a.lock id := by
  simp only [World.lock, twin.locks]

theorem Twin.violationOf (twin : Twin traces a b) (site : there.callSite = here.callSite)
    (self : Thread) (checker : Checker) :
    (b.violationOf there self checker).1 = (a.violationOf here self checker).1 ∧
      Twin traces (a.violationOf here self checker).2
        (b.violationOf there self checker).2 := by
  cases checker with
  | lock id =>
      simp only [World.violationOf, twin.lock, site]
      exact ⟨trivial, twin⟩
  | rule verdict =>
      simp only [World.violationOf, twin.failures, site]
      split
      · exact ⟨rfl, twin⟩
      · exact ⟨rfl, { twin with failures := rfl }⟩

theorem Twin.demand (twin : Twin traces a b) (alike : Context.Alike traces here there)
    (p : Precondition) :
    (b.demand there p).1 = (a.demand here p).1 ∧
      Twin traces (a.demand here p).2 (b.demand there p).2 := by
  obtain ⟨found, after⟩ := twin.violationOf alike.site (p.self.getD here.thread) p.checker
  unfold World.demand
  rw [alike.thread]
  generalize a.violationOf here (p.self.getD here.thread) p.checker = answer at found after
  generalize b.violationOf there (p.self.getD here.thread) p.checker = answer' at found after
  obtain ⟨verdict, next⟩ := answer
  obtain ⟨verdict', next'⟩ := answer'
  cases found
  cases verdict with
  | none => exact ⟨rfl, after⟩
  | some v =>
      obtain ⟨ending, last⟩ := Twin.report after alike v p.handler
      simp only
      generalize next.report here v p.handler = report at ending last
      generalize next'.report there v p.handler = report' at ending last
      obtain ⟨outcome, world⟩ := report
      obtain ⟨outcome', world'⟩ := report'
      cases ending
      cases outcome with
      | ok => exact ⟨rfl, last⟩
      | error panic => exact ⟨rfl, last⟩

end World

theorem Value.script_twin {traces : String → String → Prop} {here there : Context} (value : Value)
    (alike : ∀ way ∈ value.ways, Context.Alike traces (here.inside way) (there.inside way))
    {a b : World} (twin : World.Twin traces a b) :
    (value.script there b).1 = (value.script here a).1 ∧
      (value.script there b).2.1 = (value.script here a).2.1 ∧
      World.Twin traces (value.script here a).2.2 (value.script there b).2.2 := by
  induction value generalizing here there a b with
  | done | raise => exact ⟨rfl, rfl, twin⟩
  | bytes part rest ih =>
      obtain ⟨ending, payloads, after⟩ := ih alike twin
      exact ⟨ending, congrArg (part :: ·) payloads, after⟩
  | listing lock selection rest ih =>
      obtain ⟨ending, payloads, after⟩ := ih alike twin
      refine ⟨ending, ?_, after⟩
      simp only [Value.script, payloads, twin.lock, twin.now]
  | guarded way p inner rest within behind =>
      have front : way ∈ (guarded way p inner rest).ways := by simp [ways]
      have further (next : Way) (member : next ∈ inner.ways) : Context.Alike traces
          ((here.inside way).inside next) ((there.inside way).inside next) := by
        rw [← Context.inside_further, ← Context.inside_further]
        exact alike _ (List.mem_append_left _ (List.mem_cons_of_mem _ (List.mem_map_of_mem member)))
      have later (next : Way) (member : next ∈ rest.ways) :
          Context.Alike traces (here.inside next) (there.inside next) :=
        alike next (by simp [ways, member])
      obtain ⟨verdict, checked⟩ := twin.demand (alike way front) p
      simp only [Value.script]
      generalize a.demand (here.inside way) p = demand at verdict checked
      generalize b.demand (there.inside way) p = demand' at verdict checked
      obtain ⟨result, next⟩ := demand
      obtain ⟨result', next'⟩ := demand'
      cases verdict
      rcases result with panic | (none | v)
      · exact ⟨rfl, rfl, checked⟩
      · obtain ⟨ending, payloads, after⟩ := within further checked
        simp only at ending payloads after ⊢
        generalize inner.script (here.inside way) next = part at ending payloads after ⊢
        generalize inner.script (there.inside way) next' = part' at ending payloads after ⊢
        obtain ⟨outcome, sent, between⟩ := part
        obtain ⟨outcome', sent', between'⟩ := part'
        cases ending
        cases payloads
        cases outcome with
        | error panic => exact ⟨rfl, rfl, after⟩
        | ok =>
            obtain ⟨ending, payloads, last⟩ := behind later after
            exact ⟨ending, congrArg (sent ++ ·) payloads, last⟩
      · exact behind later checked

end GuardedDump
