import GuardedDump.Proofs.FirstWarnings

/-!
# Which warnings are kept back

A warning is known by the name of its lock and its call site in one text, with `@` between them. Two
violations have the same text if they agree in both, or if the parts meet at another `@`
(`World.warningKey_eq_iff`). So a violation at a new site goes unmentioned after one of another lock
(`Session.shared_key_silences`). Nothing else keeps a warning back
(`Session.warning_unless_blurred`), and nothing does where lock names or call sites are free of `@`.
-/

namespace GuardedDump

namespace Text

variable {a b x y : String}

theorem joined_of_longer {rest : List Char} (long : b.toList = a.toList ++ rest)
    (short : '@' :: x.toList = rest ++ '@' :: y.toList) :
    (a = b ∧ x = y) ∨ ∃ between, b = a ++ "@" ++ between ∧ x = between ++ "@" ++ y := by
  cases rest with
  | nil =>
      rw [List.append_nil, String.toList_inj] at long
      exact .inl ⟨long.symm, String.toList_inj.mp (List.cons.inj short).2⟩
  | cons first between =>
      obtain ⟨rfl, tails⟩ := List.cons.inj short
      refine .inr ⟨String.ofList between, ?_, ?_⟩
      · rw [← String.toList_inj, long]
        simp
      · rw [← String.toList_inj, tails]
        simp

/-- Two texts with `@` in the middle are the same if their parts are, or if the parts of one meet
inside a part of the other. -/
theorem joined_eq_iff :
    a ++ "@" ++ x = b ++ "@" ++ y ↔
      (a = b ∧ x = y) ∨ (∃ between, a = b ++ "@" ++ between ∧ y = between ++ "@" ++ x) ∨
        ∃ between, b = a ++ "@" ++ between ∧ x = between ++ "@" ++ y := by
  constructor
  · intro same
    have letters : a.toList ++ '@' :: x.toList = b.toList ++ '@' :: y.toList := by
      simpa using congrArg String.toList same
    rcases List.append_eq_append_iff.mp letters with ⟨rest, long, short⟩ | ⟨rest, long, short⟩
    · rcases joined_of_longer long short with equal | inside
      · exact .inl equal
      · exact .inr (.inr inside)
    · rcases joined_of_longer long short with ⟨rfl, rfl⟩ | inside
      · exact .inl ⟨rfl, rfl⟩
      · exact .inr (.inl inside)
  · rintro (⟨rfl, rfl⟩ | ⟨between, rfl, rfl⟩ | ⟨between, rfl, rfl⟩) <;> simp [String.append_assoc]

end Text

namespace Finding

def SameSite (a b : Finding) : Prop :=
  a.lock = b.lock ∧ a.caller = b.caller

instance (a b : Finding) : Decidable (a.SameSite b) :=
  inferInstanceAs (Decidable (_ ∧ _))

/-- No warning tells the two apart: they agree in lock and call site, or their parts meet at another
`@`. -/
def Blurs (a b : Finding) : Prop :=
  a.SameSite b ∨
    (∃ between, a.lock = b.lock ++ "@" ++ between ∧ b.caller = between ++ "@" ++ a.caller) ∨
    ∃ between, b.lock = a.lock ++ "@" ++ between ∧ a.caller = between ++ "@" ++ b.caller

variable {a b : Finding}

theorem Blurs.sameSite_of_plain_locks (blurs : a.Blurs b) (first : '@' ∉ a.lock.toList)
    (second : '@' ∉ b.lock.toList) : a.SameSite b := by
  rcases blurs with same | ⟨between, long, -⟩ | ⟨between, long, -⟩
  · exact same
  · rw [long] at first
    simp at first
  · rw [long] at second
    simp at second

theorem Blurs.sameSite_of_plain_callers (blurs : a.Blurs b) (first : '@' ∉ a.caller.toList)
    (second : '@' ∉ b.caller.toList) : a.SameSite b := by
  rcases blurs with same | ⟨between, -, long⟩ | ⟨between, -, long⟩
  · exact same
  · rw [long] at second
    simp at second
  · rw [long] at first
    simp at first

end Finding

namespace World

variable {world : World} {earlier : List Caution} {lines : List Event}

theorem warningKey_eq_iff (v w : Violation) :
    warningKey v = warningKey w ↔ v.finding.Blurs w.finding :=
  Text.joined_eq_iff

def warningEvent (world : World) (notice : Notice) : Event :=
  ⟨notice.ctx.thread, .logged world.hooks.diagnostics ("WARNING: lock invariant violated: " ++
    notice.violation.text ++ " (at " ++ notice.violation.finding.caller ++ ")\n")⟩

theorem Heeds.mem_warned_iff (heeds : world.Heeds earlier lines) (v : Violation) :
    warningKey v ∈ world.warned ↔
      ∃ caution ∈ earlier, caution.violation.finding.Blurs v.finding := by
  rw [heeds.keys, List.mem_map]
  have same (caution : Caution) : caution.key = warningKey v ↔
      caution.violation.finding.Blurs v.finding :=
    warningKey_eq_iff caution.violation v
  simp only [same]

theorem Heeds.take_warning (heeds : world.Heeds earlier lines) {notice : Notice}
    (warning : notice.destination = .warning) :
    ((∃ caution ∈ earlier, caution.violation.finding.Blurs notice.violation.finding) →
      world.take notice = world) ∧
    ((∀ caution ∈ earlier, ¬ caution.violation.finding.Blurs notice.violation.finding) →
      (world.take notice).history = world.history ++ [world.warningEvent notice]) := by
  have known := heeds.mem_warned_iff notice.violation
  simp only [World.take, warning, World.warn, List.contains_iff_mem]
  constructor
  · intro before
    rw [if_pos (known.mpr before)]
  · intro never
    rw [if_neg]
    · rw [warningEvent, ← logText_warningText]
      rfl
    · intro warned
      obtain ⟨caution, member, blurs⟩ := known.mp warned
      exact never caution member blurs

end World

namespace Session

variable {failures : Failures} {past : List (Session × Move)} {session after : Session}
  {move : Move} {before later : List Notice} {notice : Notice}

theorem Run.heeds (run : Run failures past session)
    (indirect : ∀ moment ∈ past, moment.2.warns = false) :
    ∃ lines, session.world.Heeds ((sinceReset past).flatMap cautions) lines := by
  induction run with
  | initial => exact ⟨[], fun _ => Iff.rfl, rfl⟩
  | @next past session after move previous allowed action ih =>
      obtain ⟨lines, heeds⟩ := ih fun moment member => indirect moment (by simp [member])
      have own := indirect (session, move) (by simp)
      cases forgets : move.forgets with
      | false =>
          have kept : sinceReset (past ++ [(session, move)]) =
              sinceReset past ++ [(session, move)] :=
            List.rtakeWhile_concat_pos _ _ _ (by simp [forgets])
          refine ⟨lines ++ adds (session, move), ?_⟩
          rw [kept, List.flatMap_append, List.flatMap_singleton]
          exact (move?_heeds heeds action own forgets).2
      | true =>
          have cleared : sinceReset (past ++ [(session, move)]) = [] :=
            List.rtakeWhile_concat_neg _ _ _ (by simp [forgets])
          have forgotten : after.world.warned = [] := by
            cases move with
            | command ctx command =>
                cases command with
                | forgetWarnings =>
                    simp only [move?] at action
                    split at action <;> cases action
                    rfl
                | _ => cases forgets
            | _ => cases forgets
          refine ⟨[], ?_⟩
          rw [cleared]
          exact ⟨fun _ => by rw [forgotten]; rfl, rfl⟩

def Logs (session after : Session) (before : List Notice) (notice : Notice) : Prop :=
  ∃ late, after.world.history = (before.foldl World.take session.world).history ++
    session.world.warningEvent notice :: late

/-- What becomes of a violation that is reported under the warning response, in a move that has
reported `before`, and with the cautions `earlier` since the last reset. -/
structure Mentions (session after : Session) (earlier : List Caution) (before : List Notice)
    (notice : Notice) : Prop where
  logged : (∀ caution ∈ earlier, ¬ caution.violation.finding.Blurs notice.violation.finding) →
    session.Logs after before notice
  silenced : (∃ caution ∈ earlier, caution.violation.finding.Blurs notice.violation.finding) →
    (before.foldl World.take session.world).take notice = before.foldl World.take session.world
  plain : (∀ caution ∈ earlier, ¬ caution.violation.finding.SameSite notice.violation.finding) →
    ('@' ∉ notice.violation.finding.lock.toList ∧
        ∀ caution ∈ earlier, '@' ∉ caution.violation.finding.lock.toList) ∨
      ('@' ∉ notice.violation.finding.caller.toList ∧
        ∀ caution ∈ earlier, '@' ∉ caution.violation.finding.caller.toList) →
    session.Logs after before notice

theorem warning_unless_blurred (run : Run failures past session)
    (indirect : ∀ moment ∈ past, moment.2.warns = false)
    (action : session.move? move = some after)
    (found : session.notices? move = some (before ++ notice :: later))
    (warning : notice.destination = .warning) :
    session.Mentions after
      ((sinceReset past).flatMap cautions ++ before.filterMap session.world.caution?) before
      notice := by
  obtain ⟨lines, heeds⟩ := run.heeds indirect
  obtain ⟨more, -, here⟩ := heeds.takeAll before
  obtain ⟨silenced, logged⟩ := here.take_warning warning
  obtain ⟨_, _, there⟩ := here.take notice
  obtain ⟨late, grown, -⟩ := there.takeAll later
  have told := move?_tells action
  rw [found] at told
  have history := told.history
  rw [List.foldl_append, List.foldl_cons, grown] at history
  have logs (fresh : ∀ caution ∈ (sinceReset past).flatMap cautions ++
      before.filterMap session.world.caution?,
      ¬ caution.violation.finding.Blurs notice.violation.finding) :
      session.Logs after before notice := by
    refine ⟨late, ?_⟩
    rw [history, logged fresh, List.append_assoc]
    simp only [World.warningEvent, World.hooks_takeAll, List.singleton_append]
  refine ⟨logs, silenced, ?_⟩
  intro new clean
  apply logs
  intro caution member blurs
  rcases clean with ⟨own, others⟩ | ⟨own, others⟩
  · exact new caution member (blurs.sameSite_of_plain_locks (others caution member) own)
  · exact new caution member (blurs.sameSite_of_plain_callers (others caution member) own)

def namesakes : Failures :=
  ((((Failures.empty.add
    ⟨"db@/go/pkg/mod/store", ⟨9⟩, .shared, false, .shared, "v2/s.go:3"⟩ none).add
    ⟨"db", ⟨9⟩, .shared, false, .shared, "/go/pkg/mod/store@v2/s.go:3"⟩ none).offer
    ⟨.violation 0, by decide⟩).offer ⟨.violation 1, by decide⟩)

def objecting (id : FailureId) : Precondition := { checker := .rule fun _ => some id }

def meeting : List Move := [
  .command (.bare 1) (.setResponse .warn),
  .start (.bare 1) 0 (.write (objecting 0) .done .unlimited), .step ⟨1⟩, .finish ⟨1⟩,
  .start (.bare 1) 1 (.write (objecting 1) .done .unlimited)]

def met : Session := ((initial namesakes).follow meeting).getD (initial namesakes)

theorem met_run : Run namesakes ((initial namesakes).moments meeting) met :=
  Run.initial.follow (by decide) (rfl : (initial namesakes).follow meeting = some met)

def bystander : Notice :=
  ⟨.bare 2, ⟨⟨"mutator lock", ⟨2⟩, .shared, false, .shared, "unknown"⟩, none⟩, .warning⟩

theorem meeting_mentions :
    ∃ after, met.move? (.command (.bare 2) (.insist 0 ⟨2⟩ .shared)) = some after ∧
      met.notices? (.command (.bare 2) (.insist 0 ⟨2⟩ .shared)) = some [bystander] ∧
      met.Mentions after ((sinceReset ((initial namesakes).moments meeting)).flatMap cautions) []
        bystander ∧
      met.Logs after [] bystander := by
  have found : met.notices? (.command (.bare 2) (.insist 0 ⟨2⟩ .shared)) =
      some ([] ++ bystander :: []) := rfl
  have mentions := warning_unless_blurred met_run (by decide +kernel) rfl found rfl
  refine ⟨_, rfl, found, mentions, mentions.plain ?_ (.inr ?_)⟩ <;> decide +kernel

/-- The second violation names another lock and another place than the first, and the log does not
mention it. -/
theorem shared_key_silences :
    Run namesakes ((initial namesakes).moments meeting) met ∧
      (∀ moment ∈ (initial namesakes).moments meeting, moment.2.warns = false) ∧
      (∃ notice, met.notices? (.step ⟨1⟩) = some [notice] ∧ notice.destination = .warning ∧
        ∀ caution ∈ (sinceReset ((initial namesakes).moments meeting)).flatMap cautions,
          ¬ caution.violation.finding.SameSite notice.violation.finding) ∧
      (met.move? (.step ⟨1⟩)).isSome = true ∧ (adds (met, .step ⟨1⟩)).isEmpty = true := by
  refine ⟨met_run, ?_, ⟨_, rfl, ?_, ?_⟩, ?_, ?_⟩ <;> decide +kernel

end Session

end GuardedDump
