import GuardedDump.Proofs.Agreement
import GuardedDump.Proofs.Alone
import GuardedDump.Proofs.Brackets
import GuardedDump.Proofs.Commands
import GuardedDump.Proofs.Delivery
import GuardedDump.Proofs.Enrolment
import GuardedDump.Proofs.Exclusion
import GuardedDump.Proofs.Ledger
import GuardedDump.Proofs.Ordered
import GuardedDump.Proofs.Ownership
import GuardedDump.Proofs.Part
import GuardedDump.Proofs.Passage
import GuardedDump.Proofs.Reentry
import GuardedDump.Proofs.Refusal
import GuardedDump.Proofs.Serving
import GuardedDump.Proofs.Stand
import GuardedDump.Proofs.Survey
import GuardedDump.Proofs.SurveyText
import GuardedDump.Proofs.TaskOrder
import GuardedDump.Proofs.Turn
import GuardedDump.Proofs.Visit
import GuardedDump.Session.Request
import GuardedDump.Session.Schedule
import GuardedDump.Session.Settling
import GuardedDump.Sink.Fault
import GuardedDump.Sink.Serial
import GuardedDump.Text.Numeral
import GuardedDump.Proofs.Closing
import GuardedDump.Proofs.Balance
import GuardedDump.Proofs.Counters
import GuardedDump.Proofs.Erasure
import GuardedDump.Proofs.Misuse
import GuardedDump.Proofs.Notices
import GuardedDump.Proofs.Routing
import GuardedDump.Proofs.LogLines
import GuardedDump.Proofs.FirstWarnings
import GuardedDump.Proofs.Hush
import GuardedDump.Proofs.Verbosity
import GuardedDump.Proofs.Rest
import GuardedDump.Proofs.Registration
import GuardedDump.Proofs.CallSites
import GuardedDump.Proofs.WarningKeys
import GuardedDump.Proofs.FirstViolation
import GuardedDump.Proofs.Checks
import GuardedDump.Proofs.CallPaths
import GuardedDump.Proofs.Renderings
import GuardedDump.Proofs.ThreadHeaders
import GuardedDump.Desk
import GuardedDump.Proofs.Configuration
import GuardedDump.Proofs.Restoration
import GuardedDump.Proofs.Scores
import GuardedDump.Proofs.Scribes
import GuardedDump.Proofs.SharedSink
import GuardedDump.Proofs.Cutting
import GuardedDump.Proofs.HoldPlaces
import GuardedDump.Proofs.PrunedFrames
import GuardedDump.Proofs.Listings
import GuardedDump.Proofs.ResponseWords
import GuardedDump.Proofs.NearestFrames
