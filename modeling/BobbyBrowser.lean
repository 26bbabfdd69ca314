import BobbyBrowser.IdempotencyAgreement
import BobbyBrowser.IdempotencyGuard
import BobbyBrowser.CommandLogRefinement
import BobbyBrowser.SchedulerRun
import BobbyBrowser.SessionSettings
import BobbyBrowser.LadderRecovery
import BobbyBrowser.AuthorityRun
import BobbyBrowser.CompanionsRun
import BobbyBrowser.SchedulerReopen
import BobbyBrowser.SchedulerReports
import BobbyBrowser.EnterCodeSecrecy
import BobbyBrowser.Destinations
import BobbyBrowser.PageTaint
import BobbyBrowser.Receipts
import BobbyBrowser.CheckpointLocks
import BobbyBrowser.Events
import BobbyBrowser.CheckpointProofs
import BobbyBrowser.ExecutorAttempts
import BobbyBrowser.SchedulerPlaces
import BobbyBrowser.IdempotencyEviction
import BobbyBrowser.SchedulerCompaction
import BobbyBrowser.CommandIdentity
import BobbyBrowser.FrameHops
import BobbyBrowser.VisionWindow
import BobbyBrowser.PrincipalPermits
import BobbyBrowser.SessionOwnership
import BobbyBrowser.FrameReader
import BobbyBrowser.WebState
