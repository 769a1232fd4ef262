import FtpControl.Command
import FtpControl.Failure.Record
import FtpControl.Main
import FtpControl.Proofs.BufferBound
import FtpControl.Proofs.ConsistentUse
import FtpControl.Proofs.Continuations
import FtpControl.Proofs.Coupling
import FtpControl.Proofs.DateColumn
import FtpControl.Proofs.Dialling
import FtpControl.Proofs.Dialogue
import FtpControl.Proofs.Ending
import FtpControl.Proofs.ExitStatus
import FtpControl.Proofs.Failover
import FtpControl.Proofs.Framing
import FtpControl.Proofs.JsonDecoding
import FtpControl.Proofs.JsonLines
import FtpControl.Proofs.JsonPrinting
import FtpControl.Proofs.LineLimit
import FtpControl.Proofs.ListingCollection
import FtpControl.Proofs.ListingReading
import FtpControl.Proofs.Loading
import FtpControl.Proofs.Lockstep
import FtpControl.Proofs.LoopHead
import FtpControl.Proofs.Offsets
import FtpControl.Proofs.Operations
import FtpControl.Proofs.PassingDays
import FtpControl.Proofs.PasswordIndependence
import FtpControl.Proofs.RecentDate
import FtpControl.Proofs.Reception
import FtpControl.Proofs.Reconnect
import FtpControl.Proofs.Refusals
import FtpControl.Proofs.ReplyFraming
import FtpControl.Proofs.ReplyJudgement
import FtpControl.Proofs.Secrecy
import FtpControl.Proofs.Sending
import FtpControl.Proofs.SessionInvariance
import FtpControl.Proofs.SessionOutline
import FtpControl.Proofs.Simulation
import FtpControl.Proofs.Teardown
import FtpControl.Proofs.Timeline
import FtpControl.Proofs.TimestampText
import FtpControl.Proofs.Upgrade
import FtpControl.Proofs.Usage
import FtpControl.Proofs.Watchdog
import FtpControl.Proofs.Wire
import FtpControl.Reply
import FtpControl.Script.ConsoleBench
