import Skillsync.Runs
import Skillsync.RecordOrder
import Skillsync.Replication
import Skillsync.WalkSpec
import Skillsync.Health
import Skillsync.Fingerprints
import Skillsync.InstallRace
import Skillsync.RemovalRace
import Skillsync.Manifest
import Skillsync.RosterSelection
import Skillsync.RosterRace
import Skillsync.LogEntries
import Skillsync.RepeatedSessions
import Skillsync.NetworkLoop
import Skillsync.RootBinding
import Skillsync.Advertising
import Skillsync.TreeReplaySpec
import Skillsync.RosterReplaySpec
import Skillsync.MessagesSpec
import Skillsync.JoinedInstall
import Skillsync.Reconciliation
import Skillsync.HintAcceptance
import Skillsync.LearnedRemoval
import Skillsync.JoinRuns
import Skillsync.JoinApprovalSpec
import Skillsync.RosterLimits
import Skillsync.Readmission
import Skillsync.SessionCounts
import Skillsync.PathRecordsSpec
import Skillsync.StoreMirror
import Skillsync.ClockSkew
import Skillsync.RosterCommit
import Skillsync.JoinRefusal
import Skillsync.Paging
import Skillsync.LogPages
import Skillsync.Transfers
import Skillsync.RequestSelection
import Skillsync.ConnectionBudget
import Skillsync.AcyclicPaths
import Skillsync.Effects
import Skillsync.FileTree
import Skillsync.DirectoryTree
import Skillsync.DirectoryTreeSpec
import Skillsync.TombstoneRemoval
import Skillsync.AtomicInstall
import Skillsync.TreeMirror
import Skillsync.CompleteScan
import Skillsync.InterruptedScan
import Skillsync.KnownBytes
import Skillsync.LocalEdits
import Skillsync.Duplex
import Skillsync.SessionExchange
import Skillsync.Session
import Skillsync.SessionChanges
import Skillsync.SessionSpec
import Skillsync.SessionSafety
import Skillsync.Gossip
import Skillsync.Conversation
import Skillsync.SessionNetwork
import Skillsync.Framing
import Skillsync.JoinHandshake
import Skillsync.RosterRetention
import Skillsync.JoinHandshakeSpec
import Skillsync.JoinAdmission
import Skillsync.Control
