import Dn42Ctl.Lib.Machine
import Dn42Ctl.Lib.Prog
import Dn42Ctl.Lib.Raising
import Dn42Ctl.Lib.Txn
import Dn42Ctl.Lib.Binding
import Dn42Ctl.Lib.Script
import Dn42Ctl.Lib.Text
import Dn42Ctl.Lib.Digits
import Dn42Ctl.Lib.Trim
import Dn42Ctl.Lib.Lines
import Dn42Ctl.Lib.Pattern
import Dn42Ctl.Lib.Path
import Dn42Ctl.Lib.Disk
import Dn42Ctl.Lib.Mirror
import Dn42Ctl.Lib.Json
import Dn42Ctl.Lib.Builtins
import Dn42Ctl.Lib.Base64
import Dn42Ctl.Lib.IpAddress
import Dn42Ctl.Lib.Rows
import Dn42Ctl.Lib.Double
import Dn42Ctl.Schema
import Dn42Ctl.Migrations
import Dn42Ctl.MigrationScripts
import Dn42Ctl.MigrationRuns
import Dn42Ctl.Database
import Dn42Ctl.DbManaged
import Dn42Ctl.DesiredState
import Dn42Ctl.Validators
import Dn42Ctl.PublicKeys
import Dn42Ctl.Endpoints
import Dn42Ctl.NodeAddress
import Dn42Ctl.PeerPayload
import Dn42Ctl.Peers
import Dn42Ctl.Proposals
import Dn42Ctl.Render
import Dn42Ctl.Config
import Dn42Ctl.NodeApply
import Dn42Ctl.ApplySpecs
import Dn42Ctl.Reloads
import Dn42Ctl.GenConf
import Dn42Ctl.GenConfSpecs
import Dn42Ctl.PeerEffects
import Dn42Ctl.PeerSpecs
import Dn42Ctl.ListenPorts
import Dn42Ctl.Effects
import Dn42Ctl.Atomicity
import Dn42Ctl.Frames
import Dn42Ctl.Hub
import Dn42Ctl.Rehome
import Dn42Ctl.SelfNode
import Dn42Ctl.Events
import Dn42Ctl.AllOrNothing
import Dn42Ctl.Build
import Dn42Ctl.RenderAgreement
import Dn42Ctl.Watcher
import Dn42Ctl.Registry
import Dn42Ctl.Push
import Dn42Ctl.Hello
import Dn42Ctl.Rollback
import Dn42Ctl.Fingerprint
import Dn42Ctl.Revisions
import Dn42Ctl.Confinement
import Dn42Ctl.Reimport
import Dn42Ctl.Decisions
import Dn42Ctl.Accept
import Dn42Ctl.AutoPeer
import Dn42Ctl.Replay
import Dn42Ctl.PeerSessions
import Dn42Ctl.Lib.PartialUpdate
import Dn42Ctl.NodeAdmin
import Dn42Ctl.Updates
import Dn42Ctl.Propagation
import Dn42Ctl.PropagationRace
import Dn42Ctl.Backfill
import Dn42Ctl.Backoff
import Dn42Ctl.Scan
import Dn42Ctl.ScanParse
import Dn42Ctl.ScanSpecs
import Dn42Ctl.ScanAccounts
import Dn42Ctl.UnitFiles
import Dn42Ctl.Adopt
import Dn42Ctl.ReloadPlan
import Dn42Ctl.NoTrace
import Dn42Ctl.NodeConfig
import Dn42Ctl.SelfRegistration
import Dn42Ctl.Credential
import Dn42Ctl.Registration
import Dn42Ctl.PeerNames
import Dn42Ctl.WsProtocol
import Dn42Ctl.Authorization
import Dn42Ctl.DbBrowse
import Dn42Ctl.Refusals
import Dn42Ctl.Submissions
import Dn42Ctl.Dispatch
import Dn42Ctl.BirdFiles
import Dn42Ctl.ScanRendered
import Dn42Ctl.Converge
import Dn42Ctl.PayloadLines
import Dn42Ctl.PeerRemoval
import Dn42Ctl.PeerPlaces
import Dn42Ctl.Incremental
import Dn42Ctl.FilesInStep
import Dn42Ctl.NodeAgent
import Dn42Ctl.AgentDisk
import Dn42Ctl.AgentRuns
import Dn42Ctl.AgentMirror
