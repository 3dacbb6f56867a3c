import Dn42Ctl.Lib.Json
import Dn42Ctl.Lib.Rows
import Dn42Ctl.Lib.Txn
import Mathlib.Algebra.Order.Ring.Int

/-!
# Schema

The hub's tables as the last migration leaves them.  A column that holds a
JSON text is modelled by the value it encodes: `allowed_ips_json` by the list,
`write_policy` by the validated record, a revision's `payload_json` by the
`DesiredState` it was written from.  Enumerated columns are inductive types.
Surrogate keys and timestamps that nothing reads are left out.

`Db.syncLog` is a history variable: every row ever inserted into
`sync_events`, in order.  No statement reads it.
-/

namespace Dn42Ctl

open Text

/-! ## messages -/

/-- A piece of an error text: literal text, or the `repr` of a value. -/
inductive Fragment where
  | text (s : Str)
  | repr (v : Json)
deriving Repr

/-- The text of an exception, or of a proposal's `message` column. -/
abbrev Msg := List Fragment

/-- The exception classes the modelled code raises itself or lets through. -/
inductive ErrorClass where
  | databaseError
  | dn42CtlError
  | validationError
  | valueError
  | typeError
  | keyError
  | attributeError
  | overflowError
  | osError
  | runtimeError
deriving DecidableEq, Repr

/-- An exception: its class and its text. -/
structure PyError where
  cls : ErrorClass
  text : Msg
deriving Repr

/-- `DatabaseError(s)`. -/
def databaseError (s : String) : PyError := ⟨.databaseError, [.text (lit s)]⟩

/-- `DatabaseError(f"{s}{v}")`. -/
def databaseErrorOf (s : String) (v : Str) : PyError :=
  ⟨.databaseError, [.text (lit s), .text v]⟩

/-! ## peers -/

/-- The columns both kinds of peer have. -/
structure PeerRecordBase where
  nodeId : Str
  ifname : Str
  wgPrivateKey : Str
  wgPublicKey : Str
  peerPublicKey : Option Str
  endpoint : Option Str
  localLla : Str
  peerLla : Option Str
  listenPort : Int
  allowedIps : List Str
  netBackend : Str
deriving DecidableEq, Repr

structure BgpPeerRecord extends PeerRecordBase where
  peerAsn : Int
deriving DecidableEq, Repr

structure IbgpPeerRecord extends PeerRecordBase where
  name : Str
  babelRxcost : Int
  peerIp : Option Str := none
  hasWg : Bool := true
  babelType : Str := lit "tunnel"
  /-- The managed node this row stands for, if it is linked to one. -/
  remoteNodeId : Option Str := none
deriving DecidableEq, Repr

/-- A row of `bgp_peers`. -/
structure BgpRow extends BgpPeerRecord where
  createdAt : Str
  updatedAt : Str
deriving DecidableEq, Repr

/-- A row of `ibgp_peers`. -/
structure IbgpRow extends IbgpPeerRecord where
  createdAt : Str
  updatedAt : Str
deriving DecidableEq, Repr

/-! ## managed nodes -/

inductive PeerAddPolicy where
  | review
  | autoAccept
deriving DecidableEq, Repr

/-- The only value the policies for changing and deleting peers can take. -/
inductive ReviewPolicy where
  | review
deriving DecidableEq, Repr

inductive ReportPolicy where
  | review
  | auto
deriving DecidableEq, Repr

/-- A validated `write_policy`. -/
structure WritePolicy where
  peerAdd : PeerAddPolicy
  peerModify : ReviewPolicy
  peerDelete : ReviewPolicy
  report : ReportPolicy
deriving DecidableEq, Repr

def defaultWritePolicy : WritePolicy := ⟨.review, .review, .review, .auto⟩

structure ManagedNode where
  nodeId : Str
  name : Str
  apiTokenHash : Option Str
  writePolicy : WritePolicy
  enabled : Bool
  isSelf : Bool
  lastSeenAt : Option Str
  createdAt : Str
  updatedAt : Str
  /-- `none` in an address column: the hub does not manage that field. -/
  endpointHost : Option Str := none
  ownIpv6 : Option Str := none
  routerId : Option Str := none
  autoPeer : Bool := false
deriving DecidableEq, Repr

/-! ## what a node is told to run -/

/-- One entry of `bgp_peers` in a desired state. -/
structure BgpPeerDesired where
  peerAsn : Int
  ifname : Str
  wgPrivateKey : Str
  wgPublicKey : Str
  peerPublicKey : Option Str
  endpoint : Option Str
  localLla : Str
  peerLla : Option Str
  listenPort : Int
  allowedIps : List Str
  netBackend : Str
deriving DecidableEq, Repr

/-- One entry of `ibgp_peers` in a desired state. -/
structure IbgpPeerDesired where
  name : Str
  ifname : Str
  wgPrivateKey : Str
  wgPublicKey : Str
  peerPublicKey : Option Str
  endpoint : Option Str
  localLla : Str
  peerLla : Option Str
  peerIp : Option Str
  hasWg : Bool
  listenPort : Int
  allowedIps : List Str
  netBackend : Str
  babelRxcost : Int
  babelType : Str
deriving DecidableEq, Repr

/-- The node's own address block; a field the hub does not manage is absent,
and a block without fields is not part of the payload. -/
structure NodeBlock where
  ownIpv6 : Option Str := none
  routerId : Option Str := none
deriving DecidableEq, Repr

/-- Everything that makes a desired state distinct: what
`compute_content_digest` hashes. -/
structure DesiredContent where
  nodeId : Str
  bgpPeers : List BgpPeerDesired
  ibgpPeers : List IbgpPeerDesired
  node : NodeBlock
deriving DecidableEq, Repr

structure DesiredState extends DesiredContent where
  revision : Str
  generatedAt : Str
deriving DecidableEq, Repr

/-! ## the other tables -/

inductive ProposalSource where
  | push
  | scan
deriving DecidableEq, Repr

inductive ProposalKind where
  | peerAdd
  | peerModify
  | peerDelete
deriving DecidableEq, Repr

inductive ProposalStatus where
  | pending
  | accepted
  | rejected
deriving DecidableEq, Repr

structure ConfigProposal where
  id : Nat
  nodeId : Str
  source : ProposalSource
  kind : ProposalKind
  payload : JsonObject
  status : ProposalStatus
  receivedAt : Str
  decidedAt : Option Str
  message : Option Msg
deriving Repr

inductive ReportKind where
  | applyResult
  | scanResult
  | liveStatus
  | error
deriving DecidableEq, Repr

structure NodeReport where
  id : Nat
  nodeId : Str
  kind : ReportKind
  payload : JsonObject
  receivedAt : Str
  importedAt : Option Str
deriving Repr

structure ConfigRevision where
  id : Nat
  nodeId : Str
  revision : Str
  generatedAt : Str
  payload : DesiredState
deriving DecidableEq, Repr

/-- A row of `node_desired_pin`. -/
structure DesiredPin where
  nodeId : Str
  revision : Str
  pinnedAt : Str
deriving DecidableEq, Repr

inductive SyncKind where
  | desired
  | accessRevoked
deriving DecidableEq, Repr

structure SyncEvent where
  id : Nat
  nodeId : Str
  kind : SyncKind
  createdAt : Str
deriving DecidableEq, Repr

/-- The database.  The `*Seq` fields are the AUTOINCREMENT counters: the
largest id ever handed out, which a delete does not lower. -/
structure Db where
  nodes : List Str
  bgpPeers : List BgpRow
  ibgpPeers : List IbgpRow
  managedNodes : List ManagedNode
  configProposals : List ConfigProposal
  proposalSeq : Nat
  nodeReports : List NodeReport
  reportSeq : Nat
  configRevisions : List ConfigRevision
  revisionSeq : Nat
  desiredPins : List DesiredPin
  syncEvents : List SyncEvent
  syncSeq : Nat
  syncLog : List SyncEvent
deriving Repr

/-- A database after its migrations and before any write. -/
def Db.empty : Db :=
  { nodes := [], bgpPeers := [], ibgpPeers := [], managedNodes := [], configProposals := [],
    proposalSeq := 0, nodeReports := [], reportSeq := 0, configRevisions := [], revisionSeq := 0,
    desiredPins := [], syncEvents := [], syncSeq := 0, syncLog := [] }

/-! ## parameters -/

/-- A value passed to a statement. -/
inductive Param where
  | null
  | int (n : Int)
  | text (s : Str)
  | json (v : Json)
  | message (m : Msg)
deriving Repr

/-- The text of a fragment can be encoded; a `repr` escapes what cannot. -/
def Fragment.encodable : Fragment → Bool
  | .text s => Text.encodable s
  | .repr _ => true

/-- Convert one parameter for the driver. -/
def Param.convert : Param → Option Txn.BindError
  | .null => none
  | .int n => if -(2 ^ 63) ≤ n ∧ n < 2 ^ 63 then none else some .overflow
  | .text s => if encodable s then none else some .unicodeEncode
  | .json v => if v.encodable then none else some .unicodeEncode
  | .message m => if m.all Fragment.encodable then none else some .unicodeEncode

/-- A nullable text column. -/
def Param.ofOption : Option Str → Param
  | none => .null
  | some s => .text s

/-- Convert the parameters of a statement: the first one that does not fit
decides the exception. -/
def params (ps : List Param) : Option Txn.BindError := ps.findSome? Param.convert

theorem convert_text {s : Str} : (Param.text s).convert = none ↔ encodable s = true := by
  rw [Param.convert]
  split <;> simp_all

theorem convert_ofOption {o : Option Str} :
    (Param.ofOption o).convert = none ↔ ∀ s, o = some s → encodable s = true := by
  cases o with
  | none => simp [Param.ofOption, Param.convert]
  | some s => simp [Param.ofOption, convert_text]

theorem convert_int {k : Int} (hk : 0 ≤ k) : (Param.int k).convert = none ↔ k < 2 ^ 63 := by
  rw [Param.convert]
  split <;> simp <;> omega

/-- A statement or a mutator on the hub's database. -/
abbrev DbTx (α : Type) := Txn.Tx Db PyError α

end Dn42Ctl
