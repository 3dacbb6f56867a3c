import Dn42Ctl.Peers
import Dn42Ctl.Lib.Builtins

/-!
# NodeAdmin

`set_policy` of `services/node_admin.py`: the policy is read, merged with what
the caller names, and written back as a whole.
-/

namespace Dn42Ctl

open Text Txn

/-! ## `_validate_node_id` -/

/-- `uuid.UUID(s)` does not raise. -/
def isUuid (s : Str) : Bool :=
  let hex := removeAll (lit "uuid:") 0 (removeAll (lit "urn:") 0 s)
  let isBrace : Nat → Bool := fun c => c == 123 || c == 125
  let hex := (((hex.dropWhile isBrace).reverse.dropWhile isBrace).reverse).filter (· != 45)
  decide (hex.length = 32) && Builtins.isHexLiteral hex

def validateNodeId (nodeId : Str) : Except PyError Str :=
  if isUuid nodeId then pure nodeId
  else throw (dn42CtlError [.text (lit "node_id 必须是合法 UUID: "), .text nodeId])

/-! ## policies by field -/

inductive PolicyField where
  | peerAdd
  | peerModify
  | peerDelete
  | report
deriving DecidableEq, Repr

def PolicyField.key : PolicyField → Str
  | .peerAdd => lit "peer_add"
  | .peerModify => lit "peer_modify"
  | .peerDelete => lit "peer_delete"
  | .report => lit "report"

/-- The texts of a stored policy. -/
def WritePolicy.text (p : WritePolicy) : PolicyField → Str
  | .peerAdd => match p.peerAdd with
    | .review => lit "review"
    | .autoAccept => lit "auto_accept"
  | .peerModify => lit "review"
  | .peerDelete => lit "review"
  | .report => match p.report with
    | .review => lit "review"
    | .auto => lit "auto"

/-- The keyword arguments of `set_policy`. -/
structure PolicyArgs where
  peerAdd : Option Str := none
  peerModify : Option Str := none
  peerDelete : Option Str := none
  report : Option Str := none

def PolicyArgs.asked (a : PolicyArgs) : PolicyField → Option Str
  | .peerAdd => a.peerAdd
  | .peerModify => a.peerModify
  | .peerDelete => a.peerDelete
  | .report => a.report

/-- `new_policy`. -/
def PolicyArgs.merge (a : PolicyArgs) (old : WritePolicy) : List (Str × Str) :=
  [PolicyField.peerAdd, .peerModify, .peerDelete, .report].map fun f =>
    (f.key, (a.asked f).getD (old.text f))

/-! ## `set_policy` -/

/-- `except ValueError` and `except DatabaseError`, both to `Dn42CtlError`. -/
def wrapPolicyError {α : Type} (m : DbTx α) : DbTx α :=
  Prog.catching m fun
    | .raised ⟨.databaseError, text⟩ | .raised ⟨.valueError, text⟩ => fail (dn42CtlError text)
    | e => Prog.raise e

/-- The read of the node. -/
def setPolicyRead (nodeId : Str) : DbTx ManagedNode := do
  let nodeId ← check (validateNodeId nodeId)
  match ← wrapPolicyError (ManagedNodeStore.get nodeId) with
  | none => fail (dn42CtlError [.text (lit "节点不存在: "), .text nodeId])
  | some node => pure node

/-- The write of the merged policy. -/
def setPolicyWrite (now nodeId : Str) (a : PolicyArgs) (node : ManagedNode) : DbTx ManagedNode :=
  wrapPolicyError (ManagedNodeStore.setWritePolicy now nodeId (a.merge node.writePolicy))

/-- Partially update `write_policy`; unspecified fields are preserved. -/
def setPolicy (now nodeId : Str) (a : PolicyArgs) : DbTx ManagedNode := do
  let node ← setPolicyRead nodeId
  setPolicyWrite now nodeId a node

/-! ## what a merged policy says -/

/-- A policy that passes its check has the texts that were checked. -/
theorem text_of_validate {m : PolicyTexts} {p : WritePolicy} (h : m.validate = .ok p) :
    p.text .peerAdd = m.peerAdd ∧ p.text .peerModify = m.peerModify ∧
      p.text .peerDelete = m.peerDelete ∧ p.text .report = m.report := by
  obtain ⟨add, modify, delete, report⟩ := m
  simp only [PolicyTexts.validate] at h
  -- every branch raises, or has checked the four texts
  split_ifs at h with hadd hmodify hdelete hreport hauto <;> cases h <;>
    simp only [WritePolicy.text] <;> refine ⟨?_, ?_, ?_, ?_⟩ <;> symm <;> assumption

theorem text_of_merge {a : PolicyArgs} {old p : WritePolicy}
    (h : validateWritePolicy (a.merge old) = .ok p) (f : PolicyField) :
    p.text f = (a.asked f).getD (old.text f) := by
  have hmerged : (a.merge old).foldlM PolicyTexts.merge ({} : PolicyTexts) =
      .ok ⟨(a.asked .peerAdd).getD (old.text .peerAdd),
        (a.asked .peerModify).getD (old.text .peerModify),
        (a.asked .peerDelete).getD (old.text .peerDelete),
        (a.asked .report).getD (old.text .report)⟩ := rfl
  obtain ⟨merged, hm, h⟩ := Prog.bind_eq_ok.mp h
  rw [hmerged, Except.ok.injEq] at hm
  obtain ⟨hadd, hmodify, hdelete, hreport⟩ := text_of_validate h
  rw [← hm] at hadd hmodify hdelete hreport
  cases f with
  | peerAdd => exact hadd
  | peerModify => exact hmodify
  | peerDelete => exact hdelete
  | report => exact hreport

end Dn42Ctl
