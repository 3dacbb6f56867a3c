import Dn42Ctl.Hub
import Mathlib.Data.List.Induction

/-!
# Events

Which nodes a committed call concerns, and which of them it announces.
`Db.desiredParts` is what a node's desired state is made of; a call is event
complete when every node whose parts it changes gets an event of the same
transaction.  One mutator is not: `apply_address_update` never announces the
node it is called for on account of a row that node owns.
-/

namespace Dn42Ctl

open Text Txn

/-! ## what a desired state is made of -/

/-- The rows and the block of the live tables, and the pinned payload. -/
def Db.desiredParts (nodeId : Str) (db : Db) : DesiredContent × Option DesiredContent :=
  (db.liveContent nodeId, (db.getPin nodeId).map fun r => r.payload.toDesiredContent)

/-- The content a node receives is a function of its parts. -/
theorem desiredContent_of_parts {n : Str} {db db' : Db}
    (h : db'.desiredParts n = db.desiredParts n) :
    db'.desiredContent n = db.desiredContent n := by
  have split : ∀ d : Db, d.desiredContent n = (d.desiredParts n).2.getD (d.desiredParts n).1 := by
    intro d
    rw [Db.desiredContent, Db.desiredParts]
    cases d.getPin n <;> rfl
  rw [split, split, h]

theorem desiredParts_eq {n : Str} {db db' : Db} (hbgp : db'.bgpRowsOf n = db.bgpRowsOf n)
    (hibgp : (db'.listIbgpPeers n).map ibgpRowToDict = (db.listIbgpPeers n).map ibgpRowToDict)
    (hnode : nodeBlock (db'.getNode n) = nodeBlock (db.getNode n))
    (hpin : db'.getPin n = db.getPin n) : db'.desiredParts n = db.desiredParts n := by
  simp only [Db.desiredParts, Db.liveContent, Db.listBgpPeers, hbgp, hibgp, hnode, hpin]

@[simp] theorem desiredParts_emit (n now m : Str) (k : SyncKind) (db : Db) :
    (db.emit now m k).desiredParts n = db.desiredParts n := rfl

@[simp] theorem desiredParts_emitAll (n now : Str) (events : List (Str × SyncKind)) (db : Db) :
    (db.emitAll now events).desiredParts n = db.desiredParts n := by
  induction events generalizing db with
  | nil => rfl
  | cons e es ih => exact (ih _).trans (desiredParts_emit ..)

/-! ## what the events of a call append -/

/-- The log rows of a list of events announced from counter `seq` on. -/
def loggedFrom (now : Str) : Nat → List (Str × SyncKind) → List SyncEvent
  | _, [] => []
  | seq, e :: es => ⟨seq + 1, e.1, e.2, now⟩ :: loggedFrom now (seq + 1) es

theorem syncLog_emitAll (now : Str) (events : List (Str × SyncKind)) (db : Db) :
    (db.emitAll now events).syncLog = db.syncLog ++ loggedFrom now db.syncSeq events := by
  induction events generalizing db with
  | nil => simp [Db.emitAll, loggedFrom]
  | cons e es ih =>
      refine (ih (db.emit now e.1 e.2)).trans ?_
      simp [Db.emit, Db.nextEvent, loggedFrom]

theorem mem_loggedFrom_node {now : Str} (seq : Nat) {events : List (Str × SyncKind)} {n : Str} :
    (∃ e ∈ loggedFrom now seq events, e.nodeId = n) ↔ n ∈ events.map Prod.fst := by
  induction events generalizing seq with
  | nil => simp [loggedFrom]
  | cons e es ih => simp [loggedFrom, ← ih (seq + 1), eq_comm]

theorem lt_of_mem_loggedFrom {now : Str} {seq : Nat} {events : List (Str × SyncKind)}
    {e : SyncEvent} (h : e ∈ loggedFrom now seq events) : seq < e.id := by
  induction events generalizing seq with
  | nil => simp [loggedFrom] at h
  | cons x xs ih =>
      rcases List.mem_cons.mp h with rfl | h
      · exact Nat.lt_succ_self seq
      · exact Nat.lt_of_succ_lt (ih h)

theorem loggedFrom_eq_nil {now : Str} {seq : Nat} {events : List (Str × SyncKind)} :
    loggedFrom now seq events = [] ↔ events = [] := by
  cases events <;> simp [loggedFrom]

/-! ## rows that follow an address -/

/-- The change concerns this row. -/
def PropagatedChange.targets (c : PropagatedChange) (r : IbgpRow) : Bool :=
  IbgpRow.is c.nodeId c.name r

/-- A row after a list of changes. -/
def IbgpRow.rewrite (now : Str) (changes : List PropagatedChange) (r : IbgpRow) : IbgpRow :=
  changes.foldl (fun r c => if c.targets r then c.apply now r else r) r

/-- The value the last change of a cell writes, if there is one. -/
def lastWritten (changes : List PropagatedChange) (r : IbgpRow) (field : PropagatedField) :
    Option Str :=
  (changes.reverse.find? fun c => c.targets r && c.field == field).map PropagatedChange.new

theorem apply_key (c : PropagatedChange) (now : Str) (r : IbgpRow) :
    (c.apply now r).nodeId = r.nodeId ∧ (c.apply now r).name = r.name := by
  rw [PropagatedChange.apply]
  cases c.field <;> exact ⟨rfl, rfl⟩

theorem rewrite_append (now : Str) (cs : List PropagatedChange) (c : PropagatedChange)
    (r : IbgpRow) :
    r.rewrite now (cs ++ [c]) =
      if c.targets (r.rewrite now cs) then c.apply now (r.rewrite now cs)
      else r.rewrite now cs := by
  rw [IbgpRow.rewrite, List.foldl_append]
  rfl

theorem rewrite_key (now : Str) (cs : List PropagatedChange) (r : IbgpRow) :
    (r.rewrite now cs).nodeId = r.nodeId ∧ (r.rewrite now cs).name = r.name := by
  induction cs using List.reverseRecOn with
  | nil => exact ⟨rfl, rfl⟩
  | append_singleton cs c ih =>
      rw [rewrite_append]
      split
      · obtain ⟨h1, h2⟩ := apply_key c now (r.rewrite now cs)
        exact ⟨h1.trans ih.1, h2.trans ih.2⟩
      · exact ih

theorem targets_rewrite (now : Str) (cs : List PropagatedChange) (c : PropagatedChange)
    (r : IbgpRow) : c.targets (r.rewrite now cs) = c.targets r := by
  obtain ⟨h1, h2⟩ := rewrite_key now cs r
  rw [PropagatedChange.targets, PropagatedChange.targets, IbgpRow.is, IbgpRow.is, h1, h2]

theorem lastWritten_append (cs : List PropagatedChange) (c : PropagatedChange) (r : IbgpRow)
    (field : PropagatedField) :
    lastWritten (cs ++ [c]) r field =
      if c.targets r && c.field == field then some c.new else lastWritten cs r field := by
  rw [lastWritten, List.reverse_append, List.reverse_singleton, List.singleton_append,
    List.find?_cons]
  cases c.targets r && c.field == field <;> rfl

/-- The payload entry of a rewritten row: two cells, each as last written. -/
theorem ibgpRowToDict_rewrite (now : Str) (cs : List PropagatedChange) (r : IbgpRow) :
    ibgpRowToDict (r.rewrite now cs) =
      { ibgpRowToDict r with
        peerIp := (lastWritten cs r .peerIp).or r.peerIp
        endpoint := (lastWritten cs r .endpoint).or r.endpoint } := by
  induction cs using List.reverseRecOn with
  | nil => rfl
  | append_singleton cs c ih =>
      rw [rewrite_append, targets_rewrite, lastWritten_append, lastWritten_append]
      cases ht : c.targets r with
      | false => simpa using ih
      | true =>
          cases hf : c.field with
          | peerIp =>
              have hd : ibgpRowToDict (c.apply now (r.rewrite now cs)) =
                  { ibgpRowToDict (r.rewrite now cs) with peerIp := some c.new } := by
                simp only [PropagatedChange.apply, hf]
                rfl
              rw [if_pos rfl, hd, ih]
              rfl
          | endpoint =>
              have hd : ibgpRowToDict (c.apply now (r.rewrite now cs)) =
                  { ibgpRowToDict (r.rewrite now cs) with endpoint := some c.new } := by
                simp only [PropagatedChange.apply, hf]
                rfl
              rw [if_pos rfl, hd, ih]
              rfl

/-- A list of changes rewrites every row. -/
theorem ibgpPeers_applyChanges (now : Str) (cs : List PropagatedChange) (db : Db) :
    (db.applyChanges now cs).ibgpPeers = db.ibgpPeers.map (IbgpRow.rewrite now cs) := by
  induction cs generalizing db with
  | nil =>
      have hid : IbgpRow.rewrite now [] = id := rfl
      rw [hid, List.map_id]
      rfl
  | cons c cs ih =>
      refine (ih (db.updateIbgpRows c.nodeId c.name (c.apply now)).2).trans ?_
      simp only [Db.updateIbgpRows, Rows.updateWhere, List.map_map]
      rfl

/-- The rows a node lists afterwards: the same ones in the same order, rewritten. -/
theorem listIbgpPeers_applyChanges (now n : Str) (cs : List PropagatedChange) (db : Db) :
    (db.applyChanges now cs).listIbgpPeers n =
      (db.listIbgpPeers n).map (IbgpRow.rewrite now cs) := by
  have hrows : (db.applyChanges now cs).ibgpRowsOf n =
      (db.ibgpRowsOf n).map (IbgpRow.rewrite now cs) := by
    rw [Db.ibgpRowsOf, Db.ibgpRowsOf, ibgpPeers_applyChanges, List.filter_map]
    congr 1
    refine List.filter_congr fun r _ => ?_
    rw [Function.comp_apply, (rewrite_key now cs r).1]
  rw [Db.listIbgpPeers, Db.listIbgpPeers, hrows]
  refine (List.map_insertionSort _ _ _ _ fun a _ b _ => ?_).symm
  rw [(rewrite_key now cs a).2, (rewrite_key now cs b).2]

/-- The cell a propagated change writes. -/
def IbgpRow.cell (r : IbgpRow) : PropagatedField → Option Str
  | .peerIp => r.peerIp
  | .endpoint => r.endpoint

/-- A row of the node itself ends up with another value in one of its cells. -/
def Db.RewritesRowOf (db : Db) (nodeId : Str) (changes : List PropagatedChange) : Prop :=
  ∃ r ∈ db.ibgpPeers, r.nodeId = nodeId ∧
    ∃ field v, lastWritten changes r field = some v ∧ r.cell field ≠ some v

theorem dict_rewrite_eq_iff (now : Str) (cs : List PropagatedChange) (r : IbgpRow) :
    ibgpRowToDict (r.rewrite now cs) = ibgpRowToDict r ↔
      ∀ field v, lastWritten cs r field = some v → r.cell field = some v := by
  have hcell : ∀ (w : Option Str) (old : Option Str),
      w.or old = old ↔ ∀ v, w = some v → old = some v := by
    intro w old
    cases w with
    | none => simp
    | some v => simp [eq_comm]
  have hor : ibgpRowToDict (r.rewrite now cs) = ibgpRowToDict r ↔
      (lastWritten cs r .peerIp).or r.peerIp = r.peerIp ∧
        (lastWritten cs r .endpoint).or r.endpoint = r.endpoint := by
    rw [ibgpRowToDict_rewrite]
    simp only [ibgpRowToDict, IbgpPeerDesired.mk.injEq, true_and, and_true]
    exact and_comm
  rw [hor, hcell, hcell]
  constructor
  · rintro ⟨h1, h2⟩ field
    cases field with
    | peerIp => exact h1
    | endpoint => exact h2
  · intro h
    exact ⟨h .peerIp, h .endpoint⟩

/-- A node's payload entries stay the same exactly when no row of it is rewritten. -/
theorem entries_applyChanges_iff (now n : Str) (cs : List PropagatedChange) (db : Db) :
    ((db.applyChanges now cs).listIbgpPeers n).map ibgpRowToDict =
        (db.listIbgpPeers n).map ibgpRowToDict ↔ ¬ db.RewritesRowOf n cs := by
  rw [listIbgpPeers_applyChanges, List.map_map, List.map_inj_left]
  simp only [Function.comp_apply, dict_rewrite_eq_iff, Db.listIbgpPeers, List.mem_insertionSort,
    Db.ibgpRowsOf, List.mem_filter, beq_iff_eq, Db.RewritesRowOf, not_exists, not_and, not_not,
    and_imp]

theorem lastWritten_of_other {n : Str} {cs : List PropagatedChange} (h : ∀ c ∈ cs, c.nodeId ≠ n)
    {r : IbgpRow} (hr : r.nodeId = n) (field : PropagatedField) :
    lastWritten cs r field = none := by
  rw [lastWritten, Option.map_eq_none_iff, List.find?_eq_none]
  intro c hc
  have hne : r.nodeId ≠ c.nodeId := by
    rw [hr]
    exact Ne.symm (h c (List.mem_reverse.mp hc))
  simp [PropagatedChange.targets, IbgpRow.is, hne]

/-- A node no change names has no row rewritten. -/
theorem not_rewritesRowOf_of_other {n : Str} {cs : List PropagatedChange}
    (h : ∀ c ∈ cs, c.nodeId ≠ n) (db : Db) : ¬ db.RewritesRowOf n cs := by
  rintro ⟨r, -, hr, field, v, hv, -⟩
  rw [lastWritten_of_other h hr field] at hv
  simp at hv

/-! ## the events of an address update -/

/-- Fields whose update announces the node itself. -/
def NodeFields.AnnouncesOwn (f : NodeFields) : Prop := f.touchesBlock ∨ f.enabled = .set false

theorem mem_propagatedEvents {m : Str} {cs : List PropagatedChange} {seen : List Str}
    {evs : List (Str × SyncKind)} :
    m ∈ (cs.foldl (fun (acc : List Str × List (Str × SyncKind)) c =>
        if acc.1.contains c.nodeId then acc
        else (acc.1 ++ [c.nodeId], acc.2 ++ [(c.nodeId, SyncKind.desired)])) (seen, evs)).2.map
          Prod.fst ↔
      m ∈ evs.map Prod.fst ∨ m ∉ seen ∧ ∃ c ∈ cs, c.nodeId = m := by
  induction cs generalizing seen evs with
  | nil => simp
  | cons c cs ih =>
      rw [List.foldl_cons]
      cases hseen : seen.contains c.nodeId with
      | true =>
          rw [if_pos rfl, ih]
          have hc : c.nodeId ∈ seen := List.contains_iff_mem.mp hseen
          constructor
          · rintro (h | ⟨h1, x, hx, rfl⟩)
            · exact .inl h
            · exact .inr ⟨h1, x, List.mem_cons_of_mem _ hx, rfl⟩
          · rintro (h | ⟨h1, x, hx, rfl⟩)
            · exact .inl h
            · rcases List.mem_cons.mp hx with rfl | hx
              · exact absurd hc h1
              · exact .inr ⟨h1, x, hx, rfl⟩
      | false =>
          rw [if_neg Bool.false_ne_true, ih]
          have hc : c.nodeId ∉ seen := by simpa using hseen
          simp only [List.map_append, List.map_cons, List.map_nil, List.mem_append,
            List.mem_singleton, not_or]
          constructor
          · rintro ((h | rfl) | ⟨⟨h1, -⟩, x, hx, rfl⟩)
            · exact .inl h
            · exact .inr ⟨hc, c, List.mem_cons_self .., rfl⟩
            · exact .inr ⟨h1, x, List.mem_cons_of_mem _ hx, rfl⟩
          · rintro (h | ⟨h1, x, hx, rfl⟩)
            · exact .inl (.inl h)
            · rcases List.mem_cons.mp hx with rfl | hx
              · exact .inl (.inr rfl)
              · by_cases hxc : x.nodeId = c.nodeId
                · exact .inl (.inr hxc)
                · exact .inr ⟨⟨h1, hxc⟩, x, hx, rfl⟩

/-- Whom `apply_address_update` announces: the node itself only on account of
its own columns, every other node a change is propagated to. -/
theorem mem_addressEvents {m n : Str} {f : NodeFields} {cs : List PropagatedChange} :
    m ∈ (ManagedNodeStore.addressEvents n f cs).map Prod.fst ↔
      m = n ∧ f.AnnouncesOwn ∨ m ≠ n ∧ ∃ c ∈ cs, c.nodeId = m := by
  rw [ManagedNodeStore.addressEvents, List.map_append, List.mem_append, mem_propagatedEvents,
    NodeFields.AnnouncesOwn]
  cases htouch : f.touchesBlock with
  | true =>
      by_cases hdis : f.enabled = .set false <;> by_cases hm : m = n <;> simp [hdis, hm]
  | false =>
      by_cases hdis : f.enabled = .set false <;> by_cases hm : m = n <;> simp [hdis, hm]

/-! ## nodes a call does not announce -/

/-- The four mutators behind `_update_fields`: the node, its new columns and
the propagated changes. -/
def Call.fieldUpdate : Call → Option (Str × NodeFields × List PropagatedChange)
  | .setName n name => some (n, { name := .set name }, [])
  | .setEnabled n e => some (n, { enabled := .set e }, [])
  | .setAddresses n host v6 rid =>
      let fields : NodeFields := { endpointHost := host, ownIpv6 := v6, routerId := rid }
      if fields = {} then none else some (n, fields, [])
  | .applyAddressUpdate n f cs => some (n, f, cs)
  | _ => none

/-- They announce by one rule. -/
theorem commit_of_fieldUpdate {call : Call} {n : Str} {f : NodeFields}
    {cs : List PropagatedChange} (h : call.fieldUpdate = some (n, f, cs)) (now : Str) (db : Db) :
    call.commit now db = db.commitFields now n f (ManagedNodeStore.addressEvents n f cs) cs := by
  cases call with
  | setName m name =>
      simp only [Call.fieldUpdate, Option.some.injEq, Prod.mk.injEq] at h
      obtain ⟨rfl, rfl, rfl⟩ := h
      rfl
  | setEnabled m e =>
      simp only [Call.fieldUpdate, Option.some.injEq, Prod.mk.injEq] at h
      obtain ⟨rfl, rfl, rfl⟩ := h
      cases e <;> rfl
  | setAddresses m host v6 rid =>
      simp only [Call.fieldUpdate, Option.ite_none_left_eq_some, Option.some.injEq,
        Prod.mk.injEq] at h
      obtain ⟨hne, rfl, rfl, rfl⟩ := h
      simp only [Call.commit, if_neg hne]
      simp [ManagedNodeStore.addressEvents]
  | applyAddressUpdate m f' cs' =>
      simp only [Call.fieldUpdate, Option.some.injEq, Prod.mk.injEq] at h
      obtain ⟨rfl, rfl, rfl⟩ := h
      rfl
  | _ => simp [Call.fieldUpdate] at h

/-- An update of a node's columns that leaves the address block alone. -/
theorem nodeBlock_updateNodes {m n : Str} {g : ManagedNode → ManagedNode} (db : Db)
    (hid : ∀ x, (g x).nodeId = x.nodeId)
    (hblock : m = n → ∀ x, (g x).ownIpv6 = x.ownIpv6 ∧ (g x).routerId = x.routerId) :
    nodeBlock ((db.updateNodes n g).2.getNode m) = nodeBlock (db.getNode m) := by
  have hfind : (db.updateNodes n g).2.getNode m =
      (db.getNode m).map fun x => if x.nodeId == n then g x else x :=
    Rows.find?_updateWhere fun x _ _ => by rw [hid]
  rw [hfind]
  cases hx : db.getNode m with
  | none => rfl
  | some x =>
      have hxm : x.nodeId = m := by simpa using List.find?_some hx
      by_cases hm : m = n
      · obtain ⟨h1, h2⟩ := hblock hm x
        simp [nodeBlock, hxm, hm, h1, h2]
      · simp [nodeBlock, hxm, hm]

theorem nodeBlock_append {m : Str} {node : ManagedNode} (db : Db)
    (hnone : db.getNode node.nodeId = none) (h6 : node.ownIpv6 = none)
    (hr : node.routerId = none) :
    nodeBlock ((db.managedNodes ++ [node]).find? fun x => x.nodeId == m) =
      nodeBlock (db.getNode m) := by
  rw [List.find?_append]
  by_cases hm : node.nodeId = m
  · subst hm
    rw [show db.managedNodes.find? _ = none from hnone, hnone]
    simp [nodeBlock, h6, hr]
  · simp [hm, Db.getNode]

/-- What a committed field update does to the parts of a node. -/
theorem desiredParts_commitFields {m n now : Str} {f : NodeFields} {cs : List PropagatedChange}
    {evs evs' : List (Str × SyncKind)} {db mid : Db}
    (h : db.commitFields now n f evs cs = some (mid, evs'))
    (hblock : m = n → f.touchesBlock = false) :
    mid.desiredParts m = db.desiredParts m ↔ ¬ db.RewritesRowOf m cs := by
  obtain ⟨-, -, rfl⟩ := commitFields_eq_some h
  have hnode : nodeBlock ((((db.updateNodes n (f.apply now)).2).applyChanges now cs).getNode m) =
      nodeBlock (db.getNode m) := by
    rw [applyChanges_eq]
    refine nodeBlock_updateNodes db (fun x => rfl) fun hm x => ?_
    have ht := hblock hm
    simp only [NodeFields.touchesBlock, Bool.or_eq_false_iff] at ht
    cases h6 : f.ownIpv6 with
    | set v => simp [h6, Patch.isSet] at ht
    | unset =>
        cases hr : f.routerId with
        | set v => simp [hr, Patch.isSet] at ht
        | unset => simp [NodeFields.apply, h6, hr, Patch.getD]
  have hentries := entries_applyChanges_iff now m cs (db.updateNodes n (f.apply now)).2
  constructor
  · intro heq
    refine hentries.mp ?_
    exact congrArg (fun parts => DesiredContent.ibgpPeers parts.1) heq
  · intro hno
    refine desiredParts_eq ?_ (hentries.mpr hno) hnode ?_
    · rw [applyChanges_eq]
      rfl
    · rw [applyChanges_eq]
      rfl

/-- Only what a call writes has to be compared. -/
theorem Frame.desiredParts_eq {tables : List Table} {m : Str} {db mid : Db}
    (hf : Frame tables db mid)
    (hbgp : .bgpPeers ∈ tables → mid.bgpRowsOf m = db.bgpRowsOf m)
    (hibgp : .ibgpPeers ∈ tables → mid.ibgpRowsOf m = db.ibgpRowsOf m)
    (hnode : .managedNodes ∈ tables → nodeBlock (mid.getNode m) = nodeBlock (db.getNode m))
    (hpin : .configRevisions ∈ tables ∨ .desiredPins ∈ tables → mid.getPin m = db.getPin m) :
    mid.desiredParts m = db.desiredParts m := by
  refine Dn42Ctl.desiredParts_eq ?_ ?_ ?_ ?_
  · by_cases ht : Table.bgpPeers ∈ tables
    · exact hbgp ht
    · rw [Db.bgpRowsOf, hf.bgpPeers ht, ← Db.bgpRowsOf]
  · by_cases ht : Table.ibgpPeers ∈ tables
    · rw [Db.listIbgpPeers, hibgp ht, ← Db.listIbgpPeers]
    · rw [Db.listIbgpPeers, Db.ibgpRowsOf, hf.ibgpPeers ht, ← Db.ibgpRowsOf, ← Db.listIbgpPeers]
  · by_cases ht : Table.managedNodes ∈ tables
    · exact hnode ht
    · rw [Db.getNode, hf.managedNodes ht, ← Db.getNode]
  · by_cases ht : Table.configRevisions ∈ tables ∨ Table.desiredPins ∈ tables
    · exact hpin ht
    · rw [not_or] at ht
      simp only [Db.getPin, Db.getPinRow, Db.getByRevision, hf.desiredPins ht.2,
        (hf.configRevisions ht.1).1]

section Frame

variable {m : Str} {db mid : Db}

theorem Frame.desiredParts_bgp (hf : Frame [.bgpPeers] db mid)
    (h : mid.bgpRowsOf m = db.bgpRowsOf m) : mid.desiredParts m = db.desiredParts m :=
  hf.desiredParts_eq (fun _ => h) (by simp) (by simp) (by simp)

theorem Frame.desiredParts_ibgp (hf : Frame [.ibgpPeers] db mid)
    (h : mid.ibgpRowsOf m = db.ibgpRowsOf m) : mid.desiredParts m = db.desiredParts m :=
  hf.desiredParts_eq (by simp) (fun _ => h) (by simp) (by simp)

theorem Frame.desiredParts_nodes (hf : Frame [.managedNodes] db mid)
    (h : nodeBlock (mid.getNode m) = nodeBlock (db.getNode m)) :
    mid.desiredParts m = db.desiredParts m :=
  hf.desiredParts_eq (by simp) (by simp) (fun _ => h) (by simp)

theorem Frame.desiredParts_registration (hf : Frame [.nodes, .managedNodes] db mid)
    (h : nodeBlock (mid.getNode m) = nodeBlock (db.getNode m)) :
    mid.desiredParts m = db.desiredParts m :=
  hf.desiredParts_eq (by simp) (by simp) (fun _ => h) (by simp)

/-- The pinned row of a node is found again when its pin row stayed and the
row the pin names stayed. -/
theorem getPin_eq (hrow : mid.getPinRow m = db.getPinRow m)
    (hrev : ∀ p, db.getPinRow m = some p →
      mid.getByRevision m p.revision = db.getByRevision m p.revision) :
    mid.getPin m = db.getPin m := by
  rw [Db.getPin, Db.getPin, hrow]
  cases hp : db.getPinRow m with
  | none => rfl
  | some p => exact hrev p hp

theorem Frame.desiredParts_revisions (hf : Frame [.configRevisions] db mid)
    (h : ∀ p, db.getPinRow m = some p →
      mid.getByRevision m p.revision = db.getByRevision m p.revision) :
    mid.desiredParts m = db.desiredParts m := by
  refine hf.desiredParts_eq (by simp) (by simp) (by simp) fun _ => getPin_eq ?_ h
  rw [Db.getPinRow, hf.desiredPins (by simp), ← Db.getPinRow]

theorem Frame.desiredParts_pins (hf : Frame [.desiredPins] db mid)
    (h : mid.getPinRow m = db.getPinRow m) : mid.desiredParts m = db.desiredParts m := by
  refine hf.desiredParts_eq (by simp) (by simp) (by simp) fun _ => getPin_eq h fun p _ => ?_
  rw [Db.getByRevision, (hf.configRevisions (by simp)).1, ← Db.getByRevision]

theorem Frame.desiredParts_unread {tables : List Table} (hf : Frame tables db mid)
    (h : ∀ t ∈ tables, t = .nodes ∨ t = .configProposals ∨ t = .nodeReports) :
    mid.desiredParts m = db.desiredParts m := by
  refine hf.desiredParts_eq (fun ht => ?_) (fun ht => ?_) (fun ht => ?_) fun ht => ?_
  · simpa using h _ ht
  · simpa using h _ ht
  · simpa using h _ ht
  · rcases ht with ht | ht
    · simpa using h _ ht
    · simpa using h _ ht

end Frame

/-- Registering the hub's own node writes no address. -/
theorem nodeBlock_upsertSelf {m n name now : Str} {db mid : Db} {u : Unit}
    (h : ((db.demoteSelf now n).upsertNode n).upsertSelfRow
      (ManagedNodeStore.newNode now n name true) = .ok (u, mid)) :
    nodeBlock (mid.getNode m) = nodeBlock (db.getNode m) := by
  have hdemote : nodeBlock ((db.demoteSelf now n).getNode m) = nodeBlock (db.getNode m) := by
    have hfind : (db.demoteSelf now n).getNode m = (db.getNode m).map fun x =>
        if x.isSelf && x.nodeId != n then { x with isSelf := false, updatedAt := now } else x :=
      Rows.find?_updateWhere fun _ _ _ => rfl
    rw [hfind]
    cases db.getNode m with
    | none => rfl
    | some x =>
        rw [Option.map_some]
        split <;> rfl
  rw [← hdemote]
  rw [upsertNode_eq] at h
  rcases upsertSelfRow_ok h with rfl | ⟨hnone, rfl⟩
  · exact nodeBlock_updateNodes (db.demoteSelf now n) (fun _ => rfl) fun _ _ => ⟨rfl, rfl⟩
  · exact nodeBlock_append (db.demoteSelf now n) hnone rfl rfl

theorem desiredParts_fieldUpdate {call : Call} {m n now : Str} {f : NodeFields}
    {cs : List PropagatedChange} {db mid : Db} {evs : List (Str × SyncKind)}
    (hfu : call.fieldUpdate = some (n, f, cs)) (h : call.commit now db = some (mid, evs))
    (hm : m ∉ evs.map Prod.fst) (hno : m = n → ¬ db.RewritesRowOf m cs) :
    mid.desiredParts m = db.desiredParts m := by
  rw [commit_of_fieldUpdate hfu] at h
  obtain ⟨-, rfl, -⟩ := commitFields_eq_some h
  rw [mem_addressEvents, not_or] at hm
  refine (desiredParts_commitFields h fun hmn => ?_).mpr ?_
  · have hown : ¬ f.AnnouncesOwn := fun ha => hm.1 ⟨hmn, ha⟩
    rw [NodeFields.AnnouncesOwn, not_or] at hown
    exact Bool.eq_false_iff.mpr hown.1
  · by_cases hmn : m = n
    · exact hno hmn
    · exact not_rewritesRowOf_of_other (fun c hc hcm => hm.2 ⟨hmn, c, hc, hcm⟩) db

/-- **Frame**: a committed call leaves the parts of every node it does not
announce, unless it rewrites rows that node owns. -/
theorem Call.desiredParts_commit {call : Call} {m now : Str} {db mid : Db}
    {evs : List (Str × SyncKind)} (hwf : db.WF) (h : call.commit now db = some (mid, evs))
    (hm : m ∉ evs.map Prod.fst)
    (hno : ∀ f cs, call.fieldUpdate = some (m, f, cs) → ¬ db.RewritesRowOf m cs) :
    mid.desiredParts m = db.desiredParts m := by
  have hframe := call.commit_frame h
  cases hfu : call.fieldUpdate with
  | some u =>
      obtain ⟨n, f, cs⟩ := u
      exact desiredParts_fieldUpdate hfu h hm fun hmn => hno f cs (by rw [hfu, hmn])
  | none =>
      cases call with
      | ensureNode n => exact hframe.desiredParts_unread (by simp [Call.writes])
      | insertBgpPeer r =>
          obtain ⟨⟨u, hr⟩, rfl⟩ := committedIf_eq_some h
          refine hframe.desiredParts_bgp ?_
          rw [insertBgpRow_ok hr]
          have hne : r.nodeId ≠ m := fun heq => hm (by simp [heq])
          refine Rows.filter_append_of_false ?_ _
          exact beq_eq_false_iff_ne.mpr hne
      | updateBgpPeer n asn up =>
          simp only [Call.commit, Option.ite_none_right_eq_some, Option.some.injEq,
            Prod.mk.injEq] at h
          obtain ⟨-, rfl, rfl⟩ := h
          refine hframe.desiredParts_bgp (Rows.filter_updateWhere fun r _ hr => ⟨rfl, fun hq => ?_⟩)
          simp only [BgpRow.is, Bool.and_eq_true, beq_iff_eq] at hr hq
          exact absurd (hq.symm.trans hr.1) (by simpa using hm)
      | deleteBgpPeer n asn =>
          simp only [Call.commit, Option.ite_none_right_eq_some, Option.some.injEq,
            Prod.mk.injEq] at h
          obtain ⟨-, rfl, rfl⟩ := h
          refine hframe.desiredParts_bgp (Rows.filter_deleteWhere (fun r hr => ?_) _)
          rw [beq_iff_eq] at hr
          simp only [List.map_cons, List.map_nil, List.mem_singleton] at hm
          simp [BgpRow.is, hr, hm]
      | insertIbgpPeer r =>
          obtain ⟨⟨u, hr⟩, rfl⟩ := committedIf_eq_some h
          refine hframe.desiredParts_ibgp ?_
          rw [insertIbgpRow_ok hr]
          have hne : r.nodeId ≠ m := fun heq => hm (by simp [heq])
          refine Rows.filter_append_of_false ?_ _
          exact beq_eq_false_iff_ne.mpr hne
      | updateIbgpPeer n name up =>
          simp only [Call.commit, Option.ite_none_right_eq_some, Option.some.injEq,
            Prod.mk.injEq] at h
          obtain ⟨-, rfl, rfl⟩ := h
          refine hframe.desiredParts_ibgp
            (Rows.filter_updateWhere fun r _ hr => ⟨rfl, fun hq => ?_⟩)
          simp only [IbgpRow.is, Bool.and_eq_true, beq_iff_eq] at hr hq
          exact absurd (hq.symm.trans hr.1) (by simpa using hm)
      | deleteIbgpPeer n name =>
          simp only [Call.commit, Option.ite_none_right_eq_some, Option.some.injEq,
            Prod.mk.injEq] at h
          obtain ⟨-, rfl, rfl⟩ := h
          refine hframe.desiredParts_ibgp (Rows.filter_deleteWhere (fun r hr => ?_) _)
          rw [beq_iff_eq] at hr
          simp only [List.map_cons, List.map_nil, List.mem_singleton] at hm
          simp [IbgpRow.is, hr, hm]
      | addNode n name =>
          obtain ⟨⟨u, hr⟩, -⟩ := committedIf_eq_some h
          obtain ⟨hnone, rfl⟩ := insertNode_ok hr
          refine hframe.desiredParts_registration ?_
          rw [upsertNode_eq] at hnone ⊢
          exact nodeBlock_append db hnone rfl rfl
      | upsertSelf n name =>
          obtain ⟨⟨u, hr⟩, -⟩ := committedIf_eq_some h
          exact hframe.desiredParts_registration (nodeBlock_upsertSelf hr)
      | deleteNode n force =>
          simp only [Call.commit] at h
          split at h
          · simp at h
          · simp only [Option.ite_none_left_eq_some, Option.some.injEq, Prod.mk.injEq] at h
            obtain ⟨-, rfl, rfl⟩ := h
            refine hframe.desiredParts_nodes
              (congrArg nodeBlock (Rows.find?_deleteWhere (fun x hx => ?_) _))
            rw [beq_iff_eq] at hx
            simpa [hx] using hm
      | setTokenHash n hash =>
          simp only [Call.commit, Option.ite_none_right_eq_some, Option.some.injEq,
            Prod.mk.injEq] at h
          obtain ⟨-, rfl, rfl⟩ := h
          exact hframe.desiredParts_nodes
            (nodeBlock_updateNodes db (fun _ => rfl) fun _ _ => ⟨rfl, rfl⟩)
      | setWritePolicy n policy =>
          simp only [Call.commit] at h
          split at h
          · simp at h
          · simp only [Option.ite_none_right_eq_some, Option.some.injEq, Prod.mk.injEq] at h
            obtain ⟨-, rfl, rfl⟩ := h
            exact hframe.desiredParts_nodes
              (nodeBlock_updateNodes db (fun _ => rfl) fun _ _ => ⟨rfl, rfl⟩)
      | touchLastSeen n =>
          simp only [Call.commit, Option.some.injEq, Prod.mk.injEq] at h
          obtain ⟨rfl, rfl⟩ := h
          exact hframe.desiredParts_nodes
            (nodeBlock_updateNodes db (fun _ => rfl) fun _ _ => ⟨rfl, rfl⟩)
      | setName n name => simp [Call.fieldUpdate] at hfu
      | setEnabled n e => simp [Call.fieldUpdate] at hfu
      | setAddresses n host v6 rid =>
          simp only [Call.fieldUpdate, ite_eq_left_iff, reduceCtorEq, imp_false, not_not] at hfu
          simp [Call.commit, hfu] at h
      | applyAddressUpdate n f cs => simp [Call.fieldUpdate] at hfu
      | addProposal n src kind payload => exact hframe.desiredParts_unread (by simp [Call.writes])
      | setStatus id st msg => exact hframe.desiredParts_unread (by simp [Call.writes])
      | addReport n kind payload => exact hframe.desiredParts_unread (by simp [Call.writes])
      | markImported id => exact hframe.desiredParts_unread (by simp [Call.writes])
      | record n rev gen payload =>
          simp only [Call.commit, Option.ite_none_left_eq_some] at h
          obtain ⟨⟨u, hr⟩, -⟩ := committedIf_eq_some h.2
          obtain ⟨-, rfl⟩ := insertRevision_ok hr
          refine hframe.desiredParts_revisions fun p hp => ?_
          obtain ⟨r, hr⟩ := Option.isSome_iff_exists.mp (hwf.pinsRecorded m p hp)
          rw [hr]
          exact getByRevision_append hr
      | trim n keep =>
          simp only [Call.commit, Option.some.injEq, Prod.mk.injEq] at h
          obtain ⟨rfl, -⟩ := h
          refine hframe.desiredParts_revisions fun p hp => ?_
          obtain ⟨hmem, hnode⟩ := getPinRow_mem hp
          exact getByRevision_trim fun hmn => ⟨p, hmem, hnode.trans hmn, rfl⟩
      | pin n rev =>
          simp only [Call.commit, Option.ite_none_right_eq_some] at h
          obtain ⟨⟨u, hr⟩, rfl⟩ := committedIf_eq_some h.2
          refine hframe.desiredParts_pins ?_
          rw [getPinRow_upsertPin hr, if_neg (by simpa using hm)]
      | unpin n =>
          simp only [Call.commit, Option.some.injEq, Prod.mk.injEq] at h
          obtain ⟨rfl, rfl⟩ := h
          refine hframe.desiredParts_pins ?_
          rw [Db.getPinRow, getPinRow_unpin, if_neg (by simpa using hm)]

/-! ## event completeness -/

/-- Running a call on a database: its outcome and the database it leaves. -/
def Call.outcome (call : Call) (now : Str) (fault : Option Nat) (late : Bool) (db : Db) :
    Except (Exc PyError) Unit × Db :=
  let r := (call.run now).run (Conn.fresh db fault late)
  (r.1, r.2.committed)

/-- Every node whose parts a call changes is announced, with a fresh id, by the
same transaction; a call that raises announces nothing. -/
structure EventComplete (call : Call) (now : Str) (fault : Option Nat) (late : Bool) (db : Db) :
    Prop where
  announced : ∀ n, (call.outcome now fault late db).2.desiredParts n ≠ db.desiredParts n →
    ∃ e ∈ (call.outcome now fault late db).2.syncLog.drop db.syncLog.length,
      e.nodeId = n ∧ ∀ old ∈ db.syncLog, old.id < e.id
  silent : ∀ e, (call.outcome now fault late db).1 = .error e →
    (call.outcome now fault late db).2.syncLog = db.syncLog

/-- The statements of `_update_fields` can convert their parameters. -/
def FieldsBind (n : Str) (f : NodeFields) (cs : List PropagatedChange) : Prop :=
  params (f.params ++ [.text n]) = none ∧
    ∀ c ∈ cs, params [.text c.new, .text c.nodeId, .text c.name] = none

/-- The call gives a row of the node it is about a new cell, without a reason
to announce that node. -/
def Call.RewritesUnannounced (call : Call) (db : Db) : Prop :=
  ∃ n f cs, call.fieldUpdate = some (n, f, cs) ∧ (db.getNode n).isSome ∧ FieldsBind n f cs ∧
    ¬ f.AnnouncesOwn ∧ db.RewritesRowOf n cs

/-- The call announces something and then reads its row back. -/
def Call.AnnouncesThenReads (call : Call) (db : Db) : Prop :=
  ∃ n f cs, call.fieldUpdate = some (n, f, cs) ∧ (db.getNode n).isSome ∧ FieldsBind n f cs ∧
    (f.AnnouncesOwn ∨ ∃ c ∈ cs, c.nodeId ≠ n)

theorem addressEvents_ne_nil {n : Str} {f : NodeFields} {cs : List PropagatedChange} :
    ManagedNodeStore.addressEvents n f cs ≠ [] ↔ f.AnnouncesOwn ∨ ∃ c ∈ cs, c.nodeId ≠ n := by
  constructor
  · intro h
    obtain ⟨e, he⟩ := List.exists_mem_of_ne_nil _ h
    rcases mem_addressEvents.mp (List.mem_map_of_mem he) with ⟨-, h1⟩ | ⟨h1, c, hc, h2⟩
    · exact .inl h1
    · exact .inr ⟨c, hc, by rwa [h2]⟩
  · rintro h hnil
    have hmem : ∀ m, m ∉ (ManagedNodeStore.addressEvents n f cs).map Prod.fst := by simp [hnil]
    rcases h with h | ⟨c, hc, hne⟩
    · exact hmem n (mem_addressEvents.mpr (.inl ⟨rfl, h⟩))
    · exact hmem c.nodeId (mem_addressEvents.mpr (.inr ⟨hne, c, hc, rfl⟩))

/-! ### `_update_fields`, forward -/

section Forward

variable {now n : Str} {f : NodeFields} {cs : List PropagatedChange} {db : Db}

theorem run_changes_of_bind (now : Str) (d w : Db) (t l : Bool)
    (h : ∀ c ∈ cs, params [.text c.new, .text c.nodeId, .text c.name] = none) :
    ∃ t', (cs.forM fun change =>
        modify (params [.text change.new, .text change.nodeId, .text change.name]) fun db =>
          (db.updateIbgpRows change.nodeId change.name (change.apply now)).2 : DbTx PUnit).run
      ⟨d, w, t, none, l⟩ = (.ok (), ⟨d, w.applyChanges now cs, t', none, l⟩) := by
  induction cs generalizing w t with
  | nil => exact ⟨t, Prog.run_forM_nil ..⟩
  | cons c cs ih =>
      rw [Prog.run_forM_cons, h c (List.mem_cons_self ..), Prog.run_bind_ok (run_modify_none ..)]
      exact ih _ _ fun x hx => h x (List.mem_cons_of_mem _ hx)

theorem run_emitAll_of_bind {events : List (Str × SyncKind)} (now : Str) (d w : Db) (t l : Bool)
    (h : ∀ e ∈ events, params [.text e.1] = none) :
    ∃ t', (events.forM fun e => emitSyncEvent now e.1 e.2).run ⟨d, w, t, none, l⟩ =
      (.ok (), ⟨d, w.emitAll now events, t', none, l⟩) := by
  induction events generalizing w t with
  | nil => exact ⟨t, Prog.run_forM_nil ..⟩
  | cons e es ih =>
      have hrun : (emitSyncEvent now e.1 e.2).run ⟨d, w, t, none, l⟩ =
          (.ok (), ⟨d, w.emit now e.1 e.2, true, none, l⟩) :=
        run_emitSyncEvent_eq_ok.mpr ⟨h e (List.mem_cons_self ..), rfl⟩
      rw [Prog.run_forM_cons, Prog.run_bind_ok hrun]
      exact ih _ _ fun x hx => h x (List.mem_cons_of_mem _ hx)

/-- The events of an update name the node or a node of a change. -/
theorem addressEvents_bind (hb : FieldsBind n f cs) :
    ∀ e ∈ ManagedNodeStore.addressEvents n f cs, params [.text e.1] = none := by
  intro e he
  rcases mem_addressEvents.mp (List.mem_map_of_mem he) with ⟨h1, -⟩ | ⟨-, c, hc, h1⟩
  · rw [h1]
    exact params_of_subset hb.1 (by simp)
  · rw [← h1]
    exact params_of_subset (hb.2 c hc) (by simp)

/-- An update of an existing node commits, whether or not the read-back that
follows fails; when it does, the call raises. -/
theorem run_updateFields (now : Str) (hnode : (db.getNode n).isSome) (hb : FieldsBind n f cs)
    (late : Bool) :
    ∃ r c', (ManagedNodeStore.updateFields now n f (ManagedNodeStore.addressEvents n f cs) cs).run
        (Conn.fresh db none late) = (r, c') ∧
      c'.committed = (((db.updateNodes n (f.apply now)).2).applyChanges now cs).emitAll now
        (ManagedNodeStore.addressEvents n f cs) ∧
      (late = true → ∃ e, r = .error e) := by
  obtain ⟨t1, hchanges⟩ :=
    run_changes_of_bind now db (db.updateNodes n (f.apply now)).2 true late hb.2
  obtain ⟨t2, hevents⟩ := run_emitAll_of_bind now db
    (((db.updateNodes n (f.apply now)).2).applyChanges now cs) t1 late (addressEvents_bind hb)
  have hcount : ((db.updateNodes n (f.apply now)).1 == 0) = false := by
    rw [beq_eq_false_iff_ne, Db.updateNodes, ne_eq, countP_eq_zero_iff_find?]
    exact Option.isSome_iff_ne_none.mp hnode
  have hexec : (execute none fun db => .ok (db.updateNodes n (f.apply now)) : DbTx Nat).run
      ⟨db, db, false, none, late⟩ = (.ok (db.updateNodes n (f.apply now)).1,
        ⟨db, (db.updateNodes n (f.apply now)).2, true, none, late⟩) := rfl
  rw [ManagedNodeStore.updateFields, Prog.run_bind, run_guarded, Conn.fresh, hb.1,
    Prog.run_bind_ok hexec, hcount, abortIf, if_neg Bool.false_ne_true,
    Prog.run_bind_ok (Prog.run_pure ..), Prog.run_bind_ok hchanges, Prog.run_bind_ok hevents]
  cases late with
  | false =>
      refine ⟨_, _, rfl, ?_, by simp⟩
      exact congrArg Prod.fst ((ReadOnly.readBack (databaseError "查询 managed_node 失败")
        (databaseError "更新后无法读取 managed_node") (params [.text n]) (Db.getNode n)).view _)
  | true => exact ⟨_, _, rfl, rfl, fun _ => ⟨_, rfl⟩⟩

/-- A call that returns could convert its parameters. -/
theorem fieldsBind_of_eval {events : List (Str × SyncKind)} {db' : Db} {a : ManagedNode}
    (h : eval (ManagedNodeStore.updateFields now n f events cs) db = (.ok a, db')) :
    FieldsBind n f cs := by
  have hcs : ∀ {cs : List PropagatedChange} {c c' : Conn Db} {u : PUnit}, c.fault = none →
      (cs.forM fun change =>
        modify (params [.text change.new, .text change.nodeId, .text change.name]) fun db =>
          (db.updateIbgpRows change.nodeId change.name (change.apply now)).2 : DbTx PUnit).run
        c = (.ok u, c') →
      ∀ x ∈ cs, params [.text x.new, .text x.nodeId, .text x.name] = none := by
    intro cs
    induction cs with
    | nil => simp
    | cons x xs ih =>
        intro c c' u hc hrun
        obtain ⟨d, w, t, k, l⟩ := c
        simp only at hc
        subst hc
        rw [Prog.run_forM_cons] at hrun
        obtain ⟨hx, hrun⟩ := bind_modify hrun
        intro y hy
        rcases List.mem_cons.mp hy with rfl | hy
        · exact hx
        · exact ih rfl hrun y hy
  obtain ⟨c', hrun, -⟩ := eval_eq_ok.mp h
  obtain ⟨u, c1, h1, -⟩ := Prog.run_bind_eq_ok.mp hrun
  obtain ⟨rowcount, w, hb, -, h1⟩ := bind_execute (run_guarded_eq_ok.mp h1)
  obtain ⟨-, h1⟩ := bind_abortIf h1
  obtain ⟨u2, c2, hchanges, -⟩ := Prog.run_bind_eq_ok.mp h1
  exact ⟨hb, hcs rfl hchanges⟩

end Forward

/-- The program of the four mutators is one. -/
theorem run_of_fieldUpdate {call : Call} {n : Str} {f : NodeFields} {cs : List PropagatedChange}
    (h : call.fieldUpdate = some (n, f, cs)) (now : Str) :
    call.run now = forEffect
      (ManagedNodeStore.updateFields now n f (ManagedNodeStore.addressEvents n f cs) cs) := by
  cases call with
  | setName m name =>
      simp only [Call.fieldUpdate, Option.some.injEq, Prod.mk.injEq] at h
      obtain ⟨rfl, rfl, rfl⟩ := h
      rfl
  | setEnabled m e =>
      simp only [Call.fieldUpdate, Option.some.injEq, Prod.mk.injEq] at h
      obtain ⟨rfl, rfl, rfl⟩ := h
      cases e <;> rfl
  | setAddresses m host v6 rid =>
      simp only [Call.fieldUpdate, Option.ite_none_left_eq_some, Option.some.injEq,
        Prod.mk.injEq] at h
      obtain ⟨hne, rfl, rfl, rfl⟩ := h
      simp only [Call.run, ManagedNodeStore.setAddresses, if_neg hne]
      simp [ManagedNodeStore.addressEvents]
  | applyAddressUpdate m f' cs' =>
      simp only [Call.fieldUpdate, Option.some.injEq, Prod.mk.injEq] at h
      obtain ⟨rfl, rfl, rfl⟩ := h
      rfl
  | _ => simp [Call.fieldUpdate] at h

/-- Without a fault before its commit, an update of an existing node commits
what its abstract reading says, and raises if its read-back fails. -/
theorem outcome_fieldUpdate (now : Str) {call : Call} {n : Str} {f : NodeFields}
    {cs : List PropagatedChange} {db : Db} (hfu : call.fieldUpdate = some (n, f, cs))
    (hnode : (db.getNode n).isSome) (hb : FieldsBind n f cs) (late : Bool) :
    ∃ mid, call.commit now db = some (mid, ManagedNodeStore.addressEvents n f cs) ∧
      (call.outcome now none late db).2 =
        mid.emitAll now (ManagedNodeStore.addressEvents n f cs) ∧
      (late = true → ∃ e, (call.outcome now none late db).1 = .error e) := by
  obtain ⟨r, c', hrun, hc, hlate⟩ := run_updateFields now hnode hb late
  refine ⟨((db.updateNodes n (f.apply now)).2).applyChanges now cs, ?_, ?_, ?_⟩
  · rw [commit_of_fieldUpdate hfu, Db.commitFields, if_pos hnode]
  · rw [← hc, Call.outcome, run_of_fieldUpdate hfu, forEffect, Prog.run_bind, hrun]
    cases r <;> rfl
  · intro hl
    obtain ⟨e, rfl⟩ := hlate hl
    rw [Call.outcome, run_of_fieldUpdate hfu, forEffect, Prog.run_bind, hrun]
    exact ⟨e, rfl⟩

/-! ### the whole system -/

/-- What a call leaves when it changes anything: its abstract result. -/
theorem Call.outcome_cases (call : Call) (now : Str) (fault : Option Nat) (late : Bool) (db : Db) :
    (∃ u, (call.outcome now fault late db).1 = .ok u ∧
        eval (call.run now) db = (.ok u, (call.outcome now fault late db).2)) ∨
      ∃ e, (call.outcome now fault late db).1 = .error e ∧
        ((call.outcome now fault late db).2 = db ∨
          call.readsBack = true ∧ late = true ∧
            ∃ u, eval (call.run now) db = (.ok u, (call.outcome now fault late db).2)) := by
  rcases (call.atomic now).run_fresh db fault late with ⟨a, c', hrun, he⟩ | ⟨e, c', hrun, hc⟩
  · exact .inl ⟨a, by rw [Call.outcome, hrun], by rw [Call.outcome, hrun]; exact he⟩
  · exact .inr ⟨e, by rw [Call.outcome, hrun], by rw [Call.outcome, hrun]; exact hc⟩

/-- A call that reads its row back announces only through `_update_fields`. -/
theorem Call.quiet_of_readsBack {call : Call} {now : Str} {db mid : Db}
    {evs : List (Str × SyncKind)} (hr : call.readsBack = true) (hfu : call.fieldUpdate = none)
    (h : call.commit now db = some (mid, evs)) : evs = [] := by
  cases call with
  | addNode n name => exact (committedIf_eq_some h).2
  | upsertSelf n name => exact (committedIf_eq_some h).2
  | setWritePolicy n policy =>
      simp only [Call.commit] at h
      split at h
      · simp at h
      · simp only [Option.ite_none_right_eq_some, Option.some.injEq, Prod.mk.injEq] at h
        exact h.2.2.symm
  | setAddresses n host v6 rid =>
      simp only [Call.fieldUpdate, ite_eq_left_iff, reduceCtorEq, imp_false, not_not] at hfu
      simp [Call.commit, hfu] at h
  | addProposal n src kind payload =>
      simp only [Call.commit] at h
      split at h
      · exact (committedIf_eq_some h).2
      · simp at h
  | setStatus id st msg =>
      simp only [Call.commit, Option.ite_none_right_eq_some, Option.some.injEq,
        Prod.mk.injEq] at h
      exact h.2.2.symm
  | addReport n kind payload =>
      simp only [Call.commit] at h
      split at h
      · exact (committedIf_eq_some h).2
      · simp at h
  | markImported id =>
      simp only [Call.commit, Option.ite_none_right_eq_some, Option.some.injEq,
        Prod.mk.injEq] at h
      exact h.2.2.symm
  | record n rev gen payload =>
      simp only [Call.commit, Option.ite_none_left_eq_some] at h
      exact (committedIf_eq_some h.2).2
  | setName n name => simp [Call.fieldUpdate] at hfu
  | setEnabled n e => simp [Call.fieldUpdate] at hfu
  | applyAddressUpdate n f cs => simp [Call.fieldUpdate] at hfu
  | _ => simp [Call.readsBack] at hr

section Complete

variable {call : Call} {now : Str} {db db' : Db} {u : Unit}

/-- A field update that returns has met its node and bound its parameters. -/
theorem bind_of_eval_fieldUpdate {n : Str} {f : NodeFields} {cs : List PropagatedChange}
    (hfu : call.fieldUpdate = some (n, f, cs)) (h : eval (call.run now) db = (.ok u, db')) :
    (db.getNode n).isSome ∧ FieldsBind n f cs := by
  rw [run_of_fieldUpdate hfu] at h
  obtain ⟨a, h⟩ := eval_forEffect h
  obtain ⟨mid, hmid, -⟩ := eval_updateFields h
  exact ⟨(commitFields_eq_some hmid).1, fieldsBind_of_eval h⟩

/-- The log after a call that returns: the old one and the call's events. -/
theorem syncLog_of_eval (h : eval (call.run now) db = (.ok u, db')) :
    db' = db ∨ ∃ mid evs, call.commit now db = some (mid, evs) ∧ db' = mid.emitAll now evs ∧
      db'.syncLog = db.syncLog ++ loggedFrom now db.syncSeq evs := by
  have hafter := call.eval_run h
  rw [Call.after] at hafter
  cases hc : call.commit now db with
  | none =>
      rw [hc] at hafter
      exact .inl hafter
  | some c =>
      obtain ⟨mid, evs⟩ := c
      rw [hc] at hafter
      refine .inr ⟨mid, evs, rfl, hafter, ?_⟩
      have hq := (call.commit_frame hc).queue
      rw [hafter, syncLog_emitAll, hq.2.1, hq.2.2]

theorem announced_of_eval (hwf : db.WF) (hno : ¬ call.RewritesUnannounced db)
    (h : eval (call.run now) db = (.ok u, db')) {n : Str}
    (hne : db'.desiredParts n ≠ db.desiredParts n) :
    ∃ e ∈ db'.syncLog.drop db.syncLog.length,
      e.nodeId = n ∧ ∀ old ∈ db.syncLog, old.id < e.id := by
  rcases syncLog_of_eval h with rfl | ⟨mid, evs, hc, rfl, hlog⟩
  · exact absurd rfl hne
  · rw [desiredParts_emitAll] at hne
    have hmem : n ∈ evs.map Prod.fst := by
      by_contra hn
      refine hne (Call.desiredParts_commit hwf hc hn fun f cs hfu hrw => ?_)
      obtain ⟨hnode, hb⟩ := bind_of_eval_fieldUpdate hfu h
      refine hno ⟨n, f, cs, hfu, hnode, hb, fun hown => hn ?_, hrw⟩
      rw [commit_of_fieldUpdate hfu] at hc
      rw [(commitFields_eq_some hc).2.1]
      exact mem_addressEvents.mpr (.inl ⟨rfl, hown⟩)
    obtain ⟨e, he, hen⟩ := (mem_loggedFrom_node db.syncSeq).mpr hmem
    rw [hlog, List.drop_left]
    exact ⟨e, he, hen, fun old hold =>
      Nat.lt_of_le_of_lt (hwf.queue.logBounded old hold) (lt_of_mem_loggedFrom he)⟩

theorem silent_of_eval (hr : call.readsBack = true)
    (hno : ¬ call.AnnouncesThenReads db) (h : eval (call.run now) db = (.ok u, db')) :
    db'.syncLog = db.syncLog := by
  rcases syncLog_of_eval h with rfl | ⟨mid, evs, hc, -, hlog⟩
  · rfl
  · have hnil : evs = [] := by
      cases hfu : call.fieldUpdate with
      | none => exact Call.quiet_of_readsBack hr hfu hc
      | some x =>
          obtain ⟨n, f, cs⟩ := x
          obtain ⟨hnode, hb⟩ := bind_of_eval_fieldUpdate hfu h
          rw [commit_of_fieldUpdate hfu] at hc
          rw [(commitFields_eq_some hc).2.1]
          by_contra hne
          exact hno ⟨n, f, cs, hfu, hnode, hb, addressEvents_ne_nil.mp hne⟩
    rw [hlog, hnil]
    simp [loggedFrom]

end Complete

/-- **Event completeness.**  On every reachable database a call of a mutator is
event complete, whichever statement fails, exactly when it does not rewrite a
row of its own node unannounced and, should the read after the commit fail, has
announced nothing before that read. -/
theorem eventComplete_iff (call : Call) (now : Str) (late : Bool) {db : Db}
    (hreach : db.Reachable) :
    (∀ fault, EventComplete call now fault late db) ↔
      ¬ call.RewritesUnannounced db ∧ ¬ (late = true ∧ call.AnnouncesThenReads db) := by
  have hwf := hreach.wf
  constructor
  · intro hall
    refine ⟨?_, ?_⟩
    · rintro ⟨n, f, cs, hfu, hnode, hb, hown, hrw⟩
      obtain ⟨mid, hc, hout, -⟩ := outcome_fieldUpdate now hfu hnode hb late
      have hnotmem : n ∉ (ManagedNodeStore.addressEvents n f cs).map Prod.fst := by
        rw [mem_addressEvents]
        rintro (⟨-, h⟩ | ⟨h, -⟩)
        · exact hown h
        · exact h rfl
      have hne : (call.outcome now none late db).2.desiredParts n ≠ db.desiredParts n := by
        rw [hout, desiredParts_emitAll]
        rw [commit_of_fieldUpdate hfu] at hc
        rw [NodeFields.AnnouncesOwn, not_or] at hown
        exact fun heq => (desiredParts_commitFields hc fun _ =>
          Bool.eq_false_iff.mpr hown.1).mp heq hrw
      obtain ⟨e, he, hen, -⟩ := (hall none).announced n hne
      have hq := (call.commit_frame hc).queue
      rw [hout, syncLog_emitAll, hq.2.2, List.drop_left] at he
      exact hnotmem ((mem_loggedFrom_node _).mp ⟨e, he, hen⟩)
    · rintro ⟨hlate, n, f, cs, hfu, hnode, hb, hann⟩
      obtain ⟨mid, hc, hout, herr⟩ := outcome_fieldUpdate now hfu hnode hb late
      obtain ⟨e, he⟩ := herr hlate
      have hlog := (hall none).silent e he
      have hq := (call.commit_frame hc).queue
      rw [hout, syncLog_emitAll, hq.2.2, List.append_right_eq_self, loggedFrom_eq_nil] at hlog
      exact addressEvents_ne_nil.mpr hann hlog
  · rintro ⟨hno, hlate⟩ fault
    refine ⟨fun n hne => ?_, fun e he => ?_⟩
    · rcases call.outcome_cases now fault late db with ⟨u, -, hev⟩ | ⟨e, -, hsame | ⟨-, -, u, hev⟩⟩
      · exact announced_of_eval hwf hno hev hne
      · exact absurd (by rw [hsame]) hne
      · exact announced_of_eval hwf hno hev hne
    · rcases call.outcome_cases now fault late db with
        ⟨u, hok, -⟩ | ⟨e', -, hsame | ⟨hr, hl, u, hev⟩⟩
      · rw [hok] at he
        simp at he
      · rw [hsame]
      · exact silent_of_eval hr (fun h => hlate ⟨hl, h⟩) hev

/-- A node with an address, and a row of it that is linked to itself. -/
def selfLinkedRun : List HubAction :=
  [⟨.call (.addNode (lit "a") (lit "alpha")), lit "t0", none, false⟩,
    ⟨.call (.setAddresses (lit "a") .unset (.set (some (lit "fd00::1"))) .unset), lit "t1", none,
      false⟩,
    ⟨.call (.insertIbgpPeer
      { nodeId := lit "a", ifname := lit "dn42-loop", wgPrivateKey := [], wgPublicKey := [],
        peerPublicKey := none, endpoint := none, localLla := lit "fe80::1", peerLla := none,
        listenPort := 20001, allowedIps := [], netBackend := lit "networkd", name := lit "loop",
        babelRxcost := 96, peerIp := some (lit "fd00::2"), remoteNodeId := some (lit "a") }),
      lit "t2", none, false⟩]

def selfLinked : Db := (Machine.exec hubStep Db.empty selfLinkedRun).getD Db.empty

/-- `set_node_addresses` on that node with a new `endpoint_host` only. -/
def selfLinkedUpdate : Call :=
  .applyAddressUpdate (lit "a") { endpointHost := .set (some (lit "h")) }
    (planPropagation (selfLinked.listIbgpPeersByRemote (lit "a")) (some (lit "fd00::1"))
      (some (lit "h"))).changes

theorem eventComplete_iff_selfLinked : selfLinked.Reachable ∧
    ((∀ fault, EventComplete selfLinkedUpdate (lit "t3") fault false selfLinked) ↔
      ¬ selfLinkedUpdate.RewritesUnannounced selfLinked ∧
        ¬ (false = true ∧ selfLinkedUpdate.AnnouncesThenReads selfLinked)) :=
  ⟨⟨selfLinkedRun, rfl⟩, eventComplete_iff selfLinkedUpdate (lit "t3") false ⟨selfLinkedRun, rfl⟩⟩

/-- The update returns, the node's own row has a new `peer_ip`, and no event
says so. -/
theorem selfLinkedUpdate_not_complete : selfLinked.Reachable ∧
    (selfLinkedUpdate.outcome (lit "t3") none false selfLinked).1.isOk ∧
    ¬ EventComplete selfLinkedUpdate (lit "t3") none false selfLinked := by
  refine ⟨⟨selfLinkedRun, rfl⟩, by decide, fun h => ?_⟩
  have hlog : (selfLinkedUpdate.outcome (lit "t3") none false selfLinked).2.syncLog =
      selfLinked.syncLog := by decide
  obtain ⟨e, he, -⟩ := h.announced (lit "a") (by decide)
  rw [hlog, List.drop_length] at he
  simp at he

end Dn42Ctl
