import Dn42Ctl.Propagation

/-!
# Backfill

`backfill_remote_node_ids` links a row without `remote_node_id` to the one
managed node whose `own_ipv6` is the row's `peer_ip`.

* `LinksTo` — when a row is linked, and to which node;
* `backfill_links_exact` — exactly these rows, once; and a propagation of the
  same address leaves them alone.
-/

namespace Dn42Ctl

open Text Txn

/-! ## which rows -/

/-- The row points at no node, and the node is the only one with its address. -/
def LinksTo (nodes : List ManagedNode) (r : IbgpRow) (target : Str) : Prop :=
  (r.remoteNodeId = none ∨ r.remoteNodeId = some []) ∧
    ∃ ip m, r.peerIp = some ip ∧ ip ≠ [] ∧ nodes.filter (fun n => n.ownIpv6 == some ip) = [m] ∧
      m.nodeId = target

theorem nodesWithIpv6_eq {nodes : List ManagedNode} {ip : Str} (hip : ip ≠ []) :
    nodesWithIpv6 nodes ip =
      (nodes.filter fun n => n.ownIpv6 == some ip).map ManagedNode.nodeId := by
  rw [nodesWithIpv6]
  congr 1
  apply List.filter_congr
  intro n _
  cases hv : n.ownIpv6 with
  | none => rfl
  | some v =>
      by_cases hsame : v = ip
      · simp [hsame, hip]
      · simp [hsame]

theorem backfillTarget_eq_ok {nodes : List ManagedNode} {r : IbgpRow} {target : Str} :
    backfillTarget nodes r = .ok target ↔ LinksTo nodes r target := by
  have hfree : (r.remoteNodeId.any fun s => !s.isEmpty) = false ↔
      r.remoteNodeId = none ∨ r.remoteNodeId = some [] := by
    cases hr : r.remoteNodeId with
    | none => simp
    | some s => simp [List.isEmpty_iff]
  rw [backfillTarget, LinksTo, ← hfree]
  cases hlinked : r.remoteNodeId.any fun s => !s.isEmpty with
  | true => simp
  | false =>
      simp only [Bool.false_eq_true, if_false, true_and]
      cases hip : r.peerIp with
      | none => simp
      | some ip =>
          simp only [Option.some.injEq]
          by_cases hempty : ip = []
          · subst hempty
            simp
          · have hne : ip.isEmpty = false := by simpa using hempty
            simp only [hne, Bool.false_eq_true, if_false, nodesWithIpv6_eq hempty]
            constructor
            · intro h
              split at h
              · rename_i found hfound
                cases h
                obtain ⟨m, hm, rfl⟩ := List.map_eq_singleton_iff.mp hfound
                exact ⟨ip, m, rfl, hempty, hm, rfl⟩
              · cases h
              · cases h
            · rintro ⟨ip', m, rfl, -, hm, rfl⟩
              rw [hm]
              rfl

/-- The order in which the nodes are listed does not matter. -/
theorem linksTo_perm {nodes nodes' : List ManagedNode} {r : IbgpRow} {target : Str}
    (h : nodes.Perm nodes') : LinksTo nodes r target ↔ LinksTo nodes' r target := by
  have hfilter : ∀ ip m, nodes.filter (fun n => n.ownIpv6 == some ip) = [m] ↔
      nodes'.filter (fun n => n.ownIpv6 == some ip) = [m] := by
    intro ip m
    have hperm := h.filter fun n => n.ownIpv6 == some ip
    constructor
    · intro hone
      rw [hone] at hperm
      exact List.perm_singleton.mp hperm.symm
    · intro hone
      rw [hone] at hperm
      exact List.perm_singleton.mp hperm
  simp only [LinksTo, hfilter]

theorem linksTo_mem {nodes : List ManagedNode} {r : IbgpRow} {target : Str}
    (h : LinksTo nodes r target) :
    ∃ m ∈ nodes, m.nodeId = target ∧ m.ownIpv6 = r.peerIp ∧ r.peerIp ≠ none := by
  obtain ⟨-, ip, m, hip, -, hone, hid⟩ := h
  have hm : m ∈ nodes.filter fun n => n.ownIpv6 == some ip := by
    rw [hone]
    exact List.mem_singleton_self m
  obtain ⟨hmem, haddr⟩ := List.mem_filter.mp hm
  rw [beq_iff_eq] at haddr
  exact ⟨m, hmem, hid, by rw [haddr, hip], by simp [hip]⟩

/-! ## the run -/

/-- `ORDER BY node_id, name`. -/
def Db.ibgpOrdered (db : Db) : List IbgpRow :=
  db.ibgpPeers.insertionSort fun a b =>
    a.nodeId < b.nodeId ∨ a.nodeId = b.nodeId ∧ a.name ≤ b.name

/-- The rows that will be written. -/
def Db.backfillPending (db : Db) : List (IbgpRow × Str) :=
  db.ibgpOrdered.filterMap fun row =>
    match backfillTarget (ManagedNodeStore.orderNodes db.managedNodes) row with
    | .ok target => some (row, target)
    | .error _ => none

/-- What is reported. -/
def Db.backfillReport (db : Db) : BackfillResult where
  linked := db.backfillPending.map fun (row, target) =>
    [.text (row.nodeId ++ 47 :: row.name), .text (lit " -> "), .text target]
  skipped := db.ibgpOrdered.filterMap fun row =>
    match backfillTarget (ManagedNodeStore.orderNodes db.managedNodes) row with
    | .ok _ => none
    | .error why => some (.text (row.nodeId ++ 47 :: row.name ++ lit ": ") :: why)

/-- A row after the updates. -/
def IbgpRow.link (pending : List (IbgpRow × Str)) (r : IbgpRow) : IbgpRow :=
  pending.foldl (fun r e =>
    if IbgpRow.is e.1.nodeId e.1.name r then { r with remoteNodeId := some e.2 } else r) r

/-- The updates, in their order. -/
def Db.linkRows (pending : List (IbgpRow × Str)) (db : Db) : Db :=
  { db with ibgpPeers := db.ibgpPeers.map (IbgpRow.link pending) }

theorem linkRows_nil (db : Db) : db.linkRows [] = db := by
  have hrows : db.ibgpPeers.map (IbgpRow.link []) = db.ibgpPeers := List.map_id _
  rw [Db.linkRows, hrows]

theorem linkRows_cons (e : IbgpRow × Str) (es : List (IbgpRow × Str)) (db : Db) :
    db.linkRows (e :: es) =
      ((db.updateIbgpRows e.1.nodeId e.1.name
        fun r => { r with remoteNodeId := some e.2 }).2).linkRows es := by
  simp only [Db.linkRows, Db.updateIbgpRows, Rows.updateWhere, List.map_map]
  rfl

theorem run_linkRows (pending : List (IbgpRow × Str)) (d w : Db) (t : Bool) :
    (pending.forM fun e => modify none fun db =>
        (db.updateIbgpRows e.1.nodeId e.1.name fun r => { r with remoteNodeId := some e.2 }).2 :
      DbTx PUnit).run ⟨d, w, t, none, false⟩ =
      (.ok ⟨⟩, ⟨d, w.linkRows pending, t || !pending.isEmpty, none, false⟩) := by
  induction pending generalizing w t with
  | nil =>
      rw [linkRows_nil, Prog.run_forM_nil]
      simp
  | cons e es ih =>
      rw [linkRows_cons, Prog.run_forM_cons, Prog.run_bind_ok (run_modify_none ..), ih]
      simp

/-- **The run**: the same report wet and dry, and the updates only wet. -/
theorem eval_backfill (dryRun : Bool) (db : Db) :
    eval (backfillRemoteNodeIds dryRun) db =
      (.ok db.backfillReport, if dryRun then db else db.linkRows db.backfillPending) := by
  have hwrite : db.backfillPending ≠ [] → (guarded (fun _ => dn42CtlError
      [.text (lit "写入 remote_node_id 失败")]) (do
        db.backfillPending.forM fun e => modify none fun db =>
          (db.updateIbgpRows e.1.nodeId e.1.name
            fun r => { r with remoteNodeId := some e.2 }).2
        commit) : DbTx Unit).run ⟨db, db, false, none, false⟩ =
      (.ok (), ⟨db.linkRows db.backfillPending, db.linkRows db.backfillPending, false, none,
        false⟩) := by
    intro _
    rw [run_guarded, Prog.run_bind, run_linkRows]
    rfl
  have hrun : (backfillRemoteNodeIds dryRun).run ⟨db, db, false, none, false⟩ =
      (.ok db.backfillReport, ⟨if dryRun then db else db.linkRows db.backfillPending,
        if dryRun then db else db.linkRows db.backfillPending, false, none, false⟩) := by
    rw [backfillRemoteNodeIds, ManagedNodeStore.listAll, Prog.run_bind_ok (run_queryOr_none ..),
      Prog.run_bind_ok (run_query_none ..)]
    show (do
      unless db.backfillPending.isEmpty || dryRun do
        guarded (fun _ => dn42CtlError [.text (lit "写入 remote_node_id 失败")]) do
          db.backfillPending.forM fun e => modify none fun db =>
            (db.updateIbgpRows e.1.nodeId e.1.name
              fun r => { r with remoteNodeId := some e.2 }).2
          commit
      pure db.backfillReport : DbTx BackfillResult).run ⟨db, db, false, none, false⟩ = _
    cases hpending : db.backfillPending with
    | nil =>
        rw [linkRows_nil]
        cases dryRun <;> rfl
    | cons e es =>
        rw [hpending] at hwrite
        cases dryRun with
        | true => rfl
        | false => exact (Prog.run_bind_ok (hwrite (List.cons_ne_nil e es))).trans rfl
  rw [eval, Conn.fresh, hrun]

/-! ## what becomes of a row -/

/-- The updates that hit a row agree on the node. -/
theorem link_eq {pending : List (IbgpRow × Str)} {r : IbgpRow} {target : Str}
    (h : ∀ e ∈ pending, IbgpRow.is e.1.nodeId e.1.name r = true → e.2 = target) :
    r.link pending =
      if pending.any (fun e => IbgpRow.is e.1.nodeId e.1.name r) then
        { r with remoteNodeId := some target }
      else r := by
  induction pending generalizing r with
  | nil => rfl
  | cons e es ih =>
      have hrest : ∀ x ∈ es, IbgpRow.is x.1.nodeId x.1.name r = true → x.2 = target :=
        fun x hx => h x (List.mem_cons_of_mem _ hx)
      rw [IbgpRow.link, List.foldl_cons, List.any_cons]
      cases hit : IbgpRow.is e.1.nodeId e.1.name r with
      | false =>
          simp only [Bool.false_eq_true, if_false, Bool.false_or]
          exact ih hrest
      | true =>
          rw [if_pos rfl, Bool.true_or, if_pos rfl, h e (List.mem_cons_self ..) hit]
          have hnext := ih (r := { r with remoteNodeId := some target }) hrest
          rw [IbgpRow.link] at hnext
          rw [hnext]
          split <;> rfl

theorem link_key (pending : List (IbgpRow × Str)) (r : IbgpRow) :
    (r.link pending).nodeId = r.nodeId ∧ (r.link pending).name = r.name := by
  induction pending generalizing r with
  | nil => exact ⟨rfl, rfl⟩
  | cons e es ih =>
      obtain ⟨hid, hname⟩ := ih
        (if IbgpRow.is e.1.nodeId e.1.name r then { r with remoteNodeId := some e.2 } else r)
      rw [IbgpRow.link, List.foldl_cons]
      rw [IbgpRow.link] at hid hname
      rw [hid, hname]
      split
      · exact ⟨rfl, rfl⟩
      · exact ⟨rfl, rfl⟩

theorem namesUnique_linkRows {db : Db} (h : db.NamesUnique) (pending : List (IbgpRow × Str)) :
    (db.linkRows pending).NamesUnique := by
  rw [Db.NamesUnique, Db.linkRows, List.pairwise_map]
  refine h.imp fun {a b} hab => ?_
  rw [IbgpRow.is, (link_key pending a).1, (link_key pending a).2, (link_key pending b).1,
    (link_key pending b).2]
  exact hab

theorem mem_backfillPending {db : Db} {r : IbgpRow} {target : Str} :
    (r, target) ∈ db.backfillPending ↔ r ∈ db.ibgpPeers ∧ LinksTo db.managedNodes r target := by
  have horder : (ManagedNodeStore.orderNodes db.managedNodes).Perm db.managedNodes :=
    List.perm_insertionSort _ _
  rw [← linksTo_perm horder, ← backfillTarget_eq_ok, Db.backfillPending, List.mem_filterMap]
  constructor
  · rintro ⟨row, hrow, h⟩
    rw [Db.ibgpOrdered, List.mem_insertionSort] at hrow
    cases htarget : backfillTarget (ManagedNodeStore.orderNodes db.managedNodes) row with
    | error e => simp [htarget] at h
    | ok found =>
        simp only [htarget, Option.some.injEq, Prod.mk.injEq] at h
        obtain ⟨rfl, rfl⟩ := h
        exact ⟨hrow, htarget⟩
  · rintro ⟨hrow, htarget⟩
    refine ⟨r, ?_, by rw [htarget]⟩
    rw [Db.ibgpOrdered, List.mem_insertionSort]
    exact hrow

theorem LinksTo.unique {nodes : List ManagedNode} {r : IbgpRow} {target target' : Str}
    (h : LinksTo nodes r target) (h' : LinksTo nodes r target') : target' = target := by
  rw [← backfillTarget_eq_ok] at h h'
  exact Except.ok.inj (h'.symm.trans h)

/-- A row after the run: linked to the node that it belongs to, or as it was. -/
def IbgpRow.Backfilled (nodes : List ManagedNode) (r r' : IbgpRow) : Prop :=
  (∃ target, LinksTo nodes r target ∧ r' = { r with remoteNodeId := some target }) ∨
    (∀ target, ¬ LinksTo nodes r target) ∧ r' = r

/-- **The updates, row by row.** -/
theorem backfilled_link {db : Db} (hkeys : db.NamesUnique) {r : IbgpRow} (hr : r ∈ db.ibgpPeers) :
    r.Backfilled db.managedNodes (r.link db.backfillPending) := by
  -- an update that hits the row was planned for it
  have hsame : ∀ e ∈ db.backfillPending, IbgpRow.is e.1.nodeId e.1.name r = true → e.1 = r := by
    intro e he hit
    obtain ⟨hmem, -⟩ := mem_backfillPending.mp he
    by_contra hne
    rw [hkeys.apart hr hmem hne] at hit
    cases hit
  by_cases hlinks : ∃ target, LinksTo db.managedNodes r target
  · obtain ⟨target, htarget⟩ := hlinks
    have hagree : ∀ e ∈ db.backfillPending,
        IbgpRow.is e.1.nodeId e.1.name r = true → e.2 = target := by
      intro e he hit
      obtain ⟨-, hlink⟩ := mem_backfillPending.mp he
      rw [hsame e he hit] at hlink
      exact htarget.unique hlink
    have hany : db.backfillPending.any (fun e => IbgpRow.is e.1.nodeId e.1.name r) = true := by
      rw [List.any_eq_true]
      exact ⟨(r, target), mem_backfillPending.mpr ⟨hr, htarget⟩, by simp [IbgpRow.is]⟩
    rw [link_eq hagree, hany, if_pos rfl]
    exact .inl ⟨target, htarget, rfl⟩
  · have hmiss : ∀ e ∈ db.backfillPending, IbgpRow.is e.1.nodeId e.1.name r ≠ true := by
      intro e he hit
      obtain ⟨-, hlink⟩ := mem_backfillPending.mp he
      rw [hsame e he hit] at hlink
      exact hlinks ⟨_, hlink⟩
    have hnone : db.backfillPending.any (fun e => IbgpRow.is e.1.nodeId e.1.name r) = false :=
      List.any_eq_false.mpr hmiss
    have hagree : ∀ e ∈ db.backfillPending,
        IbgpRow.is e.1.nodeId e.1.name r = true → e.2 = [] :=
      fun e he hit => absurd hit (hmiss e he)
    rw [link_eq hagree, hnone, if_neg Bool.false_ne_true]
    exact .inr ⟨fun target h => hlinks ⟨target, h⟩, rfl⟩

/-! ## once, and safe for propagation -/

/-- Where all rows are linked or cannot be, nothing is pending. -/
theorem backfillPending_linked {db db' : Db} (hnodes : db'.managedNodes = db.managedNodes)
    (hids : ∀ m ∈ db.managedNodes, m.nodeId ≠ [])
    (hrows : List.Forall₂ (IbgpRow.Backfilled db.managedNodes) db.ibgpPeers db'.ibgpPeers) :
    db'.backfillPending = [] := by
  rw [List.eq_nil_iff_forall_not_mem]
  rintro ⟨r', target'⟩ hpending
  obtain ⟨hr', hlinks'⟩ := mem_backfillPending.mp hpending
  rw [hnodes] at hlinks'
  obtain ⟨r, -, ⟨target, hlinks, rfl⟩ | ⟨hnone, rfl⟩⟩ := exists_of_forall₂ hrows hr'
  · obtain ⟨m, hm, hid, -⟩ := linksTo_mem hlinks
    obtain ⟨hfree, -⟩ := hlinks'
    rcases hfree with hfree | hfree
    · cases hfree
    · cases hfree
      exact hids m hm hid
  · exact hnone target' hlinks'

/-- The address that `set_node_addresses` writes is the one it was given, where
that has no white space around it. -/
theorem ownIpv6_of_validated {v : Str} {p : Patch (Option Str)}
    (h : validated (fun v => validateIpv6Address v (lit "own_ipv6")) (.set (some v)) = .ok p)
    (hv : strip v = v) : p = .set (some v) := by
  simp only [validated, validateIpv6Address, validateWith, hv] at h
  split at h
  · cases h
  · split at h
    · cases h
      rfl
    · cases h

/-- What a call does to `peer_ip`, whether it returns or not. -/
theorem peerIp_setNodeAddresses {db : Db} (hkeys : db.NamesUnique) (now n : Str)
    (fields : NodeFields) (dryRun : Bool) :
    List.Forall₂ (fun r r' => r'.peerIp = r.peerIp ∨ ∃ node valid, db.getNode n = some node ∧
        ValidatedFields fields valid ∧ r.remoteNodeId = some n ∧
        r'.peerIp = followPeerIp (valid.ownIpv6.getD node.ownIpv6) r.peerIp)
      db.ibgpPeers (eval (setNodeAddresses now n fields true dryRun) db).2.ibgpPeers := by
  have hkept : ∀ db' : Db, db' = db → List.Forall₂ (fun r r' => r'.peerIp = r.peerIp ∨
      ∃ node valid, db.getNode n = some node ∧ ValidatedFields fields valid ∧
        r.remoteNodeId = some n ∧
        r'.peerIp = followPeerIp (valid.ownIpv6.getD node.ownIpv6) r.peerIp)
      db.ibgpPeers db'.ibgpPeers := by
    rintro _ rfl
    exact List.forall₂_same.mpr fun r _ => .inl rfl
  cases heval : eval (setNodeAddresses now n fields true dryRun) db with
  | mk res db' =>
      cases res with
      | error e => exact hkept db' ((atomic_setNodeAddresses now n fields dryRun).eval_error heval)
      | ok upd =>
          cases dryRun with
          | true =>
              rw [setNodeAddresses_eq] at heval
              obtain ⟨planned, -, heval⟩ :=
                Atomic.eval_bind_read (readOnly_planAddresses n fields) heval
              exact hkept db' (eval_pure.mp heval).2
          | false =>
              obtain ⟨node, valid, -, hnode, hvalid, -, -, hfollows, -, -⟩ :=
                setNodeAddresses_writes hkeys heval
              refine hfollows.imp fun r r' hfollow => ?_
              rw [IbgpRow.Follows] at hfollow
              split at hfollow
              · rename_i hlinked
                right
                exact ⟨node, valid, hnode, hvalid, hlinked, by rw [hfollow]⟩
              · left
                rw [hfollow]

/-- A row that the run has linked. -/
def NewlyLinked (db : Db) (r' : IbgpRow) : Prop :=
  ∃ r ∈ db.ibgpPeers, ∃ target, LinksTo db.managedNodes r target ∧
    r' = { r with remoteNodeId := some target }

/-- **Backfilled links are exact, made once and safe for propagation.** -/
theorem backfill_links_exact {db : Db} (hkeys : db.NamesUnique)
    (hids : (db.managedNodes.map ManagedNode.nodeId).Nodup) :
    ∃ report db',
      eval (backfillRemoteNodeIds false) db = (.ok report, db') ∧
      eval (backfillRemoteNodeIds true) db = (.ok report, db) ∧
      List.Forall₂ (IbgpRow.Backfilled db.managedNodes) db.ibgpPeers db'.ibgpPeers ∧
      db' = { db with ibgpPeers := db'.ibgpPeers } ∧
      -- a second run
      ((∀ m ∈ db.managedNodes, m.nodeId ≠ []) → ∃ again, again.linked = [] ∧
        eval (backfillRemoteNodeIds false) db' = (.ok again, db')) ∧
      -- a propagation of an address that is stored
      ∀ n node, db'.getNode n = some node → (∀ v, node.ownIpv6 = some v → strip v = v) →
        ∀ now dryRun, List.Forall₂ (fun r r' => NewlyLinked db r → r'.peerIp = r.peerIp)
          db'.ibgpPeers (eval (setNodeAddresses now n { ownIpv6 := .set node.ownIpv6 } true dryRun)
            db').2.ibgpPeers := by
  have hrows : List.Forall₂ (IbgpRow.Backfilled db.managedNodes) db.ibgpPeers
      (db.linkRows db.backfillPending).ibgpPeers := by
    rw [Db.linkRows, List.forall₂_map_right_iff, List.forall₂_same]
    exact fun r hr => backfilled_link hkeys hr
  refine ⟨db.backfillReport, db.linkRows db.backfillPending, eval_backfill false db,
    eval_backfill true db, hrows, rfl, ?_, ?_⟩
  · intro hne
    have hpending := backfillPending_linked (by rfl) hne hrows
    refine ⟨(db.linkRows db.backfillPending).backfillReport, ?_, ?_⟩
    · rw [Db.backfillReport, hpending]
      rfl
    · rw [eval_backfill, hpending, linkRows_nil]
      rfl
  · intro n node hnode hstrip now dryRun
    have hkeys' := namesUnique_linkRows hkeys db.backfillPending
    refine (peerIp_setNodeAddresses hkeys' now n _ dryRun).imp ?_
    rintro r' r'' (hkept | ⟨found, valid, hfound, hvalid, hlinked, hfollow⟩) hnew
    · exact hkept
    · -- the row was linked to this node, which has the row's address
      obtain ⟨r, -, target, hlinks, rfl⟩ := hnew
      obtain rfl : target = n := Option.some.inj hlinked
      obtain ⟨m, hm, hid, haddr, hsome⟩ := linksTo_mem hlinks
      have hnodeMem : node ∈ db.managedNodes := List.mem_of_find?_eq_some hnode
      have hnodeId : node.nodeId = target := by simpa using List.find?_some hnode
      have hsame : node = m :=
        List.inj_on_of_nodup_map hids hnodeMem hm (hnodeId.trans hid.symm)
      rw [← hsame] at haddr
      cases hip : r.peerIp with
      | none => exact absurd hip hsome
      | some ip =>
          rw [hip] at haddr
          have hown := hvalid.ownIpv6
          simp only [haddr] at hown
          have hset := ownIpv6_of_validated hown (hstrip ip haddr)
          rw [hfollow, hset, Patch.getD, followPeerIp]
          split
          · exact hip
          · rfl

/-! ### a mesh of two nodes -/

def sampleNode (nodeId ownIpv6 : Str) : ManagedNode :=
  { ManagedNodeStore.newNode (lit "t0") nodeId (lit "n") false with ownIpv6 := some ownIpv6 }

/-- A row of `b` with this `peer_ip`, not linked. -/
def unlinkedRow (peerIp : Str) : IbgpRow :=
  { meshRow (lit "old.net:51820") with
    peerIp := some peerIp, remoteNodeId := none, createdAt := lit "t1", updatedAt := lit "t1" }

def backfillDb (nodeId ownIpv6 : Str) : Db :=
  { Db.empty with
    nodes := [nodeId, lit "b"]
    managedNodes := [sampleNode nodeId ownIpv6]
    ibgpPeers := [unlinkedRow ownIpv6] }

/-- A stored address with white space around it: the row is linked, and the
same address, validated, is another text.  A node whose id is the empty text:
its row is linked in every run. -/
theorem spaced_address_rewritten :
    (∃ report db' db'' upd, eval (backfillRemoteNodeIds false)
        (backfillDb (lit "a") (lit " fd00::1")) = (.ok report, db') ∧
      db'.ibgpPeers.map (fun r => r.remoteNodeId) = [some (lit "a")] ∧
      eval (setNodeAddresses (lit "t2") (lit "a") { ownIpv6 := .set (some (lit " fd00::1")) })
        db' = (.ok upd, db'') ∧
      db'.ibgpPeers.map (fun r => r.peerIp) = [some (lit " fd00::1")] ∧
      db''.ibgpPeers.map (fun r => r.peerIp) = [some (lit "fd00::1")]) ∧
    ∃ report db' again db'', eval (backfillRemoteNodeIds false) (backfillDb [] (lit "fd00::1")) =
        (.ok report, db') ∧
      eval (backfillRemoteNodeIds false) db' = (.ok again, db'') ∧ again.linked ≠ [] := by
  refine ⟨⟨_, _, _, _, Prod.ext rfl rfl, ?_, Prod.ext rfl rfl, ?_, ?_⟩,
    ⟨_, _, _, _, Prod.ext rfl rfl, Prod.ext rfl rfl, ?_⟩⟩
  · decide +kernel
  · decide +kernel
  · decide +kernel
  · decide +kernel

theorem backfill_links_sample :
    ∃ report db', eval (backfillRemoteNodeIds false) (backfillDb (lit "a") (lit "fd00::1")) =
        (.ok report, db') ∧
      List.Forall₂ (IbgpRow.Backfilled (backfillDb (lit "a") (lit "fd00::1")).managedNodes)
        (backfillDb (lit "a") (lit "fd00::1")).ibgpPeers db'.ibgpPeers := by
  have hkeys : (backfillDb (lit "a") (lit "fd00::1")).NamesUnique := by decide +kernel
  have hids : ((backfillDb (lit "a") (lit "fd00::1")).managedNodes.map
      ManagedNode.nodeId).Nodup := by decide +kernel
  obtain ⟨report, db', hrun, -, hrows, -⟩ := backfill_links_exact hkeys hids
  exact ⟨report, db', hrun, hrows⟩

end Dn42Ctl
