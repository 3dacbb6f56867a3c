import Dn42Ctl.NoTrace
import Dn42Ctl.Lib.Machine
import Mathlib.Data.List.Pairwise

/-!
# ListenPorts

The listen ports of a node's peers, along every sequence of calls that create,
modify and delete peers.

`modify_bgp_peer`, `create_ibgp_peer` and `modify_ibgp_peer` compare a new port
with the ports in use.  `create_bgp_peer` does not, and it derives a port from
the ASN without a lower bound, so that the ports of a node are distinct and in
range exactly as long as the new BGP peers bring such ports.
-/

namespace Dn42Ctl

open Text Txn

/-! ## who has which port -/

/-- A peer of either table, by its key, and its port. -/
structure Holder where
  nodeId : Str
  key : Int ⊕ Str
  port : Int
deriving DecidableEq

def BgpRow.holder (r : BgpRow) : Holder := ⟨r.nodeId, .inl r.peerAsn, r.listenPort⟩

def IbgpRow.holder (r : IbgpRow) : Holder := ⟨r.nodeId, .inr r.name, r.listenPort⟩

def Db.holders (db : Db) : List Holder :=
  db.bgpPeers.map BgpRow.holder ++ db.ibgpPeers.map IbgpRow.holder

/-- Every port is between 0 and 65535, and no two peers of a node share a port
other than 0. -/
structure Db.PortsWF (db : Db) : Prop where
  range : ∀ h ∈ db.holders, 0 ≤ h.port ∧ h.port ≤ maxPort
  unique : db.holders.Pairwise fun a b => a.nodeId = b.nodeId → a.port ≠ 0 → a.port ≠ b.port

/-- The `UNIQUE` constraints of the two tables. -/
def Db.KeysWF (db : Db) : Prop :=
  db.holders.Pairwise fun a b => a.nodeId = b.nodeId → a.key ≠ b.key

namespace Holder

def Apart (a b : Holder) : Prop :=
  a.nodeId = b.nodeId → a.key ≠ b.key ∧ (a.port ≠ 0 → a.port ≠ b.port)

theorem Apart.symm {a b : Holder} (h : Apart a b) : Apart b a := by
  intro hnode
  obtain ⟨hkey, hport⟩ := h hnode.symm
  refine ⟨hkey.symm, fun hzero heq => ?_⟩
  exact hport (heq ▸ hzero) heq.symm

instance : Std.Symm Apart := ⟨fun _ _ h => h.symm⟩

/-- Both invariants at once. -/
structure WF (hs : List Holder) : Prop where
  range : ∀ h ∈ hs, 0 ≤ h.port ∧ h.port ≤ maxPort
  apart : hs.Pairwise Apart

/-- The holder with a key gets another port. -/
def setPort (n : Str) (key : Int ⊕ Str) (port : Int) (h : Holder) : Holder :=
  if h.nodeId = n ∧ h.key = key then { h with port := port } else h

theorem setPort_other {n : Str} {key : Int ⊕ Str} {port : Int} {h : Holder} (hk : h.key ≠ key) :
    setPort n key port h = h := by
  rw [setPort, if_neg fun hc => hk hc.2]

theorem WF.perm {hs hs' : List Holder} (h : WF hs) (hp : hs.Perm hs') : WF hs' where
  range x hx := h.range x (hp.mem_iff.mpr hx)
  apart := (hp.pairwise_iff fun hab => Apart.symm hab).mp h.apart

theorem WF.cons {hs : List Holder} (h : WF hs) {x : Holder}
    (hrange : 0 ≤ x.port ∧ x.port ≤ maxPort) (hapart : ∀ y ∈ hs, Apart x y) : WF (x :: hs) where
  range y hy := by
    rcases List.mem_cons.mp hy with rfl | hy
    · exact hrange
    · exact h.range y hy
  apart := List.pairwise_cons.mpr ⟨hapart, h.apart⟩

/-- A port no other peer of the node has. -/
theorem WF.setPort {hs : List Holder} (h : WF hs) {n : Str} {key : Int ⊕ Str} {port : Int}
    (hrange : 0 ≤ port ∧ port ≤ maxPort)
    (hfree : port ≠ 0 → ∀ x ∈ hs, x.nodeId = n → x.key ≠ key → x.port ≠ port) :
    WF (hs.map (setPort n key port)) where
  range x hx := by
    obtain ⟨y, hy, rfl⟩ := List.mem_map.mp hx
    rw [Holder.setPort]
    split
    · exact hrange
    · exact h.range y hy
  apart := by
    rw [List.pairwise_map]
    refine h.apart.imp_of_mem fun {a b} ha hb hab => ?_
    rw [Holder.setPort, Holder.setPort]
    split
    · rename_i hka
      split
      · rename_i hkb
        -- two peers of a node have different keys
        exact fun hnode => absurd (hka.2.trans hkb.2.symm) (hab (hka.1.trans hkb.1.symm)).1
      · intro hnode
        have hkey := (hab hnode).1
        rw [hka.2] at hkey
        refine ⟨(hab hnode).1, fun hzero heq => ?_⟩
        exact hfree hzero b hb (hnode.symm.trans hka.1) hkey.symm heq.symm
    · split
      · rename_i hkb
        intro hnode
        have hkey := (hab hnode).1
        rw [hkb.2] at hkey
        refine ⟨(hab hnode).1, fun hzero heq => ?_⟩
        replace heq : a.port = port := heq
        exact hfree (heq ▸ hzero) a ha (hnode.trans hkb.1) hkey heq
      · exact hab

end Holder

theorem holders_wf_iff {db : Db} : Holder.WF db.holders ↔ db.PortsWF ∧ db.KeysWF := by
  constructor
  · intro h
    exact ⟨⟨h.range, h.apart.imp fun hab hnode => (hab hnode).2⟩,
      h.apart.imp fun hab hnode => (hab hnode).1⟩
  · rintro ⟨hports, hkeys⟩
    refine ⟨hports.range, (hkeys.and hports.unique).imp ?_⟩
    intro a b hab hnode
    exact ⟨hab.1 hnode, hab.2 hnode⟩

/-- A port is in use when a holder has it. -/
theorem mem_usedPorts {db : Db} {n : Str} {port : Int} :
    port ∈ db.usedPorts n ↔ ∃ h ∈ db.holders, h.nodeId = n ∧ h.port = port := by
  simp only [Db.usedPorts, Db.holders, Db.bgpRowsOf, Db.ibgpRowsOf, List.mem_append, List.mem_map,
    List.mem_filter, beq_iff_eq]
  constructor
  · rintro (⟨r, ⟨hr, hn⟩, hp⟩ | ⟨r, ⟨hr, hn⟩, hp⟩)
    · exact ⟨r.holder, .inl ⟨r, hr, rfl⟩, hn, hp⟩
    · exact ⟨r.holder, .inr ⟨r, hr, rfl⟩, hn, hp⟩
  · rintro ⟨h, ⟨r, hr, rfl⟩ | ⟨r, hr, rfl⟩, hn, hp⟩
    · exact .inl ⟨r, ⟨hr, hn⟩, hp⟩
    · exact .inr ⟨r, ⟨hr, hn⟩, hp⟩

/-! ## the tables as holders -/

theorem holders_addBgp {db db' : Db} {row : BgpRow} (hbgp : db'.bgpPeers = db.bgpPeers ++ [row])
    (hibgp : db'.ibgpPeers = db.ibgpPeers) : (row.holder :: db.holders).Perm db'.holders := by
  rw [Db.holders, Db.holders, hbgp, hibgp, List.map_append, List.append_assoc]
  exact List.perm_middle.symm

theorem holders_addIbgp {db db' : Db} {row : IbgpRow}
    (hibgp : db'.ibgpPeers = db.ibgpPeers ++ [row]) (hbgp : db'.bgpPeers = db.bgpPeers) :
    (row.holder :: db.holders).Perm db'.holders := by
  rw [Db.holders, Db.holders, hbgp, hibgp, List.map_append, ← List.append_assoc]
  exact (List.perm_append_singleton _ _).symm

theorem holders_updateBgp {db db' : Db} {n now : Str} {asn : Int} {up : Database.BgpUpdate}
    (hbgp : db'.bgpPeers = Rows.updateWhere (BgpRow.is n asn) (up.apply now) db.bgpPeers)
    (hibgp : db'.ibgpPeers = db.ibgpPeers) :
    db'.holders = db.holders.map (Holder.setPort n (.inl asn) up.listenPort) := by
  rw [Db.holders, Db.holders, hbgp, hibgp, List.map_append, List.map_map, Rows.updateWhere,
    List.map_map]
  refine congrArg₂ _ (List.map_congr_left fun r _ => ?_) ?_
  · simp only [Function.comp_apply, BgpRow.is, Bool.and_eq_true, beq_iff_eq]
    split
    · rename_i hk
      rw [Holder.setPort, if_pos ⟨hk.1, congrArg Sum.inl hk.2⟩]
      rfl
    · rename_i hk
      rw [Holder.setPort, if_neg fun hc => hk ⟨hc.1, Sum.inl.inj hc.2⟩]
  · rw [List.map_map]
    exact List.map_congr_left fun r _ => (Holder.setPort_other (by simp [IbgpRow.holder])).symm

theorem holders_updateIbgp {db db' : Db} {n name now : Str} {up : Database.IbgpUpdate}
    (hibgp : db'.ibgpPeers = Rows.updateWhere (IbgpRow.is n name) (up.apply now) db.ibgpPeers)
    (hbgp : db'.bgpPeers = db.bgpPeers) :
    db'.holders = db.holders.map (Holder.setPort n (.inr name) up.listenPort) := by
  rw [Db.holders, Db.holders, hbgp, hibgp, List.map_append, List.map_map, List.map_map,
    Rows.updateWhere, List.map_map]
  refine congrArg₂ _ (List.map_congr_left fun r _ => ?_) (List.map_congr_left fun r _ => ?_)
  · exact (Holder.setPort_other (by simp [BgpRow.holder])).symm
  · simp only [Function.comp_apply, IbgpRow.is, Bool.and_eq_true, beq_iff_eq]
    split
    · rename_i hk
      rw [Holder.setPort, if_pos ⟨hk.1, congrArg Sum.inr hk.2⟩]
      rfl
    · rename_i hk
      rw [Holder.setPort, if_neg fun hc => hk ⟨hc.1, Sum.inr.inj hc.2⟩]

theorem wf_deleteBgp {db db' : Db} {p : BgpRow → Bool} (h : Holder.WF db.holders)
    (hbgp : db'.bgpPeers = Rows.deleteWhere p db.bgpPeers) (hibgp : db'.ibgpPeers = db.ibgpPeers) :
    Holder.WF db'.holders := by
  have hsub : db'.holders.Sublist db.holders := by
    rw [Db.holders, Db.holders, hbgp, hibgp]
    exact (List.filter_sublist.map _).append (List.Sublist.refl _)
  exact ⟨fun x hx => h.range x (hsub.subset hx), h.apart.sublist hsub⟩

theorem wf_deleteIbgp {db db' : Db} {p : IbgpRow → Bool} (h : Holder.WF db.holders)
    (hibgp : db'.ibgpPeers = Rows.deleteWhere p db.ibgpPeers)
    (hbgp : db'.bgpPeers = db.bgpPeers) : Holder.WF db'.holders := by
  have hsub : db'.holders.Sublist db.holders := by
    rw [Db.holders, Db.holders, hbgp, hibgp]
    exact (List.Sublist.refl _).append (List.filter_sublist.map _)
  exact ⟨fun x hx => h.range x (hsub.subset hx), h.apart.sublist hsub⟩

/-! ## the calls -/

/-- A call on a peer, from the CLI, the API, a proposal or a report. -/
inductive PeerCall where
  | createBgp (env : PeerEnv) (cfg : Str) (a : BgpPeerArgs)
  | modifyBgp (env : PeerEnv) (cfg : Str) (a : BgpPeerArgs)
  | deleteBgp (env : PeerEnv) (cfg : Str) (asn : Int) (nodeId : Option Str)
  | createIbgp (env : PeerEnv) (cfg : Str) (a : IbgpPeerArgs)
  | modifyIbgp (env : PeerEnv) (cfg : Str) (a : IbgpModifyArgs)
  | deleteIbgp (env : PeerEnv) (cfg name : Str) (nodeId : Option Str)

def PeerCall.run : PeerCall → DbTx Unit
  | .createBgp env cfg a => forEffect (createBgpPeer env cfg a)
  | .modifyBgp env cfg a => forEffect (modifyBgpPeer env cfg a)
  | .deleteBgp env cfg asn nodeId => deleteBgpPeer env cfg asn nodeId
  | .createIbgp env cfg a => forEffect (createIbgpPeer env cfg a)
  | .modifyIbgp env cfg a => forEffect (modifyIbgpPeer env cfg a)
  | .deleteIbgp env cfg name nodeId => deleteIbgpPeer env cfg name nodeId

/-- What a call leaves, whether it returns or raises. -/
def peerStep (db : Db) (call : PeerCall) : Option Db := some (eval call.run db).2

/-- The port of a BGP peer that is stored is not negative, and it is 0 or no peer
of the node has it. -/
def PeerCall.BringsFreePort (db : Db) : PeerCall → Prop
  | .createBgp env cfg a =>
      ∀ backend port keys, a.Storable env cfg backend port keys db →
        0 ≤ port ∧ (port ≠ 0 → port ∉ db.usedPorts (orDefault a.nodeId cfg))
  | _ => True

/-- A call that raises has stored no peer. -/
theorem PeerCall.raises (call : PeerCall) {db db' : Db} {e : Exc PyError}
    (h : eval call.run db = (.error e, db')) :
    db'.bgpPeers = db.bgpPeers ∧ db'.ibgpPeers = db.ibgpPeers := by
  have hsafe : SafeRaise (fun w => w.bgpPeers = db.bgpPeers ∧ w.ibgpPeers = db.ibgpPeers)
      call.run := by
    cases call with
    | createBgp env cfg a => exact (safeRaise_createBgpPeer (fun _ _ hw => hw) env cfg a).map _
    | modifyBgp env cfg a => exact (safeRaise_modifyBgpPeer (fun _ _ hw => hw) env cfg a).map _
    | deleteBgp env cfg asn m => exact safeRaise_deleteBgpPeer env cfg asn m
    | createIbgp env cfg a => exact (safeRaise_createIbgpPeer (fun _ _ hw => hw) env cfg a).map _
    | modifyIbgp env cfg a => exact (safeRaise_modifyIbgpPeer (fun _ _ hw => hw) env cfg a).map _
    | deleteIbgp env cfg name m => exact safeRaise_deleteIbgpPeer env cfg name m
  exact hsafe.eval ⟨rfl, rfl⟩ h

/-- The port of a modified peer differs from those of the node's other peers. -/
theorem free_of_modified {db : Db} (hwf : Holder.WF db.holders) {own : Holder}
    (hown : own ∈ db.holders) {port : Int}
    (hport : port ≠ 0 → port ≠ own.port → port ∉ db.usedPorts own.nodeId) :
    port ≠ 0 → ∀ x ∈ db.holders, x.nodeId = own.nodeId → x.key ≠ own.key → x.port ≠ port := by
  intro hzero x hx hnode hkey heq
  by_cases hcur : port = own.port
  · -- the port it has: the peers were apart before
    have hne : x ≠ own := fun h => hkey (h ▸ rfl)
    have hapart : Holder.Apart x own := hwf.apart.forall hx hown hne
    exact (hapart hnode).2 (heq ▸ hzero) (heq.trans hcur)
  · exact hport hzero hcur (mem_usedPorts.mpr ⟨x, hx, hnode, heq⟩)

section Operations

variable {env : PeerEnv} {cfg : Str} {db db' : Db} {res : PeerResult}

/-- A BGP peer is stored exactly when its checks pass. -/
theorem eval_createBgpPeer_iff {a : BgpPeerArgs} :
    (∃ res, eval (createBgpPeer env cfg a) db = (.ok res, db')) ↔
      ∃ (backend : Str) (port : Int) (keys : Str × Str),
        a.Storable env cfg backend port keys db ∧
        db' = Db.emit env.now (orDefault a.nodeId cfg) .desired
          { db.upsertNode (orDefault a.nodeId cfg) with
            bgpPeers := db.bgpPeers ++ [newBgpRow env cfg a backend port keys] } := by
  simp only [createBgpPeer_store, (settles_storeBgpPeer a).eval_bind, eval_storeBgpPeer_iff,
    eval_pure]
  constructor
  · rintro ⟨res, s, mid, ⟨backend, port, keys, h, -, rfl⟩, -, rfl⟩
    exact ⟨backend, port, keys, h, rfl⟩
  · rintro ⟨backend, port, keys, h, rfl⟩
    exact ⟨_, _, _, ⟨backend, port, keys, h, rfl, rfl⟩, rfl, rfl⟩

/-- The holders a new BGP peer leaves. -/
theorem holders_createBgp {a : BgpPeerArgs} {backend : Str} {port : Int} {keys : Str × Str}
    (h : db' = Db.emit env.now (orDefault a.nodeId cfg) .desired
      { db.upsertNode (orDefault a.nodeId cfg) with
        bgpPeers := db.bgpPeers ++ [newBgpRow env cfg a backend port keys] }) :
    ((newBgpRow env cfg a backend port keys).holder :: db.holders).Perm db'.holders := by
  refine holders_addBgp ?_ ?_
  · rw [h]
    rfl
  · rw [h]
    exact upsertNode_ibgpPeers

theorem wf_createBgp {a : BgpPeerArgs} (hwf : Holder.WF db.holders)
    (hfree : (PeerCall.createBgp env cfg a).BringsFreePort db)
    (h : eval (createBgpPeer env cfg a) db = (.ok res, db')) : Holder.WF db'.holders := by
  obtain ⟨backend, port, keys, hstorable, hdb'⟩ := eval_createBgpPeer_iff.mp ⟨res, h⟩
  obtain ⟨hlo, hused⟩ := hfree backend port keys hstorable
  obtain ⟨-, -, hhi⟩ :=
    eval_bgpListenPort (eval_bgpListenPort_iff.mpr ⟨hstorable.listenPort, @rfl Db db⟩)
  refine (hwf.cons ⟨hlo, hhi⟩ fun y hy => ?_).perm (holders_createBgp hdb')
  intro hnode
  refine ⟨fun hk => ?_, fun hzero heq => ?_⟩
  · -- no row of the node has the ASN
    rcases List.mem_append.mp hy with hy | hy
    · obtain ⟨r, hr, rfl⟩ := List.mem_map.mp hy
      exact (hstorable.unique r hr hnode.symm).1 (Sum.inl.inj hk).symm
    · obtain ⟨r, hr, rfl⟩ := List.mem_map.mp hy
      cases hk
  · exact hused hzero (mem_usedPorts.mpr ⟨y, hy, hnode.symm, heq.symm⟩)

/-- A BGP peer that is stored with the ports in range and apart brought a free one. -/
theorem free_of_createBgp {a : BgpPeerArgs}
    (h : ∀ db', peerStep db (.createBgp env cfg a) = some db' → db'.PortsWF) :
    (PeerCall.createBgp env cfg a).BringsFreePort db := by
  intro backend port keys hstorable
  obtain ⟨res, hres⟩ := eval_createBgpPeer_iff.mpr ⟨backend, port, keys, hstorable, rfl⟩
  have hports := h _ (by rw [peerStep, PeerCall.run, eval_forEffect_of hres])
  have hperm := @holders_createBgp env cfg db _ a backend port keys rfl
  refine ⟨(hports.range _ (hperm.mem_iff.mp List.mem_cons_self)).1, fun hzero hmem => ?_⟩
  obtain ⟨x, hx, hnode, hport⟩ := mem_usedPorts.mp hmem
  have hunique := (hperm.pairwise_iff ?_).mpr hports.unique
  · exact List.rel_of_pairwise_cons hunique hx hnode.symm hzero hport.symm
  · exact fun hxy hnode hzero heq => hxy hnode.symm (heq ▸ hzero) heq.symm

theorem wf_createIbgp {a : IbgpPeerArgs} (hwf : Holder.WF db.holders)
    (h : eval (createIbgpPeer env cfg a) db = (.ok res, db')) : Holder.WF db'.holders := by
  obtain ⟨peerName, t, mid, -, hmid, htunnel, hibgp, hbgp, hkey⟩ := eval_createIbgpPeer h
  have hport : 0 ≤ t.listenPort ∧ t.listenPort ≤ maxPort ∧
      (t.listenPort ≠ 0 → t.listenPort ∉ db.usedPorts (orDefault a.nodeId cfg)) := by
    rcases eval_tunnelFor htunnel with ⟨-, -, hport, -⟩ | ⟨-, rfl⟩
    · rw [Db.usedPorts, Db.bgpRowsOf, Db.ibgpRowsOf, hmid.1, hmid.2] at hport
      exact hport
    · exact ⟨le_refl 0, (by decide : (0 : Int) ≤ maxPort), fun hzero => absurd rfl hzero⟩
  refine (hwf.cons ⟨hport.1, hport.2.1⟩ fun y hy => ?_).perm (holders_addIbgp hibgp hbgp)
  intro hnode
  refine ⟨fun hk => ?_, fun hzero heq => ?_⟩
  · rcases List.mem_append.mp hy with hy | hy
    · obtain ⟨r, hr, rfl⟩ := List.mem_map.mp hy
      cases hk
    · obtain ⟨r, hr, rfl⟩ := List.mem_map.mp hy
      exact (hkey r hr hnode.symm).1 (Sum.inr.inj hk).symm
  · exact hport.2.2 hzero (mem_usedPorts.mpr ⟨y, hy, hnode.symm, heq.symm⟩)

theorem wf_modifyBgp {a : BgpPeerArgs} (hwf : Holder.WF db.holders)
    (h : eval (modifyBgpPeer env cfg a) db = (.ok res, db')) : Holder.WF db'.holders := by
  obtain ⟨backend, row, port, -, hrow, ⟨-, hlo, hhi, hfree⟩, -, hbgp, hibgp⟩ :=
    eval_modifyBgpPeer h
  have hmem : row.holder ∈ db.holders :=
    List.mem_append_left _ (List.mem_map_of_mem (List.mem_of_find?_eq_some hrow))
  have hkey := List.find?_some hrow
  simp only [BgpRow.is, Bool.and_eq_true, beq_iff_eq] at hkey
  rw [holders_updateBgp hbgp hibgp]
  refine hwf.setPort ⟨hlo, hhi⟩ ?_
  rw [← hkey.1] at hfree ⊢
  rw [← hkey.2]
  exact free_of_modified hwf hmem hfree

theorem wf_modifyIbgp {a : IbgpModifyArgs} (hwf : Holder.WF db.holders)
    (h : eval (modifyIbgpPeer env cfg a) db = (.ok res, db')) : Holder.WF db'.holders := by
  obtain ⟨backend, peerName, row, port, -, -, -, -, hrow, -, ⟨-, hlo, hhi, hfree⟩, -, hibgp,
    hbgp⟩ := eval_modifyIbgpPeer h
  have hmem : row.holder ∈ db.holders :=
    List.mem_append_right _ (List.mem_map_of_mem (List.mem_of_find?_eq_some hrow))
  have hkey := List.find?_some hrow
  simp only [IbgpRow.is, Bool.and_eq_true, beq_iff_eq] at hkey
  rw [holders_updateIbgp hibgp hbgp]
  refine hwf.setPort ⟨hlo, hhi⟩ ?_
  rw [← hkey.1] at hfree ⊢
  rw [← hkey.2]
  exact free_of_modified hwf hmem hfree

end Operations

/-- One call keeps the ports apart when a new BGP peer brings a free port. -/
theorem wf_peerStep {db db' : Db} {call : PeerCall} (hwf : Holder.WF db.holders)
    (hfree : call.BringsFreePort db) (hs : peerStep db call = some db') :
    Holder.WF db'.holders := by
  rw [peerStep, Option.some.injEq] at hs
  cases hr : eval call.run db with
  | mk res db1 =>
      obtain rfl : db1 = db' := by
        rw [← hs, hr]
      cases res with
      | error e =>
          obtain ⟨hbgp, hibgp⟩ := call.raises hr
          rw [Db.holders, hbgp, hibgp]
          exact hwf
      | ok u =>
          cases call with
          | createBgp env cfg a =>
              obtain ⟨res, hr⟩ := eval_forEffect hr
              exact wf_createBgp hwf hfree hr
          | modifyBgp env cfg a =>
              obtain ⟨res, hr⟩ := eval_forEffect hr
              exact wf_modifyBgp hwf hr
          | deleteBgp env cfg asn m =>
              obtain ⟨-, hbgp, hibgp⟩ := eval_deleteBgpPeer hr
              exact wf_deleteBgp hwf hbgp hibgp
          | createIbgp env cfg a =>
              obtain ⟨res, hr⟩ := eval_forEffect hr
              exact wf_createIbgp hwf hr
          | modifyIbgp env cfg a =>
              obtain ⟨res, hr⟩ := eval_forEffect hr
              exact wf_modifyIbgp hwf hr
          | deleteIbgp env cfg name m =>
              obtain ⟨peerName, -, -, hibgp, hbgp⟩ := eval_deleteIbgpPeer hr
              exact wf_deleteIbgp hwf hibgp hbgp

/-- A call brings a free port exactly when it leaves the ports in range and apart. -/
theorem bringsFreePort_iff {db : Db} {call : PeerCall} (hwf : Holder.WF db.holders) :
    call.BringsFreePort db ↔ ∀ db', peerStep db call = some db' → db'.PortsWF := by
  refine ⟨fun hfree db' hs => (holders_wf_iff.mp (wf_peerStep hwf hfree hs)).1, fun h => ?_⟩
  cases call with
  | createBgp env cfg a => exact free_of_createBgp h
  | _ => trivial

/-- **Listen ports**: along a sequence of calls, the ports of each node are in
range and distinct in every state exactly when every BGP peer that is stored
brings a free port. -/
theorem listen_ports_unique {db : Db} (hports : db.PortsWF) (hkeys : db.KeysWF)
    (calls : List PeerCall) :
    (Machine.Along peerStep PeerCall.BringsFreePort db calls ↔
      Machine.Along peerStep (fun w call => ∀ w', peerStep w call = some w' → w'.PortsWF)
        db calls) ∧
    ∀ db', Machine.Along peerStep PeerCall.BringsFreePort db calls →
      Machine.exec peerStep db calls = some db' → db'.PortsWF := by
  have hstart : Holder.WF db.holders := holders_wf_iff.mpr ⟨hports, hkeys⟩
  have hstep : ∀ w call w', Holder.WF (Db.holders w) → PeerCall.BringsFreePort w call →
      peerStep w call = some w' → Holder.WF w'.holders :=
    fun w call w' hw hc hs => wf_peerStep hw hc hs
  refine ⟨Machine.along_congr _ (fun w call => bringsFreePort_iff) hstep hstart calls,
    fun db' hfree hrun => ?_⟩
  exact (holders_wf_iff.mp (Machine.exec_invariant peerStep hstep hstart hfree hrun)).1

/-! ### two peers on one port -/

def portEnv : PeerEnv := ⟨lit "t0", .ok (lit "priv", lit "pub"), fun i => i⟩

/-- A tunnel of node `a` on a port of its own. -/
def tunnelOn (port : Int) : PeerCall :=
  .createIbgp portEnv (lit "a") { name := lit "b", peerIp := lit "fd00::1", listenPort := some port }

/-- A BGP peer of node `a`, with the port its ASN gives. -/
def peerAs (asn : Int) : PeerCall :=
  .createBgp portEnv (lit "a")
    { peerAsn := asn, peerPublicKey := lit "k", endpoint := [], peerLla := lit "fe80::1",
      netBackend := lit "networkd" }

def portsAfter (calls : List PeerCall) : Db := (Machine.exec peerStep Db.empty calls).getD Db.empty

theorem listen_ports_unique_sample :
    (portsAfter [tunnelOn 20002, peerAs 4242420001]).holders.map (fun h => h.port) =
        [20001, 20002] ∧
      (portsAfter [tunnelOn 20002, peerAs 4242420001]).PortsWF := by
  have hempty : Holder.WF Db.empty.holders := ⟨by simp [Db.empty, Db.holders],
    by simp [Db.empty, Db.holders]⟩
  obtain ⟨hports, hkeys⟩ := holders_wf_iff.mp hempty
  have hused : (portsAfter [tunnelOn 20002]).usedPorts (lit "a") = [20002] := by decide +kernel
  have hfree : Machine.Along peerStep PeerCall.BringsFreePort Db.empty
      [tunnelOn 20002, peerAs 4242420001] := by
    refine ⟨trivial, fun w hw => ⟨fun backend port keys h => ?_, fun _ _ => trivial⟩⟩
    obtain rfl : portsAfter [tunnelOn 20002] = w := Option.some.inj hw
    have hport : port = 20001 := h.listenPort.1.trans (by decide)
    rw [hport]
    refine ⟨by decide, fun _ hmem => ?_⟩
    change (20001 : Int) ∈ (portsAfter [tunnelOn 20002]).usedPorts (lit "a") at hmem
    rw [hused] at hmem
    simp at hmem
  exact ⟨by decide +kernel, (listen_ports_unique hports hkeys _).2 _ hfree rfl⟩

/-- A BGP peer whose ASN ends in the digits of a port in use. -/
theorem listen_ports_clash :
    Machine.exec peerStep Db.empty [tunnelOn 20001, peerAs 4242420001] =
        some (portsAfter [tunnelOn 20001, peerAs 4242420001]) ∧
      ¬ (portsAfter [tunnelOn 20001, peerAs 4242420001]).PortsWF := by
  refine ⟨rfl, fun h => ?_⟩
  have hholders : (portsAfter [tunnelOn 20001, peerAs 4242420001]).holders =
      [⟨lit "a", .inl 4242420001, 20001⟩, ⟨lit "a", .inr (lit "b"), 20001⟩] := by decide +kernel
  have hunique := h.unique
  rw [hholders, List.pairwise_cons] at hunique
  exact hunique.1 _ (List.mem_singleton_self _) rfl (by decide) rfl

end Dn42Ctl
