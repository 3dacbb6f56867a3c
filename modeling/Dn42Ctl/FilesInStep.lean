import Dn42Ctl.Incremental
import Dn42Ctl.RenderAgreement

/-!
# FilesInStep

The files of the hub's own peers along any sequence of calls.

* `incremental_of_call` — a call for the hub replaces one peer with its files;
* `samePartition_of_call` — a call for another node leaves the hub's peers and
  files as they are;
* `InStep` — what holds along a run;
* `wrote_genconf` — what `genconf` can have done to the disk;
* `incremental_agrees` — after any run `genconf` would change none of the files.
-/

namespace Dn42Ctl

open Text Txn

/-! ## calls for other nodes -/

/-- The rows of a node's partition are the same. -/
structure SamePartition (n : Str) (db db' : Db) : Prop where
  bgp : db'.bgpRowsOf n = db.bgpRowsOf n
  ibgp : db'.ibgpRowsOf n = db.ibgpRowsOf n

section Elsewhere

variable {m n cfg : Str} {db db' : Db} {disk disk' : Disk} {α : Type}

/-- The operations on another node's peers leave the partition as it is. -/
theorem editsPeersOf_samePartition (hne : m ≠ n) (db : Db) :
    EditsPeersOf m (SamePartition n db) where
  nodes w rows h := ⟨h.bgp, h.ibgp⟩
  queue w events seq log h := ⟨h.bgp, h.ibgp⟩
  addBgp w row hrow h := by
    refine ⟨Eq.trans ?_ h.bgp, h.ibgp⟩
    exact Rows.filter_append_of_false (by simpa [hrow] using hne) _
  addIbgp w row hrow h := by
    refine ⟨h.bgp, Eq.trans ?_ h.ibgp⟩
    exact Rows.filter_append_of_false (by simpa [hrow] using hne) _
  updateBgp w asn u now h := by
    refine ⟨Eq.trans ?_ h.bgp, h.ibgp⟩
    refine Rows.filter_updateWhere fun r _ hr => ?_
    have hrn := (is_bgp_iff.mp hr).1
    refine ⟨rfl, fun hq => absurd (hrn.symm.trans ?_) hne⟩
    exact beq_iff_eq.mp hq
  updateIbgp w name u now h := by
    refine ⟨h.bgp, Eq.trans ?_ h.ibgp⟩
    refine Rows.filter_updateWhere fun r _ hr => ?_
    have hrn := (is_ibgp_iff.mp hr).1
    refine ⟨rfl, fun hq => absurd (hrn.symm.trans ?_) hne⟩
    exact beq_iff_eq.mp hq
  deleteBgp w asn h := by
    refine ⟨Eq.trans ?_ h.bgp, h.ibgp⟩
    refine Rows.filter_deleteWhere (fun r hq => ?_) _
    rw [← Bool.not_eq_true, is_bgp_iff]
    exact fun hr => hne (hr.1.symm.trans (beq_iff_eq.mp hq))
  deleteIbgp w name h := by
    refine ⟨h.bgp, Eq.trans ?_ h.ibgp⟩
    refine Rows.filter_deleteWhere (fun r hq => ?_) _
    rw [← Bool.not_eq_true, is_ibgp_iff]
    exact fun hr => hne (hr.1.symm.trans (beq_iff_eq.mp hq))

theorem samePartition_of_preserves {op : DbTx α} {a : α} (hop : Preserves (SamePartition n db) op)
    (h : eval op db = (.ok a, db')) : SamePartition n db db' := by
  have hkept := (hop (Conn.fresh db none false) ⟨rfl, rfl⟩ ⟨rfl, rfl⟩).1
  rw [eval, Prod.mk.injEq] at h
  rw [h.2] at hkept
  exact hkept

/-- What follows the commit does not change the database. -/
theorem eval_then_pure {τ : Type} {store : DbTx τ} {s : τ} (f : τ → α)
    (h : eval store db = (.ok s, db')) :
    eval (store >>= fun s => pure (f s)) db = (.ok (f s), db') := by
  obtain ⟨c, hrun, rfl⟩ := eval_eq_ok.mp h
  have hrun : store.run (Conn.fresh db none false) = (.ok s, c) := hrun
  rw [eval, Prog.run_bind_ok hrun]
  rfl

/-- A call whose store does what a call of the database does, and which then
writes nothing, keeps the partition that the latter keeps. -/
theorem samePartition_of_store {τ β : Type} {store : DbTx τ} {op : DbTx β} {g : τ → β}
    {f : τ → PeerTx α} {a : α} (hop : op = store >>= fun s => pure (g s))
    (hsettles : Settles store) (hkept : Preserves (SamePartition n db) op)
    (hf : ∀ s a c c', (f s).run c = (.ok a, c') → c' = c)
    (h : evalPeer (onDb store >>= f) db disk = (.ok a, db', disk')) :
    SamePartition n db db' ∧ disk' = disk := by
  obtain ⟨c, hrun, hc⟩ := evalPeer_ok h
  obtain ⟨s, db1, hstore, hrun⟩ := bind_store hsettles hrun
  cases hf s a _ _ hrun
  have hdb' : db1 = db' := hc
  subst hdb'
  have hcall := eval_then_pure g hstore
  rw [← hop] at hcall
  exact ⟨samePartition_of_preserves hkept hcall, rfl⟩

end Elsewhere

/-! ## a call -/

/-- A call that returned and reported no file it could not remove. -/
def peerFilesStep (config : AppConfig) (s : Db × Disk) (c : PeerFilesCall) : Option (Db × Disk) :=
  match evalPeer (c.run config) s.1 s.2 with
  | (.ok [], db', disk') => some (db', disk')
  | _ => none

/-- The call renders files exactly when it is for the machine's own node. -/
def PeerFilesCall.Placed (config : AppConfig) (c : PeerFilesCall) : Prop :=
  c.renderFiles = true ↔ orDefault c.request.nodeId config.nodeId = config.nodeId

section Calls

variable {config : AppConfig} {db db' : Db} {disk disk' : Disk} {c : PeerFilesCall}

theorem peerFilesStep_eq_some
    (h : peerFilesStep config (db, disk) c = some (db', disk')) :
    evalPeer (c.run config) db disk = (.ok [], db', disk') := by
  unfold peerFilesStep at h
  split at h
  · next db1 disk1 hcall =>
      cases h
      exact hcall
  · cases h

/-- The call's own program, before the list of failures is picked. -/
theorem evalPeer_map {α β : Type} {m : PeerTx α} {f : α → β} {b : β}
    (h : evalPeer (m >>= fun a => pure (f a)) db disk = (.ok b, db', disk')) :
    ∃ a, evalPeer m db disk = (.ok a, db', disk') ∧ f a = b := by
  obtain ⟨c, hrun, hc⟩ := evalPeer_ok h
  obtain ⟨a, state, hm, hpure⟩ := Prog.run_bind_eq_ok.mp hrun
  cases hpure
  refine ⟨a, ?_, rfl⟩
  rw [evalPeer, hm, hc]

/-- **A call for the hub replaces one peer with its files.** -/
theorem incremental_of_call (hbabel : ¬config.PeerPlace (.ofStr config.birdBabelConfPath))
    (hwf : PeersWF (db.peersOf config.nodeId)) (hrender : c.renderFiles = true)
    (hn : orDefault c.request.nodeId config.nodeId = config.nodeId)
    (h : evalPeer (c.run config) db disk = (.ok [], db', disk')) :
    Incremental config db db' disk disk' := by
  obtain ⟨env, io, renderFiles, request⟩ := c
  have hfiles : renderFiles = true := hrender
  subst hfiles
  cases request with
  | write op =>
      obtain ⟨g, h, -⟩ := evalPeer_map h
      cases op with
      | createBgp a => exact incremental_createBgp hn hwf h
      | modifyBgp a => exact incremental_modifyBgp hn hwf h
      | createIbgp a => exact incremental_createIbgp hn hwf h
      | modifyIbgp a => exact incremental_modifyIbgp hn hwf h
  | deleteBgp asn m =>
      obtain ⟨r, h, hfailed⟩ := evalPeer_map h
      exact incremental_deleteBgp hn hwf h hfailed
  | deleteIbgp name m =>
      obtain ⟨r, h, hfailed⟩ := evalPeer_map h
      exact incremental_deleteIbgp hbabel hn hwf h hfailed

/-- **A call for another node without files touches neither the hub's rows nor
its files.** -/
theorem samePartition_of_call (hrender : c.renderFiles = false)
    (hn : orDefault c.request.nodeId config.nodeId ≠ config.nodeId)
    (h : evalPeer (c.run config) db disk = (.ok [], db', disk')) :
    SamePartition config.nodeId db db' ∧ disk' = disk := by
  obtain ⟨env, io, renderFiles, request⟩ := c
  have hfiles : renderFiles = false := hrender
  subst hfiles
  have hedits := editsPeersOf_samePartition hn db
  cases request with
  | write op =>
      obtain ⟨g, h, -⟩ := evalPeer_map h
      cases op with
      | createBgp a =>
          refine samePartition_of_store (createBgpPeer_store a) (settles_storeBgpPeer a)
            (preserves_createBgpPeer hedits.toAddsPeersOf _ rfl) (fun s r c c' hrun => ?_) h
          cases hrun
          rfl
      | modifyBgp a =>
          refine samePartition_of_store (modifyBgpPeer_restore a) (settles_restoreBgpPeer a)
            (preserves_modifyBgpPeer hedits _ rfl) (fun s r c c' hrun => ?_) h
          cases hrun
          rfl
      | createIbgp a =>
          refine samePartition_of_store (createIbgpPeer_store a) (settles_storeIbgpPeer a)
            (preserves_createIbgpPeer hedits.toAddsPeersOf _ rfl) (fun s r c c' hrun => ?_) h
          cases hrun
          rfl
      | modifyIbgp a =>
          refine samePartition_of_store (modifyIbgpPeer_restore a) (settles_restoreIbgpPeer a)
            (preserves_modifyIbgpPeer hedits _ rfl) (fun s r c c' hrun => ?_) h
          cases hrun
          rfl
  | deleteBgp asn m =>
      obtain ⟨r, h, -⟩ := evalPeer_map h
      refine samePartition_of_store (deleteBgpPeer_remove asn) (settles_removeBgpPeer asn)
        (preserves_deleteBgpPeer hedits _ asn rfl) (fun s r c c' hrun => ?_) h
      cases hrun
      rfl
  | deleteIbgp name m =>
      obtain ⟨r, h, -⟩ := evalPeer_map h
      refine samePartition_of_store (deleteIbgpPeer_remove name) (settles_removeIbgpPeer name)
        (preserves_deleteIbgpPeer hedits _ name rfl) (fun s r c c' hrun => ?_) h
      cases hrun
      rfl

end Calls

/-! ## runs -/

section Runs

variable {config : AppConfig} {db db' : Db} {disk disk' : Disk}

theorem peersOf_congr {n : Str} (h : SamePartition n db db') : db'.peersOf n = db.peersOf n := by
  rw [Db.peersOf, Db.peersOf, h.bgp, h.ibgp]

theorem hubFiles_congr (h : SamePartition config.nodeId db db') :
    config.hubFiles db' = config.hubFiles db := by
  simp only [AppConfig.hubFiles, AppConfig.babelOf, Db.listBgpPeers, Db.listIbgpPeers, h.bgp,
    h.ibgp]

/-- What holds along a run that starts on `disk`: the peers are proper, the files
are those of the rows, and no other file has changed. -/
structure InStep (config : AppConfig) (disk : Disk) (s : Db × Disk) : Prop where
  peers : PeersWF (s.1.peersOf config.nodeId)
  rendered : config.Rendered s.1 s.2
  kept : ∀ p, ¬config.PeerPlace p → p ≠ .ofStr config.birdBabelConfPath →
    s.2.read p = disk.read p

/-- One call. -/
theorem inStep_step (hbabel : ¬config.PeerPlace (.ofStr config.birdBabelConfPath))
    {s t : Db × Disk} {c : PeerFilesCall} (h : InStep config disk s) (hplaced : c.Placed config)
    (hstep : peerFilesStep config s c = some t) : InStep config disk t := by
  have hcall : evalPeer (c.run config) s.1 s.2 = (.ok [], t.1, t.2) := peerFilesStep_eq_some hstep
  by_cases hn : orDefault c.request.nodeId config.nodeId = config.nodeId
  · obtain ⟨key, new, gone, babel, hrows, hfiles⟩ :=
      incremental_of_call hbabel h.peers (hplaced.mpr hn) hn hcall
    exact
      { peers := h.peers.replaced hrows
        rendered := fun p hp => shows_replaced hbabel h.peers hrows hfiles (h.rendered p hp)
        kept := fun p hp hne =>
          (read_replaced h.peers hrows hfiles hp hne).trans (h.kept p hp hne) }
  · have hrender : c.renderFiles = false := by
      rw [← Bool.not_eq_true]
      exact fun hr => hn (hplaced.mp hr)
    obtain ⟨hsame, hdisk⟩ := samePartition_of_call hrender hn hcall
    refine ⟨?_, ?_, ?_⟩
    · rw [peersOf_congr hsame]
      exact h.peers
    · rw [hdisk, AppConfig.Rendered, hubFiles_congr hsame]
      exact h.rendered
    · rw [hdisk]
      exact h.kept

/-- Any sequence of calls. -/
theorem inStep_run (hbabel : ¬config.PeerPlace (.ofStr config.birdBabelConfPath))
    {s t : Db × Disk} {calls : List PeerFilesCall} (h : InStep config disk s)
    (hplaced : ∀ c ∈ calls, c.Placed config)
    (hrun : Machine.exec (peerFilesStep config) s calls = some t) : InStep config disk t :=
  Machine.exec_invariant (peerFilesStep config)
    (fun _ _ _ hs hc hstep => inStep_step hbabel hs hc hstep) h
    (Machine.along_of_forall _ hplaced) hrun

end Runs

/-! ## `genconf` -/

section GenConf

variable {io : FileIo} {config : AppConfig} {disk disk' : Disk} {gone : List PosixPath}
  {entries : List (PosixPath × Str)}

theorem unlinkMissingOk_ok {p : PosixPath} {u : Unit}
    (h : (unlinkMissingOk io p).run disk = (.ok u, disk')) : disk' = disk.unlink p := by
  unfold unlinkMissingOk at h
  split at h
  · cases h
  · cases h
    rfl

theorem wrote_genconfBgpPeer {r : BgpRow} {files : List FileSpec}
    (h : (genconfBgpPeer io config r).run disk = (.ok files, disk'))
    (hgone : legacyNm config r.ifname ∈ gone)
    (hentries : writesOf (rowBgpFiles config r) ⊆ entries) :
    Disk.Wrote entries gone ((rowBgpFiles config r).map FileSpec.path) disk disk' := by
  unfold genconfBgpPeer at h
  obtain ⟨u, disk1, hnm, h⟩ := Prog.run_bind_eq_ok.mp h
  obtain ⟨bird, disk2, hbird, h⟩ := Prog.run_bind_eq_ok.mp h
  obtain ⟨tunnel, disk3, htunnel, h⟩ := Prog.run_bind_eq_ok.mp h
  cases h
  obtain ⟨-, rfl, rfl⟩ := writeBirdBgpPeer_ok hbird
  obtain ⟨-, -, rfl, rfl⟩ := writeNetBackendFiles_ok htunnel
  rw [unlinkMissingOk_ok hnm, ← Disk.writeAll_append]
  have hwrites := (Disk.Wrote.unlink hgone (d := disk)).trans (Disk.Wrote.writeAll hentries)
  rw [map_fst_writesOf] at hwrites
  exact hwrites

theorem genconfIbgpBird_writes {r : IbgpRow} {files : List FileSpec}
    (h : (genconfIbgpBird io config r).run disk = (.ok files, disk')) :
    disk' = disk.writeAll (writesOf files) := by
  unfold genconfIbgpBird at h
  simp only at h
  split at h
  · cases h
    rfl
  · obtain ⟨text, disk1, htext, h⟩ := Prog.run_bind_eq_ok.mp h
    obtain ⟨u, disk2, hwrite, h⟩ := Prog.run_bind_eq_ok.mp h
    cases h
    rw [Prog.run_lift, Prod.mk.injEq] at htext
    rw [writeText_ok hwrite, ← htext.2]
    rfl

theorem wrote_genconfIbgpPeer {r : IbgpRow} {files : List FileSpec}
    (h : (genconfIbgpPeer io config r).run disk = (.ok files, disk'))
    (hgone : legacyNm config r.ifname ∈ gone)
    (hentries : writesOf (rowIbgpFiles config r) ⊆ entries) :
    Disk.Wrote entries gone ((rowIbgpFiles config r).map FileSpec.path) disk disk' := by
  unfold genconfIbgpPeer at h
  obtain ⟨bird, disk1, hbird, h⟩ := Prog.run_bind_eq_ok.mp h
  have hwritten := genconfIbgpBird_writes hbird
  obtain rfl := genconfIbgpBird_ok hbird
  split at h
  · next hwg =>
      obtain ⟨u, disk2, hnm, h⟩ := Prog.run_bind_eq_ok.mp h
      obtain ⟨tunnel, disk3, htunnel, h⟩ := Prog.run_bind_eq_ok.mp h
      cases h
      obtain ⟨-, -, rfl, rfl⟩ := writeNetBackendFiles_ok htunnel
      rw [rowIbgpFiles, if_pos hwg] at hentries ⊢
      rw [writesOf, List.map_append, List.append_subset] at hentries
      rw [unlinkMissingOk_ok hnm, hwritten]
      have hwrites := ((Disk.Wrote.writeAll hentries.1 (d := disk)).trans
        (Disk.Wrote.unlink hgone)).trans (Disk.Wrote.writeAll hentries.2)
      rw [List.append_nil, ← writesOf, ← writesOf, map_fst_writesOf, map_fst_writesOf] at hwrites
      rw [List.map_append]
      exact hwrites
  · next hwg =>
      cases h
      rw [rowIbgpFiles, if_neg hwg, List.append_nil] at hentries ⊢
      rw [hwritten, ← map_fst_writesOf]
      exact Disk.Wrote.writeAll hentries

theorem wrote_collectTx {α : Type} {f : α → DiskTx (List FileSpec)} {g : α → List FileSpec}
    {xs : List α} (hf : ∀ x ∈ xs, ∀ disk disk' ys, (f x).run disk = (.ok ys, disk') →
      Disk.Wrote entries gone ((g x).map FileSpec.path) disk disk')
    {ys : List FileSpec} (h : (collectTx f xs).run disk = (.ok ys, disk')) :
    Disk.Wrote entries gone ((xs.flatMap g).map FileSpec.path) disk disk' := by
  induction xs generalizing disk ys with
  | nil =>
      cases h
      exact .refl _
  | cons x xs ih =>
      unfold collectTx at h
      obtain ⟨ys1, disk1, hx, h⟩ := Prog.run_bind_eq_ok.mp h
      obtain ⟨ys2, disk2, hxs, h⟩ := Prog.run_bind_eq_ok.mp h
      cases h
      obtain ⟨hfx, hfxs⟩ := List.forall_mem_cons.mp hf
      rw [List.flatMap_cons, List.map_append]
      exact (hfx disk disk1 ys1 hx).trans (ih hfxs hxs)

/-- The legacy NetworkManager profiles of the peers. -/
def legacyFiles (config : AppConfig) (rows : List PeerRow) : List PosixPath :=
  rows.map fun x => legacyNm config x.base.ifname

/-- The placeholder of `extra.conf`. -/
def extraConfFile (config : AppConfig) : FileSpec :=
  ⟨.ofStr config.birdExtraConfPath, renderBirdExtraConfPlaceholder, .bird⟩

/-- Everything `genconf` may write. -/
def genconfWrites (io : FileIo) (config : AppConfig) (db : Db) : List FileSpec :=
  [mainConfFile config, extraConfFile config, roaFile io config] ++ config.hubFiles db

theorem writesOf_subset {files all : List FileSpec} (h : files ⊆ all) :
    writesOf files ⊆ writesOf all := List.map_subset _ h

theorem files_subset {db : Db} {x : PeerRow} (hx : x ∈ db.peersOf config.nodeId) :
    writesOf (x.files config) ⊆ writesOf (genconfWrites io config db) :=
  writesOf_subset fun _ hf =>
    List.mem_append_right _ (mem_hubFiles.mpr (.inl ⟨x, hx, hf⟩))

theorem wrote_genconfPeers {db : Db} {files : List FileSpec}
    (h : (genconfPeers io config (db.listBgpPeers config.nodeId)
      (db.listIbgpPeers config.nodeId)).run disk = (.ok files, disk')) :
    Disk.Wrote (writesOf (genconfWrites io config db))
      (legacyFiles config (db.peersOf config.nodeId))
      ((rowFiles config (db.listBgpPeers config.nodeId)
        (db.listIbgpPeers config.nodeId)).map FileSpec.path) disk disk' := by
  unfold genconfPeers at h
  obtain ⟨bgp, disk1, hbgp, h⟩ := Prog.run_bind_eq_ok.mp h
  obtain ⟨ibgp, disk2, hibgp, h⟩ := Prog.run_bind_eq_ok.mp h
  cases h
  have hbgpMem : ∀ r ∈ db.listBgpPeers config.nodeId, .bgp r ∈ db.peersOf config.nodeId := by
    intro r hr
    rw [Db.listBgpPeers, List.mem_insertionSort] at hr
    exact List.mem_append_left _ (List.mem_map_of_mem hr)
  have hibgpMem : ∀ r ∈ db.listIbgpPeers config.nodeId, .ibgp r ∈ db.peersOf config.nodeId := by
    intro r hr
    rw [Db.listIbgpPeers, List.mem_insertionSort] at hr
    exact List.mem_append_right _ (List.mem_map_of_mem hr)
  rw [rowFiles, List.map_append]
  apply Disk.Wrote.trans
  · refine wrote_collectTx (fun r hr d d' ys hrun => ?_) hbgp
    exact wrote_genconfBgpPeer hrun (List.mem_map_of_mem (hbgpMem r hr))
      (files_subset (hbgpMem r hr))
  · refine wrote_collectTx (fun r hr d d' ys hrun => ?_) hibgp
    exact wrote_genconfIbgpPeer hrun (List.mem_map_of_mem (hibgpMem r hr))
      (files_subset (hibgpMem r hr))

theorem wrote_writeText {f : FileSpec} {u : Unit} {files : List FileSpec} (gone : List PosixPath)
    (h : (writeText io f).run disk = (.ok u, disk')) (hf : f ∈ files) :
    Disk.Wrote (writesOf files) gone [f.path] disk disk' := by
  have hsub : [f] ⊆ files := List.cons_subset.mpr ⟨hf, List.nil_subset _⟩
  rw [writeText_ok h]
  exact Disk.Wrote.writeAll (writesOf_subset hsub)

theorem refuseExisting_ok {path : PosixPath} {overwrite : Bool} {what : String} {u : Unit}
    (h : (refuseExisting path overwrite what).run disk = (.ok u, disk')) : disk' = disk := by
  unfold refuseExisting at h
  obtain ⟨found, disk1, hfound, h⟩ := Prog.run_bind_eq_ok.mp h
  cases hfound
  split at h
  · cases h
  · cases h
    rfl

theorem ensureDummyInterface_ok {u : Unit}
    (h : (ensureDummyInterface io).run disk = (.ok u, disk')) : disk' = disk := by
  unfold ensureDummyInterface at h
  split at h
  · cases h
  · cases h
    rfl

theorem mainConf_mem_genconfWrites (io : FileIo) (config : AppConfig) (db : Db) :
    mainConfFile config ∈ genconfWrites io config db := List.mem_cons_self

/-- A missing `extra.conf` is written. -/
theorem wrote_ensureExtraConf (db : Db) {u : Unit}
    (h : (ensureExtraConf io config).run disk = (.ok u, disk')) :
    ∃ done, Disk.Wrote (writesOf (genconfWrites io config db))
      (legacyFiles config (db.peersOf config.nodeId)) done disk disk' := by
  unfold ensureExtraConf at h
  obtain ⟨found, d, hfound, h⟩ := Prog.run_bind_eq_ok.mp h
  cases hfound
  split at h
  · cases h
    exact ⟨_, .refl _⟩
  · exact ⟨_, wrote_writeText _ h (List.mem_cons_of_mem _ List.mem_cons_self)⟩

/-- A missing ROA table is written. -/
theorem wrote_ensureRoaConf (db : Db) {u : Unit}
    (h : (ensureRoaConf io config).run disk = (.ok u, disk')) :
    ∃ done, Disk.Wrote (writesOf (genconfWrites io config db))
      (legacyFiles config (db.peersOf config.nodeId)) done disk disk' := by
  have hmem : roaFile io config ∈ genconfWrites io config db :=
    List.mem_cons_of_mem _ (List.mem_cons_of_mem _ List.mem_cons_self)
  unfold ensureRoaConf at h
  obtain ⟨found, d, hfound, h⟩ := Prog.run_bind_eq_ok.mp h
  cases hfound
  split at h
  · cases h
    exact ⟨_, .refl _⟩
  · split at h
    · cases h
    · exact ⟨_, wrote_writeText _ h hmem⟩

/-- **What a `genconf` that returned has done to the disk.** -/
theorem wrote_genconf {db : Db} {overwriteBird overwriteBabel : Bool} {gen : GenConfResult}
    (h : (genconf io config (db.listBgpPeers config.nodeId) (db.listIbgpPeers config.nodeId)
      overwriteBird overwriteBabel true).run disk = (.ok gen, disk')) :
    Disk.Wrote (writesOf (genconfWrites io config db))
      (legacyFiles config (db.peersOf config.nodeId))
      ((config.hubFiles db).map FileSpec.path) disk disk' := by
  unfold genconf at h
  simp only [Prog.run_bind_eq_ok] at h
  obtain ⟨u0, d0, hdummy, u1, d1, hbird, u2, d2, hmain, u3, d3, hextra, u4, d4, hbabel, babel, d5,
    hwrite, u6, d6, hroa, peers, d7, hpeers, h⟩ := h
  cases h
  obtain rfl := ensureDummyInterface_ok hdummy
  obtain rfl := refuseExisting_ok hbird
  obtain rfl := refuseExisting_ok hbabel
  have h1 := wrote_writeText (legacyFiles config (db.peersOf config.nodeId)) hmain
    (mainConf_mem_genconfWrites io config db)
  obtain ⟨done, h2⟩ := wrote_ensureExtraConf db hextra
  have h3 : Disk.Wrote (writesOf (genconfWrites io config db))
      (legacyFiles config (db.peersOf config.nodeId)) [(config.babelOf db).path] d4 d5 := by
    unfold regenerateBabelConf at hwrite
    obtain ⟨u, d, hwrite, hret⟩ := Prog.run_bind_eq_ok.mp hwrite
    cases hret
    exact wrote_writeText _ hwrite (List.mem_append_right _ (mem_hubFiles.mpr (.inr rfl)))
  obtain ⟨done', h4⟩ := wrote_ensureRoaConf db hroa
  rw [regeneratedPeers, if_pos rfl] at hpeers
  have h5 := wrote_genconfPeers hpeers
  refine ((((h1.trans h2).trans h3).trans h4).trans h5).mono ?_
  rw [AppConfig.hubFiles, List.map_append]
  intro p hp
  simp only [List.mem_append, List.map_cons, List.map_nil] at hp ⊢
  tauto

end GenConf

/-! ## the places `genconf` writes in -/

section Places

variable {config : AppConfig} {db : Db} {disk disk' : Disk} {p : PosixPath}

/-- No peer's file and not `babel.conf` has the name of a legacy profile. -/
theorem notMem_legacyFiles (hsep : config.Separate) (hwf : PeersWF (db.peersOf config.nodeId))
    (hp : config.PeerPlace p ∨ p = .ofStr config.birdBabelConfPath) :
    p ∉ legacyFiles config (db.peersOf config.nodeId) := by
  intro hmem
  obtain ⟨x, hx, rfl⟩ := List.mem_map.mp hmem
  have hname : (legacyNm config x.base.ifname).name = x.base.ifname ++ lit ".nmconnection" :=
    PosixPath.name_join
      (isName_append (hwf.proper x hx).plainIfname (by decide) (by decide))
  have hends : endsWith (legacyNm config x.base.ifname).name (lit ".nmconnection") = true := by
    rw [hname, endsWith, List.isSuffixOf_iff_suffix]
    exact List.suffix_append _ _
  obtain hplace | hbabel := hp
  · have hother : ∀ suffix : Str, (lit ".nmconnection").getLast? ≠ suffix.getLast? →
        suffix ≠ [] → endsWith (legacyNm config x.base.ifname).name suffix = false := by
      intro suffix hlast hne
      rw [← Bool.not_eq_true, endsWith, List.isSuffixOf_iff_suffix, hname]
      rintro ⟨stem, heq⟩
      exact append_ne_append (by decide) hne hlast heq.symm
    obtain ⟨-, hmanaged⟩ | ⟨-, hmanaged⟩ := hplace
    · simp [isManaged, hother (lit ".conf") (by decide) (by decide)] at hmanaged
    · simp [isManaged, hother (lit ".netdev") (by decide) (by decide),
        hother (lit ".network") (by decide) (by decide)] at hmanaged
  · rw [hbabel, hsep.babelLegacy] at hends
    cases hends

/-- What `genconf` writes to a peer's place, or to `babel.conf`, are the files of
the rows. -/
theorem mem_genconfWrites (io : FileIo) (hsep : config.Separate)
    (hp : config.PeerPlace p ∨ p = .ofStr config.birdBabelConfPath) (s : Str) :
    (p, s) ∈ writesOf (genconfWrites io config db) ↔ (p, s) ∈ writesOf (config.hubFiles db) := by
  rw [genconfWrites, writesOf, List.map_append, List.mem_append, ← writesOf, ← writesOf]
  apply or_iff_right
  intro hmem
  have hpath : p ∈ [PosixPath.ofStr config.birdConfPath, .ofStr config.birdExtraConfPath,
      .ofStr config.birdRoaV6ConfPath] := by
    have hfst := List.mem_map_of_mem (f := Prod.fst) hmem
    rwa [map_fst_writesOf] at hfst
  simp only [List.mem_cons, List.not_mem_nil, or_false] at hpath
  obtain hplace | rfl := hp
  · obtain rfl | rfl | rfl := hpath
    · exact hsep.birdConf hplace
    · exact hsep.extraConf hplace
    · exact hsep.roaConf hplace
  · obtain hbird | hextra | hroa := hpath
    · exact hsep.birdConfBabel hbird.symm
    · exact hsep.extraConfBabel hextra.symm
    · exact hsep.roaConfBabel hroa.symm

end Places

/-! ## full rendering -/

section Full

variable {io : FileIo} {config : AppConfig} {db db' : Db} {disk disk' : Disk}

/-- The rows of a partition of proper peers are accepted. -/
theorem renderable_of_peersWF (hwf : PeersWF (db.peersOf config.nodeId)) :
    (∀ r ∈ db.listBgpPeers config.nodeId, r.Renderable) ∧
      ∀ r ∈ db.listIbgpPeers config.nodeId, r.Renderable := by
  constructor
  · intro r hr
    rw [Db.listBgpPeers, List.mem_insertionSort] at hr
    have hproper := hwf.proper (.bgp r) (List.mem_append_left _ (List.mem_map_of_mem hr))
    exact hproper.columns.1
  · intro r hr hwg
    rw [Db.listIbgpPeers, List.mem_insertionSort] at hr
    have hproper := hwf.proper (.ibgp r) (List.mem_append_right _ (List.mem_map_of_mem hr))
    exact (hproper.columns hwg).1

/-- On a rendered machine `genconf` changes no peer's file and not `babel.conf`. -/
theorem genconf_read_eq (hsep : config.Separate) (hwf : PeersWF (db.peersOf config.nodeId))
    (hrendered : config.Rendered db disk) {overwriteBird overwriteBabel : Bool}
    {gen : GenConfResult}
    (h : (genconf io config (db.listBgpPeers config.nodeId) (db.listIbgpPeers config.nodeId)
      overwriteBird overwriteBabel true).run disk = (.ok gen, disk')) {p : PosixPath}
    (hp : config.PeerPlace p ∨ p = .ofStr config.birdBabelConfPath) :
    disk'.read p = disk.read p := by
  refine (wrote_genconf h).read_eq (notMem_legacyFiles hsep hwf hp) fun s hs => ?_
  exact (hrendered p hp).read ((mem_genconfWrites io hsep hp s).mp hs)

/-- One text for each path. -/
theorem hubFiles_unique (hsep : config.Separate) (hwf : PeersWF (db.peersOf config.nodeId))
    {p : PosixPath} {s t : Str} (hs : (p, s) ∈ writesOf (config.hubFiles db))
    (ht : (p, t) ∈ writesOf (config.hubFiles db)) : s = t := by
  obtain ⟨f, hf, hfs⟩ := List.mem_map.mp hs
  obtain ⟨g, hg, hgt⟩ := List.mem_map.mp ht
  have hpath : f.path = g.path := (congrArg Prod.fst hfs).trans (congrArg Prod.fst hgt).symm
  have hfg : f = g := by
    obtain ⟨x, hx, hfx⟩ | hfb := mem_hubFiles.mp hf
    · have hplace := peerPlace_of_mem (hwf.proper x hx) (path_mem_places hfx)
      obtain ⟨y, hy, hgy⟩ | hgb := mem_hubFiles.mp hg
      · by_cases hkey : x.key = y.key
        · obtain rfl := hwf.keys x hx y hy hkey
          exact List.inj_on_of_nodup_map (nodup_files (hwf.proper x hx)) hfx hgy hpath
        · have hapart := places_apart (hwf.proper x hx) (hwf.proper y hy) hkey
            (hwf.ifnames x hx y hy hkey) (path_mem_places hfx)
          exact absurd (hpath ▸ path_mem_places hgy) hapart
      · rw [hpath, hgb] at hplace
        exact absurd hplace hsep.babel
    · obtain ⟨y, hy, hgy⟩ | hgb := mem_hubFiles.mp hg
      · have hplace := peerPlace_of_mem (hwf.proper y hy) (path_mem_places hgy)
        rw [← hpath, hfb] at hplace
        exact absurd hplace hsep.babel
      · rw [hfb, hgb]
  rw [hfg] at hfs
  exact congrArg Prod.snd (hfs.symm.trans hgt)

/-- **What full rendering leaves**: after a `genconf` that returned, the machine
is rendered if and only if it had no file under the name of a peer's file that is
not the file of a row: `genconf` brings every file of a row up to date, and
removes none. -/
theorem genconf_rendered_iff (hsep : config.Separate) (hwf : PeersWF (db.peersOf config.nodeId))
    {overwriteBird overwriteBabel : Bool} {gen : GenConfResult}
    (h : (genconf io config (db.listBgpPeers config.nodeId) (db.listIbgpPeers config.nodeId)
      overwriteBird overwriteBabel true).run disk = (.ok gen, disk')) :
    config.Rendered db disk' ↔
      ∀ p, config.PeerPlace p → p ∉ (config.hubFiles db).map FileSpec.path →
        disk.read p = none := by
  have hwrote := wrote_genconf h
  -- A place without a row's file is not written.
  have hkept : ∀ p, config.PeerPlace p → p ∉ (config.hubFiles db).map FileSpec.path →
      disk'.read p = disk.read p := by
    intro p hp hmem
    obtain hsame | ⟨hgone, -⟩ | ⟨s, hs, -⟩ := hwrote.touched p
    · exact hsame
    · exact absurd hgone (notMem_legacyFiles hsep hwf (.inl hp))
    · have hs := (mem_genconfWrites io hsep (.inl hp) s).mp hs
      rw [← map_fst_writesOf] at hmem
      exact absurd (List.mem_map_of_mem hs) hmem
  constructor
  · intro hrendered p hp hmem
    rw [← hkept p hp hmem]
    exact (hrendered p (.inl hp)).read_none (by rwa [map_fst_writesOf])
  · intro hclean p hp
    by_cases hmem : p ∈ (config.hubFiles db).map FileSpec.path
    · have hshown := hwrote.shows hmem (notMem_legacyFiles hsep hwf hp) fun s t hs ht =>
        hubFiles_unique hsep hwf ((mem_genconfWrites io hsep hp s).mp hs)
          ((mem_genconfWrites io hsep hp t).mp ht)
      exact hshown.congr (fun s => (mem_genconfWrites io hsep hp s).symm) rfl
    · have hplace : config.PeerPlace p := by
        obtain hplace | rfl := hp
        · exact hplace
        · exact absurd (List.mem_map_of_mem (mem_hubFiles.mpr (.inr rfl))) hmem
      intro c
      rw [hkept p hplace hmem, hclean p hplace hmem]
      constructor
      · intro hc
        cases hc
      · rintro ⟨s, hs, hc⟩
        rw [← map_fst_writesOf] at hmem
        exact absurd (List.mem_map_of_mem hs) hmem

end Full

/-! ### a file nothing removes -/

/-- The BIRD file of a peer that is no longer stored. -/
def staleFile : PosixPath := (PosixPath.ofStr sampleConfig.birdPeersDir).join (lit "dn42_9.conf")

theorem separate_sample : sampleConfig.Separate := by
  constructor <;> decide +kernel

theorem peersWF_sample : PeersWF (sampleDb.peersOf sampleConfig.nodeId) := by
  have hpeers : sampleDb.peersOf sampleConfig.nodeId = [.bgp sampleBgpRow, .ibgp sampleIbgpRow] :=
    rfl
  rw [hpeers]
  have hkey : (PeerRow.bgp sampleBgpRow).key ≠ (PeerRow.ibgp sampleIbgpRow).key := by decide
  have hifname : sampleBgpRow.ifname ≠ sampleIbgpRow.ifname := by decide
  constructor
  · intro x hx
    obtain rfl | rfl := List.mem_pair.mp hx
    · exact ⟨by decide, by decide, by decide, by decide, ⟨by decide +kernel, rfl⟩⟩
    · exact ⟨by decide, by decide, by decide, by decide, fun _ => ⟨by decide +kernel, rfl⟩⟩
  · intro x hx y hy heq
    obtain rfl | rfl := List.mem_pair.mp hx <;> obtain rfl | rfl := List.mem_pair.mp hy
    · rfl
    · exact absurd heq hkey
    · exact absurd heq.symm hkey
    · rfl
  · intro x hx y hy hne
    obtain rfl | rfl := List.mem_pair.mp hx <;> obtain rfl | rfl := List.mem_pair.mp hy
    · exact absurd rfl hne
    · exact hifname
    · exact hifname.symm
    · exact absurd rfl hne

/-- From an empty disk `genconf` renders two peers; a stale file stays. -/
theorem genconf_rendered_sample :
    (∃ gen disk', (genconf .calm sampleConfig (sampleDb.listBgpPeers sampleConfig.nodeId)
        (sampleDb.listIbgpPeers sampleConfig.nodeId) true true true).run [] = (.ok gen, disk') ∧
      sampleConfig.Rendered sampleDb disk') ∧
    ∃ gen disk', (genconf .calm sampleConfig (sampleDb.listBgpPeers sampleConfig.nodeId)
        (sampleDb.listIbgpPeers sampleConfig.nodeId) true true true).run
          [(staleFile, .text [])] = (.ok gen, disk') ∧
      ¬sampleConfig.Rendered sampleDb disk' := by
  obtain ⟨hbgp, hibgp⟩ := renderable_of_peersWF peersWF_sample
  constructor
  · obtain ⟨gen, disk', hgen⟩ := genconf_returns sampleConfig hbgp hibgp []
    refine ⟨gen, disk', hgen, ?_⟩
    exact (genconf_rendered_iff separate_sample peersWF_sample hgen).mpr fun _ _ _ => rfl
  · obtain ⟨gen, disk', hgen⟩ := genconf_returns sampleConfig hbgp hibgp [(staleFile, .text [])]
    refine ⟨gen, disk', hgen, fun hrendered => ?_⟩
    have hclean := (genconf_rendered_iff separate_sample peersWF_sample hgen).mp hrendered
    have hplace : sampleConfig.PeerPlace staleFile := by decide +kernel
    have hnone := hclean staleFile hplace (by decide +kernel)
    simp [Disk.read] at hnone

/-! ## the agreement -/

section Agreement

variable {config : AppConfig} {db db' : Db} {disk disk' : Disk}

/-- **Incremental and full rendering agree**: on a rendered machine, any sequence
of operations that return, each rendering files exactly when it is for the hub's
own node, leaves the files of the peers and `babel.conf` as `genconf` would write
them and every other file as it was; `genconf` then goes through and changes none
of them. -/
theorem incremental_agrees (hsep : config.Separate) (hwf : PeersWF (db.peersOf config.nodeId))
    (hrendered : config.Rendered db disk) {calls : List PeerFilesCall}
    (hplaced : ∀ c ∈ calls, c.Placed config)
    (hrun : Machine.exec (peerFilesStep config) (db, disk) calls = some (db', disk')) :
    config.Rendered db' disk' ∧
    (∀ p, ¬config.PeerPlace p → p ≠ .ofStr config.birdBabelConfPath →
      disk'.read p = disk.read p) ∧
    (∃ gen after, (genconf .calm config (db'.listBgpPeers config.nodeId)
      (db'.listIbgpPeers config.nodeId) true true true).run disk' = (.ok gen, after)) ∧
    ∀ io overwriteBird overwriteBabel gen after,
      (genconf io config (db'.listBgpPeers config.nodeId) (db'.listIbgpPeers config.nodeId)
        overwriteBird overwriteBabel true).run disk' = (.ok gen, after) →
      ∀ p, config.PeerPlace p ∨ p = .ofStr config.birdBabelConfPath →
        after.read p = disk'.read p := by
  have hstart : InStep config disk (db, disk) := ⟨hwf, hrendered, fun _ _ _ => rfl⟩
  have hend := inStep_run hsep.babel hstart hplaced hrun
  obtain ⟨hbgp, hibgp⟩ := renderable_of_peersWF hend.peers
  refine ⟨hend.rendered, hend.kept, genconf_returns config hbgp hibgp disk', ?_⟩
  intro io overwriteBird overwriteBabel gen after hgen p hp
  exact genconf_read_eq hsep hend.peers hend.rendered hgen hp

end Agreement

/-! ### a peer comes, another one comes, the first one goes -/

def tunnelArgs : IbgpPeerArgs where
  name := lit "Tokyo"
  peerIp := lit "fd00::b"
  hasWg := true
  babelRxcost := 96
  peerPublicKey := some (lit "k")
  endpoint := some (lit "example.net:2")
  peerLla := some (lit "fe80::2")

def threeCalls : List PeerFilesCall :=
  [⟨wgEnv, .calm, true, .write (.createBgp (newPeerArgs (lit "networkd")))⟩,
   ⟨wgEnv, .calm, true, .write (.createIbgp tunnelArgs)⟩,
   ⟨wgEnv, .calm, true, .deleteBgp 4242420001 none⟩]

/-- A machine without peers, just after `genconf`. -/
def freshDisk : Disk := Disk.writeAll [] (writesOf (sampleConfig.hubFiles Db.empty))

theorem incremental_agrees_sample :
    ∃ db' disk', Machine.exec (peerFilesStep sampleConfig) (Db.empty, freshDisk) threeCalls =
        some (db', disk') ∧
      (db'.peersOf sampleConfig.nodeId).length = 1 ∧ sampleConfig.Rendered db' disk' := by
  have hrun : ((Machine.exec (peerFilesStep sampleConfig) (Db.empty, freshDisk) threeCalls).map
      fun s => (s.1.peersOf sampleConfig.nodeId).length) = some 1 := by decide +kernel
  obtain ⟨⟨db', disk'⟩, hexec, hlength⟩ := Option.map_eq_some_iff.mp hrun
  have hwf : PeersWF (Db.empty.peersOf sampleConfig.nodeId) :=
    ⟨fun _ hx => (by cases hx), fun _ hx => (by cases hx), fun _ hx => (by cases hx)⟩
  have hrendered : sampleConfig.Rendered Db.empty freshDisk :=
    fun p _ => Disk.shows_writeAll_nil (by decide) p
  have hplaced : ∀ c ∈ threeCalls, c.Placed sampleConfig := by
    unfold threeCalls
    simp [PeerFilesCall.Placed, PeerRequest.nodeId, PeerOperation.nodeId, newPeerArgs, tunnelArgs,
      orDefault]
  exact ⟨db', disk', hexec, hlength,
    (incremental_agrees separate_sample hwf hrendered hplaced hexec).1⟩

end Dn42Ctl
