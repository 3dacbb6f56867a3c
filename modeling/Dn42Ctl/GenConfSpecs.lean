import Dn42Ctl.GenConf
import Dn42Ctl.ApplySpecs

/-!
# GenConfSpecs

What `genconf` writes for a row, and which rows it refuses.

* `BgpRow.Renderable`, `IbgpRow.Renderable` — the rows `genconf` accepts;
* `rowBgpFiles`, `rowIbgpFiles` — the files of a row;
* `genconfPeers_ok`, `run_genconfPeers` — the peer loops write exactly these.
-/

namespace Dn42Ctl

open Text

/-! ## writing -/

theorem writeText_ok {io : FileIo} {file : FileSpec} {disk disk' : Disk} {u : Unit}
    (h : (writeText io file).run disk = (.ok u, disk')) :
    disk' = disk.write file.path (.text file.content) := by
  unfold writeText at h
  split at h
  · cases h
    rfl
  · cases h
  · cases h

theorem run_writeText_calm (file : FileSpec) (disk : Disk) :
    (writeText .calm file).run disk = (.ok (), disk.write file.path (.text file.content)) := rfl

theorem forM_writeText_ok {io : FileIo} {files : List FileSpec} {disk disk' : Disk} {u : Unit}
    (h : (files.forM (writeText io)).run disk = (.ok u, disk')) :
    disk' = disk.writeAll (writesOf files) := by
  induction files generalizing disk with
  | nil =>
      cases h
      rfl
  | cons f fs ih =>
      rw [Prog.run_forM_cons] at h
      obtain ⟨u, disk1, hf, hfs⟩ := Prog.run_bind_eq_ok.mp h
      rw [ih hfs, writeText_ok hf]
      rfl

theorem run_forM_writeText_calm (files : List FileSpec) (disk : Disk) :
    (files.forM (writeText .calm)).run disk = (.ok (), disk.writeAll (writesOf files)) := by
  induction files generalizing disk with
  | nil => rfl
  | cons f fs ih =>
      rw [Prog.run_forM_cons, Prog.run_bind_ok (run_writeText_calm f disk)]
      exact ih _

/-! ## the files of a row -/

/-- The BIRD file of a BGP peer. -/
def bgpBirdFile (peersDir : PosixPath) (ifname peerLla : Str) (peerAsn : Int) : FileSpec :=
  ⟨peersDir.join (ifname ++ lit ".conf"), unlines (bgpPeerLines ifname peerLla peerAsn), .bird⟩

/-- The BIRD file of an iBGP peer, if it has a `peer_ip`. -/
def ibgpBirdFiles (peersDir : PosixPath) (name peerIp : Str) : List FileSpec :=
  if peerIp.isEmpty then []
  else [⟨peersDir.join (lit "ibgp_" ++ name ++ lit ".conf"),
    unlines (ibgpPeerLines name peerIp), .bird⟩]

def rowBgpFiles (config : AppConfig) (r : BgpRow) : List FileSpec :=
  bgpBirdFile (.ofStr config.birdPeersDir) r.ifname (orDefault r.peerLla []) r.peerAsn ::
    (rowBackendArgs r.toPeerRecordBase (orDefault r.peerLla [])).files (.ofStr config.networkdDir)

def rowIbgpFiles (config : AppConfig) (r : IbgpRow) : List FileSpec :=
  ibgpBirdFiles (.ofStr config.birdPeersDir) r.name (orDefault r.peerIp []) ++
    if r.hasWg then
      (rowBackendArgs r.toPeerRecordBase (orDefault r.peerLla [])).files
        (.ofStr config.networkdDir)
    else []

/-- The columns of a tunnel that `write_net_backend_files` accepts. -/
def PeerRecordBase.TunnelRenderable (r : PeerRecordBase) : Prop :=
  r.allowedIps ≠ [] ∧ backendOf r.netBackend = lit "networkd"

/-- `genconf` accepts the row. -/
def BgpRow.Renderable (r : BgpRow) : Prop :=
  orDefault r.peerLla [] ≠ [] ∧ r.TunnelRenderable

/-- `genconf` accepts the row. -/
def IbgpRow.Renderable (r : IbgpRow) : Prop := r.hasWg = true → r.TunnelRenderable

instance (r : PeerRecordBase) : Decidable r.TunnelRenderable :=
  inferInstanceAs (Decidable (_ ∧ _))

instance (r : BgpRow) : Decidable r.Renderable := inferInstanceAs (Decidable (_ ∧ _))

instance (r : IbgpRow) : Decidable r.Renderable := inferInstanceAs (Decidable (_ → _))

/-! ## one row -/

theorem writeNetBackendFiles_ok {io : FileIo} {config : AppConfig} {a : NetBackendArgs}
    {disk disk' : Disk} {files : List FileSpec}
    (h : (writeNetBackendFiles io config a).run disk = (.ok files, disk')) :
    a.allowedIps ≠ [] ∧ a.backend = lit "networkd" ∧
      files = a.files (.ofStr config.networkdDir) ∧ disk' = disk.writeAll (writesOf files) := by
  unfold writeNetBackendFiles at h
  split at h
  · cases h
  · next hips =>
      split at h
      · cases h
      · next hback =>
          obtain ⟨u, disk1, hfiles, h⟩ := Prog.run_bind_eq_ok.mp h
          cases h
          exact ⟨by simpa using hips, not_not.mp hback, rfl, forM_writeText_ok hfiles⟩

theorem run_writeNetBackendFiles_calm {config : AppConfig} {a : NetBackendArgs}
    (hips : a.allowedIps ≠ []) (hback : a.backend = lit "networkd") (disk : Disk) :
    (writeNetBackendFiles .calm config a).run disk =
      (.ok (a.files (.ofStr config.networkdDir)),
        disk.writeAll (writesOf (a.files (.ofStr config.networkdDir)))) := by
  rw [writeNetBackendFiles, if_neg (by simpa using hips), if_neg (not_not.mpr hback)]
  exact Prog.run_bind_ok (run_forM_writeText_calm _ disk)

theorem writeBirdBgpPeer_ok {io : FileIo} {config : AppConfig} {ifname peerLla : Str}
    {peerAsn : Int} {disk disk' : Disk} {files : List FileSpec}
    (h : (writeBirdBgpPeer io config ifname peerLla peerAsn).run disk = (.ok files, disk')) :
    peerLla ≠ [] ∧ files = [bgpBirdFile (.ofStr config.birdPeersDir) ifname peerLla peerAsn] ∧
      disk' = disk.writeAll (writesOf files) := by
  unfold writeBirdBgpPeer at h
  obtain ⟨text, disk1, htext, h⟩ := Prog.run_bind_eq_ok.mp h
  obtain ⟨u, disk2, hwrite, h⟩ := Prog.run_bind_eq_ok.mp h
  cases h
  unfold renderBirdBgpPeerConf at htext
  split at htext
  · cases htext
  · next hlla =>
      cases htext
      refine ⟨by simpa using hlla, rfl, ?_⟩
      rw [writeText_ok hwrite]
      rfl

theorem run_writeBirdBgpPeer_calm {config : AppConfig} {ifname peerLla : Str} (peerAsn : Int)
    (hlla : peerLla ≠ []) (disk : Disk) :
    (writeBirdBgpPeer .calm config ifname peerLla peerAsn).run disk =
      (.ok [bgpBirdFile (.ofStr config.birdPeersDir) ifname peerLla peerAsn],
        disk.writeAll (writesOf
          [bgpBirdFile (.ofStr config.birdPeersDir) ifname peerLla peerAsn])) := by
  rw [writeBirdBgpPeer, renderBirdBgpPeerConf, if_neg (by simpa using hlla)]
  rfl

/-- `genconf` gets through a row that it accepts. -/
theorem genconfBgpPeer_returns (config : AppConfig) {r : BgpRow} (hr : r.Renderable)
    (disk : Disk) :
    ∃ disk', (genconfBgpPeer .calm config r).run disk = (.ok (rowBgpFiles config r), disk') := by
  obtain ⟨hlla, hips, hback⟩ := hr
  have hnm : (unlinkMissingOk .calm (legacyNm config r.ifname)).run disk =
      (.ok (), disk.unlink (legacyNm config r.ifname)) := rfl
  rw [genconfBgpPeer, Prog.run_bind_ok hnm,
    Prog.run_bind_ok (run_writeBirdBgpPeer_calm r.peerAsn hlla _),
    Prog.run_bind_ok (run_writeNetBackendFiles_calm hips hback _)]
  exact ⟨_, rfl⟩

theorem genconfIbgpBird_ok {io : FileIo} {config : AppConfig} {r : IbgpRow} {disk disk' : Disk}
    {files : List FileSpec}
    (h : (genconfIbgpBird io config r).run disk = (.ok files, disk')) :
    files = ibgpBirdFiles (.ofStr config.birdPeersDir) r.name (orDefault r.peerIp []) := by
  unfold genconfIbgpBird at h
  simp only at h
  unfold ibgpBirdFiles
  split at h
  · next hip =>
      cases h
      rw [if_pos hip]
  · next hip =>
      rw [if_neg hip]
      rw [renderBirdIbgpPeerConf, if_neg hip] at h
      obtain ⟨text, disk1, htext, h⟩ := Prog.run_bind_eq_ok.mp h
      obtain ⟨u, disk2, -, h⟩ := Prog.run_bind_eq_ok.mp h
      cases h
      cases htext
      rfl

theorem genconfIbgpBird_returns (config : AppConfig) (r : IbgpRow) (disk : Disk) :
    ∃ disk', (genconfIbgpBird .calm config r).run disk =
      (.ok (ibgpBirdFiles (.ofStr config.birdPeersDir) r.name (orDefault r.peerIp [])),
        disk') := by
  unfold genconfIbgpBird ibgpBirdFiles
  by_cases hip : (orDefault r.peerIp []).isEmpty = true
  · simp only [if_pos hip]
    exact ⟨_, rfl⟩
  · simp only [if_neg hip, renderBirdIbgpPeerConf]
    exact ⟨_, rfl⟩

theorem genconfIbgpPeer_returns (config : AppConfig) {r : IbgpRow} (hr : r.Renderable)
    (disk : Disk) :
    ∃ disk', (genconfIbgpPeer .calm config r).run disk = (.ok (rowIbgpFiles config r), disk') := by
  obtain ⟨disk1, hbird⟩ := genconfIbgpBird_returns config r disk
  rw [genconfIbgpPeer, Prog.run_bind_ok hbird, rowIbgpFiles]
  by_cases hwg : r.hasWg = true
  · obtain ⟨hips, hback⟩ := hr hwg
    have hnm : (unlinkMissingOk .calm (legacyNm config r.ifname)).run disk1 =
        (.ok (), disk1.unlink (legacyNm config r.ifname)) := rfl
    rw [if_pos hwg, if_pos hwg, Prog.run_bind_ok hnm,
      Prog.run_bind_ok (run_writeNetBackendFiles_calm hips hback _)]
    exact ⟨_, rfl⟩
  · rw [if_neg hwg, if_neg hwg, List.append_nil]
    exact ⟨_, rfl⟩

/-! ## the loops -/

section Loops

variable {α β : Type} {f : α → DiskTx (List β)} {g : α → List β} {P : α → Prop}

/-- A loop whose elements return. -/
theorem collectTx_returns (hf : ∀ x disk, P x → ∃ disk', (f x).run disk = (.ok (g x), disk'))
    {xs : List α} (hP : ∀ x ∈ xs, P x) (disk : Disk) :
    ∃ disk', (collectTx f xs).run disk = (.ok (xs.flatMap g), disk') := by
  induction xs generalizing disk with
  | nil => exact ⟨disk, rfl⟩
  | cons x xs ih =>
      obtain ⟨hx, hxs⟩ := List.forall_mem_cons.mp hP
      obtain ⟨disk1, hrun1⟩ := hf x disk hx
      obtain ⟨disk2, hrun2⟩ := ih hxs disk1
      rw [collectTx, Prog.run_bind_ok hrun1, Prog.run_bind_ok hrun2]
      exact ⟨disk2, rfl⟩

end Loops

/-- The files of all rows. -/
def rowFiles (config : AppConfig) (bgpRows : List BgpRow) (ibgpRows : List IbgpRow) :
    List FileSpec :=
  bgpRows.flatMap (rowBgpFiles config) ++ ibgpRows.flatMap (rowIbgpFiles config)

/-- **`genconf` gets through** when it accepts every row. -/
theorem genconfPeers_returns (config : AppConfig) {bgpRows : List BgpRow}
    {ibgpRows : List IbgpRow} (hb : ∀ r ∈ bgpRows, r.Renderable)
    (hi : ∀ r ∈ ibgpRows, r.Renderable) (disk : Disk) :
    ∃ disk', (genconfPeers .calm config bgpRows ibgpRows).run disk =
      (.ok (rowFiles config bgpRows ibgpRows), disk') := by
  obtain ⟨disk1, hrun1⟩ :=
    collectTx_returns (fun r disk hr => genconfBgpPeer_returns config hr disk) hb disk
  obtain ⟨disk2, hrun2⟩ :=
    collectTx_returns (fun r disk hr => genconfIbgpPeer_returns config hr disk) hi disk1
  rw [genconfPeers, Prog.run_bind_ok hrun1, Prog.run_bind_ok hrun2]
  exact ⟨disk2, rfl⟩

/-! ## the whole call -/

/-- With `--overwrite` nothing is refused. -/
theorem run_refuseExisting_overwrite (path : PosixPath) (what : String) (disk : Disk) :
    (refuseExisting path true what).run disk = (.ok (), disk) := by
  rw [refuseExisting, Prog.run_bind_ok (Prog.run_read _ _)]
  simp

/-- A calm disk takes the extra file. -/
theorem run_ensureExtraConf_calm (config : AppConfig) (disk : Disk) :
    ∃ disk', (ensureExtraConf .calm config).run disk = (.ok (), disk') := by
  rw [ensureExtraConf, Prog.run_bind_ok (Prog.run_read _ _)]
  split
  · exact ⟨_, rfl⟩
  · exact ⟨_, rfl⟩

/-- A calm disk takes the ROA file. -/
theorem run_ensureRoaConf_calm (config : AppConfig) (disk : Disk) :
    ∃ disk', (ensureRoaConf .calm config).run disk = (.ok (), disk') := by
  rw [ensureRoaConf, Prog.run_bind_ok (Prog.run_read _ _)]
  split
  · exact ⟨_, rfl⟩
  · exact ⟨_, rfl⟩

/-- `genconf` goes through on rows it accepts. -/
theorem genconf_returns (config : AppConfig) {bgpRows : List BgpRow} {ibgpRows : List IbgpRow}
    (hb : ∀ r ∈ bgpRows, r.Renderable) (hi : ∀ r ∈ ibgpRows, r.Renderable) (disk : Disk) :
    ∃ gen disk', (genconf .calm config bgpRows ibgpRows true true true).run disk =
      (.ok gen, disk') := by
  obtain ⟨disk1, hextra⟩ := run_ensureExtraConf_calm config
    (disk.write (mainConfFile config).path (.text (mainConfFile config).content))
  have hbabel : (regenerateBabelConf .calm config ibgpRows).run disk1 =
      (.ok (babelFile config ibgpRows), disk1.write (babelFile config ibgpRows).path
        (.text (babelFile config ibgpRows).content)) := rfl
  obtain ⟨disk2, hroa⟩ := run_ensureRoaConf_calm config
    (disk1.write (babelFile config ibgpRows).path (.text (babelFile config ibgpRows).content))
  obtain ⟨disk3, hpeers⟩ := genconfPeers_returns config hb hi disk2
  have hdummy : (ensureDummyInterface .calm).run disk = (.ok (), disk) := rfl
  rw [genconf, Prog.run_bind_ok hdummy, Prog.run_bind_ok (run_refuseExisting_overwrite ..),
    Prog.run_bind_ok (run_writeText_calm ..), Prog.run_bind_ok hextra,
    Prog.run_bind_ok (run_refuseExisting_overwrite ..), Prog.run_bind_ok hbabel,
    Prog.run_bind_ok hroa, regeneratedPeers, if_pos rfl, Prog.run_bind_ok hpeers]
  exact ⟨_, _, rfl⟩

end Dn42Ctl
