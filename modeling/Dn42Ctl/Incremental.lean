import Dn42Ctl.PeerPlaces

/-!
# Incremental

The operations on the hub's own peers, with the files they write or remove.

Each operation that returns replaces one peer and its files (`Incremental`);
where there is a tunnel it writes `babel.conf` anew.
-/

namespace Dn42Ctl

open Text Txn

/-! ## the rows one call replaces -/

section Rows

variable {db db' : Db} {n : Str}

theorem mem_updateWhere {α : Type} {p : α → Bool} {f : α → α} {rows : List α} {x : α} :
    x ∈ Rows.updateWhere p f rows ↔
      (∃ r ∈ rows, p r = true ∧ f r = x) ∨ (x ∈ rows ∧ p x = false) := by
  rw [Rows.updateWhere, List.mem_map]
  constructor
  · rintro ⟨r, hr, rfl⟩
    cases hp : p r with
    | true => exact .inl ⟨r, hr, hp, by rw [if_pos rfl]⟩
    | false => exact .inr (by simpa using ⟨hr, hp⟩)
  · rintro (⟨r, hr, hp, rfl⟩ | ⟨hr, hp⟩)
    · exact ⟨r, hr, if_pos hp⟩
    · exact ⟨x, hr, by rw [hp]; rfl⟩

theorem is_bgp_iff {asn : Int} {r : BgpRow} :
    BgpRow.is n asn r = true ↔ r.nodeId = n ∧ r.peerAsn = asn := by
  simp [BgpRow.is]

theorem is_ibgp_iff {name : Str} {r : IbgpRow} :
    IbgpRow.is n name r = true ↔ r.nodeId = n ∧ r.name = name := by
  simp [IbgpRow.is]

theorem bgp_mem_peersOf {r : BgpRow} :
    PeerRow.bgp r ∈ db.peersOf n ↔ r ∈ db.bgpPeers ∧ r.nodeId = n := by
  rw [mem_peersOf]
  simp

theorem ibgp_mem_peersOf {r : IbgpRow} :
    PeerRow.ibgp r ∈ db.peersOf n ↔ r ∈ db.ibgpPeers ∧ r.nodeId = n := by
  rw [mem_peersOf]
  simp

/-- The BGP peers change at one ASN. -/
theorem mem_iff_of_bgp (new : Option BgpRow) {asn : Int}
    (hbgp : ∀ r : BgpRow, r.nodeId = n →
      (r ∈ db'.bgpPeers ↔ new = some r ∨ (r ∈ db.bgpPeers ∧ r.peerAsn ≠ asn)))
    (hnew : ∀ r, new = some r → r.nodeId = n) (hibgp : db'.ibgpPeers = db.ibgpPeers)
    (x : PeerRow) :
    x ∈ db'.peersOf n ↔ new.map .bgp = some x ∨ (x ∈ db.peersOf n ∧ x.key ≠ .inl asn) := by
  cases x with
  | bgp r =>
      rw [bgp_mem_peersOf, bgp_mem_peersOf]
      simp only [Option.map_eq_some_iff, PeerRow.bgp.injEq, exists_eq_right, PeerRow.key, ne_eq,
        Sum.inl.injEq]
      constructor
      · rintro ⟨hr, hn⟩
        obtain h | ⟨h, hasn⟩ := (hbgp r hn).mp hr
        · exact .inl h
        · exact .inr ⟨⟨h, hn⟩, hasn⟩
      · rintro (h | ⟨⟨h, hn⟩, hasn⟩)
        · exact ⟨(hbgp r (hnew r h)).mpr (.inl h), hnew r h⟩
        · exact ⟨(hbgp r hn).mpr (.inr ⟨h, hasn⟩), hn⟩
  | ibgp r =>
      rw [ibgp_mem_peersOf, ibgp_mem_peersOf, hibgp]
      simp [PeerRow.key]

/-- The iBGP peers change at one name. -/
theorem mem_iff_of_ibgp (new : Option IbgpRow) {name : Str}
    (hibgp : ∀ r : IbgpRow, r.nodeId = n →
      (r ∈ db'.ibgpPeers ↔ new = some r ∨ (r ∈ db.ibgpPeers ∧ r.name ≠ name)))
    (hnew : ∀ r, new = some r → r.nodeId = n) (hbgp : db'.bgpPeers = db.bgpPeers)
    (x : PeerRow) :
    x ∈ db'.peersOf n ↔ new.map .ibgp = some x ∨ (x ∈ db.peersOf n ∧ x.key ≠ .inr name) := by
  cases x with
  | ibgp r =>
      rw [ibgp_mem_peersOf, ibgp_mem_peersOf]
      simp only [Option.map_eq_some_iff, PeerRow.ibgp.injEq, exists_eq_right, PeerRow.key, ne_eq,
        Sum.inr.injEq]
      constructor
      · rintro ⟨hr, hn⟩
        obtain h | ⟨h, hname⟩ := (hibgp r hn).mp hr
        · exact .inl h
        · exact .inr ⟨⟨h, hn⟩, hname⟩
      · rintro (h | ⟨⟨h, hn⟩, hname⟩)
        · exact ⟨(hibgp r (hnew r h)).mpr (.inl h), hnew r h⟩
        · exact ⟨(hibgp r hn).mpr (.inr ⟨h, hname⟩), hn⟩
  | bgp r =>
      rw [bgp_mem_peersOf, bgp_mem_peersOf, hbgp]
      simp [PeerRow.key]

/-- An update of the one row that is selected. -/
theorem mem_updateWhere_unique {α : Type} {p : α → Bool} {f : α → α} {rows : List α} {row : α}
    (hrow : rows.find? p = some row) (hunique : ∀ s ∈ rows, p s = true → s = row) {x : α} :
    x ∈ Rows.updateWhere p f rows ↔ some (f row) = some x ∨ (x ∈ rows ∧ p x = false) := by
  rw [mem_updateWhere, Option.some.injEq]
  apply or_congr_left
  constructor
  · rintro ⟨s, hs, hp, rfl⟩
    rw [hunique s hs hp]
  · rintro rfl
    exact ⟨row, List.mem_of_find?_eq_some hrow, List.find?_some hrow, rfl⟩

/-- The row of a BGP peer is the only one with its key. -/
theorem PeersWF.unique_bgp (hwf : PeersWF (db.peersOf n)) {asn : Int} {row : BgpRow}
    (hrow : db.getBgpPeer n asn = some row) :
    ∀ s ∈ db.bgpPeers, BgpRow.is n asn s = true → s = row := by
  intro s hs hsis
  have his := List.find?_some hrow
  rw [is_bgp_iff] at his hsis
  have hsame := hwf.keys (.bgp s) (bgp_mem_peersOf.mpr ⟨hs, hsis.1⟩) (.bgp row)
    (bgp_mem_peersOf.mpr ⟨List.mem_of_find?_eq_some hrow, his.1⟩)
    (congrArg Sum.inl (hsis.2.trans his.2.symm))
  exact PeerRow.bgp.inj hsame

/-- The row of an iBGP peer is the only one with its key. -/
theorem PeersWF.unique_ibgp (hwf : PeersWF (db.peersOf n)) {name : Str} {row : IbgpRow}
    (hrow : db.getIbgpPeer n name = some row) :
    ∀ s ∈ db.ibgpPeers, IbgpRow.is n name s = true → s = row := by
  intro s hs hsis
  have his := List.find?_some hrow
  rw [is_ibgp_iff] at his hsis
  have hsame := hwf.keys (.ibgp s) (ibgp_mem_peersOf.mpr ⟨hs, hsis.1⟩) (.ibgp row)
    (ibgp_mem_peersOf.mpr ⟨List.mem_of_find?_eq_some hrow, his.1⟩)
    (congrArg Sum.inr (hsis.2.trans his.2.symm))
  exact PeerRow.ibgp.inj hsame

/-- In the partition, a row that is not selected has another key. -/
theorem is_bgp_eq_false {asn : Int} {r : BgpRow} (hn : r.nodeId = n) :
    BgpRow.is n asn r = false ↔ r.peerAsn ≠ asn := by
  simp [BgpRow.is, hn]

theorem is_ibgp_eq_false {name : Str} {r : IbgpRow} (hn : r.nodeId = n) :
    IbgpRow.is n name r = false ↔ r.name ≠ name := by
  simp [IbgpRow.is, hn]

end Rows

/-! ## the files one call writes -/

section Writes

variable {config : AppConfig} {io : FileIo} {db db' : Db} {disk disk' : Disk}

/-- A call that returned, on its connection. -/
theorem evalPeer_ok {α : Type} {m : PeerTx α} {a : α}
    (h : evalPeer m db disk = (.ok a, db', disk')) :
    ∃ c, m.run (Conn.fresh db none false, disk) = (.ok a, c, disk') ∧ c.committed = db' := by
  unfold evalPeer at h
  simp only [Prod.mk.injEq] at h
  obtain ⟨ha, hdb, hdisk⟩ := h
  exact ⟨_, Prod.ext ha (Prod.ext rfl hdisk), hdb⟩

/-- The first step of a call, on the database. -/
theorem bind_store {α τ : Type} {store : DbTx τ} {f : τ → PeerTx α} {a : α} {c : Conn Db}
    (hsettles : Settles store)
    (h : (onDb store >>= f).run (Conn.fresh db none false, disk) = (.ok a, c, disk')) :
    ∃ s db1, eval store db = (.ok s, db1) ∧
      (f s).run (Conn.fresh db1 none false, disk) = (.ok a, c, disk') := by
  obtain ⟨s, c1, hstore, hf⟩ := bind_onDb h
  have hc1 := hsettles db s c1 hstore
  refine ⟨s, c1.committed, by rw [eval, hstore], ?_⟩
  rw [← hc1]
  exact hf

theorem withFiles_returns {τ : Type} {store : DbTx (PeerResult × τ)}
    {render : τ → PeerTx (List FileSpec)} (hsettles : Settles store)
    (hkeeps : ∀ t, KeepsDb (render t)) {g : Generated}
    (h : evalPeer (withFiles true store render) db disk = (.ok g, db', disk')) :
    ∃ s files c, eval store db = (.ok s, db') ∧
      (render s.2).run (Conn.fresh db' none false, disk) = (.ok files, c, disk') := by
  obtain ⟨c, hrun, hc⟩ := evalPeer_ok h
  obtain ⟨s, db1, hstore, hrun⟩ := bind_store hsettles hrun
  rw [if_pos rfl] at hrun
  obtain ⟨files, state, hrender, hpure⟩ := Prog.run_bind_eq_ok.mp hrun
  cases hpure
  have hkept := hkeeps s.2 (Conn.fresh db1 none false, disk)
  rw [hrender] at hkept
  have hdb' : db1 = db' := hkept.symm.trans hc
  subst hdb'
  exact ⟨s, files, c, hstore, hrender⟩

theorem renderBgpPeer_ok {peerLla : Str} {peerAsn : Int} {tunnel : NetBackendArgs}
    {files : List FileSpec}
    (h : (renderBgpPeer io config peerLla peerAsn tunnel).run disk = (.ok files, disk')) :
    peerLla ≠ [] ∧ tunnel.allowedIps ≠ [] ∧ tunnel.backend = lit "networkd" ∧
      disk' = disk.writeAll (writesOf
        (bgpBirdFile (.ofStr config.birdPeersDir) tunnel.ifname peerLla peerAsn ::
          tunnel.files (.ofStr config.networkdDir))) := by
  unfold renderBgpPeer at h
  obtain ⟨bird, disk1, hbird, h⟩ := Prog.run_bind_eq_ok.mp h
  obtain ⟨rest, disk2, htunnel, h⟩ := Prog.run_bind_eq_ok.mp h
  cases h
  obtain ⟨hlla, rfl, rfl⟩ := writeBirdBgpPeer_ok hbird
  obtain ⟨hips, hbackend, rfl, rfl⟩ := writeNetBackendFiles_ok htunnel
  refine ⟨hlla, hips, hbackend, ?_⟩
  rw [← Disk.writeAll_append]
  rfl

theorem writeBirdIbgpPeer_ok {name ifname peerIp : Str} {files : List FileSpec}
    (h : (writeBirdIbgpPeer io config name ifname peerIp).run disk = (.ok files, disk')) :
    peerIp ≠ [] ∧ files = ibgpBirdFiles (.ofStr config.birdPeersDir) name peerIp ∧
      disk' = disk.writeAll (writesOf files) := by
  unfold writeBirdIbgpPeer at h
  obtain ⟨text, disk1, htext, h⟩ := Prog.run_bind_eq_ok.mp h
  obtain ⟨u, disk2, hwrite, h⟩ := Prog.run_bind_eq_ok.mp h
  cases h
  unfold renderBirdIbgpPeerConf at htext
  split at htext
  · cases htext
  · next hip =>
      cases htext
      refine ⟨by simpa using hip, ?_, ?_⟩
      · rw [ibgpBirdFiles, if_neg hip]
      · rw [writeText_ok hwrite]
        rfl

theorem run_regenerateBabelConf_ok {rows : List IbgpRow} {f : FileSpec}
    (h : (regenerateBabelConf io config rows).run disk = (.ok f, disk')) :
    disk' = disk.writeAll (writesOf [babelFile config rows]) := by
  unfold regenerateBabelConf at h
  obtain ⟨u, disk1, hwrite, h⟩ := Prog.run_bind_eq_ok.mp h
  cases h
  rw [writeText_ok hwrite]
  rfl

theorem listIbgpPeers_ok {n : Str} {rows : List IbgpRow} {c : Conn Db}
    (h : (wrapDatabaseError (Database.listIbgpPeers n)).run (Conn.fresh db none false) =
      (.ok rows, c)) : rows = db.listIbgpPeers n ∧ c = Conn.fresh db none false := by
  obtain ⟨-, hrows, hc⟩ := run_queryOr_eq_ok.mp (run_wrapDatabaseError_eq_ok.mp h)
  exact ⟨hrows.symm, hc⟩

theorem refreshBabel_ok {n : Str} {f : FileSpec} {c : Conn Db}
    (h : (refreshBabel io config n).run (Conn.fresh db none false, disk) = (.ok f, c, disk')) :
    disk' = disk.writeAll (writesOf [babelFile config (db.listIbgpPeers n)]) ∧
      c = Conn.fresh db none false := by
  obtain ⟨rows, c1, hrows, h⟩ := bind_onDb h
  obtain ⟨rfl, rfl⟩ := listIbgpPeers_ok hrows
  obtain ⟨hbabel, rfl⟩ := onDisk_returns h
  exact ⟨run_regenerateBabelConf_ok hbabel, rfl⟩

/-- The files of an iBGP peer, then `babel.conf` where it has a tunnel. -/
theorem renderIbgpPeer_ok {n name peerIp : Str} {hasWg : Bool} {tunnel : NetBackendArgs}
    {files : List FileSpec} {c : Conn Db}
    (h : (renderIbgpPeer io config n name peerIp hasWg tunnel).run
      (Conn.fresh db none false, disk) = (.ok files, c, disk')) :
    peerIp ≠ [] ∧
      (hasWg = true → tunnel.allowedIps ≠ [] ∧ tunnel.backend = lit "networkd") ∧
      disk' = disk.writeAll (writesOf
        ((ibgpBirdFiles (.ofStr config.birdPeersDir) name peerIp ++
          if hasWg then tunnel.files (.ofStr config.networkdDir) else []) ++
          if hasWg then [babelFile config (db.listIbgpPeers n)] else [])) := by
  obtain ⟨bird, disk1, hbird, h⟩ := bind_onDisk h
  obtain ⟨hip, rfl, rfl⟩ := writeBirdIbgpPeer_ok hbird
  cases hasWg with
  | false =>
      cases h
      refine ⟨hip, fun h => (by cases h), ?_⟩
      simp
  | true =>
      simp only [if_true] at h ⊢
      obtain ⟨rest, disk2, htunnel, h⟩ := bind_onDisk h
      obtain ⟨hips, hbackend, rfl, rfl⟩ := writeNetBackendFiles_ok htunnel
      obtain ⟨rows, c1, hrows, h⟩ := bind_onDb h
      obtain ⟨rfl, rfl⟩ := listIbgpPeers_ok hrows
      obtain ⟨babel, disk3, hbabel, h⟩ := bind_onDisk h
      cases h
      refine ⟨hip, fun _ => ⟨hips, hbackend⟩, ?_⟩
      rw [run_regenerateBabelConf_ok hbabel, ← Disk.writeAll_append, ← Disk.writeAll_append]
      simp only [writesOf, List.map_append, List.append_assoc]

theorem keepsDb_renderIbgp (n name peerIp : Str) (hasWg : Bool) (tunnel : NetBackendArgs) :
    KeepsDb (renderIbgpPeer io config n name peerIp hasWg tunnel) := by
  refine .bind (keepsDb_onDisk _) fun bird => ?_
  split
  · exact .bind (keepsDb_onDisk _) fun _ =>
      .bind (keepsDb_onDb (readOnly_wrapDatabaseError (.queryOr ..))) fun _ =>
      .bind (keepsDb_onDisk _) fun _ => .pure _
  · exact .pure _

end Writes

/-! ## the operations on BGP peers -/

/-- One call replaced one peer, its files and, where it had to, `babel.conf`. -/
def Incremental (config : AppConfig) (db db' : Db) (disk disk' : Disk) : Prop :=
  ∃ key new gone babel,
    Replaced (db.peersOf config.nodeId) (db'.peersOf config.nodeId) key new ∧
      FilesReplaced config db db' disk disk' key new gone babel

section Bgp

variable {env : PeerEnv} {io : FileIo} {config : AppConfig} {db db' : Db} {disk disk' : Disk}

theorem slash_notMem_ofInt (k : Int) : 47 ∉ ofInt k := by
  cases k with
  | ofNat m =>
      intro h
      have := asciiDigits_ofInt m 47 h
      omega
  | negSucc m =>
      intro h
      obtain h | h := List.mem_cons.mp (show 47 ∈ 45 :: ofInt ((m + 1 : Nat) : Int) from h)
      · omega
      · have := asciiDigits_ofInt (m + 1) 47 h
        omega

theorem slash_notMem_bgpIfname (asn : Int) : 47 ∉ lit "dn42_" ++ lastChars 4 (ofInt asn) := by
  rw [List.mem_append, not_or]
  exact ⟨by decide, fun h => slash_notMem_ofInt asn (List.mem_of_mem_drop h)⟩

theorem bgp_paths (config : AppConfig) (r : BgpRow) :
    (rowBgpFiles config r).map FileSpec.path = (PeerRow.bgp r).places config := rfl

/-- BGP and iBGP peers have different interfaces. -/
theorem ifname_apart {r : BgpRow} {s : IbgpRow} (hr : lit "dn42_" <+: r.ifname)
    (hs : lit "wg_" <+: s.ifname) : s.ifname ≠ r.ifname := by
  intro heq
  rw [heq] at hs
  exact absurd (List.prefix_of_prefix_length_le hs hr (by decide)) (by decide)

theorem babelOf_congr (h : db'.ibgpPeers = db.ibgpPeers) :
    config.babelOf db' = config.babelOf db := by
  simp only [AppConfig.babelOf, Db.listIbgpPeers, Db.ibgpRowsOf, h]

theorem backendOf_networkd : backendOf (lit "networkd") = lit "networkd" := rfl

/-- A BGP peer that was stored and written. -/
theorem incremental_writeBgp (new : BgpRow) (hwf : PeersWF (db.peersOf config.nodeId))
    (hproper : (PeerRow.bgp new).Proper)
    (hmem : ∀ x, x ∈ db'.peersOf config.nodeId ↔
      some (.bgp new) = some x ∨ (x ∈ db.peersOf config.nodeId ∧ x.key ≠ .inl new.peerAsn))
    (hsame : ∀ r, .bgp r ∈ db.peersOf config.nodeId → r.peerAsn = new.peerAsn →
      r.ifname = new.ifname)
    (hother : ∀ r, .bgp r ∈ db.peersOf config.nodeId → r.peerAsn ≠ new.peerAsn →
      r.ifname ≠ new.ifname)
    (hibgp : db'.ibgpPeers = db.ibgpPeers)
    (hdisk : disk' = disk.writeAll (writesOf (rowBgpFiles config new))) :
    Incremental config db db' disk disk' := by
  refine ⟨.inl new.peerAsn, some (.bgp new), [], [], ⟨hmem, ?_, ?_, ?_⟩, ⟨?_, ?_, ?_, ?_⟩⟩
  · rintro x ⟨⟩
    rfl
  · rintro x ⟨⟩
    exact hproper
  · rintro x ⟨⟩ y hy hkey
    cases y with
    | bgp r => exact hother r hy fun hasn => hkey (congrArg Sum.inl hasn)
    | ibgp r => exact ifname_apart hproper.ifname (hwf.proper _ hy).ifname
  · rw [List.append_nil]
    exact hdisk
  · intro p hp
    cases hp
  · intro x hx hkey f hf
    cases x with
    | bgp r =>
        have hpath := path_mem_places hf
        have hplaces : (PeerRow.bgp r).places config = (PeerRow.bgp new).places config := by
          simp only [PeerRow.places, PeerRow.birdStem, PeerRow.base, hsame r hx (Sum.inl.inj hkey)]
        rw [hplaces, ← bgp_paths] at hpath
        exact .inr hpath
    | ibgp r => cases hkey
  · exact .inr ⟨rfl, babelOf_congr hibgp⟩

/-- The files of a row whose address and tunnel are given. -/
theorem rowBgpFiles_eq (tunnel : NetBackendArgs) {new : BgpRow} {peerLla : Str}
    (hlla : new.peerLla = some peerLla)
    (htunnel : rowBackendArgs new.toPeerRecordBase peerLla = tunnel) :
    rowBgpFiles config new =
      bgpBirdFile (.ofStr config.birdPeersDir) tunnel.ifname peerLla new.peerAsn ::
        tunnel.files (.ofStr config.networkdDir) := by
  rw [rowBgpFiles, hlla, orDefault_self, htunnel, ← htunnel]
  rfl

theorem incremental_createBgp {a : BgpPeerArgs} {g : Generated}
    (hn : orDefault a.nodeId config.nodeId = config.nodeId)
    (hwf : PeersWF (db.peersOf config.nodeId))
    (h : evalPeer (createBgpPeerFiles env io config true a) db disk = (.ok g, db', disk')) :
    Incremental config db db' disk disk' := by
  obtain ⟨s, files, c, hstore, hrender⟩ :=
    withFiles_returns (settles_storeBgpPeer a) (fun _ => keepsDb_onDisk _) h
  obtain ⟨backend, port, keys, hstorable, rfl, hdb'⟩ := eval_storeBgpPeer_iff.mp hstore
  obtain ⟨hlla, hips, hbackend, hdisk⟩ := renderBgpPeer_ok (onDisk_returns hrender).1
  have hnetworkd : backend = lit "networkd" := hbackend
  subst hnetworkd
  have hunique := hstorable.unique
  rw [hn] at hunique
  have hself : orDefault (some a.peerLla) [] = a.peerLla := orDefault_self _
  apply incremental_writeBgp (newBgpRow env config.nodeId a (lit "networkd") port keys) hwf
  · exact
      { stem := List.prefix_append _ _
        ifname := List.prefix_append _ _
        plainStem := slash_notMem_bgpIfname a.peerAsn
        plainIfname := slash_notMem_bgpIfname a.peerAsn
        columns := ⟨⟨hself.symm ▸ hlla, hips, rfl⟩, rfl⟩ }
  · have hbgp : db'.bgpPeers =
        db.bgpPeers ++ [newBgpRow env config.nodeId a (lit "networkd") port keys] := by
      rw [hdb']
      rfl
    refine mem_iff_of_bgp (some _) (fun r hrn => ?_) (fun r hr => ?_) ?_
    · rw [hbgp, List.mem_append, List.mem_singleton, Option.some.injEq]
      constructor
      · rintro (hr | rfl)
        · exact .inr ⟨hr, (hunique r hr hrn).1⟩
        · exact .inl rfl
      · rintro (rfl | ⟨hr, -⟩)
        · exact .inr rfl
        · exact .inl hr
    · cases hr
      exact hn
    · rw [hdb']
      exact upsertNode_ibgpPeers
  · intro r hr hasn
    obtain ⟨hr, hrn⟩ := bgp_mem_peersOf.mp hr
    exact absurd hasn (hunique r hr hrn).1
  · intro r hr _
    obtain ⟨hr, hrn⟩ := bgp_mem_peersOf.mp hr
    exact (hunique r hr hrn).2
  · rw [hdb']
    exact upsertNode_ibgpPeers
  · rw [hdisk, rowBgpFiles_eq (newBgpTunnel env a (lit "networkd") port keys) rfl]
    · rfl
    · simp [rowBackendArgs, newBgpRow, newBgpTunnel, backendOf_networkd, printed, orDefault_self]

/-- What `modify_bgp_peer` leaves of a row. -/
def modifiedBgpRow (env : PeerEnv) (a : BgpPeerArgs) (backend : Str) (row : BgpRow) (port : Int) :
    BgpRow := (a.update backend row port).apply env.now row

theorem incremental_modifyBgp {a : BgpPeerArgs} {g : Generated}
    (hn : orDefault a.nodeId config.nodeId = config.nodeId)
    (hwf : PeersWF (db.peersOf config.nodeId))
    (h : evalPeer (modifyBgpPeerFiles env io config true a) db disk = (.ok g, db', disk')) :
    Incremental config db db' disk disk' := by
  obtain ⟨s, files, c, hstore, hrender⟩ :=
    withFiles_returns (settles_restoreBgpPeer a) (fun _ => keepsDb_onDisk _) h
  obtain ⟨backend, row, port, hmodifiable, rfl, hdb'⟩ := eval_restoreBgpPeer_iff.mp hstore
  obtain ⟨hlla, hips, hbackend, hdisk⟩ := renderBgpPeer_ok (onDisk_returns hrender).1
  have hnetworkd : backend = lit "networkd" := hbackend
  subst hnetworkd
  have hrow := hmodifiable.found
  rw [hn] at hrow hdb'
  have his := is_bgp_iff.mp (List.find?_some hrow)
  have hrowMem : .bgp row ∈ db.peersOf config.nodeId :=
    bgp_mem_peersOf.mpr ⟨List.mem_of_find?_eq_some hrow, his.1⟩
  have hproper := hwf.proper _ hrowMem
  have hself : orDefault (some a.peerLla) [] = a.peerLla := orDefault_self _
  have hibgp : db'.ibgpPeers = db.ibgpPeers := by
    rw [hdb']
    exact upsertNode_ibgpPeers
  apply incremental_writeBgp (modifiedBgpRow env a (lit "networkd") row port) hwf
  · exact
      { stem := hproper.stem
        ifname := hproper.ifname
        plainStem := hproper.plainStem
        plainIfname := hproper.plainIfname
        columns := ⟨⟨hself.symm ▸ hlla, hips, rfl⟩, rfl⟩ }
  · have hbgp : db'.bgpPeers = Rows.updateWhere (BgpRow.is config.nodeId a.peerAsn)
        ((a.update (lit "networkd") row port).apply env.now) db.bgpPeers := by
      rw [hdb', ← @upsertNode_bgpPeers config.nodeId db]
      rfl
    refine mem_iff_of_bgp (some _) (fun r hrn => ?_) (fun r hr => ?_) hibgp
    · rw [hbgp, mem_updateWhere_unique hrow (hwf.unique_bgp hrow), is_bgp_eq_false hrn, ← his.2]
      rfl
    · cases hr
      exact his.1
  · intro r hr hasn
    have hsame := hwf.keys _ hr _ hrowMem (congrArg Sum.inl hasn)
    rw [PeerRow.bgp.inj hsame]
    rfl
  · intro r hr hasn
    exact hwf.ifnames _ hr _ hrowMem fun hkey => hasn (Sum.inl.inj hkey)
  · exact hibgp
  · rw [hdisk, ← his.2,
      rowBgpFiles_eq (modifiedBgpTunnel a (lit "networkd") row port) rfl]
    · rfl
    · simp [rowBackendArgs, modifiedBgpRow, BgpPeerArgs.update, Database.BgpUpdate.apply,
        modifiedBgpTunnel, backendOf_networkd, printed, orDefault_self]

/-- The places of a BGP peer, as `delete_bgp_peer` finds them. -/
theorem peerFilesForBackend_bgp (config : AppConfig) {row : BgpRow}
    (h : row.netBackend = lit "networkd") :
    peerFilesForBackend config row.ifname row.netBackend .bgp =
      (PeerRow.bgp row).places config := by
  rw [peerFilesForBackend, if_pos h]
  rfl

theorem incremental_deleteBgp {asn : Int} {m : Option Str} {r : DeleteResult}
    (hn : orDefault m config.nodeId = config.nodeId)
    (hwf : PeersWF (db.peersOf config.nodeId))
    (h : evalPeer (deleteBgpPeerFiles env io config true asn m) db disk = (.ok r, db', disk'))
    (hfailed : r.files.failed = []) : Incremental config db db' disk disk' := by
  obtain ⟨c, hrun, hc⟩ := evalPeer_ok h
  obtain ⟨row, db1, hremove, hrun⟩ := bind_store (settles_removeBgpPeer asn) hrun
  obtain ⟨statuses, disk1, hdelete, hrun⟩ := bind_onDisk hrun
  cases hrun
  have hdb' : db1 = db' := hc
  subst hdb'
  obtain ⟨hrow, hbgp, hibgp⟩ := eval_removeBgpPeer hremove
  rw [hn] at hrow hbgp
  have his := is_bgp_iff.mp (List.find?_some hrow)
  have hrowMem : .bgp row ∈ db.peersOf config.nodeId :=
    bgp_mem_peersOf.mpr ⟨List.mem_of_find?_eq_some hrow, his.1⟩
  have hplaces := peerFilesForBackend_bgp config (hwf.proper _ hrowMem).columns.2
  have hdisk := deleteFilesAndCollectStatus_ok hdelete hfailed
  rw [hplaces] at hdisk
  refine ⟨.inl asn, none, (PeerRow.bgp row).places config, [], ⟨?_, ?_, ?_, ?_⟩,
    ⟨hdisk, ?_, ?_, ?_⟩⟩
  · refine mem_iff_of_bgp none (fun r hrn => ?_) (fun r hr => (by cases hr)) hibgp
    rw [hbgp, Rows.deleteWhere, List.mem_filter, Bool.not_eq_true', is_bgp_eq_false hrn]
    simp
  · intro x hx
    cases hx
  · intro x hx
    cases hx
  · intro x hx
    cases hx
  · exact fun p hp => ⟨_, hrowMem, congrArg Sum.inl his.2, hp⟩
  · intro x hx hkey f hf
    have hsame := hwf.keys x hx _ hrowMem (hkey.trans (congrArg Sum.inl his.2.symm))
    rw [hsame] at hf
    exact .inl (path_mem_places hf)
  · exact .inr ⟨rfl, babelOf_congr hibgp⟩

end Bgp

/-! ## the operations on iBGP peers -/

section Babel

variable {config : AppConfig} {db db' : Db} {n : Str}

theorem pairwise_listIbgpPeers (db : Db) (n : Str) :
    (db.listIbgpPeers n).Pairwise fun a b => a.name ≤ b.name := by
  have : Std.Total fun a b : IbgpRow => a.name ≤ b.name := ⟨fun a b => le_total a.name b.name⟩
  have : IsTrans IbgpRow fun a b => a.name ≤ b.name := ⟨fun _ _ _ h1 h2 => le_trans h1 h2⟩
  exact List.pairwise_insertionSort _ _

/-- `babel.conf` depends on the rows with a tunnel only, in whatever order they
are stored. -/
theorem babelOf_of_tunnels (hwf : PeersWF (db.peersOf config.nodeId))
    (h : (db'.ibgpRowsOf config.nodeId).filter (fun r => r.hasWg) =
      (db.ibgpRowsOf config.nodeId).filter fun r => r.hasWg) :
    config.babelOf db' = config.babelOf db := by
  have hperm : ((db'.listIbgpPeers config.nodeId).filter fun r => r.hasWg).Perm
      ((db.listIbgpPeers config.nodeId).filter fun r => r.hasWg) := by
    have h1 := (List.perm_insertionSort (fun a b : IbgpRow => a.name ≤ b.name)
      (db'.ibgpRowsOf config.nodeId)).filter fun r => r.hasWg
    have h2 := (List.perm_insertionSort (fun a b : IbgpRow => a.name ≤ b.name)
      (db.ibgpRowsOf config.nodeId)).filter fun r => r.hasWg
    rw [h] at h1
    exact h1.trans h2.symm
  have heq : (db'.listIbgpPeers config.nodeId).filter (fun r => r.hasWg) =
      (db.listIbgpPeers config.nodeId).filter fun r => r.hasWg := by
    refine hperm.eq_of_pairwise (fun a b ha hb hab hba => ?_)
      ((pairwise_listIbgpPeers _ _).filter _) ((pairwise_listIbgpPeers _ _).filter _)
    -- the names in the partition are distinct
    have hmem : ∀ r ∈ (db.listIbgpPeers config.nodeId).filter fun r => r.hasWg,
        PeerRow.ibgp r ∈ db.peersOf config.nodeId := by
      intro r hr
      have hr' := (List.mem_filter.mp hr).1
      rw [Db.listIbgpPeers, List.mem_insertionSort, Db.ibgpRowsOf, List.mem_filter,
        beq_iff_eq] at hr'
      exact ibgp_mem_peersOf.mpr hr'
    have hsame := hwf.keys _ (hmem a (hperm.mem_iff.mp ha)) _ (hmem b hb)
      (congrArg Sum.inr (le_antisymm hab hba))
    exact PeerRow.ibgp.inj hsame
  simp only [AppConfig.babelOf, babelFile, babelInterfaces, heq]

end Babel

section Ibgp

variable {env : PeerEnv} {io : FileIo} {config : AppConfig} {db db' : Db} {disk disk' : Disk}

/-- An iBGP peer with an address and a tunnel has a file in each of its places. -/
theorem ibgp_paths {r : IbgpRow} (hwg : r.hasWg = true) (hip : orDefault r.peerIp [] ≠ []) :
    (rowIbgpFiles config r).map FileSpec.path = (PeerRow.ibgp r).places config := by
  rw [rowIbgpFiles, if_pos hwg, ibgpBirdFiles, if_neg (by simpa using hip)]
  rfl

/-- An iBGP peer that was stored and written. -/
theorem incremental_writeIbgp (new : IbgpRow) (hwf : PeersWF (db.peersOf config.nodeId))
    (hproper : (PeerRow.ibgp new).Proper)
    (hmem : ∀ x, x ∈ db'.peersOf config.nodeId ↔
      some (.ibgp new) = some x ∨ (x ∈ db.peersOf config.nodeId ∧ x.key ≠ .inr new.name))
    (hsame : ∀ r, .ibgp r ∈ db.peersOf config.nodeId → r.name = new.name →
      r.ifname = new.ifname ∧ new.hasWg = true ∧ orDefault new.peerIp [] ≠ [])
    (hother : ∀ r, .ibgp r ∈ db.peersOf config.nodeId → r.name ≠ new.name →
      r.ifname ≠ new.ifname)
    (hbabel : new.hasWg = false → config.babelOf db' = config.babelOf db)
    (hdisk : disk' = disk.writeAll (writesOf
      (rowIbgpFiles config new ++ if new.hasWg then [config.babelOf db'] else []))) :
    Incremental config db db' disk disk' := by
  refine ⟨.inr new.name, some (.ibgp new), [], if new.hasWg then [config.babelOf db'] else [],
    ⟨hmem, ?_, ?_, ?_⟩, ⟨hdisk, ?_, ?_, ?_⟩⟩
  · rintro x ⟨⟩
    rfl
  · rintro x ⟨⟩
    exact hproper
  · rintro x ⟨⟩ y hy hkey
    cases y with
    | bgp r => exact (ifname_apart (hwf.proper _ hy).ifname hproper.ifname).symm
    | ibgp r => exact hother r hy fun hname => hkey (congrArg Sum.inr hname)
  · intro p hp
    cases hp
  · intro x hx hkey f hf
    cases x with
    | bgp r => cases hkey
    | ibgp r =>
        have hname : r.name = new.name := Sum.inr.inj hkey
        obtain ⟨hifname, hwg, hip⟩ := hsame r hx hname
        have hpath := path_mem_places hf
        have hplaces : (PeerRow.ibgp r).places config = (PeerRow.ibgp new).places config := by
          simp only [PeerRow.places, PeerRow.birdStem, PeerRow.base, hifname, hname]
        rw [hplaces, ← ibgp_paths hwg hip] at hpath
        exact .inr hpath
  · cases hwg : new.hasWg with
    | true => exact .inl rfl
    | false => exact .inr ⟨rfl, hbabel hwg⟩

theorem rowIbgpFiles_eq (tunnel : NetBackendArgs) {new : IbgpRow} {name peerIp peerLla : Str}
    (hname : new.name = name) (hip : new.peerIp = some peerIp) (hlla : new.peerLla = some peerLla)
    (htunnel : new.hasWg = true → rowBackendArgs new.toPeerRecordBase peerLla = tunnel) :
    rowIbgpFiles config new =
      ibgpBirdFiles (.ofStr config.birdPeersDir) name peerIp ++
        if new.hasWg then tunnel.files (.ofStr config.networkdDir) else [] := by
  rw [rowIbgpFiles, hip, hlla, orDefault_self, orDefault_self, hname]
  split
  · next hwg => rw [htunnel hwg]
  · rfl

/-- A clean name behind a mark without slashes is a file name. -/
theorem slash_notMem_marked {mark name : Str} (hmark : 47 ∉ mark) (h : CleanName name) :
    47 ∉ mark ++ name := by
  rw [List.mem_append, not_or]
  exact ⟨hmark, fun hslash => absurd (h.chars 47 hslash).1 (by decide)⟩

/-- A new row without a tunnel leaves the node's tunnels. -/
theorem tunnels_append_bare {row : IbgpRow} (n : Str)
    (hibgp : db'.ibgpPeers = db.ibgpPeers ++ [row]) (hwg : row.hasWg = false) :
    (db'.ibgpRowsOf n).filter (fun r => r.hasWg) =
      (db.ibgpRowsOf n).filter (fun r => r.hasWg) := by
  have hnone : ([row].filter fun r => r.nodeId == n).filter (fun r => r.hasWg) = [] := by
    rw [List.filter_eq_nil_iff]
    intro r hr
    rw [List.mem_singleton.mp (List.mem_filter.mp hr).1, hwg]
    exact Bool.false_ne_true
  rw [Db.ibgpRowsOf, Db.ibgpRowsOf, hibgp, List.filter_append, List.filter_append, hnone,
    List.append_nil]

theorem incremental_createIbgp {a : IbgpPeerArgs} {g : Generated}
    (hn : orDefault a.nodeId config.nodeId = config.nodeId)
    (hwf : PeersWF (db.peersOf config.nodeId))
    (h : evalPeer (createIbgpPeerFiles env io config true a) db disk = (.ok g, db', disk')) :
    Incremental config db db' disk disk' := by
  obtain ⟨s, files, c, hstore, hrender⟩ :=
    withFiles_returns (settles_storeIbgpPeer a) (fun _ => keepsDb_renderIbgp _ _ _ _ _) h
  obtain ⟨peerName, t, hstorable, rfl, hdb'⟩ := eval_storeIbgpPeer_iff.mp hstore
  obtain ⟨hip, htunnel, hdisk⟩ := renderIbgpPeer_ok hrender
  have hunique := hstorable.unique
  rw [hn] at hunique hdisk
  have hclean := cleanName_of_sanitizeName hstorable.name
  have hbgp : db'.bgpPeers = db.bgpPeers := by
    rw [hdb']
    exact upsertNode_bgpPeers
  have hibgp : db'.ibgpPeers = db.ibgpPeers ++ [newIbgpRow env config.nodeId a peerName t] := by
    rw [hdb']
    rfl
  apply incremental_writeIbgp (newIbgpRow env config.nodeId a peerName t) hwf
  · exact
      { stem := List.prefix_append _ _
        ifname := List.prefix_append _ _
        plainStem := slash_notMem_marked (by decide) hclean
        plainIfname := slash_notMem_marked (by decide) hclean
        columns := fun hwg =>
          ⟨⟨(htunnel hwg).1, congrArg backendOf (htunnel hwg).2⟩, (htunnel hwg).2⟩ }
  · refine mem_iff_of_ibgp (some _) (fun r hrn => ?_) (fun r hr => ?_) hbgp
    · rw [hibgp, List.mem_append, List.mem_singleton, Option.some.injEq]
      constructor
      · rintro (hr | rfl)
        · exact .inr ⟨hr, (hunique r hr hrn).1⟩
        · exact .inl rfl
      · rintro (rfl | ⟨hr, -⟩)
        · exact .inr rfl
        · exact .inl hr
    · cases hr
      exact hn
  · intro r hr hname
    obtain ⟨hr, hrn⟩ := ibgp_mem_peersOf.mp hr
    exact absurd hname (hunique r hr hrn).1
  · intro r hr _
    obtain ⟨hr, hrn⟩ := ibgp_mem_peersOf.mp hr
    exact (hunique r hr hrn).2
  · intro hwg
    exact babelOf_of_tunnels hwf (tunnels_append_bare _ hibgp hwg)
  · rw [hdisk, rowIbgpFiles_eq (newIbgpTunnel a peerName t) rfl rfl rfl]
    · rfl
    · intro hwg
      have hnetworkd : t.backend = lit "networkd" := (htunnel hwg).2
      simp [rowBackendArgs, newIbgpRow, newIbgpTunnel, printed, orDefault_self, hnetworkd,
        backendOf_networkd]

/-- What `modify_ibgp_peer` leaves of a row. -/
def modifiedIbgpRow (env : PeerEnv) (a : IbgpModifyArgs) (backend : Str) (row : IbgpRow)
    (port : Int) : IbgpRow := (a.update backend row port).apply env.now row

theorem incremental_modifyIbgp {a : IbgpModifyArgs} {g : Generated}
    (hn : orDefault a.nodeId config.nodeId = config.nodeId)
    (hwf : PeersWF (db.peersOf config.nodeId))
    (h : evalPeer (modifyIbgpPeerFiles env io config true a) db disk = (.ok g, db', disk')) :
    Incremental config db db' disk disk' := by
  obtain ⟨s, files, c, hstore, hrender⟩ :=
    withFiles_returns (settles_restoreIbgpPeer a) (fun _ => keepsDb_renderIbgp _ _ _ _ _) h
  obtain ⟨backend, peerName, row, port, hmodifiable, rfl, hdb'⟩ :=
    eval_restoreIbgpPeer_iff.mp hstore
  obtain ⟨hip, htunnel, hdisk⟩ := renderIbgpPeer_ok hrender
  obtain ⟨hips, hbackend⟩ := htunnel rfl
  have hnetworkd : backend = lit "networkd" := hbackend
  subst hnetworkd
  have hrow := hmodifiable.found
  rw [hn] at hrow hdb' hdisk
  have his := is_ibgp_iff.mp (List.find?_some hrow)
  have hrowMem : .ibgp row ∈ db.peersOf config.nodeId :=
    ibgp_mem_peersOf.mpr ⟨List.mem_of_find?_eq_some hrow, his.1⟩
  have hproper := hwf.proper _ hrowMem
  have hbgp : db'.bgpPeers = db.bgpPeers := by
    rw [hdb']
    exact upsertNode_bgpPeers
  apply incremental_writeIbgp (modifiedIbgpRow env a (lit "networkd") row port) hwf
  · exact
      { stem := hproper.stem
        ifname := hproper.ifname
        plainStem := hproper.plainStem
        plainIfname := hproper.plainIfname
        columns := fun _ => ⟨⟨hips, rfl⟩, rfl⟩ }
  · have hibgp : db'.ibgpPeers = Rows.updateWhere (IbgpRow.is config.nodeId peerName)
        ((a.update (lit "networkd") row port).apply env.now) db.ibgpPeers := by
      rw [hdb', ← @upsertNode_ibgpPeers config.nodeId db]
      rfl
    refine mem_iff_of_ibgp (some _) (fun r hrn => ?_) (fun r hr => ?_) hbgp
    · rw [hibgp, mem_updateWhere_unique hrow (hwf.unique_ibgp hrow), is_ibgp_eq_false hrn, ← his.2]
      rfl
    · cases hr
      exact his.1
  · intro r hr hname
    have hsame := hwf.keys _ hr _ hrowMem (congrArg Sum.inr hname)
    rw [PeerRow.ibgp.inj hsame]
    exact ⟨rfl, hmodifiable.hasWg, fun h => hip ((orDefault_self a.peerIp).symm.trans h)⟩
  · intro r hr hname
    exact hwf.ifnames _ hr _ hrowMem fun hkey => hname (Sum.inr.inj hkey)
  · intro hwg
    exact absurd (hmodifiable.hasWg.symm.trans hwg) (by decide)
  · have hwg : (modifiedIbgpRow env a (lit "networkd") row port).hasWg = true := hmodifiable.hasWg
    have hname : (modifiedIbgpRow env a (lit "networkd") row port).name = peerName := his.2
    rw [hdisk, rowIbgpFiles_eq (modifiedIbgpTunnel a (lit "networkd") row port) hname rfl rfl,
      hwg]
    · rfl
    · intro _
      simp [rowBackendArgs, modifiedIbgpRow, IbgpModifyArgs.update, Database.IbgpUpdate.apply,
        modifiedIbgpTunnel, backendOf_networkd, printed, orDefault_self]

/-- The files `delete_ibgp_peer` removes are the places of a peer with a tunnel. -/
theorem ibgpFilesToDelete_eq {row : IbgpRow} (hwf : PeersWF (db.peersOf config.nodeId))
    (hbabel : ¬config.PeerPlace (.ofStr config.birdBabelConfPath))
    (hrow : .ibgp row ∈ db.peersOf config.nodeId) (hwg : row.hasWg = true) :
    ibgpFilesToDelete config row row.name = (PeerRow.ibgp row).places config := by
  have hproper := hwf.proper _ hrow
  have hnetworkd : row.netBackend = lit "networkd" := (hproper.columns hwg).2
  have hplaces : ∀ p ∈ (PeerRow.ibgp row).places config,
      p ≠ .ofStr config.birdBabelConfPath := by
    rintro p hp rfl
    exact hbabel (peerPlace_of_mem hproper hp)
  have hbird : ((PosixPath.ofStr config.birdPeersDir).join (lit "ibgp_" ++ row.name ++ lit ".conf")
      != PosixPath.ofStr config.birdBabelConfPath) = true := by
    rw [bne_iff_ne]
    exact hplaces _ List.mem_cons_self
  rw [ibgpFilesToDelete, if_pos hwg, peerFilesForBackend, if_pos hnetworkd, List.filter_cons,
    if_pos hbird, List.filter_cons, if_neg (by simp), List.filter_eq_self.mpr]
  · rfl
  · intro p hp
    simpa using hplaces p (List.mem_cons_of_mem _ hp)

section Deleted

variable {row : IbgpRow}

/-- The row is gone, and every other one is left. -/
theorem replaced_deletedIbgp
    (hibgp : db'.ibgpPeers = Rows.deleteWhere (IbgpRow.is config.nodeId row.name) db.ibgpPeers)
    (hbgp : db'.bgpPeers = db.bgpPeers) :
    Replaced (db.peersOf config.nodeId) (db'.peersOf config.nodeId) (.inr row.name) none := by
  refine ⟨mem_iff_of_ibgp none (fun r hrn => ?_) (fun r hr => (by cases hr)) hbgp,
    fun x hx => (by cases hx), fun x hx => (by cases hx), fun x hx => (by cases hx)⟩
  rw [hibgp, Rows.deleteWhere, List.mem_filter, Bool.not_eq_true', is_ibgp_eq_false hrn]
  simp

/-- A row is the one that has its name. -/
theorem eq_of_ibgpKey (hwf : PeersWF (db.peersOf config.nodeId))
    (hrow : .ibgp row ∈ db.peersOf config.nodeId) {x : PeerRow}
    (hx : x ∈ db.peersOf config.nodeId) (hkey : x.key = .inr row.name) : x = .ibgp row :=
  hwf.keys x hx _ hrow hkey

/-- A peer with a tunnel takes its files along, and its interface in `babel.conf`. -/
theorem filesReplaced_deletedTunnel (hwf : PeersWF (db.peersOf config.nodeId))
    (hbabel : ¬config.PeerPlace (.ofStr config.birdBabelConfPath))
    (hrow : .ibgp row ∈ db.peersOf config.nodeId) (hwg : row.hasWg = true)
    (hdisk : disk' = (disk.unlinkAll (ibgpFilesToDelete config row row.name)).writeAll
      (writesOf [config.babelOf db'])) :
    FilesReplaced config db db' disk disk' (.inr row.name) none ((PeerRow.ibgp row).places config)
      [config.babelOf db'] := by
  rw [ibgpFilesToDelete_eq hwf hbabel hrow hwg] at hdisk
  refine ⟨hdisk, fun p hp => ⟨_, hrow, rfl, hp⟩, fun x hx hkey f hf => ?_, .inl rfl⟩
  rw [eq_of_ibgpKey hwf hrow hx hkey] at hf
  exact .inl (path_mem_places hf)

/-- A peer without a tunnel has one file, and no interface in `babel.conf`. -/
theorem filesReplaced_deletedBare (hwf : PeersWF (db.peersOf config.nodeId))
    (hfound : db.getIbgpPeer config.nodeId row.name = some row)
    (hrow : .ibgp row ∈ db.peersOf config.nodeId) (hwg : row.hasWg = false)
    (hibgp : db'.ibgpPeers = Rows.deleteWhere (IbgpRow.is config.nodeId row.name) db.ibgpPeers)
    (hdisk : disk' = disk.unlinkAll (ibgpFilesToDelete config row row.name)) :
    FilesReplaced config db db' disk disk' (.inr row.name) none
      (ibgpFilesToDelete config row row.name) [] := by
  have hgone : ibgpFilesToDelete config row row.name =
      [(PosixPath.ofStr config.birdPeersDir).join (lit "ibgp_" ++ row.name ++ lit ".conf")] := by
    rw [ibgpFilesToDelete, hwg]
    rfl
  refine ⟨hdisk, fun p hp => ?_, fun x hx hkey f hf => ?_, .inr ⟨rfl, ?_⟩⟩
  · rw [hgone] at hp
    rw [List.mem_singleton.mp hp]
    exact ⟨_, hrow, rfl, List.mem_cons_self⟩
  · rw [eq_of_ibgpKey hwf hrow hx hkey] at hf
    have hbird : f ∈ ibgpBirdFiles (.ofStr config.birdPeersDir) row.name
        (orDefault row.peerIp []) := by
      simpa [PeerRow.files, rowIbgpFiles, hwg] using hf
    unfold ibgpBirdFiles at hbird
    split at hbird
    · cases hbird
    · rw [hgone, List.mem_singleton.mp hbird]
      exact .inl List.mem_cons_self
  · apply babelOf_of_tunnels hwf
    rw [Db.ibgpRowsOf, Db.ibgpRowsOf, hibgp, Rows.deleteWhere, List.filter_filter,
      List.filter_filter, List.filter_filter]
    apply List.filter_congr
    intro r hr
    -- the deleted row has no tunnel
    by_cases hsel : IbgpRow.is config.nodeId row.name r = true
    · rw [hwf.unique_ibgp hfound r hr hsel, hwg]
      simp
    · simp [hsel]

end Deleted

theorem incremental_deleteIbgp {name : Str} {m : Option Str} {r : DeleteResult}
    (hbabel : ¬config.PeerPlace (.ofStr config.birdBabelConfPath))
    (hn : orDefault m config.nodeId = config.nodeId)
    (hwf : PeersWF (db.peersOf config.nodeId))
    (h : evalPeer (deleteIbgpPeerFiles env io config true name m) db disk = (.ok r, db', disk'))
    (hfailed : r.files.failed = []) : Incremental config db db' disk disk' := by
  obtain ⟨c, hrun, hc⟩ := evalPeer_ok h
  obtain ⟨removed, db1, hremove, hrun⟩ := bind_store (settles_removeIbgpPeer name) hrun
  obtain ⟨statuses, disk1, hdelete, hrun⟩ := bind_onDisk hrun
  obtain ⟨-, hrow, hibgp, hbgp⟩ := eval_removeIbgpPeer hremove
  obtain ⟨row, peerName⟩ := removed
  simp only at hrow hibgp hdelete hrun
  rw [hn] at hrow hibgp hrun
  have his := is_ibgp_iff.mp (List.find?_some hrow)
  have hrowMem : .ibgp row ∈ db.peersOf config.nodeId :=
    ibgp_mem_peersOf.mpr ⟨List.mem_of_find?_eq_some hrow, his.1⟩
  obtain rfl : row.name = peerName := his.2
  have hreplaced := replaced_deletedIbgp hibgp hbgp
  cases hwg : row.hasWg with
  | true =>
      simp only [hwg, and_self, if_true] at hrun
      obtain ⟨babel, state, hrefresh, hpure⟩ := Prog.run_bind_eq_ok.mp hrun
      cases hpure
      obtain ⟨rfl, rfl⟩ := refreshBabel_ok hrefresh
      obtain rfl : db1 = db' := hc
      have hdisk := deleteFilesAndCollectStatus_ok hdelete hfailed
      exact ⟨_, _, _, _, hreplaced,
        filesReplaced_deletedTunnel hwf hbabel hrowMem hwg (by rw [hdisk]; rfl)⟩
  | false =>
      simp only [hwg, and_false, Bool.false_eq_true, if_false] at hrun
      cases hrun
      obtain rfl : db1 = db' := hc
      have hdisk := deleteFilesAndCollectStatus_ok hdelete hfailed
      exact ⟨_, _, _, _, hreplaced, filesReplaced_deletedBare hwf hrow hrowMem hwg hibgp hdisk⟩

end Ibgp

end Dn42Ctl
