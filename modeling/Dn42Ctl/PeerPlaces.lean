import Dn42Ctl.PeerRemoval
import Dn42Ctl.PeerNames
import Dn42Ctl.Lib.Mirror

/-!
# PeerPlaces

Where the peers of a partition have their files.

`genconf` renders every peer of the partition.  A machine is *rendered* when the
places of the peers' files, and `babel.conf`, show exactly what `genconf` would
write (`AppConfig.Rendered`): none is missing, outdated or stale.

* `PeerRow.places` — peers with different keys have their files in different
  places (`places_apart`);
* `Replaced`, `FilesReplaced` — one peer is replaced by another one with its
  key, or by none, and its files with it; what the others show stays
  (`shows_replaced`).
-/

namespace Dn42Ctl

open Text Txn

/-! ## the peers of a partition -/

/-- A row of either table. -/
inductive PeerRow where
  | bgp (r : BgpRow)
  | ibgp (r : IbgpRow)

namespace PeerRow

def key : PeerRow → Int ⊕ Str
  | bgp r => .inl r.peerAsn
  | ibgp r => .inr r.name

def base : PeerRow → PeerRecordBase
  | bgp r => r.toPeerRecordBase
  | ibgp r => r.toPeerRecordBase

/-- The name of the BIRD file without its suffix. -/
def birdStem : PeerRow → Str
  | bgp r => r.ifname
  | ibgp r => lit "ibgp_" ++ r.name

/-- Where a peer can have files. -/
def places (config : AppConfig) (x : PeerRow) : List PosixPath :=
  (PosixPath.ofStr config.birdPeersDir).join (x.birdStem ++ lit ".conf") ::
    tunnelPaths config x.base.ifname

/-- The files `genconf` writes for the row. -/
def files (config : AppConfig) : PeerRow → List FileSpec
  | bgp r => rowBgpFiles config r
  | ibgp r => rowIbgpFiles config r

/-- What the name of the BIRD file starts with. -/
def birdMark : PeerRow → Str
  | bgp _ => lit "dn42_"
  | ibgp _ => lit "ibgp_"

/-- What the name of the interface starts with. -/
def ifnameMark : PeerRow → Str
  | bgp _ => lit "dn42_"
  | ibgp _ => lit "wg_"

/-- The renderers accept the columns, and an operation that deletes the peer
removes the files of its tunnel. -/
def Columns : PeerRow → Prop
  | bgp r => r.Renderable ∧ r.netBackend = lit "networkd"
  | ibgp r => r.hasWg = true → r.TunnelRenderable ∧ r.netBackend = lit "networkd"

/-- A peer as the tool makes it. -/
structure Proper (x : PeerRow) : Prop where
  stem : x.birdMark <+: x.birdStem
  ifname : x.ifnameMark <+: x.base.ifname
  plainStem : 47 ∉ x.birdStem
  plainIfname : 47 ∉ x.base.ifname
  columns : x.Columns

end PeerRow

def Db.peersOf (n : Str) (db : Db) : List PeerRow :=
  (db.bgpRowsOf n).map .bgp ++ (db.ibgpRowsOf n).map .ibgp

/-- The peers of a partition: proper, and no two with one key or one interface. -/
structure PeersWF (rows : List PeerRow) : Prop where
  proper : ∀ x ∈ rows, x.Proper
  keys : ∀ x ∈ rows, ∀ y ∈ rows, x.key = y.key → x = y
  ifnames : ∀ x ∈ rows, ∀ y ∈ rows, x.key ≠ y.key → x.base.ifname ≠ y.base.ifname

/-! ## places -/

/-- Texts with different last characters differ. -/
theorem append_ne_append {a b s t : Str} (hs : s ≠ []) (ht : t ≠ [])
    (h : s.getLast? ≠ t.getLast?) : a ++ s ≠ b ++ t := by
  intro heq
  have hlast := congrArg List.getLast? heq
  rw [List.getLast?_append_of_ne_nil _ hs, List.getLast?_append_of_ne_nil _ ht] at hlast
  exact h hlast

/-- A stem without slashes and a suffix make one path component. -/
theorem isName_append {a suf : Str} (ha : 47 ∉ a) (hsuf : 47 ∉ suf) (hlen : 2 ≤ suf.length) :
    PosixPath.IsName (a ++ suf) := by
  refine ⟨by simp [ha, hsuf], ?_, ?_⟩
  · intro h
    rw [List.append_eq_nil_iff] at h
    simp [h.2] at hlen
  · intro h
    have := congrArg List.length h
    simp only [List.length_append, List.length_singleton] at this
    omega

section Places

variable {config : AppConfig} {x y : PeerRow} {p : PosixPath}

theorem isName_bird (hx : x.Proper) : PosixPath.IsName (x.birdStem ++ lit ".conf") :=
  isName_append hx.plainStem (by decide) (by decide)

theorem isName_netdev (hx : x.Proper) : PosixPath.IsName (x.base.ifname ++ lit ".netdev") :=
  isName_append hx.plainIfname (by decide) (by decide)

theorem isName_network (hx : x.Proper) : PosixPath.IsName (x.base.ifname ++ lit ".network") :=
  isName_append hx.plainIfname (by decide) (by decide)

/-- The three places a peer's files may have. -/
theorem mem_places :
    p ∈ x.places config ↔
      p = (PosixPath.ofStr config.birdPeersDir).join (x.birdStem ++ lit ".conf") ∨
      p = (PosixPath.ofStr config.networkdDir).join (x.base.ifname ++ lit ".netdev") ∨
      p = (PosixPath.ofStr config.networkdDir).join (x.base.ifname ++ lit ".network") := by
  simp [PeerRow.places, tunnelPaths]

/-- The name of a place. -/
theorem name_of_place (hx : x.Proper) (h : p ∈ x.places config) :
    p.name = x.birdStem ++ lit ".conf" ∨ p.name = x.base.ifname ++ lit ".netdev" ∨
      p.name = x.base.ifname ++ lit ".network" := by
  obtain rfl | rfl | rfl := mem_places.mp h
  · exact .inl (PosixPath.name_join (isName_bird hx))
  · exact .inr (.inl (PosixPath.name_join (isName_netdev hx)))
  · exact .inr (.inr (PosixPath.name_join (isName_network hx)))

/-- No name carries both marks. -/
theorem marks_apart {s : Str} (hbgp : lit "dn42_" <+: s) : ¬lit "ibgp_" <+: s := by
  intro hibgp
  exact absurd (List.prefix_of_prefix_length_le hbgp hibgp (by decide)) (by decide)

/-- Two BIRD files of one name belong to one peer. -/
theorem birdStem_ne (hx : x.Proper) (hy : y.Proper) (hkey : x.key ≠ y.key)
    (hifname : x.base.ifname ≠ y.base.ifname) : x.birdStem ≠ y.birdStem := by
  intro heq
  cases x with
  | bgp r =>
      cases y with
      | bgp s => exact hifname heq
      | ibgp s => exact marks_apart (heq ▸ hx.stem) hy.stem
  | ibgp r =>
      cases y with
      | bgp s => exact marks_apart hy.stem (heq ▸ hx.stem)
      | ibgp s => exact hkey (congrArg Sum.inr (List.append_cancel_left heq))

/-- **Different peers have their files in different places.** -/
theorem places_apart (hx : x.Proper) (hy : y.Proper) (hkey : x.key ≠ y.key)
    (hifname : x.base.ifname ≠ y.base.ifname) (hp : p ∈ x.places config) :
    p ∉ y.places config := by
  intro hp'
  have hbird := birdStem_ne hx hy hkey hifname
  obtain h | h | h := name_of_place hx hp
  · obtain h' | h' | h' := name_of_place hy hp'
    · exact hbird (List.append_cancel_right (h.symm.trans h'))
    · exact append_ne_append (by decide) (by decide) (by decide) (h.symm.trans h')
    · exact append_ne_append (by decide) (by decide) (by decide) (h.symm.trans h')
  · obtain h' | h' | h' := name_of_place hy hp'
    · exact append_ne_append (by decide) (by decide) (by decide) (h.symm.trans h')
    · exact hifname (List.append_cancel_right (h.symm.trans h'))
    · exact append_ne_append (by decide) (by decide) (by decide) (h.symm.trans h')
  · obtain h' | h' | h' := name_of_place hy hp'
    · exact append_ne_append (by decide) (by decide) (by decide) (h.symm.trans h')
    · exact append_ne_append (by decide) (by decide) (by decide) (h.symm.trans h')
    · exact hifname (List.append_cancel_right (h.symm.trans h'))

/-- The places of one peer are distinct. -/
theorem nodup_places (hx : x.Proper) : (x.places config).Nodup := by
  have hname : ∀ {p q : PosixPath}, p.name ≠ q.name → p ≠ q := fun h heq => h (heq ▸ rfl)
  rw [PeerRow.places, tunnelPaths, List.nodup_cons, List.nodup_cons]
  refine ⟨?_, ?_, List.nodup_singleton _⟩
  · rw [List.mem_pair, not_or]
    constructor
    · apply hname
      rw [PosixPath.name_join (isName_bird hx), PosixPath.name_join (isName_netdev hx)]
      exact append_ne_append (by decide) (by decide) (by decide)
    · apply hname
      rw [PosixPath.name_join (isName_bird hx), PosixPath.name_join (isName_network hx)]
      exact append_ne_append (by decide) (by decide) (by decide)
  · rw [List.mem_singleton]
    apply hname
    rw [PosixPath.name_join (isName_netdev hx), PosixPath.name_join (isName_network hx)]
    exact append_ne_append (by decide) (by decide) (by decide)

/-- The files of a peer are in its places, each once. -/
theorem files_sublist (config : AppConfig) (x : PeerRow) :
    ((x.files config).map FileSpec.path).Sublist (x.places config) := by
  cases x with
  | bgp r => exact List.Sublist.refl _
  | ibgp r =>
      have htunnel : (((if r.hasWg then
          (rowBackendArgs r.toPeerRecordBase (orDefault r.peerLla [])).files
            (.ofStr config.networkdDir) else []).map FileSpec.path)).Sublist
          (tunnelPaths config r.ifname) := by
        split
        · exact List.Sublist.refl _
        · exact List.nil_sublist _
      rw [PeerRow.files, rowIbgpFiles, List.map_append]
      unfold ibgpBirdFiles
      split
      · exact htunnel.cons _
      · exact htunnel.cons_cons _

/-- A peer's files are at its places. -/
theorem path_mem_places {f : FileSpec} (hf : f ∈ x.files config) : f.path ∈ x.places config :=
  (files_sublist config x).subset (List.mem_map_of_mem hf)

/-- No two files of one peer share a path. -/
theorem nodup_files (hx : x.Proper) : ((x.files config).map FileSpec.path).Nodup :=
  (nodup_places hx).sublist (files_sublist config x)

end Places

/-- The tool's own names in the directories of the peers' files. -/
def AppConfig.PeerPlace (config : AppConfig) (p : PosixPath) : Prop :=
  (p.parent = .ofStr config.birdPeersDir ∧
    isManaged p.name [(lit "dn42_", lit ".conf"), (lit "ibgp_", lit ".conf")] = true) ∨
  (p.parent = .ofStr config.networkdDir ∧
    isManaged p.name [(lit "dn42_", lit ".netdev"), (lit "dn42_", lit ".network"),
      (lit "wg_", lit ".netdev"), (lit "wg_", lit ".network")] = true)

instance (config : AppConfig) (p : PosixPath) : Decidable (config.PeerPlace p) :=
  inferInstanceAs (Decidable (_ ∨ _))

/-- A name with a mark and a suffix of the table is a managed one. -/
theorem isManaged_of {mark stem suffix : Str} {patterns : List (Str × Str)} (h : mark <+: stem)
    (hmem : (mark, suffix) ∈ patterns) : isManaged (stem ++ suffix) patterns = true := by
  rw [isManaged, List.any_eq_true]
  refine ⟨_, hmem, ?_⟩
  rw [Bool.and_eq_true, startsWith, endsWith, List.isPrefixOf_iff_prefix,
    List.isSuffixOf_iff_suffix]
  exact ⟨h.trans (List.prefix_append _ _), List.suffix_append _ _⟩

/-- A peer's files have the tool's names. -/
theorem peerPlace_of_mem {config : AppConfig} {x : PeerRow} {p : PosixPath} (hx : x.Proper)
    (hp : p ∈ x.places config) : config.PeerPlace p := by
  obtain rfl | rfl | rfl := mem_places.mp hp
  · refine .inl ⟨PosixPath.parent_join (isName_bird hx), ?_⟩
    rw [PosixPath.name_join (isName_bird hx)]
    apply isManaged_of hx.stem
    cases x <;> simp [PeerRow.birdMark]
  · refine .inr ⟨PosixPath.parent_join (isName_netdev hx), ?_⟩
    rw [PosixPath.name_join (isName_netdev hx)]
    apply isManaged_of hx.ifname
    cases x <;> simp [PeerRow.ifnameMark]
  · refine .inr ⟨PosixPath.parent_join (isName_network hx), ?_⟩
    rw [PosixPath.name_join (isName_network hx)]
    apply isManaged_of hx.ifname
    cases x <;> simp [PeerRow.ifnameMark]

/-! ## a rendered machine -/

/-- The babel file of the hub. -/
def AppConfig.babelOf (config : AppConfig) (db : Db) : FileSpec :=
  babelFile config (db.listIbgpPeers config.nodeId)

/-- What `genconf` writes for the rows of the hub's partition. -/
def AppConfig.hubFiles (config : AppConfig) (db : Db) : List FileSpec :=
  rowFiles config (db.listBgpPeers config.nodeId) (db.listIbgpPeers config.nodeId) ++
    [config.babelOf db]

/-- The peers' files and `babel.conf` are what `genconf` would write: none is
missing, outdated or stale. -/
def AppConfig.Rendered (config : AppConfig) (db : Db) (disk : Disk) : Prop :=
  ∀ p, config.PeerPlace p ∨ p = .ofStr config.birdBabelConfPath →
    Disk.Shows (writesOf (config.hubFiles db)) disk p

/-- `babel.conf` is another file than `bird.conf`, `extra.conf` and the ROA table,
and none of the four has a name of a peer's file. -/
structure AppConfig.Separate (config : AppConfig) : Prop where
  babel : ¬config.PeerPlace (.ofStr config.birdBabelConfPath)
  babelLegacy : endsWith (PosixPath.ofStr config.birdBabelConfPath).name
    (lit ".nmconnection") = false
  birdConf : ¬config.PeerPlace (.ofStr config.birdConfPath)
  birdConfBabel : PosixPath.ofStr config.birdConfPath ≠ .ofStr config.birdBabelConfPath
  extraConf : ¬config.PeerPlace (.ofStr config.birdExtraConfPath)
  extraConfBabel : PosixPath.ofStr config.birdExtraConfPath ≠ .ofStr config.birdBabelConfPath
  roaConf : ¬config.PeerPlace (.ofStr config.birdRoaV6ConfPath)
  roaConfBabel : PosixPath.ofStr config.birdRoaV6ConfPath ≠ .ofStr config.birdBabelConfPath

section Files

variable {config : AppConfig} {db : Db} {n : Str} {x : PeerRow} {f : FileSpec}

/-- The peers of a node, BGP and iBGP. -/
theorem mem_peersOf :
    x ∈ db.peersOf n ↔ (∃ r ∈ db.bgpPeers, r.nodeId = n ∧ x = .bgp r) ∨
      ∃ r ∈ db.ibgpPeers, r.nodeId = n ∧ x = .ibgp r := by
  simp only [Db.peersOf, Db.bgpRowsOf, Db.ibgpRowsOf, List.mem_append, List.mem_map,
    List.mem_filter, beq_iff_eq]
  constructor
  · rintro (⟨r, ⟨hr, hn⟩, rfl⟩ | ⟨r, ⟨hr, hn⟩, rfl⟩)
    · exact .inl ⟨r, hr, hn, rfl⟩
    · exact .inr ⟨r, hr, hn, rfl⟩
  · rintro (⟨r, hr, hn, rfl⟩ | ⟨r, hr, hn, rfl⟩)
    · exact .inl ⟨r, ⟨hr, hn⟩, rfl⟩
    · exact .inr ⟨r, ⟨hr, hn⟩, rfl⟩

/-- The files of the whole node: its peers' and the Babel one. -/
theorem mem_hubFiles :
    f ∈ config.hubFiles db ↔
      (∃ x ∈ db.peersOf config.nodeId, f ∈ x.files config) ∨ f = config.babelOf db := by
  simp only [AppConfig.hubFiles, rowFiles, Db.listBgpPeers, Db.listIbgpPeers, List.mem_append,
    List.mem_flatMap, List.mem_insertionSort, List.mem_singleton, Db.peersOf, List.mem_map]
  apply or_congr_left
  constructor
  · rintro (⟨r, hr, hf⟩ | ⟨r, hr, hf⟩)
    · exact ⟨.bgp r, .inl ⟨r, hr, rfl⟩, hf⟩
    · exact ⟨.ibgp r, .inr ⟨r, hr, rfl⟩, hf⟩
  · rintro ⟨x, ⟨r, hr, rfl⟩ | ⟨r, hr, rfl⟩, hf⟩
    · exact .inl ⟨r, hr, hf⟩
    · exact .inr ⟨r, hr, hf⟩

end Files

/-! ## one peer is replaced -/

/-- The peer with a key is replaced by another one with that key, or by none. -/
structure Replaced (rows rows' : List PeerRow) (key : Int ⊕ Str) (new : Option PeerRow) :
    Prop where
  mem_iff : ∀ x, x ∈ rows' ↔ new = some x ∨ (x ∈ rows ∧ x.key ≠ key)
  newKey : ∀ x, new = some x → x.key = key
  proper : ∀ x, new = some x → x.Proper
  ifname : ∀ x, new = some x → ∀ y ∈ rows, y.key ≠ key → y.base.ifname ≠ x.base.ifname

/-- Replacing one peer keeps the peers apart. -/
theorem PeersWF.replaced {rows rows' : List PeerRow} {key : Int ⊕ Str} {new : Option PeerRow}
    (h : PeersWF rows) (hnew : Replaced rows rows' key new) : PeersWF rows' where
  proper x hx := by
    obtain hx | ⟨hx, -⟩ := (hnew.mem_iff x).mp hx
    · exact hnew.proper x hx
    · exact h.proper x hx
  keys x hx y hy hkey := by
    obtain hx | ⟨hx, hxkey⟩ := (hnew.mem_iff x).mp hx
    · obtain hy | ⟨hy, hykey⟩ := (hnew.mem_iff y).mp hy
      · exact Option.some.inj (hx.symm.trans hy)
      · exact absurd (hkey.symm.trans (hnew.newKey x hx)) hykey
    · obtain hy | ⟨hy, hykey⟩ := (hnew.mem_iff y).mp hy
      · exact absurd (hkey.trans (hnew.newKey y hy)) hxkey
      · exact h.keys x hx y hy hkey
  ifnames x hx y hy hkey := by
    obtain hx | ⟨hx, hxkey⟩ := (hnew.mem_iff x).mp hx
    · obtain hy | ⟨hy, hykey⟩ := (hnew.mem_iff y).mp hy
      · exact absurd (congrArg PeerRow.key (Option.some.inj (hx.symm.trans hy))) hkey
      · exact (hnew.ifname x hx y hy hykey).symm
    · obtain hy | ⟨hy, hykey⟩ := (hnew.mem_iff y).mp hy
      · exact hnew.ifname y hy x hx hxkey
      · exact h.ifnames x hx y hy hkey

/-- The files of a peer that may be none. -/
def newFiles (config : AppConfig) (new : Option PeerRow) : List FileSpec :=
  match new with
  | some x => x.files config
  | none => []

/-- The files of the peer with a key are removed or written over, those of the
new one are written, and `babel.conf` is written again where it changes. -/
structure FilesReplaced (config : AppConfig) (db db' : Db) (disk disk' : Disk)
    (key : Int ⊕ Str) (new : Option PeerRow) (gone : List PosixPath) (babel : List FileSpec) :
    Prop where
  written : disk' = (disk.unlinkAll gone).writeAll (writesOf (newFiles config new ++ babel))
  removed : ∀ p ∈ gone, ∃ x ∈ db.peersOf config.nodeId, x.key = key ∧ p ∈ x.places config
  cleared : ∀ x ∈ db.peersOf config.nodeId, x.key = key → ∀ f ∈ x.files config,
    f.path ∈ gone ∨ f.path ∈ (newFiles config new).map FileSpec.path
  refreshed : babel = [config.babelOf db'] ∨ (babel = [] ∧ config.babelOf db' = config.babelOf db)

/-- What is written of two lists together is written of one of them. -/
theorem mem_writesOf_or {files old rest : List FileSpec}
    (h : ∀ f, f ∈ files ↔ f ∈ old ∨ f ∈ rest) (e : PosixPath × Str) :
    e ∈ writesOf files ↔ e ∈ writesOf old ∨ e ∈ writesOf rest := by
  simp only [writesOf, List.mem_map, h, or_and_right, exists_or]

section Replace

variable {config : AppConfig} {db db' : Db} {disk disk' : Disk} {key : Int ⊕ Str}
  {new : Option PeerRow} {gone : List PosixPath} {babel : List FileSpec} {p : PosixPath}

/-- The files of the peer that takes the place. -/
theorem mem_newFiles {f : FileSpec} :
    f ∈ newFiles config new ↔ ∃ x, new = some x ∧ f ∈ x.files config := by
  cases new with
  | none => simp [newFiles]
  | some x => simp [newFiles]

theorem nodup_newFiles (hrows : Replaced (db.peersOf config.nodeId) (db'.peersOf config.nodeId)
    key new) : ((newFiles config new).map FileSpec.path).Nodup := by
  cases new with
  | none => exact List.nodup_nil
  | some x => exact nodup_files (hrows.proper x rfl)

/-- The places one call writes to. -/
theorem peerPlace_newFiles (hrows : Replaced (db.peersOf config.nodeId)
    (db'.peersOf config.nodeId) key new) {f : FileSpec} (hf : f ∈ newFiles config new) :
    config.PeerPlace f.path := by
  obtain ⟨x, hx, hf⟩ := mem_newFiles.mp hf
  exact peerPlace_of_mem (hrows.proper x hx) (path_mem_places hf)

/-- The files of the peer that is replaced. -/
def oldFiles (config : AppConfig) (db : Db) (key : Int ⊕ Str) : List FileSpec :=
  ((db.peersOf config.nodeId).filter fun x => x.key = key).flatMap (PeerRow.files config)

/-- The files of the other peers. -/
def otherFiles (config : AppConfig) (db : Db) (key : Int ⊕ Str) : List FileSpec :=
  ((db.peersOf config.nodeId).filter fun x => x.key ≠ key).flatMap (PeerRow.files config)

/-- The files of the peers with the replaced key. -/
theorem mem_oldFiles {f : FileSpec} :
    f ∈ oldFiles config db key ↔
      ∃ x ∈ db.peersOf config.nodeId, x.key = key ∧ f ∈ x.files config := by
  simp [oldFiles, and_assoc]

/-- The files of all the other peers. -/
theorem mem_otherFiles {f : FileSpec} :
    f ∈ otherFiles config db key ↔
      ∃ x ∈ db.peersOf config.nodeId, x.key ≠ key ∧ f ∈ x.files config := by
  simp [otherFiles, and_assoc]

/-- Before the call: the old files, the others and the Babel one. -/
theorem mem_hubFiles_before (key : Int ⊕ Str) {f : FileSpec} :
    f ∈ config.hubFiles db ↔
      (f ∈ oldFiles config db key ∨ f ∈ otherFiles config db key) ∨ f = config.babelOf db := by
  rw [mem_hubFiles, mem_oldFiles, mem_otherFiles]
  apply or_congr_left
  constructor
  · rintro ⟨x, hx, hf⟩
    by_cases hkey : x.key = key
    · exact .inl ⟨x, hx, hkey, hf⟩
    · exact .inr ⟨x, hx, hkey, hf⟩
  · rintro (⟨x, hx, -, hf⟩ | ⟨x, hx, -, hf⟩)
    · exact ⟨x, hx, hf⟩
    · exact ⟨x, hx, hf⟩

/-- After it: the new files, the others and the Babel one. -/
theorem mem_hubFiles_after (hrows : Replaced (db.peersOf config.nodeId)
    (db'.peersOf config.nodeId) key new) {f : FileSpec} :
    f ∈ config.hubFiles db' ↔
      (f ∈ newFiles config new ∨ f ∈ otherFiles config db key) ∨ f = config.babelOf db' := by
  rw [mem_hubFiles, mem_newFiles, mem_otherFiles]
  apply or_congr_left
  constructor
  · rintro ⟨x, hx, hf⟩
    obtain hx | ⟨hx, hkey⟩ := (hrows.mem_iff x).mp hx
    · exact .inl ⟨x, hx, hf⟩
    · exact .inr ⟨x, hx, hkey, hf⟩
  · rintro (⟨x, hx, hf⟩ | ⟨x, hx, hkey, hf⟩)
    · exact ⟨x, (hrows.mem_iff x).mpr (.inl hx), hf⟩
    · exact ⟨x, (hrows.mem_iff x).mpr (.inr ⟨hx, hkey⟩), hf⟩

/-- The other peers' files are not touched. -/
theorem otherFiles_untouched (hwf : PeersWF (db.peersOf config.nodeId))
    (hrows : Replaced (db.peersOf config.nodeId) (db'.peersOf config.nodeId) key new)
    (hfiles : FilesReplaced config db db' disk disk' key new gone babel) {f : FileSpec}
    (hf : f ∈ otherFiles config db key) :
    config.PeerPlace f.path ∧ f.path ∉ gone ∧
      f.path ∉ (newFiles config new).map FileSpec.path := by
  obtain ⟨y, hy, hkey, hf⟩ := mem_otherFiles.mp hf
  have hplace := path_mem_places hf
  refine ⟨peerPlace_of_mem (hwf.proper y hy) hplace, ?_, ?_⟩
  · intro hgone
    obtain ⟨x, hx, hxkey, hp⟩ := hfiles.removed _ hgone
    have hne : y.key ≠ x.key := hxkey ▸ hkey
    exact places_apart (hwf.proper y hy) (hwf.proper x hx) hne (hwf.ifnames y hy x hx hne) hplace hp
  · intro hnew
    obtain ⟨g, hg, hpath⟩ := List.mem_map.mp hnew
    obtain ⟨x, hx, hg⟩ := mem_newFiles.mp hg
    have hne : y.key ≠ x.key := (hrows.newKey x hx) ▸ hkey
    have hp := path_mem_places hg
    rw [hpath] at hp
    exact places_apart (hwf.proper y hy) (hrows.proper x hx) hne (hrows.ifname x hx y hy hkey)
      hplace hp

/-- Neither is `babel.conf`, but for its own text. -/
theorem babel_untouched (hbabel : ¬config.PeerPlace (.ofStr config.birdBabelConfPath))
    (hwf : PeersWF (db.peersOf config.nodeId))
    (hrows : Replaced (db.peersOf config.nodeId) (db'.peersOf config.nodeId) key new)
    (hfiles : FilesReplaced config db db' disk disk' key new gone babel) :
    PosixPath.ofStr config.birdBabelConfPath ∉ gone ∧
      PosixPath.ofStr config.birdBabelConfPath ∉ (newFiles config new).map FileSpec.path := by
  constructor
  · intro hmem
    obtain ⟨x, hx, -, hp⟩ := hfiles.removed _ hmem
    exact hbabel (peerPlace_of_mem (hwf.proper x hx) hp)
  · intro hmem
    obtain ⟨f, hf, hpath⟩ := List.mem_map.mp hmem
    exact hbabel (hpath ▸ peerPlace_newFiles hrows hf)

/-- A file of the replaced peer is unlinked or written again. -/
theorem oldFiles_cleared
    (hfiles : FilesReplaced config db db' disk disk' key new gone babel) {f : FileSpec}
    (hf : f ∈ oldFiles config db key) :
    f.path ∈ gone ∨ f.path ∈ (newFiles config new).map FileSpec.path := by
  obtain ⟨x, hx, hkey, hf⟩ := mem_oldFiles.mp hf
  exact hfiles.cleared x hx hkey f hf

theorem babelOf_path : (config.babelOf db).path = .ofStr config.birdBabelConfPath := rfl

/-- **One replacement keeps every place shown.** -/
theorem shows_replaced (hbabel : ¬config.PeerPlace (.ofStr config.birdBabelConfPath))
    (hwf : PeersWF (db.peersOf config.nodeId))
    (hrows : Replaced (db.peersOf config.nodeId) (db'.peersOf config.nodeId) key new)
    (hfiles : FilesReplaced config db db' disk disk' key new gone babel)
    (h : Disk.Shows (writesOf (config.hubFiles db)) disk p) :
    Disk.Shows (writesOf (config.hubFiles db')) disk' p := by
  have hother := fun f => otherFiles_untouched hwf hrows hfiles (f := f)
  have hold := fun f => oldFiles_cleared hfiles (f := f)
  obtain ⟨hbabelGone, hbabelNew⟩ := babel_untouched hbabel hwf hrows hfiles
  have hnodup := nodup_newFiles hrows
  rw [hfiles.written]
  obtain rfl | ⟨rfl, hsame⟩ := hfiles.refreshed
  · -- `babel.conf` is one of the files that are replaced
    apply h.replace (writesOf (oldFiles config db key ++ [config.babelOf db]))
      (writesOf (otherFiles config db key))
    · apply mem_writesOf_or
      intro f
      rw [mem_hubFiles_before key, List.mem_append, List.mem_singleton]
      tauto
    · apply mem_writesOf_or
      intro f
      rw [mem_hubFiles_after hrows, List.mem_append, List.mem_singleton]
      tauto
    · rw [map_fst_writesOf, List.map_append, List.nodup_append']
      refine ⟨hnodup, List.nodup_singleton _, ?_⟩
      rw [List.map_singleton, List.disjoint_singleton]
      exact hbabelNew
    · rw [map_fst_writesOf, map_fst_writesOf, List.forall_mem_map]
      intro f hf
      rw [List.map_append, List.mem_append]
      obtain hf | hf := List.mem_append.mp hf
      · exact (hold f hf).imp_right .inl
      · rw [List.mem_singleton.mp hf]
        exact .inr (.inr List.mem_cons_self)
    · rw [map_fst_writesOf, map_fst_writesOf, List.forall_mem_map]
      intro f hf
      obtain ⟨hplace, hgone, hnew⟩ := hother f hf
      rw [List.map_append, List.mem_append, not_or, List.map_singleton, List.mem_singleton,
        babelOf_path]
      exact ⟨hgone, hnew, fun hpath => hbabel (hpath ▸ hplace)⟩
  · -- `babel.conf` is one of those that stay
    rw [List.append_nil]
    apply h.replace (writesOf (oldFiles config db key))
      (writesOf (otherFiles config db key ++ [config.babelOf db]))
    · apply mem_writesOf_or
      intro f
      rw [mem_hubFiles_before key, List.mem_append, List.mem_singleton]
      tauto
    · apply mem_writesOf_or
      intro f
      rw [mem_hubFiles_after hrows, List.mem_append, List.mem_singleton, hsame]
      tauto
    · rw [map_fst_writesOf]
      exact hnodup
    · rw [map_fst_writesOf, map_fst_writesOf, List.forall_mem_map]
      exact hold
    · rw [map_fst_writesOf, map_fst_writesOf, List.forall_mem_map]
      intro f hf
      obtain hf | hf := List.mem_append.mp hf
      · exact (hother f hf).2
      · rw [List.mem_singleton.mp hf]
        exact ⟨hbabelGone, hbabelNew⟩

/-- **No other file is touched.** -/
theorem read_replaced (hwf : PeersWF (db.peersOf config.nodeId))
    (hrows : Replaced (db.peersOf config.nodeId) (db'.peersOf config.nodeId) key new)
    (hfiles : FilesReplaced config db db' disk disk' key new gone babel)
    (hplace : ¬config.PeerPlace p) (hbabel : p ≠ .ofStr config.birdBabelConfPath) :
    disk'.read p = disk.read p := by
  rw [hfiles.written, Disk.read_writeAll_of_notMem, Disk.read_unlinkAll, if_neg]
  · intro hgone
    obtain ⟨x, hx, -, hp⟩ := hfiles.removed _ hgone
    exact hplace (peerPlace_of_mem (hwf.proper x hx) hp)
  · rw [map_fst_writesOf, List.map_append, List.mem_append, not_or]
    constructor
    · intro hnew
      obtain ⟨f, hf, rfl⟩ := List.mem_map.mp hnew
      exact hplace (peerPlace_newFiles hrows hf)
    · obtain rfl | ⟨rfl, -⟩ := hfiles.refreshed
      · rw [List.map_singleton, List.mem_singleton]
        exact hbabel
      · exact List.not_mem_nil

end Replace

end Dn42Ctl
