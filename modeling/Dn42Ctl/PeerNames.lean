import Dn42Ctl.Credential
import Dn42Ctl.NoTrace
import Dn42Ctl.Reimport
import Dn42Ctl.Scan

/-!
# PeerNames

`sanitize_name` of `services/core.py`, and what is named after a stored name: the
interface `wg_<name>`, the file `ibgp_<name>.conf`, and the peer a scan finds
behind an interface.

* `sanitizeName_error_iff` — which texts give no name;
* `IbgpCreation` — a run of `create_ibgp_peer` that returns;
* `sanitized_names` — names are stable, and tell the peers of a node apart.
-/

namespace Dn42Ctl

open Text Txn

/-! ## the texts with a name -/

/-- `[a-z0-9]`. -/
def isNameWordChar (c : Nat) : Bool := isAlnum c && !(65 ≤ c && c ≤ 90)

theorem isNameChar_iff {c : Nat} : isNameChar c = true ↔ isAlnum c = true ∨ c = 95 := by
  rw [isNameChar, Bool.or_eq_true, beq_iff_eq]

theorem ne_underscore_of_isAlnum {c : Nat} (h : isAlnum c = true) : c ≠ 95 := by
  simp only [isAlnum, Bool.or_eq_true, Bool.and_eq_true, decide_eq_true_eq] at h
  omega

/-- What is left of a text before it is made lower-case. -/
def cleanedName (name : Str) : Str :=
  stripOf 95 (subRuns (· == 95) 95 false (subRuns (fun c => !isNameChar c) 95 false (strip name)))

theorem sanitizeName_eq (name : Str) :
    sanitizeName name =
      if (cleanedName name).isEmpty then throw (dn42CtlError [.text (lit "名称不能为空")])
      else pure (lower (cleanedName name)) := rfl

/-- The letters and digits are kept. -/
theorem mem_cleanedName {name : Str} {c : Nat} (h : c ∈ name) (hc : isAlnum c = true) :
    c ∈ cleanedName name := by
  have hname : isNameChar c = true := isNameChar_iff.mpr (.inl hc)
  have hunder : (c == 95) = false := beq_eq_false_iff_ne.mpr (ne_underscore_of_isAlnum hc)
  have hstrip : c ∈ strip name := mem_trim_of_not h (isSpace_of_nameChar hname)
  have hwords : c ∈ subRuns (fun c => !isNameChar c) 95 false (strip name) :=
    mem_subRuns_of_not hstrip (by rw [hname]; rfl)
  exact mem_trim_of_not (p := (· == 95)) (mem_subRuns_of_not hwords hunder) hunder

/-- What is kept is letters, digits and underscores, with a letter or a digit at
both ends. -/
theorem exists_isAlnum_of_cleanedName {name : Str} (h : cleanedName name ≠ []) :
    ∃ c ∈ name, isAlnum c = true := by
  obtain ⟨c, hhead⟩ := Option.isSome_iff_exists.mp (List.isSome_head?.mpr h)
  have hc : c ∈ cleanedName name := List.mem_of_head? hhead
  have hunder : c ≠ 95 := by simpa using (trimmed_trim (· == 95) _).head c hhead
  obtain rfl | ⟨hwords, -⟩ := mem_subRuns (mem_of_mem_trim (p := (· == 95)) hc)
  · exact absurd rfl hunder
  · obtain rfl | ⟨hstrip, hname⟩ := mem_subRuns hwords
    · exact absurd rfl hunder
    · have hkept : isNameChar c = true := by simpa using hname
      obtain halnum | h95 := isNameChar_iff.mp hkept
      · exact ⟨c, mem_of_mem_trim hstrip, halnum⟩
      · exact absurd h95 hunder

/-- A text has no name exactly when it has no ASCII letter and no digit. -/
theorem sanitizeName_error_iff {name : Str} :
    (∃ e, sanitizeName name = .error e) ↔ ∀ c ∈ name, isAlnum c = false := by
  have hempty : (∃ e, sanitizeName name = .error e) ↔ cleanedName name = [] := by
    rw [sanitizeName_eq]
    by_cases h : cleanedName name = []
    · simp [h, throw, throwThe, MonadExceptOf.throw]
    · simp [h, pure, Except.pure]
  rw [hempty]
  constructor
  · intro h c hc
    by_contra hnot
    have hmem := mem_cleanedName hc (by simpa using hnot)
    rw [h] at hmem
    cases hmem
  · intro h
    by_contra hne
    obtain ⟨c, hc, halnum⟩ := exists_isAlnum_of_cleanedName hne
    rw [h c hc] at halnum
    cases halnum

/-- A name is lower-case words joined by underscores. -/
theorem CleanName.joinedWords {s : Str} (h : CleanName s) : JoinedWords 95 isNameWordChar s := by
  refine joinedWords_of_trimmed h.nonempty h.squeezed h.trimmed fun a ha hunder => ?_
  obtain ⟨hname, hcapital⟩ := h.chars a ha
  obtain halnum | h95 := isNameChar_iff.mp hname
  · simp only [isNameWordChar, halnum, Bool.true_and, Bool.not_eq_true', Bool.and_eq_false_iff,
      decide_eq_false_iff_not]
    omega
  · exact absurd h95 hunder

/-! ## the names of a peer -/

def ibgpIfname (name : Str) : Str := lit "wg_" ++ name

def ibgpConf (name : Str) : Str := lit "ibgp_" ++ name ++ lit ".conf"

section Names

variable {n m : Str}

theorem ibgpIfname_inj : ibgpIfname n = ibgpIfname m ↔ n = m := List.append_right_inj _

theorem ibgpConf_inj : ibgpConf n = ibgpConf m ↔ n = m := by
  rw [ibgpConf, ibgpConf, List.append_left_inj, List.append_right_inj]

theorem isName_ibgpConf (h : CleanName n) : PosixPath.IsName (ibgpConf n) := by
  refine ⟨?_, ?_, ?_⟩
  · intro hslash
    rw [ibgpConf, List.append_assoc, List.mem_append, List.mem_append] at hslash
    obtain hpre | hname | hpost := hslash
    · exact absurd hpre (by decide)
    · have hchar := (h.chars 47 hname).1
      exact absurd hchar (by decide)
    · exact absurd hpost (by decide)
  · exact List.cons_ne_nil _ _
  · intro hdot
    have hhead : (105 : Nat) = 46 := (List.cons.inj hdot).1
    omega

/-- The files of two peers are told apart by the names. -/
theorem ibgpConf_path_inj {dir : PosixPath} (hn : CleanName n) (hm : CleanName m) :
    dir.join (ibgpConf n) = dir.join (ibgpConf m) ↔ n = m := by
  rw [PosixPath.join_inj (isName_ibgpConf hn) (isName_ibgpConf hm), ibgpConf_inj]

/-- A scan drops the prefix. -/
theorem drop_ibgpIfname : (ibgpIfname n).drop ifnamePrefixIbgp.length = n := List.drop_left

/-- What a scan reads of an interface is the peer with its name. -/
theorem readCandidate_ibgpIfname {files : ScanFiles} {config : AppConfig} {c : Candidate}
    (hclean : CleanName n) (h : (readCandidate files config (ibgpIfname n)).2 = .ok c) :
    ∃ peerIp tunnel, c = .ibgp n peerIp tunnel := by
  have hkind : startsWith (ibgpIfname n) ifnamePrefixBgp = false := rfl
  have hname : sanitizeName ((ibgpIfname n).drop ifnamePrefixIbgp.length) = .ok n := by
    rw [drop_ibgpIfname]
    exact sanitizeName_of_clean hclean
  unfold readCandidate at h
  cases hnet : readNetworkd files config (ibgpIfname n) with
  | mk warnings reading =>
      rw [hnet] at h
      cases reading with
      | error reason => cases h
      | ok tunnel =>
          simp only [hkind, Bool.false_eq_true, if_false, readIbgp, hname] at h
          split at h
          · cases h
            exact ⟨_, _, rfl⟩
          · split at h
            · cases h
              exact ⟨_, _, rfl⟩
            · cases h
              exact ⟨_, _, rfl⟩

end Names

/-! ## runs of `create_ibgp_peer` -/

/-- A run of `create_ibgp_peer` that returns, whatever fails on the way. -/
structure IbgpCreation where
  env : PeerEnv
  io : FileIo
  config : AppConfig
  renderFiles : Bool
  args : IbgpPeerArgs
  db : Db
  disk : Disk
  fault : Option Nat
  late : Bool
  generated : Generated
  conn : Conn Db
  disk' : Disk
  returns : (createIbgpPeerFiles env io config renderFiles args).run
    (Conn.fresh db fault late, disk) = (.ok generated, conn, disk')

/-- The run has stored the row. -/
def IbgpCreation.Stores (c : IbgpCreation) (row : IbgpRow) : Prop :=
  c.conn.committed.ibgpPeers = c.db.ibgpPeers ++ [row]

theorem IbgpCreation.Stores.unique {c : IbgpCreation} {row row' : IbgpRow} (h : c.Stores row)
    (h' : c.Stores row') : row = row' := by
  have hrows : [row] = [row'] := List.append_cancel_left (h.symm.trans h')
  exact (List.cons.inj hrows).1

theorem keepsDb_renderIbgpPeer_io (io : FileIo) (config : AppConfig) (n name peerIp : Str)
    (hasWg : Bool) (tunnel : NetBackendArgs) :
    KeepsDb (renderIbgpPeer io config n name peerIp hasWg tunnel) := by
  refine .bind (keepsDb_onDisk _) fun bird => ?_
  split
  · exact .bind (keepsDb_onDisk _) fun _ =>
      .bind (keepsDb_onDb (readOnly_wrapDatabaseError (.queryOr ..))) fun _ =>
      .bind (keepsDb_onDisk _) fun _ => .pure _
  · exact .pure _

theorem steady_storeIbgpPeer (env : PeerEnv) (cfg : Str) (a : IbgpPeerArgs) :
    Steady (storeIbgpPeer env cfg a) := by
  refine .bind (atomic_ensureNode _).steady fun _ =>
    .bind (readOnly_check _).steady fun peerName => ?_
  dsimp only
  split
  · exact .fail _
  · exact .bind (readOnly_tunnelFor ..).steady fun _ =>
      .bind (atomic_insertIbgpPeer ..).steady fun _ => .pure _

/-- The BIRD file is the first of the files of a peer. -/
theorem renderIbgpPeer_conf {io : FileIo} {config : AppConfig} {n name peerIp : Str}
    {hasWg : Bool} {tunnel : NetBackendArgs} {s s' : Conn Db × Disk} {files : List FileSpec}
    (h : (renderIbgpPeer io config n name peerIp hasWg tunnel).run s = (.ok files, s')) :
    ∃ file ∈ files, file.path = (PosixPath.ofStr config.birdPeersDir).join (ibgpConf name) := by
  obtain ⟨bird, s1, hbird, h1⟩ := Prog.run_bind_eq_ok.mp h
  have hconf : ∃ file, bird = [file] ∧
      file.path = (PosixPath.ofStr config.birdPeersDir).join (ibgpConf name) := by
    obtain ⟨hwrite, -⟩ := onDisk_returns hbird
    obtain ⟨text, d, -, hwrite⟩ := Prog.run_bind_eq_ok.mp hwrite
    obtain ⟨u, d', -, hpure⟩ := Prog.run_bind_eq_ok.mp hwrite
    cases hpure
    exact ⟨_, rfl, rfl⟩
  obtain ⟨file, rfl, hpath⟩ := hconf
  split at h1
  · obtain ⟨more, s2, -, h2⟩ := Prog.run_bind_eq_ok.mp h1
    obtain ⟨rows, s3, -, h3⟩ := Prog.run_bind_eq_ok.mp h2
    obtain ⟨babel, s4, -, h4⟩ := Prog.run_bind_eq_ok.mp h3
    cases h4
    exact ⟨file, by simp, hpath⟩
  · cases h1
    exact ⟨file, by simp, hpath⟩

/-- The row of a run, its interface and its file are named after the same name. -/
theorem IbgpCreation.names (c : IbgpCreation) :
    ∃ row, c.Stores row ∧ row.nodeId = orDefault c.args.nodeId c.config.nodeId ∧
      sanitizeName c.args.name = .ok row.name ∧ row.ifname = ibgpIfname row.name ∧
      c.generated.1.ifname = row.ifname ∧
      (c.renderFiles = true → ∃ file ∈ c.generated.2,
        file.path = (PosixPath.ofStr c.config.birdPeersDir).join (ibgpConf row.name)) := by
  obtain ⟨stored, c1, hrun, h1⟩ := bind_onDb c.returns
  have heval := Atomic.eval_of_run (steady_storeIbgpPeer _ _ _)
    (Conn.fresh_clean c.db c.fault c.late) hrun
  obtain ⟨peerName, t, hstorable, hstored, hdb⟩ := eval_storeIbgpPeer_iff.mp heval
  have hrows : c1.committed.ibgpPeers =
      c.db.ibgpPeers ++ [newIbgpRow c.env c.config.nodeId c.args peerName t] := by
    rw [hdb]
    rfl
  have hgenerated : c.conn.committed = c1.committed ∧ c.generated.1 = stored.1 ∧
      (c.renderFiles = true → ∃ file ∈ c.generated.2,
        file.path = (PosixPath.ofStr c.config.birdPeersDir).join (ibgpConf peerName)) := by
    rw [hstored] at h1
    split at h1
    · obtain ⟨files, s2, hrender, h2⟩ := Prog.run_bind_eq_ok.mp h1
      have hkeeps := keepsDb_renderIbgpPeer_io c.io c.config
        (orDefault c.args.nodeId c.config.nodeId) peerName c.args.peerIp c.args.hasWg
        (newIbgpTunnel c.args peerName t) (c1, c.disk)
      dsimp only at hrender
      rw [hrender] at hkeeps
      rw [Prog.run_pure, Prod.mk.injEq, Except.ok.injEq] at h2
      obtain ⟨hgen, rfl⟩ := h2
      rw [← hgen, hstored]
      exact ⟨hkeeps, rfl, fun _ => renderIbgpPeer_conf hrender⟩
    · next hnone =>
        rw [Prog.run_pure, Prod.mk.injEq, Except.ok.injEq] at h1
        have hgen := h1.1
        have hconn : c1 = c.conn := congrArg Prod.fst h1.2
        rw [← hgen, ← hconn, hstored]
        exact ⟨rfl, rfl, fun h => absurd h hnone⟩
  obtain ⟨hcommitted, hresult, hfiles⟩ := hgenerated
  refine ⟨newIbgpRow c.env c.config.nodeId c.args peerName t, ?_, rfl, hstorable.name, rfl, ?_,
    hfiles⟩
  · rw [IbgpCreation.Stores, hcommitted]
    exact hrows
  · rw [hresult, hstored]
    rfl

/-! ## the names of a node's peers -/

/-- `sanitize_name` raises exactly on the texts without an ASCII letter or digit,
returns words joined by underscores, and changes nothing the second time.  The
peers that `create_ibgp_peer` stores have one interface, or one file, only if
they have one name; and a scan of the interface finds the name. -/
theorem sanitized_names :
    (∀ s, (∃ e, sanitizeName s = .error e) ↔ ∀ c ∈ s, isAlnum c = false) ∧
    (∀ s t, sanitizeName s = .ok t →
      JoinedWords 95 isNameWordChar t ∧ sanitizeName t = .ok t) ∧
    (∀ c : IbgpCreation, ∃ row, c.Stores row ∧
      row.nodeId = orDefault c.args.nodeId c.config.nodeId ∧
      sanitizeName c.args.name = .ok row.name ∧
      row.ifname = ibgpIfname row.name ∧ c.generated.1.ifname = row.ifname ∧
      (c.renderFiles = true → ∃ file ∈ c.generated.2,
        file.path = (PosixPath.ofStr c.config.birdPeersDir).join (ibgpConf row.name))) ∧
    (∀ c c' : IbgpCreation, ∀ row row', c.Stores row → c'.Stores row' →
      (row.ifname = row'.ifname ↔ row.name = row'.name) ∧
      ∀ dir : PosixPath,
        dir.join (ibgpConf row.name) = dir.join (ibgpConf row'.name) ↔ row.name = row'.name) ∧
    (∀ c : IbgpCreation, ∀ row, c.Stores row →
      sanitizeName (row.ifname.drop ifnamePrefixIbgp.length) = .ok row.name ∧
      ∀ files config candidate, (readCandidate files config row.ifname).2 = .ok candidate →
        ∃ peerIp tunnel, candidate = .ibgp row.name peerIp tunnel) := by
  have hstored : ∀ (c : IbgpCreation) row, c.Stores row →
      CleanName row.name ∧ row.ifname = ibgpIfname row.name := by
    intro c row hrow
    obtain ⟨row', hrow', -, hname, hifname, -⟩ := c.names
    rw [hrow.unique hrow']
    exact ⟨cleanName_of_sanitizeName hname, hifname⟩
  refine ⟨fun s => sanitizeName_error_iff, fun s t h => ⟨?_, sanitizeName_fixed h⟩,
    IbgpCreation.names, ?_, ?_⟩
  · exact (cleanName_of_sanitizeName h).joinedWords
  · intro c c' row row' hrow hrow'
    obtain ⟨hclean, hifname⟩ := hstored c row hrow
    obtain ⟨hclean', hifname'⟩ := hstored c' row' hrow'
    rw [hifname, hifname']
    exact ⟨ibgpIfname_inj, fun dir => ibgpConf_path_inj hclean hclean'⟩
  · intro c row hrow
    obtain ⟨hclean, hifname⟩ := hstored c row hrow
    rw [hifname, drop_ibgpIfname]
    exact ⟨sanitizeName_of_clean hclean, fun files config candidate =>
      readCandidate_ibgpIfname hclean⟩

/-! ### a name with spaces and dashes -/

def gateArgs : IbgpPeerArgs where
  name := lit " Tokyo--Gate 1 "
  peerIp := lit "fd00::b"
  hasWg := false
  babelRxcost := 96

def gateRun : Except (Exc PyError) Generated × Conn Db × Disk :=
  (createIbgpPeerFiles (sampleEnv (lit "t1")) .calm sampleConfig false gateArgs).run
    (Conn.fresh Db.empty none false, [])

def gateCreation : IbgpCreation where
  env := sampleEnv (lit "t1")
  io := .calm
  config := sampleConfig
  renderFiles := false
  args := gateArgs
  db := Db.empty
  disk := []
  fault := none
  late := false
  generated := (⟨lit "wg_tokyo_gate_1", 0, [], []⟩, [])
  conn := gateRun.2.1
  disk' := gateRun.2.2
  returns := rfl

/-- The peer is stored under the name that is in its interface. -/
theorem sanitized_names_gate :
    ∃ row, gateCreation.Stores row ∧ sanitizeName (lit " Tokyo--Gate 1 ") = .ok row.name ∧
      ibgpIfname row.name = lit "wg_tokyo_gate_1" := by
  obtain ⟨row, hrow, -, hname, hifname, hresult, -⟩ := sanitized_names.2.2.1 gateCreation
  exact ⟨row, hrow, hname, hifname.symm.trans hresult.symm⟩

end Dn42Ctl
