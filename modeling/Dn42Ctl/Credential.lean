import Dn42Ctl.SelfRegistration
import Dn42Ctl.SelfNode
import Dn42Ctl.NoTrace
import Dn42Ctl.Lib.Digits

/-!
# Credential

What a call of `run_self_registration` has done to the hub's credential when it
returns: the row of the node, the file `self_node_id`, the stored hash and
`node.toml`.

* `needsNewToken_false_iff` — when nothing is to be done;
* `runSelfRegistration_ok` — what one call has done.
-/

namespace Dn42Ctl

open Text Txn

/-! ## the stored hash -/

def Db.tokenHash (nodeId : Str) (db : Db) : Option Str :=
  (db.getNode nodeId).bind ManagedNode.apiTokenHash

section TokenHash

variable {n : Str} {db db' : Db}

/-- The hash is in the node's row. -/
theorem tokenHash_congr (h : db'.managedNodes = db.managedNodes) :
    db'.tokenHash n = db.tokenHash n := by
  rw [Db.tokenHash, Db.tokenHash, Db.getNode, Db.getNode, h]

/-- An update of other columns than the key and the hash. -/
theorem tokenHash_updateWhere {p : ManagedNode → Bool} {f : ManagedNode → ManagedNode}
    (hrows : db'.managedNodes = Rows.updateWhere p f db.managedNodes)
    (hf : ∀ m, (f m).nodeId = m.nodeId ∧ (f m).apiTokenHash = m.apiTokenHash) :
    db'.tokenHash n = db.tokenHash n := by
  rw [Db.tokenHash, Db.tokenHash, Db.getNode, Db.getNode, hrows,
    Rows.find?_updateWhere fun m _ _ => by rw [(hf m).1]]
  cases db.managedNodes.find? fun m => m.nodeId == n with
  | none => rfl
  | some m =>
      rw [Option.map_some, Option.bind_some, Option.bind_some]
      split
      · exact (hf m).2
      · rfl

/-- A new row without a hash. -/
theorem tokenHash_append {node : ManagedNode}
    (hrows : db'.managedNodes = db.managedNodes ++ [node]) (hhash : node.apiTokenHash = none) :
    db'.tokenHash n = db.tokenHash n := by
  rw [Db.tokenHash, Db.tokenHash, Db.getNode, Db.getNode, hrows, List.find?_append]
  cases db.managedNodes.find? fun m => m.nodeId == n with
  | some m => rfl
  | none =>
      rw [Option.none_or, Option.bind_none, List.find?_singleton]
      split
      · exact hhash
      · rfl

end TokenHash

/-! ## programs on the rows of the nodes -/

section Preserves

variable {I : Db → Prop} {now n : Str}

/-- An invariant that only looks at the rows of the nodes. -/
def OfNodes (I : Db → Prop) : Prop :=
  ∀ db db' : Db, db'.managedNodes = db.managedNodes → I db → I db'

/-- An event leaves the nodes. -/
theorem OfNodes.emitSyncEvent (hI : OfNodes I) (m : Str) (kind : SyncKind) :
    Preserves I (emitSyncEvent now m kind) := by
  refine .bind (.execute _ fun w a w' hw hr => ?_) fun newId => ?_
  · simp only [Except.ok.injEq, Db.insertSyncEvent, Prod.mk.injEq] at hr
    rw [← hr.2]
    exact hI w _ rfl hw
  · split
    · exact .modify _ fun w hw => hI w _ rfl hw
    · exact .pure _

/-- Columns that keep a property keep it in `update_fields`. -/
theorem OfNodes.updateFields (hI : OfNodes I) {fields : NodeFields}
    (hfields : ∀ w, I w → I (w.updateNodes n (fields.apply now)).2)
    (events : List (Str × SyncKind)) :
    Preserves I (ManagedNodeStore.updateFields now n fields events) := by
  refine .bind (.guarded (.bind (.execute _ fun w k w' hw hr => ?_) fun k =>
    .bind (.abortIf _ _) fun _ => .bind (.forM fun c hc => ?_) fun _ =>
      .bind (.forM fun e _ => hI.emitSyncEvent _ _) fun _ => .commit)) fun _ => .readBack _ _ _ _
  · rw [Except.ok.injEq] at hr
    have hsame : w' = (w.updateNodes n (fields.apply now)).2 := (congrArg Prod.snd hr).symm
    rw [hsame]
    exact hfields w hw
  · cases hc

/-- And in `set_addresses`. -/
theorem OfNodes.setAddresses (hI : OfNodes I) (host v6 rid : Patch (Option Str))
    (hfields : ∀ (fields : NodeFields) w, I w → I (w.updateNodes n (fields.apply now)).2) :
    Preserves I (ManagedNodeStore.setAddresses now n host v6 rid) := by
  rw [ManagedNodeStore.setAddresses]
  split
  · exact .readBack _ _ _ _
  · exact hI.updateFields (hfields _) _

/-- And where the addresses are seeded. -/
theorem OfNodes.seedAddresses (hI : OfNodes I) (call : RegisterCall) (node : ManagedNode)
    (hfields : ∀ (fields : NodeFields) w, I w →
      I (w.updateNodes n (fields.apply (call.clock 1))).2) :
    Preserves I (seedAddresses call n node) := by
  unfold Dn42Ctl.seedAddresses
  split
  · exact .pure _
  · dsimp only
    split
    · exact .bind (hI.setAddresses _ _ _ hfields) fun _ => .pure _
    · exact .pure _

end Preserves

/-- The hash of a token. -/
theorem ofNodes_tokenHash (n : Str) (hash : Option Str) :
    OfNodes fun db => db.tokenHash n = hash :=
  fun _ _ hrows h => (tokenHash_congr hrows).trans h

/-- An update of the columns leaves the hash. -/
theorem tokenHash_apply (m n now : Str) (fields : NodeFields) (db : Db) :
    ((db.updateNodes m (fields.apply now)).2).tokenHash n = db.tokenHash n :=
  tokenHash_updateWhere rfl fun _ => ⟨rfl, rfl⟩

/-- So does a registration. -/
theorem preserves_upsertSelf (now m name n : Str) (hash : Option Str) :
    Preserves (fun db => db.tokenHash n = hash) (ManagedNodeStore.upsertSelf now m name) := by
  refine .bind (.guarded (.bind (.modify _ fun w hw => ?_) fun _ =>
    .bind (.modify _ fun w hw => ?_) fun _ => .bind (.execute _ fun w u w' hw hr => ?_) fun _ =>
      .commit)) fun _ => .readBack _ _ _ _
  · have hrows : (w.demoteSelf now m).managedNodes =
        Rows.updateWhere _ _ w.managedNodes := rfl
    exact (tokenHash_updateWhere hrows fun _ => ⟨rfl, rfl⟩).trans hw
  · rw [upsertNode_eq]
    exact hw
  · obtain hup | ⟨-, hin⟩ := upsertSelfRow_ok hr
    · have hrows : w'.managedNodes = Rows.updateWhere _ _ w.managedNodes :=
        congrArg Db.managedNodes hup
      exact (tokenHash_updateWhere hrows fun _ => ⟨rfl, rfl⟩).trans hw
    · rw [hin]
      exact (tokenHash_append rfl rfl).trans hw

/-- The registration up to the token leaves every node its hash, whether it
returns or raises. -/
theorem preserves_registerSelfNode (call : RegisterCall) (m n : Str) (hash : Option Str) :
    Preserves (fun db => db.tokenHash n = hash) (registerSelfNode call m) :=
  .bind (.queryOr _ _ _) fun _ => .bind (preserves_upsertSelf _ _ _ _ _) fun node =>
    .bind ((ofNodes_tokenHash n hash).seedAddresses call node fun _ _ hw =>
      (tokenHash_apply ..).trans hw) fun _ => .pure _

/-! ## the self node -/

/-- The flag is on the rows of `nodeId` and on no others. -/
def Db.SelfIs (nodeId : Str) (db : Db) : Prop :=
  ∀ m ∈ db.managedNodes, m.isSelf = true ↔ m.nodeId = nodeId

/-- Which node is the hub's own. -/
theorem ofNodes_selfIs (n : Str) : OfNodes (Db.SelfIs n) := by
  intro db db' hrows h
  unfold Db.SelfIs
  rw [hrows]
  exact h

/-- An update that keeps ids and flags. -/
theorem selfIs_updateNodes {n m : Str} {f : ManagedNode → ManagedNode} {db : Db}
    (hf : ∀ x, (f x).nodeId = x.nodeId ∧ (f x).isSelf = x.isSelf) (h : db.SelfIs n) :
    (db.updateNodes m f).2.SelfIs n := by
  intro x hx
  obtain ⟨y, hy, rfl⟩ := List.mem_map.mp hx
  split
  · rw [(hf y).1, (hf y).2]
    exact h y hy
  · exact h y hy

/-- A registered node is the hub's own. -/
theorem selfIs_register (now n name : Str) (db : Db) : (db.register now n name).SelfIs n := by
  intro m hm
  obtain hold | hnew := List.mem_append.mp hm
  · obtain ⟨m₀, -, rfl⟩ := List.mem_map.mp hold
    rw [ManagedNode.register_isSelf, ManagedNode.register_nodeId]
  · split at hnew
    · cases hnew
    · rw [List.mem_singleton.mp hnew]
      exact iff_of_true rfl rfl

/-- A new token leaves the flags. -/
theorem preserves_setTokenHash_selfIs (now m hash n : Str) :
    Preserves (Db.SelfIs n) (ManagedNodeStore.setTokenHash now m hash) := by
  refine .guarded (.bind (.execute _ fun w k w' hw hr => ?_) fun k => .bind (.abortIf _ _) fun _ =>
    .bind ((ofNodes_selfIs n).emitSyncEvent _ _) fun _ => .commit)
  rw [Except.ok.injEq] at hr
  have hsame : w' = (w.updateNodes m _).2 := (congrArg Prod.snd hr).symm
  rw [hsame]
  exact selfIs_updateNodes (fun _ => ⟨rfl, rfl⟩) hw

/-- What `upsert_self` has done when it returns. -/
theorem eval_upsertSelf_row {now n name : Str} {db db' : Db} {row : ManagedNode}
    (h : eval (ManagedNodeStore.upsertSelf now n name) db = (.ok row, db')) :
    params [.text n, .text name] = none ∧ db' = db.register now n name ∧
      db'.getNode n = some row := by
  obtain ⟨hbound, row', heval⟩ | ⟨b, -, heval⟩ := eval_upsertSelf_cases now n name db
  · have hdb : db' = db.register now n name := by
      rw [heval, Prod.mk.injEq] at h
      exact h.2.symm
    refine ⟨hbound, hdb, ?_⟩
    obtain ⟨u, mid, -, hread⟩ := Atomic.eval_bind (r := false)
      (.guarded (.bind (.modify _ _) fun _ => .bind (.modify _ _) fun _ =>
        .bind (.execute _ _) fun _ => .commit)) h
    obtain ⟨c', hrun, rfl⟩ := eval_eq_ok.mp hread
    obtain ⟨-, hrow, rfl⟩ := run_readBack_eq_ok.mp hrun
    exact hrow
  · rw [heval] at h
    cases h

/-- That a node has a row. -/
theorem ofNodes_getNode (n : Str) : OfNodes fun db => (db.getNode n).isSome := by
  intro db db' hrows h
  rw [Db.getNode] at h ⊢
  rw [hrows]
  exact h

theorem isSome_getNode_apply {m n now : Str} {fields : NodeFields} {db : Db}
    (h : (db.getNode n).isSome) : (((db.updateNodes m (fields.apply now)).2).getNode n).isSome := by
  have hfind : ((db.updateNodes m (fields.apply now)).2).getNode n = (db.getNode n).map _ :=
    Rows.find?_updateWhere fun _ _ _ => rfl
  rw [hfind, Option.isSome_map]
  exact h

/-- Seeding is atomic. -/
theorem atomic_seedAddresses (call : RegisterCall) (n : Str) (node : ManagedNode) :
    Atomic true (seedAddresses call n node) := by
  unfold seedAddresses
  split
  · exact .pure _
  · dsimp only
    split
    · exact (atomic_setAddresses ..).map _
    · exact .pure _

/-- The registration up to the token, on a connection without open work. -/
theorem registerSelfNode_ok {call : RegisterCall} {n : Str} {c c' : Conn Db}
    {x : ManagedNode × Bool × List Str} (hclean : c.Clean)
    (h : (registerSelfNode call n).run c = (.ok x, c')) :
    c'.Clean ∧ encodable n = true ∧ x.1.apiTokenHash = c.committed.tokenHash n ∧
      c'.committed.tokenHash n = c.committed.tokenHash n ∧ c'.committed.SelfIs n ∧
      (c'.committed.getNode n).isSome := by
  have hhash := preserves_registerSelfNode call n n (c.committed.tokenHash n) c rfl
    (by rw [hclean.1])
  rw [h] at hhash
  obtain ⟨existing, c1, h1, h2⟩ := Prog.run_bind_eq_ok.mp h
  have hview : (ManagedNodeStore.getSelf.run c).2.view = c.view := (ReadOnly.queryOr ..).view c
  rw [h1] at hview
  obtain ⟨hclean1, hsame1⟩ := Conn.clean_of_view hview hclean
  obtain ⟨node, c2, h3, h4⟩ := Prog.run_bind_eq_ok.mp h2
  have hclean2 := ((atomic_upsertSelf (call.clock 0) n _).ok _ _ _ hclean1 h3).1
  have heval := Atomic.eval_of_run (atomic_upsertSelf (call.clock 0) n _).steady hclean1 h3
  obtain ⟨hbound, hdb, hrow⟩ := eval_upsertSelf_row heval
  obtain ⟨seeded, c3, h5, h6⟩ := Prog.run_bind_eq_ok.mp h4
  rw [Prog.run_pure, Prod.mk.injEq, Except.ok.injEq] at h6
  obtain ⟨rfl, rfl⟩ := h6
  have hselfSeed : Preserves (Db.SelfIs n) (seedAddresses call n node) :=
    (ofNodes_selfIs n).seedAddresses call node fun _ _ hw =>
      selfIs_updateNodes (fun _ => ⟨rfl, rfl⟩) hw
  have hthereSeed : Preserves (fun db => (db.getNode n).isSome) (seedAddresses call n node) :=
    (ofNodes_getNode n).seedAddresses call node fun _ _ hw => isSome_getNode_apply hw
  have hselfRow : c2.committed.SelfIs n := by
    rw [hdb]
    exact selfIs_register _ _ _ _
  have hthereRow : (c2.committed.getNode n).isSome := by
    rw [hrow]
    rfl
  have hself := hselfSeed c2 hselfRow (by rw [hclean2.1]; exact hselfRow)
  have hthere := hthereSeed c2 hthereRow (by rw [hclean2.1]; exact hthereRow)
  rw [h5] at hself hthere
  -- the row that was read back has the hash of the row that was there before
  have hbefore := preserves_upsertSelf (call.clock 0) n (lit "self") n (c1.committed.tokenHash n)
    c1 rfl (by rw [hclean1.1])
  rw [h3] at hbefore
  refine ⟨((atomic_seedAddresses call n node).ok _ _ _ hclean2 h5).1, ?_, ?_, hhash.1, hself.1,
    hthere.1⟩
  · exact convert_text.mp (params_eq_none.mp hbound _ List.mem_cons_self)
  · have hnode : c2.committed.tokenHash n = node.apiTokenHash := by
      rw [Db.tokenHash, hrow]
      rfl
    exact hnode.symm.trans (hbefore.1.trans (congrArg (Db.tokenHash n) hsame1))

/-! ## the file `self_node_id` -/

section SelfNodeId

variable {host : SelfHost} {call : RegisterCall} {io : FileIo} {disk disk' : Disk}

/-- The file `self_node_id` holds the id. -/
def SelfHost.Names (host : SelfHost) (disk : Disk) (nodeId : Str) : Prop :=
  ∃ content text, disk.read host.selfNodeIdPath = some content ∧
    content.readText = some text ∧ strip text = nodeId

/-- The id that a call registers: the one in the file, or a new one.  There is
none where the file is not UTF-8 text. -/
def RegisterCall.registers (call : RegisterCall) (host : SelfHost) (disk : Disk) : Option Str :=
  match disk.read host.selfNodeIdPath with
  | none => some call.uuid
  | some content =>
      match content.readText with
      | none => none
      | some text =>
          if (strip text).isEmpty then some call.uuid
          else if encodable (strip text) then some (strip text)
          else none

theorem uuid_char (call : RegisterCall) {c : Nat} (hc : c ∈ call.uuid) :
    isSpace c = false ∧ isSurrogate c = false := by
  have hrange : 45 ≤ c ∧ c < 103 := by
    have hchars := call.uuid_chars c hc
    omega
  constructor
  · have hsmall : ∀ d < 103, 45 ≤ d → isSpace d = false := by decide
    exact hsmall c hrange.2 hrange.1
  · rw [isSurrogate, Bool.and_eq_false_iff, decide_eq_false_iff_not]
    left
    omega

/-- The id is read back from its file. -/
theorem strip_uuid (call : RegisterCall) : strip (call.uuid ++ lit "\n") = call.uuid :=
  strip_append_space (fun _ hc => (uuid_char call hc).1) (by decide)

/-- The id is ASCII. -/
theorem encodable_uuid (call : RegisterCall) : encodable call.uuid = true := by
  rw [encodable, List.all_eq_true]
  intro c hc
  rw [(uuid_char call hc).2]
  rfl

/-- A file that was written has its text. -/
theorem writeFile_ok {path : PosixPath} {s : Str} {u : Unit}
    (h : (writeFile io path s).run disk = (.ok u, disk')) : disk' = disk.write path (.text s) := by
  unfold writeFile at h
  split at h
  · cases h
    rfl
  · cases h
  · cases h

/-- A new id is written to its file. -/
theorem createSelfNodeId_ok {self : Str × Bool}
    (h : (createSelfNodeId host call io).run disk = (.ok self, disk')) :
    self = (call.uuid, true) ∧
      disk' = disk.write host.selfNodeIdPath (.text (call.uuid ++ lit "\n")) := by
  obtain ⟨u, mid, hwrite, hpure⟩ := Prog.run_bind_eq_ok.mp h
  rw [Prog.run_pure, Prod.mk.injEq, Except.ok.injEq] at hpure
  rw [← hpure.2]
  exact ⟨hpure.1.symm, writeFile_ok hwrite⟩

/-- After the call the file holds the id, and `node.toml` is what it was. -/
theorem readOrCreateSelfNodeId_ok {self : Str × Bool}
    (h : (readOrCreateSelfNodeId host call io).run disk = (.ok self, disk')) :
    self.1 ≠ [] ∧ host.Names disk' self.1 ∧
      disk'.read host.nodeTomlPath = disk.read host.nodeTomlPath ∧
      (encodable self.1 = true → call.registers host disk = some self.1) := by
  have hcreate : (createSelfNodeId host call io).run disk = (.ok self, disk') →
      self.1 = call.uuid ∧ host.Names disk' self.1 ∧
        disk'.read host.nodeTomlPath = disk.read host.nodeTomlPath := by
    intro hrun
    obtain ⟨rfl, rfl⟩ := createSelfNodeId_ok hrun
    have hread :
        (Content.text (call.uuid ++ lit "\n")).readText = some (call.uuid ++ lit "\n") := by
      rw [Content.readText, universalNewlines_eq_self.mpr]
      intro hcr
      obtain hcr | hcr := List.mem_append.mp hcr
      · exact absurd (uuid_char call hcr).1 (by decide)
      · simp [lit] at hcr
    exact ⟨rfl, ⟨_, _, Disk.read_write_self, hread, strip_uuid call⟩,
      Disk.read_write_of_ne host.paths_ne.symm⟩
  obtain ⟨file, mid, hfile, hrest⟩ := Prog.run_bind_eq_ok.mp h
  rw [Prog.run_read, Prod.mk.injEq, Except.ok.injEq] at hfile
  obtain ⟨rfl, rfl⟩ := hfile
  rw [RegisterCall.registers]
  cases hfile : disk.read host.selfNodeIdPath with
  | none =>
      rw [hfile] at hrest
      obtain ⟨hid, hnames, hsame⟩ := hcreate hrest
      exact ⟨by rw [hid]; exact call.uuid_ne, hnames, hsame, fun _ => by rw [hid]⟩
  | some content =>
      simp only [hfile] at hrest
      cases htext : content.readText with
      | none =>
          rw [htext] at hrest
          cases hrest
      | some text =>
          simp only [htext] at hrest
          split at hrest
          · next hempty =>
              obtain ⟨hid, hnames, hsame⟩ := hcreate hrest
              refine ⟨by rw [hid]; exact call.uuid_ne, hnames, hsame, fun _ => ?_⟩
              simp only [htext, hempty, if_true, hid]
          · next hempty =>
              cases hrest
              refine ⟨by simpa using hempty, ⟨_, _, hfile, htext, rfl⟩, rfl, fun henc => ?_⟩
              simp only [htext, hempty, henc, if_true, Bool.false_eq_true, if_false]

/-- Where the file holds an id, nothing is written. -/
theorem readOrCreateSelfNodeId_again {nodeId : Str} (h : host.Names disk nodeId)
    (hne : nodeId ≠ []) :
    (readOrCreateSelfNodeId host call io).run disk = (.ok (nodeId, false), disk) := by
  obtain ⟨content, text, hfile, htext, rfl⟩ := h
  have hempty : (strip text).isEmpty = false := by simpa using hne
  rw [readOrCreateSelfNodeId, Prog.run_bind_ok (Prog.run_read ..), hfile]
  simp only [htext, hempty, Bool.false_eq_true, if_false]
  rfl

end SelfNodeId

/-! ## `_needs_new_token` -/

section NeedsNewToken

variable {host : SelfHost} {disk disk' : Disk} {n : Str} {stored : Option Str}

/-- `node.toml` is read from its path. -/
theorem load_congr (h : disk'.read host.nodeTomlPath = disk.read host.nodeTomlPath) :
    host.load disk' = host.load disk := by
  rw [SelfHost.load, SelfHost.load, h]

theorem needsNewToken_congr (h : disk'.read host.nodeTomlPath = disk.read host.nodeTomlPath) :
    needsNewToken host disk' n stored = needsNewToken host disk n stored := by
  unfold needsNewToken
  rw [load_congr h]

/-- The file has the id, and its token the stored hash.  A hash that is not
ASCII cannot be compared. -/
def SelfHost.Holds (host : SelfHost) (config : NodeConfig) (n : Str) (stored : Option Str) :
    Prop :=
  config.nodeId = n ∧ ∃ hash, stored = some hash ∧
    (IsAscii hash → verifyToken host.sha256 hash config.token = true)

/-- A new token is needed when the credential on disk is not the hub's. -/
theorem needsNewToken_true_iff {config : NodeConfig} (hload : host.load disk = .ok config) :
    needsNewToken host disk n stored = .ok true ↔ ¬ host.Holds config n stored := by
  have htoken : config.token.isEmpty = false := by
    simpa using (loadNodeConfig_valid hload).token
  cases stored with
  | none => simp [needsNewToken, SelfHost.Holds, pure, Except.pure]
  | some hash =>
      simp only [needsNewToken, hload, SelfHost.Holds, htoken, Bool.false_eq_true, if_false]
      by_cases hid : config.nodeId = n
      · rw [if_neg (not_not_intro hid), verifyStored]
        by_cases hascii : IsAscii hash
        · rw [if_pos ⟨hascii, isAscii_hashToken host.sha256_ascii _⟩]
          cases hverify : verifyToken host.sha256 hash config.token with
          | true => simp [hid, hascii, hverify, Except.map, pure, Except.pure]
          | false => simp [hid, hascii, hverify, Except.map, pure, Except.pure]
        · rw [if_neg fun h => hascii h.1]
          simp [hid, hascii, Except.map, throw, throwThe, MonadExceptOf.throw]
      · simp [hid, pure, Except.pure]

/-- Nothing is to be done exactly where the three places agree. -/
theorem needsNewToken_false_iff :
    needsNewToken host disk n stored = .ok false ↔
      ∃ hash config, stored = some hash ∧ host.load disk = .ok config ∧ config.nodeId = n ∧
        IsAscii hash ∧ verifyToken host.sha256 hash config.token = true := by
  cases stored with
  | none => simp [needsNewToken, pure, Except.pure]
  | some hash =>
      cases hload : host.load disk with
      | error e => simp [needsNewToken, hload, pure, Except.pure]
      | ok config =>
          have htoken : config.token.isEmpty = false := by
            simpa using (loadNodeConfig_valid hload).token
          simp only [needsNewToken, hload, htoken, Bool.false_eq_true, if_false]
          by_cases hid : config.nodeId = n
          · rw [if_neg (not_not_intro hid), verifyStored]
            by_cases hascii : IsAscii hash
            · rw [if_pos ⟨hascii, isAscii_hashToken host.sha256_ascii _⟩]
              cases hverify : verifyToken host.sha256 hash config.token with
              | true => simp [hid, hascii, hverify, Except.map, pure, Except.pure]
              | false => simp [hverify, Except.map, pure, Except.pure]
            · rw [if_neg fun h => hascii h.1]
              simp [hascii, Except.map, throw, throwThe, MonadExceptOf.throw]
          · simp [hid, pure, Except.pure]

end NeedsNewToken

/-! ## one call -/

section Run

variable {host : SelfHost} {call : RegisterCall} {io : FileIo} {db : Db} {disk disk' : Disk}
  {c c' : Conn Db} {α : Type}

/-- What follows a program on the database. -/
theorem bind_onDb {β : Type} {m : DbTx α} {f : α → PeerTx β} {b : β}
    (h : (onDb m >>= f).run (c, disk) = (.ok b, c', disk')) :
    ∃ a c1, m.run c = (.ok a, c1) ∧ (f a).run (c1, disk) = (.ok b, c', disk') := by
  obtain ⟨a, s, hm, hf⟩ := Prog.run_bind_eq_ok.mp h
  have hrun : (onDb m).run (c, disk) = ((m.run c).1, (m.run c).2, disk) := rfl
  rw [hrun, Prod.mk.injEq] at hm
  refine ⟨a, (m.run c).2, Prod.ext hm.1 rfl, ?_⟩
  rw [hm.2]
  exact hf

/-- What follows a write of a file. -/
theorem bind_onDisk {β : Type} {m : DiskTx α} {f : α → PeerTx β} {b : β}
    (h : (onDisk m >>= f).run (c, disk) = (.ok b, c', disk')) :
    ∃ a d, m.run disk = (.ok a, d) ∧ (f a).run (c, d) = (.ok b, c', disk') := by
  obtain ⟨a, s, hm, hf⟩ := Prog.run_bind_eq_ok.mp h
  have hrun : (onDisk m).run (c, disk) =
      ((m.run disk).1.mapError Exc.raised, c, (m.run disk).2) := rfl
  rw [hrun, Prod.mk.injEq] at hm
  refine ⟨a, (m.run disk).2, ?_, ?_⟩
  · cases hr : (m.run disk).1 with
    | ok a' =>
        rw [hr] at hm
        exact Prod.ext (hr.trans (congrArg Except.ok (Except.ok.inj hm.1))) rfl
    | error e =>
        rw [hr] at hm
        cases hm.1
  · rw [hm.2]
    exact hf

/-- A write that returns leaves the connection. -/
theorem onDisk_returns {m : DiskTx α} {a : α}
    (h : (onDisk m).run (c, disk) = (.ok a, c', disk')) : m.run disk = (.ok a, disk') ∧ c' = c := by
  obtain ⟨a', d, hm, hpure⟩ := bind_onDisk (f := fun a => (pure a : PeerTx α))
    ((Prog.run_bind_ok h).trans rfl)
  cases hpure
  exact ⟨hm, rfl⟩

/-- The stored hash after `set_token_hash`. -/
theorem eval_setTokenHash_hash {now n hash : Str} {db db' : Db} {u : Unit}
    (h : eval (ManagedNodeStore.setTokenHash now n hash) db = (.ok u, db')) :
    db'.tokenHash n = some hash := by
  obtain ⟨c', hrun, rfl⟩ := eval_eq_ok.mp h
  obtain ⟨rowcount, w, -, hw, hrun⟩ := bind_execute (run_guarded_eq_ok.mp hrun)
  simp only [Except.ok.injEq, Db.updateNodes, Prod.mk.injEq] at hw
  obtain ⟨rfl, rfl⟩ := hw
  obtain ⟨hzero, hrun⟩ := bind_abortIf hrun
  rw [committed_of_commit (bind_emit hrun)]
  have hthere : (db.getNode n).isSome := isSome_of_countP (beq_eq_false_iff_ne.mp hzero)
  obtain ⟨m, hm⟩ := Option.isSome_iff_exists.mp hthere
  have hrow : ((db.updateNodes n fun m =>
      { m with apiTokenHash := some hash, updatedAt := now }).2).getNode n =
        (db.getNode n).map fun m => { m with apiTokenHash := some hash, updatedAt := now } :=
    Rows.find?_updateWhere_self fun _ _ _ => rfl
  rw [hm] at hrow
  exact congrArg (fun row => Option.bind row ManagedNode.apiTokenHash) hrow

/-- What a call has done when it returns. -/
structure RegistrationDone (host : SelfHost) (call : RegisterCall) (db db' : Db)
    (disk disk' : Disk) (r : SelfRegistrationResult) : Prop where
  ne : r.nodeId ≠ []
  registers : call.registers host disk = some r.nodeId
  names : host.Names disk' r.nodeId
  self : db'.SelfIs r.nodeId
  needs : needsNewToken host disk r.nodeId (db.tokenHash r.nodeId) = .ok r.rotatedToken
  kept : r.rotatedToken = false →
    disk'.read host.nodeTomlPath = disk.read host.nodeTomlPath ∧
      db'.tokenHash r.nodeId = db.tokenHash r.nodeId
  issued : r.rotatedToken = true →
    disk'.read host.nodeTomlPath =
        some (.text (host.toml.dumps (nodeConfigDocument (call.nodeConfig r.nodeId)))) ∧
      db'.tokenHash r.nodeId = some (hashToken host.sha256 call.token)

/-- The new token, its hash and the file. -/
theorem issueSelfToken_ok {n : Str} {u : Unit} (hclean : c.Clean) (hself : c.committed.SelfIs n)
    (h : (issueSelfToken host call io n).run (c, disk) = (.ok u, c', disk')) :
    c'.committed.SelfIs n ∧
      c'.committed.tokenHash n = some (hashToken host.sha256 call.token) ∧
      disk' = disk.write host.nodeTomlPath
        (.text (host.toml.dumps (nodeConfigDocument (call.nodeConfig n)))) := by
  obtain ⟨u1, c1, hdb, hfile⟩ := bind_onDb h
  obtain ⟨hwrite, hconn⟩ := onDisk_returns hfile
  have hkeeps := preserves_setTokenHash_selfIs (call.clock 2) n (hashToken host.sha256 call.token) n
    c hself (by rw [hclean.1]; exact hself)
  rw [hdb] at hkeeps
  have heval := Atomic.eval_of_run
    (atomic_setTokenHash (call.clock 2) n (hashToken host.sha256 call.token)).steady hclean hdb
  rw [hconn]
  exact ⟨hkeeps.1, eval_setTokenHash_hash heval, writeFile_ok hwrite⟩

/-- **A registration that returns** has gone through its steps. -/
theorem runSelfRegistration_ok {fault : Option Nat} {late : Bool} {r : SelfRegistrationResult}
    (h : (runSelfRegistration host call io).run (Conn.fresh db fault late, disk) =
      (.ok r, c', disk')) : RegistrationDone host call db c'.committed disk disk' r := by
  obtain ⟨self, d1, hfile, h1⟩ := bind_onDisk h
  obtain ⟨hne, hnames, hsame, hregisters⟩ := readOrCreateSelfNodeId_ok hfile
  obtain ⟨registered, c2, hdb, h2⟩ := bind_onDb h1
  obtain ⟨hclean, henc, hhash, hkeeps, hself, -⟩ :=
    registerSelfNode_ok (Conn.fresh_clean db fault late) hdb
  obtain ⟨d, d2, hread, h3⟩ := bind_onDisk h2
  rw [Prog.run_read, Prod.mk.injEq, Except.ok.injEq] at hread
  obtain ⟨rfl, rfl⟩ := hread
  obtain ⟨rotated, s4, hlift, h4⟩ := Prog.run_bind_eq_ok.mp h3
  rw [Prog.run_lift, Prod.mk.injEq, hhash] at hlift
  obtain ⟨hlift, rfl⟩ := hlift
  have hneeds : needsNewToken host disk self.1 (db.tokenHash self.1) = .ok rotated := by
    rw [← needsNewToken_congr hsame]
    have hraised : (needsNewToken host d1 self.1 (db.tokenHash self.1)).mapError Exc.raised =
        .ok rotated := hlift
    cases hcheck : needsNewToken host d1 self.1 (db.tokenHash self.1) with
    | error e =>
        rw [hcheck] at hraised
        cases hraised
    | ok b =>
        rw [hcheck] at hraised
        exact congrArg Except.ok (Except.ok.inj hraised)
  cases rotated with
  | false =>
      cases h4
      exact ⟨hne, hregisters henc, hnames, hself, hneeds, fun _ => ⟨hsame, hkeeps⟩,
        fun hrotated => (by cases hrotated)⟩
  | true =>
      obtain ⟨u, ⟨c5, d5⟩, hissue, h5⟩ := Prog.run_bind_eq_ok.mp h4
      obtain ⟨hself', hhash', hdisk⟩ := issueSelfToken_ok hclean hself hissue
      cases h5
      obtain ⟨content, text, hcontent, htext, hid⟩ := hnames
      rw [hdisk]
      exact ⟨hne, hregisters henc,
        ⟨content, text, (Disk.read_write_of_ne host.paths_ne).trans hcontent, htext, hid⟩, hself',
        hneeds, fun hrotated => (by cases hrotated), fun _ => ⟨Disk.read_write_self, hhash'⟩⟩

end Run

end Dn42Ctl
