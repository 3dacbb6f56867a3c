import Dn42Ctl.Hub

/-!
# SelfNode

The hub's own node among the managed ones.  `upsert_self` moves the flag by a
demotion and an upsert in one transaction; a partial unique index admits one
row with it.

* `Registered` — the database with the node of the last registration;
* `Registered.Inv` — the flag is on that node's row and on no other;
* `self_node_kept` — so in every sequence of calls.
-/

namespace Dn42Ctl

open Text Txn

/-! ## registering -/

/-- What `upsert_self(node_id)` makes of a row. -/
def ManagedNode.register (now nodeId : Str) (m : ManagedNode) : ManagedNode :=
  if m.nodeId = nodeId then { m with isSelf := true, enabled := true, updatedAt := now }
  else if m.isSelf then { m with isSelf := false, updatedAt := now }
  else m

/-- What it makes of the database. -/
def Db.register (now nodeId name : Str) (db : Db) : Db :=
  { db with
    nodes := (db.upsertNode nodeId).nodes
    managedNodes := db.managedNodes.map (·.register now nodeId) ++
      if (db.getNode nodeId).isSome then []
      else [ManagedNodeStore.newNode now nodeId name true] }

@[simp] theorem ManagedNode.register_nodeId (now n : Str) (m : ManagedNode) :
    (m.register now n).nodeId = m.nodeId := by
  unfold ManagedNode.register
  split
  · rfl
  · split <;> rfl

theorem ManagedNode.register_isSelf (now n : Str) (m : ManagedNode) :
    (m.register now n).isSelf = true ↔ m.nodeId = n := by
  unfold ManagedNode.register
  split
  · rename_i h
    simp [h]
  · rename_i h
    split
    · simp [h]
    · rename_i hself
      simp [h, hself]

/-- The demotion and the update, one after the other. -/
theorem register_eq (now n : Str) (db : Db) :
    Rows.updateWhere (fun m => m.nodeId == n)
        (fun m => { m with isSelf := true, enabled := true, updatedAt := now })
        (db.demoteSelf now n).managedNodes =
      db.managedNodes.map (·.register now n) := by
  rw [Db.demoteSelf, Rows.updateWhere, Rows.updateWhere, List.map_map]
  apply List.map_congr_left
  intro m _
  simp only [Function.comp_apply, ManagedNode.register]
  by_cases hn : m.nodeId = n
  · simp [hn]
  · by_cases hself : m.isSelf = true
    · simp [hn, hself]
    · simp [hn, hself]

/-- Without a row of the node, the demotion is all that happens to the rows. -/
theorem demote_eq {now n : Str} {db : Db} (h : db.getNode n = none) :
    (db.demoteSelf now n).managedNodes = db.managedNodes.map (·.register now n) := by
  rw [Db.demoteSelf, Rows.updateWhere]
  apply List.map_congr_left
  intro m hm
  have hn : m.nodeId ≠ n := by
    have hnone := List.find?_eq_none.mp h m hm
    simpa using hnone
  simp [ManagedNode.register, hn]

theorem upsertNode_demoteSelf (now n : Str) (db : Db) :
    (db.demoteSelf now n).upsertNode n =
      { db with
        nodes := (db.upsertNode n).nodes
        managedNodes := (db.demoteSelf now n).managedNodes } := by
  rw [Db.upsertNode, Db.upsertNode]
  split
  · rename_i h
    rw [if_pos (by exact h)]
    rfl
  · rename_i h
    rw [if_neg (by exact h)]
    rfl

/-- After the demotion only the node itself can have the flag. -/
theorem isSelf_demoteSelf {now n : Str} {db : Db} :
    ∀ m ∈ (db.demoteSelf now n).managedNodes, m.isSelf = true → m.nodeId = n := by
  intro m hm hself
  obtain ⟨m₀, -, rfl⟩ := List.mem_map.mp hm
  by_cases hn : m₀.nodeId = n
  · simp [hn]
  · by_cases hself₀ : m₀.isSelf = true
    · simp [hn, hself₀] at hself
    · simp [hself₀] at hself

/-- **The upsert never meets the unique index**: the rows that could are
demoted first. -/
theorem upsertSelfRow_demoted (now n name : Str) (db : Db) :
    ((db.demoteSelf now n).upsertNode n).upsertSelfRow
        (ManagedNodeStore.newNode now n name true) = .ok ((), db.register now n name) := by
  have hids : ∀ m, m ∈ (db.demoteSelf now n).managedNodes →
      ∃ m₀ ∈ db.managedNodes, m₀.nodeId = m.nodeId := by
    intro m hm
    obtain ⟨m₀, hm₀, rfl⟩ := List.mem_map.mp hm
    exact ⟨m₀, hm₀, by split <;> rfl⟩
  rw [upsertNode_demoteSelf, Db.upsertSelfRow]
  cases hnode : db.getNode n with
  | some m =>
      have hm : m ∈ db.managedNodes := List.mem_of_find?_eq_some hnode
      have hid : m.nodeId = n := by simpa using List.find?_some hnode
      have hthere : ((db.demoteSelf now n).managedNodes.any fun r => r.nodeId == n) = true := by
        rw [List.any_eq_true]
        exact ⟨_, List.mem_map_of_mem hm, by simp [hid]⟩
      have hother : ((db.demoteSelf now n).managedNodes.any
          fun r => r.isSelf && r.nodeId != n) = false := by
        rw [List.any_eq_false]
        intro r hr hbad
        rw [Bool.and_eq_true, bne_iff_ne] at hbad
        exact hbad.2 (isSelf_demoteSelf r hr hbad.1)
      rw [if_pos (by exact hthere), if_neg (by rw [Bool.not_eq_true]; exact hother)]
      simp only [Db.updateNodes, Db.register, hnode, Option.isSome_some, if_true, List.append_nil]
      rw [← register_eq]
      rfl
  | none =>
      have hnone : ∀ m ∈ (db.demoteSelf now n).managedNodes, m.nodeId ≠ n := by
        intro m hm hid
        obtain ⟨m₀, hm₀, hsame⟩ := hids m hm
        have hne := List.find?_eq_none.mp hnode m₀ hm₀
        simp [hsame, hid] at hne
      have habsent : ((db.demoteSelf now n).managedNodes.any fun r => r.nodeId == n) = false := by
        rw [List.any_eq_false]
        intro r hr hbad
        exact hnone r hr (beq_iff_eq.mp hbad)
      have hfree : ((db.demoteSelf now n).managedNodes.any
          fun r => r.nodeId == n || (r.isSelf && true)) = false := by
        rw [List.any_eq_false]
        intro r hr hbad
        rw [Bool.or_eq_true, Bool.and_true, beq_iff_eq] at hbad
        obtain hid | hself := hbad
        · exact hnone r hr hid
        · exact hnone r hr (isSelf_demoteSelf r hr hself)
      rw [if_neg (by rw [Bool.not_eq_true]; exact habsent), Db.insertNode,
        if_neg (by rw [Bool.not_eq_true]; exact hfree), if_neg (by
          rw [Bool.not_eq_true, Bool.not_eq_false']
          exact contains_upsertNode)]
      simp only [Db.register, hnode, Option.isSome_none, Bool.false_eq_true, if_false]
      rw [← demote_eq hnode]

theorem isSome_getNode_register (now n name : Str) (db : Db) :
    ((db.register now n name).getNode n).isSome :=
  isSome_getNode_upsertSelfRow (upsertSelfRow_demoted now n name db)

/-- `upsert_self` returns, unless a text has no UTF-8 encoding; then nothing is
committed. -/
theorem eval_upsertSelf_cases (now n name : Str) (db : Db) :
    (params [.text n, .text name] = none ∧ ∃ row,
        eval (ManagedNodeStore.upsertSelf now n name) db = (.ok row, db.register now n name)) ∨
      ∃ b, params [.text n, .text name] = some b ∧
        eval (ManagedNodeStore.upsertSelf now n name) db = (.error (.unbound b), db) := by
  cases hn : params [.text n] with
  | some b =>
      have hboth : params [.text n, .text name] = some b := by
        simp only [params, List.findSome?_cons, List.findSome?_nil] at hn ⊢
        cases hconv : (Param.text n).convert with
        | none => simp [hconv] at hn
        | some e => simpa [hconv] using hn
      right
      refine ⟨b, hboth, ?_⟩
      simp only [eval, ManagedNodeStore.upsertSelf, Prog.run_bind, run_guarded, hn]
      rfl
  | none =>
      cases hboth : params [.text n, .text name] with
      | some b =>
          right
          refine ⟨b, rfl, ?_⟩
          simp only [eval, ManagedNodeStore.upsertSelf, Prog.run_bind, run_guarded, hn, hboth]
          rfl
      | none =>
          left
          obtain ⟨row, hrow⟩ := Option.isSome_iff_exists.mp (isSome_getNode_register now n name db)
          refine ⟨rfl, row, ?_⟩
          rw [eval_eq_ok]
          refine ⟨⟨db.register now n name, db.register now n name, false, none, false⟩, ?_, rfl⟩
          refine Prog.run_bind_eq_ok.mpr
            ⟨(), ⟨db.register now n name, db.register now n name, false, none, false⟩, ?_, ?_⟩
          · rw [run_guarded]
            simp only [Prog.run_bind, hn, hboth, run_modify_none, run_execute_none,
              upsertSelfRow_demoted, run_commit_none]
          · exact run_readBack_eq_ok.mpr ⟨hn, hrow, rfl⟩

/-! ## sequences of calls -/

/-- A call, with the clock and the statement at which the driver fails, if it
does. -/
structure StoreAction where
  call : Call
  now : Str
  fault : Option Nat := none

/-- The database, and the node of the last `upsert_self` that returned, unless
its row was deleted by force since. -/
structure Registered where
  db : Db
  self : Option Str

def Registered.next (self : Option Str) : Call → Option Str
  | .upsertSelf n _ => some n
  | .deleteNode n force => if force && self == some n then none else self
  | _ => self

/-- Each call has a connection of its own. -/
def storeStep (s : Registered) (a : StoreAction) : Option Registered :=
  match (a.call.run a.now).run (Conn.fresh s.db a.fault false) with
  | (.ok _, c) => some ⟨c.committed, Registered.next s.self a.call⟩
  | (.error _, c) => some ⟨c.committed, s.self⟩

/-- What the schema of a migrated database guarantees of `managed_nodes`: the
primary key, and the index of migration 13. -/
structure Db.NodeKeys (db : Db) : Prop where
  ids : (db.managedNodes.map ManagedNode.nodeId).Nodup
  single : db.managedNodes.countP ManagedNode.isSelf ≤ 1

/-- The node with the flag. -/
def Db.selfId (db : Db) : Option Str :=
  (db.managedNodes.find? ManagedNode.isSelf).map ManagedNode.nodeId

structure Registered.Inv (s : Registered) : Prop where
  ids : (s.db.managedNodes.map ManagedNode.nodeId).Nodup
  flag : ∀ m ∈ s.db.managedNodes, m.isSelf = true ↔ s.self = some m.nodeId
  row : ∀ n, s.self = some n → ∃ m ∈ s.db.managedNodes, m.nodeId = n

/-! ## the invariant on the rows -/

/-- Rows with distinct ids and the flag on one id have the flag at most once. -/
theorem filter_isSelf {rows : List ManagedNode} {self : Option Str}
    (hids : (rows.map ManagedNode.nodeId).Nodup)
    (hflag : ∀ m ∈ rows, m.isSelf = true ↔ self = some m.nodeId) :
    rows.filter ManagedNode.isSelf = [] ∨
      ∃ m ∈ rows, self = some m.nodeId ∧ rows.filter ManagedNode.isSelf = [m] := by
  have hnodup : ((rows.filter ManagedNode.isSelf).map ManagedNode.nodeId).Nodup :=
    hids.sublist (List.filter_sublist.map _)
  have hself : ∀ m ∈ rows.filter ManagedNode.isSelf, m ∈ rows ∧ self = some m.nodeId := by
    intro m hm
    obtain ⟨hmem, hisself⟩ := List.mem_filter.mp hm
    exact ⟨hmem, (hflag m hmem).mp hisself⟩
  cases hrows : rows.filter ManagedNode.isSelf with
  | nil => exact .inl rfl
  | cons m rest =>
      cases rest with
      | nil =>
          obtain ⟨hmem, hid⟩ := hself m (by simp [hrows])
          exact .inr ⟨m, hmem, hid, rfl⟩
      | cons m' rest =>
          exfalso
          rw [hrows] at hnodup
          have hsame : some m.nodeId = some m'.nodeId := by
            rw [← (hself m (by simp [hrows])).2, ← (hself m' (by simp [hrows])).2]
          simp [Option.some.inj hsame] at hnodup

theorem Registered.Inv.single {s : Registered} (h : s.Inv) :
    s.db.managedNodes.countP ManagedNode.isSelf ≤ 1 := by
  rw [List.countP_eq_length_filter]
  obtain hnone | ⟨m, -, -, hone⟩ := filter_isSelf h.ids h.flag
  · simp [hnone]
  · simp [hone]

/-- `get_self` finds the node of the last registration. -/
theorem Registered.Inv.getSelf {s : Registered} (h : s.Inv) :
    ∃ row, eval ManagedNodeStore.getSelf s.db = (.ok row, s.db) ∧
      row.map ManagedNode.nodeId = s.self ∧ ∀ m ∈ row, m ∈ s.db.managedNodes := by
  refine ⟨_, rfl, ?_⟩
  obtain hnone | ⟨m, hm, hid, hone⟩ := filter_isSelf h.ids h.flag
  · have hself : s.self = none := by
      cases hself : s.self with
      | none => rfl
      | some n =>
          obtain ⟨m, hm, hid⟩ := h.row n hself
          have hflag := (h.flag m hm).mpr (by rw [hself, hid])
          have hmem := List.mem_filter.mpr ⟨hm, hflag⟩
          rw [hnone] at hmem
          cases hmem
    simp [Conn.fresh, hnone, hself]
  · simp [Conn.fresh, hone, hid, hm]

theorem Registered.inv_of_keys {db : Db} (h : db.NodeKeys) : Registered.Inv ⟨db, db.selfId⟩ where
  ids := h.ids
  flag := by
    intro m hm
    cases hfind : db.managedNodes.find? ManagedNode.isSelf with
    | none =>
        have hno := List.find?_eq_none.mp hfind m hm
        simp [Db.selfId, hfind, hno]
    | some m₀ =>
        have hm₀ := List.mem_of_find?_eq_some hfind
        have hself₀ := List.find?_some hfind
        simp only [Db.selfId, hfind, Option.map_some, Option.some.injEq]
        constructor
        · intro hself
          have hlen := h.single
          rw [List.countP_eq_length_filter] at hlen
          have hin := List.mem_filter.mpr ⟨hm, hself⟩
          have hin₀ := List.mem_filter.mpr ⟨hm₀, hself₀⟩
          cases hrows : db.managedNodes.filter ManagedNode.isSelf with
          | nil =>
              rw [hrows] at hin
              cases hin
          | cons x rest =>
              rw [hrows, List.length_cons] at hlen
              have hrest : rest = [] := List.eq_nil_of_length_eq_zero (by omega)
              rw [hrows, hrest, List.mem_singleton] at hin hin₀
              rw [hin, hin₀]
        · intro hid
          have hsame := List.inj_on_of_nodup_map h.ids hm₀ hm hid
          rw [← hsame]
          exact hself₀
  row := by
    intro n hn
    obtain ⟨m, hm, rfl⟩ := Option.map_eq_some_iff.mp hn
    exact ⟨m, List.mem_of_find?_eq_some hm, rfl⟩

/-! ## what the calls do to the rows -/

theorem Registered.Inv.of_rows {db db' : Db} {self : Option Str} (h : Registered.Inv ⟨db, self⟩)
    (hrows : db'.managedNodes = db.managedNodes) : Registered.Inv ⟨db', self⟩ where
  ids := by
    rw [hrows]
    exact h.ids
  flag := by
    rw [hrows]
    exact h.flag
  row := by
    rw [hrows]
    exact h.row

/-- An update that leaves key and flag alone. -/
theorem Registered.Inv.updateNodes {db db' : Db} {self : Option Str} {n : Str}
    {f : ManagedNode → ManagedNode} (h : Registered.Inv ⟨db, self⟩)
    (hf : ∀ m, (f m).nodeId = m.nodeId ∧ (f m).isSelf = m.isSelf)
    (hrows : db'.managedNodes = (db.updateNodes n f).2.managedNodes) :
    Registered.Inv ⟨db', self⟩ := by
  have hrow : ∀ m : ManagedNode, (if (m.nodeId == n) = true then f m else m).nodeId = m.nodeId ∧
      (if (m.nodeId == n) = true then f m else m).isSelf = m.isSelf := by
    intro m
    split
    · exact hf m
    · exact ⟨rfl, rfl⟩
  have hmap : db'.managedNodes =
      db.managedNodes.map fun m => if (m.nodeId == n) = true then f m else m := hrows
  constructor
  · rw [hmap, List.map_map]
    have hids : (ManagedNode.nodeId ∘ fun m => if (m.nodeId == n) = true then f m else m) =
        ManagedNode.nodeId := funext fun m => (hrow m).1
    rw [hids]
    exact h.ids
  · intro m hm
    rw [hmap] at hm
    obtain ⟨m₀, hm₀, rfl⟩ := List.mem_map.mp hm
    rw [(hrow m₀).1, (hrow m₀).2]
    exact h.flag m₀ hm₀
  · intro m hm
    obtain ⟨m₀, hm₀, hid⟩ := h.row m hm
    rw [hmap]
    exact ⟨_, List.mem_map_of_mem hm₀, by rw [(hrow m₀).1, hid]⟩

theorem Registered.Inv.commitFields {db mid : Db} {self : Option Str} {now n : Str}
    {fields : NodeFields} {evs evs' : List (Str × SyncKind)} {changes : List PropagatedChange}
    (h : Registered.Inv ⟨db, self⟩)
    (hcommit : db.commitFields now n fields evs changes = some (mid, evs')) :
    Registered.Inv ⟨mid, self⟩ := by
  obtain ⟨-, -, rfl⟩ := commitFields_eq_some hcommit
  exact h.updateNodes (f := fields.apply now) (fun m => ⟨rfl, rfl⟩)
    (applyChanges_managedNodes now changes _)

theorem Registered.Inv.register {db : Db} {self : Option Str} (h : Registered.Inv ⟨db, self⟩)
    (now n name : Str) : Registered.Inv ⟨db.register now n name, some n⟩ := by
  have hids : (db.managedNodes.map (·.register now n)).map ManagedNode.nodeId =
      db.managedNodes.map ManagedNode.nodeId := by
    rw [List.map_map]
    exact List.map_congr_left fun m _ => ManagedNode.register_nodeId now n m
  constructor
  · rw [Db.register, List.map_append, hids]
    cases hnode : db.getNode n with
    | some m => simpa using h.ids
    | none =>
        rw [List.nodup_append]
        refine ⟨h.ids, List.nodup_singleton _, ?_⟩
        intro a ha b hb
        obtain ⟨m, hm, rfl⟩ := List.mem_map.mp ha
        have hb' : b = n := by simpa [ManagedNodeStore.newNode] using hb
        have hne := List.find?_eq_none.mp hnode m hm
        rw [hb']
        simpa using hne
  · intro m hm
    rcases List.mem_append.mp hm with hm | hm
    · obtain ⟨m₀, -, rfl⟩ := List.mem_map.mp hm
      rw [ManagedNode.register_isSelf, ManagedNode.register_nodeId, Option.some.injEq, eq_comm]
    · split at hm
      · cases hm
      · rw [List.mem_singleton.mp hm]
        simp [ManagedNodeStore.newNode]
  · intro m hm
    cases hm
    obtain ⟨row, hrow⟩ := Option.isSome_iff_exists.mp (isSome_getNode_register now n name db)
    exact ⟨row, List.mem_of_find?_eq_some hrow, by simpa using List.find?_some hrow⟩

theorem Registered.Inv.add {db db' : Db} {self : Option Str} {now n name : Str} {u : Unit}
    (h : Registered.Inv ⟨db, self⟩)
    (hadd : (db.upsertNode n).insertNode (ManagedNodeStore.newNode now n name false) =
      .ok (u, db')) : Registered.Inv ⟨db', self⟩ := by
  obtain ⟨hnone, rfl⟩ := insertNode_ok hadd
  have hsame : (db.upsertNode n).managedNodes = db.managedNodes := by rw [upsertNode_eq]
  have hnew : ∀ m ∈ db.managedNodes, m.nodeId ≠ n := by
    intro m hm
    rw [Db.getNode, hsame] at hnone
    have hne := List.find?_eq_none.mp hnone m hm
    simpa [ManagedNodeStore.newNode] using hne
  constructor
  · simp only [hsame, List.map_append, List.map_singleton, List.nodup_append]
    refine ⟨h.ids, List.nodup_singleton _, ?_⟩
    intro a ha b hb
    obtain ⟨m, hm, rfl⟩ := List.mem_map.mp ha
    rw [List.mem_singleton.mp hb]
    exact hnew m hm
  · intro m hm
    simp only [hsame] at hm
    rcases List.mem_append.mp hm with hm | hm
    · exact h.flag m hm
    · -- the new row has no flag, and its id is no registered one
      rw [List.mem_singleton.mp hm]
      simp only [ManagedNodeStore.newNode, Bool.false_eq_true, false_iff]
      intro hself
      obtain ⟨m₀, hm₀, hid⟩ := h.row n hself
      exact hnew m₀ hm₀ hid
  · intro m hm
    obtain ⟨m₀, hm₀, hid⟩ := h.row m hm
    simp only [hsame]
    exact ⟨m₀, List.mem_append_left _ hm₀, hid⟩

theorem Registered.Inv.delete {db : Db} {self : Option Str} {n : Str} {m : ManagedNode}
    {force : Bool} (h : Registered.Inv ⟨db, self⟩) (hnode : db.getNode n = some m)
    (hallowed : (m.isSelf && !force) = false) :
    Registered.Inv
      ⟨{ db with managedNodes := Rows.deleteWhere (fun r => r.nodeId == n) db.managedNodes },
        Registered.next self (.deleteNode n force)⟩ := by
  have hm : m ∈ db.managedNodes := List.mem_of_find?_eq_some hnode
  have hid : m.nodeId = n := by simpa using List.find?_some hnode
  have hnext : Registered.next self (.deleteNode n force) =
      if self = some n then none else self := by
    simp only [Registered.next]
    by_cases hself : self = some n
    · have hflag := (h.flag m hm).mpr (by rw [hid]; exact hself)
      rw [hflag, Bool.true_and, Bool.not_eq_false'] at hallowed
      simp [hallowed, hself]
    · simp [hself]
  rw [hnext]
  have hleft : ∀ r, r ∈ Rows.deleteWhere (fun r => r.nodeId == n) db.managedNodes ↔
      r ∈ db.managedNodes ∧ r.nodeId ≠ n := by
    intro r
    simp [Rows.deleteWhere]
  constructor
  · exact h.ids.sublist (List.filter_sublist.map _)
  · intro r hr
    obtain ⟨hmem, hne⟩ := (hleft r).mp hr
    rw [h.flag r hmem]
    by_cases hself : self = some n
    · rw [if_pos hself]
      simp only [hself, Option.some.injEq, reduceCtorEq, iff_false]
      exact fun heq => hne heq.symm
    · rw [if_neg hself]
  · intro r hr
    by_cases hself : self = some n
    · rw [if_pos hself] at hr
      cases hr
    · rw [if_neg hself] at hr
      obtain ⟨r₀, hr₀, hid₀⟩ := h.row r hr
      refine ⟨r₀, (hleft r₀).mpr ⟨hr₀, ?_⟩, hid₀⟩
      intro heq
      apply hself
      rw [← heq, hid₀]
      exact hr

/-- A call that leaves the nodes alone registers nothing. -/
theorem Registered.next_of_frame {self : Option Str} {call : Call}
    (h : Table.managedNodes ∉ call.writes) : Registered.next self call = self := by
  cases call <;> simp [Call.writes, Registered.next] at h ⊢

/-- What a call commits keeps the registration: the calls that write nodes, one by
one. -/
theorem Registered.Inv.commit {db mid : Db} {self : Option Str} {now : Str} {call : Call}
    {evs : List (Str × SyncKind)} (h : Registered.Inv ⟨db, self⟩)
    (hwrites : Table.managedNodes ∈ call.writes) (hcommit : call.commit now db = some (mid, evs)) :
    Registered.Inv ⟨mid, Registered.next self call⟩ := by
  cases call with
  | addNode n name =>
      simp only [Call.commit] at hcommit
      obtain ⟨⟨u, hadd⟩, -⟩ := committedIf_eq_some hcommit
      exact h.add hadd
  | upsertSelf n name =>
      simp only [Call.commit, upsertSelfRow_demoted, committedIf, Option.some.injEq,
        Prod.mk.injEq] at hcommit
      obtain ⟨rfl, -⟩ := hcommit
      exact h.register now n name
  | deleteNode n force =>
      simp only [Call.commit] at hcommit
      cases hnode : db.getNode n with
      | none => simp [hnode] at hcommit
      | some m =>
          simp only [hnode, Option.ite_none_left_eq_some, Option.some.injEq, Prod.mk.injEq,
            Bool.not_eq_true] at hcommit
          obtain ⟨hallowed, rfl, -⟩ := hcommit
          exact h.delete hnode hallowed
  | setTokenHash n hash =>
      simp only [Call.commit, Option.ite_none_right_eq_some, Option.some.injEq,
        Prod.mk.injEq] at hcommit
      obtain ⟨-, rfl, -⟩ := hcommit
      refine h.updateNodes ?_ rfl
      exact fun m => ⟨rfl, rfl⟩
  | setWritePolicy n policy =>
      simp only [Call.commit] at hcommit
      cases hpolicy : validateWritePolicy policy with
      | error e => simp [hpolicy] at hcommit
      | ok normalized =>
          simp only [hpolicy, Option.ite_none_right_eq_some, Option.some.injEq,
            Prod.mk.injEq] at hcommit
          obtain ⟨-, rfl, -⟩ := hcommit
          refine h.updateNodes ?_ rfl
          exact fun m => ⟨rfl, rfl⟩
  | touchLastSeen n =>
      simp only [Call.commit, Option.some.injEq, Prod.mk.injEq] at hcommit
      obtain ⟨rfl, -⟩ := hcommit
      refine h.updateNodes ?_ rfl
      exact fun m => ⟨rfl, rfl⟩
  | setName n name => exact h.commitFields hcommit
  | setEnabled n enabled => exact h.commitFields hcommit
  | setAddresses n host v6 rid =>
      simp only [Call.commit, Option.ite_none_left_eq_some] at hcommit
      exact h.commitFields hcommit.2
  | applyAddressUpdate n fields changes => exact h.commitFields hcommit
  | _ => simp [Call.writes] at hwrites

/-- A call that commits nothing registers nothing. -/
theorem Registered.Inv.next_of_refused {db : Db} {self : Option Str} {now : Str} {call : Call}
    (h : Registered.Inv ⟨db, self⟩) (hcommit : call.commit now db = none) :
    Registered.next self call = self := by
  cases call with
  | upsertSelf n name =>
      simp [Call.commit, upsertSelfRow_demoted, committedIf] at hcommit
  | deleteNode n force =>
      -- nothing was deleted: no row, or a refusal
      simp only [Registered.next]
      split
      · rename_i hforced
        rw [Bool.and_eq_true, beq_iff_eq] at hforced
        obtain ⟨m, hm, hid⟩ := h.row n hforced.2
        cases hnode : db.getNode n with
        | none =>
            have hne := List.find?_eq_none.mp hnode m hm
            simp [hid] at hne
        | some m' => simp [Call.commit, hnode, hforced.1] at hcommit
      · rfl
  | _ => rfl

/-- **A step**: what a call that took effect does to the rows of the nodes. -/
theorem Registered.Inv.after {db : Db} {self : Option Str} (h : Registered.Inv ⟨db, self⟩)
    (now : Str) (call : Call) :
    Registered.Inv ⟨call.after now db, Registered.next self call⟩ := by
  rw [Call.after]
  cases hcommit : call.commit now db with
  | none =>
      rw [h.next_of_refused hcommit]
      exact h
  | some done =>
      obtain ⟨mid, evs⟩ := done
      have hmid : Registered.Inv ⟨mid, Registered.next self call⟩ := by
        by_cases hwrites : Table.managedNodes ∈ call.writes
        · exact h.commit hwrites hcommit
        · rw [Registered.next_of_frame hwrites]
          exact h.of_rows ((call.commit_frame hcommit).managedNodes hwrites)
      exact hmid.of_rows (emitAll_managedNodes now evs mid)

/-- One step of a sequence. -/
theorem Registered.Inv.step {s s' : Registered} {a : StoreAction} (h : s.Inv)
    (hs : storeStep s a = some s') : s'.Inv := by
  unfold storeStep at hs
  obtain ⟨r, c', hrun, heval⟩ | ⟨e, c', hrun, hcommitted⟩ :=
    (a.call.atomic a.now).run_fresh s.db a.fault false
  · simp only [hrun, Option.some.injEq] at hs
    rw [← hs, a.call.eval_run heval]
    exact Registered.Inv.after h a.now a.call
  · simp only [hrun, Option.some.injEq] at hs
    obtain hsame | ⟨-, hlate, -⟩ := hcommitted
    · rw [← hs, hsame]
      exact h
    · cases hlate

/-- What registering keeps of each row: of the node's own row everything but
the flags and the time, of a demoted row everything but the flag and the time,
of another row everything. -/
structure RegisterKeeps (now n : Str) (m m' : ManagedNode) : Prop where
  own : m.nodeId = n → m' = { m with isSelf := true, enabled := true, updatedAt := now }
  demoted : m.nodeId ≠ n → m.isSelf = true → m' = { m with isSelf := false, updatedAt := now }
  other : m.nodeId ≠ n → m.isSelf = false → m' = m

theorem register_keeps (now n : Str) (m : ManagedNode) :
    RegisterKeeps now n m (m.register now n) where
  own h := by simp [ManagedNode.register, h]
  demoted h hself := by simp [ManagedNode.register, h, hself]
  other h hself := by simp [ManagedNode.register, h, hself]

/-- What `upsert_self` does to a database: it returns, and row by row the table
is as `RegisterKeeps` says, with at most a new row of the node after them.  The
one other way is a text that no statement can take; nothing is committed
then. -/
def Registers (now n name : Str) (db : Db) : Prop :=
  (∃ row rows new, eval (ManagedNodeStore.upsertSelf now n name) db =
      (.ok row, { db with nodes := (db.upsertNode n).nodes, managedNodes := rows ++ new }) ∧
    List.Forall₂ (RegisterKeeps now n) db.managedNodes rows ∧
    (new = [] ∨ db.getNode n = none ∧ new = [ManagedNodeStore.newNode now n name true])) ∨
  ∃ b, params [.text n, .text name] = some b ∧
    eval (ManagedNodeStore.upsertSelf now n name) db = (.error (.unbound b), db)

theorem registers (now n name : Str) (db : Db) : Registers now n name db := by
  obtain ⟨-, row, hrow⟩ | hunbound := eval_upsertSelf_cases now n name db
  · left
    rw [Db.register] at hrow
    refine ⟨row, _, _, hrow, ?_, ?_⟩
    · rw [List.forall₂_map_right_iff]
      exact List.forall₂_same.mpr fun m _ => register_keeps now n m
    · cases hnode : db.getNode n with
      | some m => exact .inl rfl
      | none => exact .inr ⟨rfl, rfl⟩
  · exact .inr hunbound

/-- **There is one self node and registering never damages it**, in every
sequence of calls on a migrated database. -/
theorem self_node_kept {db₀ : Db} {as : List StoreAction} {s : Registered} (h₀ : db₀.NodeKeys)
    (hrun : Machine.exec storeStep ⟨db₀, db₀.selfId⟩ as = some s) :
    s.db.managedNodes.countP ManagedNode.isSelf ≤ 1 ∧
      (∃ row, eval ManagedNodeStore.getSelf s.db = (.ok row, s.db) ∧
        row.map ManagedNode.nodeId = s.self ∧ ∀ m ∈ row, m ∈ s.db.managedNodes) ∧
      ∀ now n name, Registers now n name s.db := by
  have hinv : s.Inv := Machine.reachable_invariant storeStep (fun _ _ _ hi hs => hi.step hs)
    (Registered.inv_of_keys h₀) ⟨as, hrun⟩
  exact ⟨hinv.single, hinv.getSelf, fun now n name => registers now n name s.db⟩

/-- Two registrations, a refused deletion and a forced one. -/
def sampleRegistrations : List StoreAction :=
  [⟨.upsertSelf (lit "a") (lit "self"), lit "t1", none⟩,
    ⟨.upsertSelf (lit "b") (lit "self"), lit "t2", none⟩,
    ⟨.deleteNode (lit "b") false, lit "t3", none⟩,
    ⟨.deleteNode (lit "a") true, lit "t4", none⟩]

theorem nodeKeys_empty : Db.empty.NodeKeys where
  ids := List.nodup_nil
  single := Nat.zero_le 1

theorem self_node_kept_sample :
    ∃ s, Machine.exec storeStep ⟨Db.empty, Db.empty.selfId⟩ sampleRegistrations = some s ∧
      s.self = some (lit "b") ∧ s.db.managedNodes.countP ManagedNode.isSelf ≤ 1 := by
  have hruns : ∃ s, Machine.exec storeStep ⟨Db.empty, Db.empty.selfId⟩ sampleRegistrations =
      some s ∧ s.self = some (lit "b") := ⟨_, rfl, rfl⟩
  obtain ⟨s, hrun, hself⟩ := hruns
  exact ⟨s, hrun, hself, (self_node_kept nodeKeys_empty hrun).1⟩

end Dn42Ctl
