import Dn42Ctl.Frames
import Dn42Ctl.ScanParse
import Dn42Ctl.ScanSpecs

/-!
# ScanAccounts

When a scan enters every interface in one of its lists.  What the parsers let
through can be bound, but for a number: an ASN, a port or an `rxcost` may have any
number of digits, and a number of more than 63 bits raises past every handler.

* `mem_candidates` — which interfaces are candidates;
* `fits_iff` — what is left of a row that can be bound;
* `scanLoop_cases` — the loop, from the rounds of `ScanSpecs`;
* `scan_accounts_iff` — exactly when one scan, and another after it, do their job.
-/

namespace Dn42Ctl

open Text Txn Prog Builtins Pattern

/-! ## candidates -/

/-- The names a listing gave before it stopped. -/
def DirState.names : DirState → List Str
  | .missing => []
  | .listed names | .denied names | .failed names _ => names

/-- The managed stem of a `.netdev` or a `.network` file. -/
def IsCandidate (files : ScanFiles) (config : AppConfig) (x : Str) : Prop :=
  isManagedIfname x = true ∧ ∃ suffix ∈ [lit ".netdev", lit ".network"],
    ∃ d ∈ networkdDirs config, x ++ suffix ∈ (files.dir d).names

/-- The stems of the files with a suffix. -/
theorem mem_stemsIn {suffix x : Str} {state : DirState} :
    x ∈ stemsIn suffix state ↔ isManagedIfname x = true ∧ x ++ suffix ∈ state.names := by
  have hnames : ∀ names : List Str,
      (x ∈ (names.filter fun name => endsWith name suffix).filterMap fun name =>
        if isManagedIfname (name.take (name.length - suffix.length)) then
          some (name.take (name.length - suffix.length)) else none) ↔
      isManagedIfname x = true ∧ x ++ suffix ∈ names := by
    intro names
    simp only [List.mem_filterMap, List.mem_filter, Option.ite_none_right_eq_some,
      Option.some.injEq]
    constructor
    · rintro ⟨name, ⟨hmem, hends⟩, hmanaged, rfl⟩
      rw [endsWith, List.isSuffixOf_iff_suffix, List.suffix_iff_eq_append] at hends
      refine ⟨hmanaged, ?_⟩
      rw [hends]
      exact hmem
    · rintro ⟨hmanaged, hmem⟩
      have htake : (x ++ suffix).take ((x ++ suffix).length - suffix.length) = x := by
        rw [List.length_append, Nat.add_sub_cancel]
        exact List.take_left
      refine ⟨x ++ suffix, ⟨hmem, ?_⟩, ?_, htake⟩
      · rw [endsWith, List.isSuffixOf_iff_suffix]
        exact List.suffix_append x suffix
      · rw [htake]
        exact hmanaged
  cases state with
  | missing => simp [stemsIn, DirState.names]
  | listed names => exact hnames names
  | denied names => exact hnames names
  | failed names detail => exact hnames names

/-- No interface is looked at twice. -/
theorem nodup_candidates (files : ScanFiles) (config : AppConfig) :
    (candidates files config).Nodup :=
  (List.perm_insertionSort _ _).nodup_iff.mpr (List.nodup_dedup _)

/-- The interfaces that are looked at. -/
theorem mem_candidates {files : ScanFiles} {config : AppConfig} {x : Str} :
    x ∈ candidates files config ↔ IsCandidate files config x := by
  rw [candidates, (List.perm_insertionSort _ _).mem_iff, List.mem_dedup]
  simp only [List.mem_flatMap, mem_stemsIn, IsCandidate]
  constructor
  · rintro ⟨suffix, hsuffix, d, hd, hmanaged, hmem⟩
    exact ⟨hmanaged, suffix, hsuffix, d, hd, hmem⟩
  · rintro ⟨hmanaged, suffix, hsuffix, d, hd, hmem⟩
    exact ⟨suffix, hsuffix, d, hd, hmanaged, hmem⟩

/-! ## numbers that cannot be bound -/

/-- The parameters of an interface can be bound, but for a cost that is too large. -/
structure BabelParams.Plain (p : BabelParams) : Prop where
  rxcost : ∀ k, p.rxcost = some k → 0 ≤ k
  babelType : ∀ t, p.babelType = some t → encodable t = true

theorem parseInterfaceBody_plain (isWord : Nat → Bool) (body : Str) :
    (parseInterfaceBody isWord body).Plain := by
  constructor
  · intro k hk
    rw [parseInterfaceBody] at hk
    dsimp only at hk
    split at hk
    · rename_i digits rest hsearch
      obtain ⟨hgroups, -⟩ := searchFrom_groups hsearch
      cases hgroups with
      | cons hdigits hnil => exact intOfStr_digits hdigits.2 hk
    · cases hk
  · intro t ht
    rw [parseInterfaceBody] at ht
    dsimp only at ht
    split at ht
    · rename_i babelType rest hsearch
      obtain ⟨hgroups, -⟩ := searchFrom_groups hsearch
      cases ht
      cases hgroups with
      | cons htype hnil =>
          have hall : ∀ u ∈ [lit "wired", lit "wireless", lit "tunnel"], encodable u = true := by
            decide
          exact hall t htype
    · cases ht

/-- The values read of `babel.conf` are plain. -/
theorem readBabel_plain {isWord : Nat → Bool} {files : ScanFiles} {config : AppConfig}
    {e : Str × BabelParams} (h : e ∈ (readBabel isWord files config).1) : e.2.Plain := by
  have hparsed : ∀ text, e ∈ parseBabelConfInterfaceParams isWord text → e.2.Plain := by
    intro text he
    rw [parseBabelConfInterfaceParams, List.mem_filterMap] at he
    obtain ⟨groups, -, he⟩ := he
    split at he
    · split at he
      · cases he
      · cases he
        exact parseInterfaceBody_plain isWord _
    · cases he
  rw [readBabel] at h
  split at h
  · cases h
  · cases h
  · split at h
    · exact hparsed _ h
    · cases h

/-- The `rxcost` an interface is stored with. -/
def scanRxcost (babel : List (Str × BabelParams)) (x : Str) : Int :=
  ((lookupBabel x babel).bind BabelParams.rxcost).getD babelDefaultRxcost

theorem lookupBabel_plain {babel : List (Str × BabelParams)} (h : ∀ e ∈ babel, e.2.Plain)
    {x : Str} {p : BabelParams} (hp : lookupBabel x babel = some p) : p.Plain := by
  rw [lookupBabel, Option.map_eq_some_iff] at hp
  obtain ⟨e, he, rfl⟩ := hp
  exact h e (List.mem_reverse.mp (List.mem_of_find?_eq_some he))

/-- A cost is not negative. -/
theorem scanRxcost_nonneg {babel : List (Str × BabelParams)} (h : ∀ e ∈ babel, e.2.Plain)
    (x : Str) : 0 ≤ scanRxcost babel x := by
  rw [scanRxcost]
  cases hp : lookupBabel x babel with
  | none => decide
  | some p =>
      cases hk : p.rxcost with
      | none =>
          rw [Option.bind_some, hk]
          decide
      | some k =>
          rw [Option.bind_some, hk]
          exact (lookupBabel_plain h hp).rxcost k hk

/-- The number a candidate is looked up by has at most 63 bits. -/
def Candidate.KeyFits : Candidate → Prop
  | .bgp asn _ => asn < 2 ^ 63
  | .ibgp .. => True

/-- The numbers of its row do too.  The name of an iBGP interface is only ever
seen as a file name, which need not be decodable. -/
def Candidate.RowFits (babel : List (Str × BabelParams)) (x : Str) : Candidate → Prop
  | .bgp _ t => t.listenPort < 2 ^ 63
  | .ibgp _ _ t => t.listenPort < 2 ^ 63 ∧ scanRxcost babel x < 2 ^ 63 ∧ encodable x = true

theorem convert_texts {ts : List Str} (h : ∀ t ∈ ts, encodable t = true) :
    (Param.json (.list (ts.map .str))).convert = none := by
  have hall : Json.encodableAll (ts.map .str) = true := by
    induction ts with
    | nil => rfl
    | cons t ts ih =>
        rw [List.map_cons, Json.encodableAll, Json.encodable, h t (List.mem_cons_self ..),
          ih fun u hu => h u (List.mem_cons_of_mem _ hu)]
        rfl
  rw [Param.convert, Json.encodable, hall]
  rfl

section Bound

variable {n x pub : Str} {t : ScannedTunnel} {c : Candidate} {babel : List (Str × BabelParams)}

/-- The columns of a tunnel can be bound when its texts and its port can. -/
theorem baseParams_iff (ht : t.Plain) (hpub : encodable pub = true) :
    params (Database.baseParams (t.record n x pub)) = none ↔
      encodable x = true ∧ t.listenPort < 2 ^ 63 := by
  simp only [Database.baseParams, ScannedTunnel.record, params_cons, convert_text,
    convert_ofOption, convert_int ht.port, convert_texts ht.allowedIps, hpub, ht.privateKey,
    ht.localLla, true_and]
  constructor
  · rintro ⟨hx, -, -, -, hport, -⟩
    exact ⟨hx, hport⟩
  · rintro ⟨hx, hport⟩
    exact ⟨hx, ht.peerPublicKey, ht.endpoint, ht.peerLla, hport, by decide, rfl⟩

/-- So can those of the key. -/
theorem keyParams_iff (hn : encodable n = true) (hc : c.Sound x) :
    params (c.keyParams n) = none ↔ c.KeyFits := by
  cases c with
  | bgp asn t =>
      simp only [Candidate.keyParams, params_cons, convert_text, hn, convert_int hc.1, true_and,
        Candidate.KeyFits]
      exact and_iff_left rfl
  | ibgp name peerIp t =>
      simp only [Candidate.keyParams, params_cons, convert_text, hn, encodable_clean hc.1,
        true_and, Candidate.KeyFits, iff_true]
      rfl

/-- The whole row can be bound when its texts and its numbers can. -/
theorem rowParams_iff (hn : encodable n = true) (hc : c.Sound x) (hplain : c.tunnel.Plain)
    (hbabel : ∀ e ∈ babel, e.2.Plain) (hpub : encodable pub = true) (hkey : c.KeyFits) :
    params (c.rowParams n babel x pub) = none ↔ c.RowFits babel x := by
  cases c with
  | bgp asn t =>
      have ht : t.Plain := hplain
      have hasn : (Param.int asn).convert = none := (convert_int hc.1).mpr hkey
      rw [Candidate.rowParams, List.cons_append, List.cons_append, List.nil_append, params_cons,
        params_cons, convert_text, baseParams_iff ht hpub]
      simp only [hn, hasn, hc.2.1, true_and, Candidate.RowFits]
  | ibgp name peerIp t =>
      have ht : t.Plain := hplain
      have htype :
          (Param.text (ibgpRecord n babel x name peerIp t pub).babelType).convert = none := by
        rw [convert_text]
        show encodable (((lookupBabel x babel).bind BabelParams.babelType).getD _) = true
        cases hp : ((lookupBabel x babel).bind BabelParams.babelType) with
        | none => decide
        | some babelType =>
            obtain ⟨p, hp, htype⟩ := Option.bind_eq_some_iff.mp hp
            exact (lookupBabel_plain hbabel hp).babelType babelType htype
      have hcost : (Param.int (ibgpRecord n babel x name peerIp t pub).babelRxcost).convert = none ↔
          scanRxcost babel x < 2 ^ 63 := convert_int (scanRxcost_nonneg hbabel x)
      rw [Candidate.rowParams, List.append_assoc, List.cons_append, List.cons_append,
        List.nil_append, params_cons, params_cons, params_append, baseParams_iff ht hpub]
      simp only [params_cons, htype, hcost, convert_text, convert_ofOption, hn,
        encodable_clean hc.1, true_and, Candidate.RowFits]
      constructor
      · rintro ⟨⟨hx, hport⟩, hrx, -⟩
        exact ⟨hport, hrx, hx⟩
      · rintro ⟨hport, hrx, hx⟩
        exact ⟨⟨hx, hport⟩, hrx, hc.2, rfl, rfl⟩

end Bound

section Storable

variable (files : ScanFiles) (config : AppConfig) (wg : WgCommand)
  (babel : List (Str × BabelParams))

/-- What a candidate must not be: its key has too many bits, or its row has and is
about to be written. -/
def Storable (db : Db) (before : List Str) (x : Str) (c : Candidate) : Prop :=
  c.KeyFits ∧ ∀ pub, wg.pubkeyFromPrivate c.privateKey = .ok pub → ¬ c.Known config.nodeId db →
    (∀ y ∈ before, ¬ Offers files config wg db y c) → c.RowFits babel x

/-- Every interface of `rest` can be stored, after those of `before` and in order. -/
def AllStorable (db : Db) (before rest : List Str) : Prop :=
  ∀ pre x post, rest = pre ++ x :: post →
    ∀ c, Reads files config x c → Storable files config wg babel db (before ++ pre) x c

end Storable

section Loop

variable {files : ScanFiles} {config : AppConfig} {wg : WgCommand}
  {babel : List (Str × BabelParams)} {db db' : Db} {before : List Str} {x : Str} {c : Candidate}

/-- What has to fit of a candidate, in terms of its files. -/
theorem fits_iff (hn : encodable config.nodeId = true) (hbabel : ∀ e ∈ babel, e.2.Plain)
    (hc : Reads files config x c) :
    Fits files config wg babel db before x c ↔ Storable files config wg babel db before x c := by
  obtain ⟨hsound, netdev, network, birdLla, hsource⟩ := readCandidate_ok hc
  rw [Fits, Storable, keyParams_iff hn hsound]
  refine and_congr_right fun hkey => forall_congr' fun pub => forall_congr' fun hpub => ?_
  rw [rowParams_iff hn hsound hsource.plain hbabel (wg.decoded hpub) hkey]

/-- One candidate more. -/
theorem allStorable_cons {rest : List Str} :
    AllStorable files config wg babel db before (x :: rest) ↔
      (∀ c, Reads files config x c → Storable files config wg babel db before x c) ∧
        AllStorable files config wg babel db (before ++ [x]) rest := by
  constructor
  · intro h
    refine ⟨fun c hc => ?_, fun pre y post hrest d hd => ?_⟩
    · have hx := h [] x rest rfl c hc
      rw [List.append_nil] at hx
      exact hx
    · rw [List.append_assoc]
      exact h (x :: pre) y post (by rw [hrest, List.cons_append]) d hd
  · rintro ⟨hx, hrest⟩ pre y post hsplit d hd
    cases pre with
    | nil =>
        cases hsplit
        rw [List.append_nil]
        exact hx d hd
    | cons z pre =>
        rw [List.cons_append, List.cons.injEq] at hsplit
        obtain ⟨rfl, hsplit⟩ := hsplit
        have hy := hrest pre y post hsplit d hd
        rw [List.append_assoc] at hy
        exact hy

/-! ## the loop -/

/-- The loop ends unless a candidate cannot be stored, and then it raises. -/
theorem scanLoop_cases (hn : encodable config.nodeId = true) (hbabel : ∀ e ∈ babel, e.2.Plain)
    (now : Str) {rest : List Str} {r : ScanResult} (missing : List Str)
    (h : ScanInv files config wg babel db db' before r) (hnodup : (before ++ rest).Nodup) :
    (AllStorable files config wg babel db before rest ∧
      ∃ r' missing' db'', (scanLoop (scanOne now config.nodeId wg babel files config) (r, missing)
          rest).run (Conn.fresh db' none false) = (.ok (r', missing'), Conn.fresh db'' none false) ∧
        ScanInv files config wg babel db db'' (before ++ rest) r') ∨
    (¬ AllStorable files config wg babel db before rest ∧
      ∃ e conn, (scanLoop (scanOne now config.nodeId wg babel files config) (r, missing) rest).run
        (Conn.fresh db' none false) = (.error e, conn)) := by
  induction rest generalizing before db' r missing with
  | nil =>
      refine .inl ⟨fun pre y post hsplit => ?_, r, missing, db', rfl, ?_⟩
      · cases pre with
        | nil => cases hsplit
        | cons z pre => cases hsplit
      · rw [List.append_nil]
        exact h
  | cons x rest ih =>
      have hx : x ∉ before := fun hmem =>
        (List.nodup_append.mp hnodup).2.2 x hmem x (List.mem_cons_self ..) rfl
      have hn' : params [.text config.nodeId] = none :=
        params_cons.mpr ⟨convert_text.mpr hn, rfl⟩
      have hsplit : before ++ x :: rest = before ++ [x] ++ rest := by
        rw [List.append_assoc, List.singleton_append]
      rw [scanLoop, allStorable_cons, hsplit]
      rw [hsplit] at hnodup
      rcases scanOne_cases h hx hn' now missing with
        ⟨hfits, r', missing', db'', hrun, hinv⟩ | ⟨⟨c, hc, hfits⟩, e, conn, hrun⟩
      · have hstorable : ∀ c, Reads files config x c →
            Storable files config wg babel db before x c :=
          fun c hc => (fits_iff hn hbabel hc).mp (hfits c hc)
        rw [run_bind_ok hrun]
        rcases ih missing' hinv hnodup with ⟨hrest, hdone⟩ | ⟨hrest, hraised⟩
        · exact .inl ⟨⟨hstorable, hrest⟩, hdone⟩
        · exact .inr ⟨fun hall => hrest hall.2, hraised⟩
      · refine .inr ⟨fun hall => hfits ((fits_iff hn hbabel hc).mpr (hall.1 c hc)), e, conn, ?_⟩
        exact run_bind_error hrun

/-- Before the first round the node is there and no peer has changed. -/
theorem scanInv_start (warnings : List Msg) :
    ScanInv files config wg babel db (db.upsertNode config.nodeId) [] { warnings } := by
  rw [upsertNode_eq]
  refine ⟨?_, List.prefix_rfl, List.prefix_rfl, ⟨fun row hrow => ?_, fun row hrow => ?_⟩,
    fun c => ?_, fun y c _ => Iff.rfl, List.Perm.refl _,
    fun y hy => absurd hy List.not_mem_nil, fun e he => absurd he List.not_mem_nil,
    fun e he => absurd he List.not_mem_nil, fun e he => absurd he List.not_mem_nil⟩
  · rw [← upsertNode_eq]
    exact contains_upsertNode
  · rw [List.drop_length] at hrow
    cases hrow
  · rw [List.drop_length] at hrow
    cases hrow
  · refine (or_iff_left fun hoffer => ?_).symm
    obtain ⟨y, hy, -⟩ := hoffer
    cases hy

end Loop

/-! ## the scan -/

section Scan

variable {isWord : Nat → Bool} {files : ScanFiles} {config : AppConfig} {wg : WgCommand} {db : Db}

/-- The node's row is written, when its id can be encoded. -/
theorem run_ensureNode {n : Str} (hn : encodable n = true) :
    (ensureNode n).run (Conn.fresh db none false) =
      (.ok (), Conn.fresh (db.upsertNode n) none false) := by
  have hb : params [.text n] = none := params_cons.mpr ⟨convert_text.mpr hn, rfl⟩
  rw [ensureNode, Database.ensureNode, hb]
  rfl

/-- Otherwise the scan raises at once. -/
theorem run_ensureNode_unbound {n : Str} (hn : encodable n = false) :
    (ensureNode n).run (Conn.fresh db none false) =
      (.error (.unbound .unicodeEncode), ⟨db, db, true, none, false⟩) := by
  have hb : params [.text n] = some .unicodeEncode := by
    simp [params, Param.convert, hn]
  rw [ensureNode, Database.ensureNode, hb]
  rfl

/-- Every candidate can be stored. -/
def Scannable (isWord : Nat → Bool) (files : ScanFiles) (config : AppConfig) (wg : WgCommand)
    (db : Db) : Prop :=
  encodable config.nodeId = true ∧
    AllStorable files config wg (readBabel isWord files config).1 db [] (candidates files config)

/-- A scan either returns with everything entered, or raises. -/
theorem scan_cases (now : Str) :
    (Scannable isWord files config wg db ∧
      ∃ r db', eval (scanLocalConfigs isWord now (some wg) files config) db = (.ok r, db') ∧
        ScanInv files config wg (readBabel isWord files config).1 db db'
          (candidates files config) r) ∨
    (¬ Scannable isWord files config wg db ∧
      ∃ e db', eval (scanLocalConfigs isWord now (some wg) files config) db = (.error e, db')) := by
  cases hn : encodable config.nodeId with
  | false =>
      refine .inr ⟨fun h => absurd (h.1.symm.trans hn) Bool.noConfusion, .unbound .unicodeEncode,
        db, ?_⟩
      rw [eval, scanLocalConfigs, run_bind_error (run_ensureNode_unbound hn)]
  | true =>
      have hbabel : ∀ e ∈ (readBabel isWord files config).1, e.2.Plain :=
        fun e he => readBabel_plain he
      have hloop := @scanLoop_cases files config wg (readBabel isWord files config).1 db
        (db.upsertNode config.nodeId) [] hn hbabel now (candidates files config) _ []
        (scanInv_start ((readBabel isWord files config).2 ++
          [lit ".netdev", lit ".network"].flatMap fun _ =>
            (networkdDirs config).flatMap fun d => dirWarning d (files.dir d)))
        (nodup_candidates files config)
      rw [List.nil_append] at hloop
      rcases hloop with ⟨hall, r, missing, db', hrun, hinv⟩ | ⟨hall, e, conn, hrun⟩
      · refine .inl ⟨⟨hn, hall⟩, _, db', ?_, hinv.rewarn (r.warnings ++ finalWarnings (r, missing))⟩
        rw [eval, scanLocalConfigs, run_bind_ok (run_ensureNode hn), run_bind_ok hrun]
        rfl
      · refine .inr ⟨fun h => hall h.2, e, conn.committed, ?_⟩
        rw [eval, scanLocalConfigs, run_bind_ok (run_ensureNode hn), run_bind_error hrun]

/-- What a scan is to do: it enters every candidate once, and keeps every row. -/
structure Accounts (files : ScanFiles) (config : AppConfig) (db db' : Db) (r : ScanResult) :
    Prop where
  once : r.ifnames.Nodup
  all : ∀ x, x ∈ r.ifnames ↔ IsCandidate files config x
  bgp : db.bgpPeers <+: db'.bgpPeers
  ibgp : db.ibgpPeers <+: db'.ibgpPeers

/-- What another scan of the same files is to report. -/
structure Repeats (first again : ScanResult) : Prop where
  inserted : again.inserted = []
  conflicts : ∀ e ∈ first.inserted ++ first.conflicts,
    e.ifname ∈ again.conflicts.map ScanImported.ifname

/-- **After the loop** every interface is accounted for. -/
theorem ScanInv.accounts {babel : List (Str × BabelParams)} {db' : Db} {r : ScanResult}
    (h : ScanInv files config wg babel db db' (candidates files config) r) :
    Accounts files config db db' r where
  once := h.lists.nodup_iff.mpr (nodup_candidates files config)
  all := fun _ => h.lists.mem_iff.trans mem_candidates
  bgp := h.bgp
  ibgp := h.ibgp

/-- What one scan has settled, the next one can store. -/
theorem ScanInv.scannable_again {db' : Db} {r : ScanResult} (hn : encodable config.nodeId = true)
    (h : ScanInv files config wg (readBabel isWord files config).1 db db'
      (candidates files config) r) : Scannable isWord files config wg db' := by
  refine ⟨hn, fun pre x post hsplit c hc => ?_⟩
  have hx : x ∈ candidates files config := by
    rw [hsplit]
    exact List.mem_append_right _ (List.mem_cons_self ..)
  obtain ⟨hkey, hrow⟩ := h.resolved x hx c hc
  refine (fits_iff hn (fun e he => readBabel_plain he) hc).mp ⟨hkey, fun pub hpub hfree _ => ?_⟩
  rcases hrow with hknown | ⟨text, htext⟩ | ⟨-, hrow⟩
  · exact absurd hknown hfree
  · rw [hpub] at htext
    cases htext
  · exact hrow pub hpub

/-- **A second scan** finds what the first one left. -/
theorem ScanInv.repeats {babel : List (Str × BabelParams)} {db' db'' : Db} {r r' : ScanResult}
    (h : ScanInv files config wg babel db db' (candidates files config) r)
    (h' : ScanInv files config wg babel db' db'' (candidates files config) r') : Repeats r r' := by
  have hinserted : r'.inserted = [] := by
    rw [List.eq_nil_iff_forall_not_mem]
    intro e he
    obtain ⟨c, hc, hfree, ⟨pub, hpub⟩, hunblocked⟩ := h'.inserted e he
    have hmem : e.ifname ∈ candidates files config := by
      rw [← h'.lists.mem_iff, ScanResult.ifnames, List.append_assoc]
      exact List.mem_append_left _ (List.mem_map_of_mem he)
    rcases (h.resolved _ hmem c hc).2 with hknown | ⟨text, htext⟩ | ⟨hblocked, -⟩
    · exact hfree hknown
    · rw [hpub] at htext
      cases htext
    · exact hunblocked hblocked
  refine ⟨hinserted, fun e he => ?_⟩
  obtain ⟨c, hc, hstored⟩ := h.listed e he
  have hmem : e.ifname ∈ r'.ifnames := by
    rw [h'.lists.mem_iff, ← h.lists.mem_iff, ScanResult.ifnames, ← List.map_append]
    exact List.mem_append_left _ (List.mem_map_of_mem he)
  rw [ScanResult.ifnames, hinserted, List.map_nil, List.nil_append, List.mem_append] at hmem
  refine hmem.resolve_right fun hskipped => ?_
  obtain ⟨entry, hentry, hname⟩ := List.mem_map.mp hskipped
  rcases h'.skipped entry hentry with ⟨reason, hreason⟩ | ⟨d, text, hd, hfree, htext⟩
  · rw [hname] at hreason
    rw [Reads, hreason] at hc
    cases hc
  · rw [hname] at hd
    rw [reads_unique hd hc] at hfree htext
    rcases hstored with hknown | ⟨pub, hpub⟩
    · exact hfree hknown
    · rw [hpub] at htext
      cases htext

/-- A scan and another one after it do what they are to do, whenever they run. -/
def ScansAccount (isWord : Nat → Bool) (files : ScanFiles) (config : AppConfig) (wg : WgCommand)
    (db : Db) : Prop :=
  ∀ now now', ∃ r db', eval (scanLocalConfigs isWord now (some wg) files config) db = (.ok r, db') ∧
    Accounts files config db db' r ∧
    ∃ r' db'', eval (scanLocalConfigs isWord now' (some wg) files config) db' = (.ok r', db'') ∧
      Repeats r r'

/-- A scan accounts for every interface exactly when no candidate has an ASN of
more than 63 bits and none that is about to be written has such a port or cost. -/
theorem scan_accounts_iff (isWord : Nat → Bool) (files : ScanFiles) (config : AppConfig)
    (wg : WgCommand) (db : Db) :
    ScansAccount isWord files config wg db ↔ Scannable isWord files config wg db := by
  constructor
  · intro h
    obtain ⟨r, db', hrun, -⟩ := h [] []
    rcases @scan_cases isWord files config wg db [] with ⟨hok, -⟩ | ⟨-, e, db'', hraised⟩
    · exact hok
    · rw [hrun] at hraised
      cases hraised
  · intro hok now now'
    rcases @scan_cases isWord files config wg db now with ⟨-, r, db', hrun, hinv⟩ | ⟨hbad, -⟩
    · refine ⟨r, db', hrun, hinv.accounts, ?_⟩
      rcases @scan_cases isWord files config wg db' now' with
        ⟨-, r', db'', hagain, hinv'⟩ | ⟨hbad, -⟩
      · exact ⟨r', db'', hagain, hinv.repeats hinv'⟩
      · exact absurd (hinv.scannable_again hok.1) hbad
    · exact absurd hok hbad

/-- A machine with one BGP tunnel: its `.netdev` file and the number of its peer. -/
def machineFiles (netdev asn : String) : ScanFiles where
  dir d := if d = .ofStr (lit "/etc/systemd/network") then
    .listed [lit "dn42_1.netdev", lit "dn42_1.network"] else .missing
  file p :=
    let text : Option Str :=
      if p = .ofStr (lit "/etc/systemd/network/dn42_1.netdev") then some (lit netdev)
      else if p = .ofStr (lit "/etc/systemd/network/dn42_1.network") then
        some (lit "[Address]\nAddress=fe80::2/64")
      else if p = .ofStr (lit "/etc/bird/peers/dn42_1.conf") then
        some (lit ("neighbor fe80::1%dn42_1 as " ++ asn ++ ";"))
      else none
    match text with
    | none => .missing
    | some s => if h : encodable s = true then .text ⟨s, h⟩ else .failed []

/-- A `wg` that derives one key from every key. -/
def sampleWg : WgCommand where
  pubkeyFromPrivate _ := .ok (lit "p")
  decoded h := by
    cases h
    rfl

/-- The first number of 64 bits. -/
theorem scan_wide_asn_raises :
    ¬ ScansAccount (fun _ => false) (machineFiles "[WireGuard]\nPrivateKey=k" "9223372036854775808")
      sampleConfig sampleWg Db.empty := by
  intro h
  obtain ⟨r, db', hrun, -⟩ := h [] []
  have hraised : (eval (scanLocalConfigs (fun _ => false) [] (some sampleWg)
      (machineFiles "[WireGuard]\nPrivateKey=k" "9223372036854775808") sampleConfig)
      Db.empty).1.isOk = false := by decide +kernel
  rw [hrun] at hraised
  cases hraised

end Scan

end Dn42Ctl
