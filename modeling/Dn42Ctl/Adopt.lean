import Dn42Ctl.GenConf
import Dn42Ctl.ScanAccounts
import Dn42Ctl.UnitFiles

/-!
# Adopt

Whether a configuration that a scan imports survives the next `genconf`.  The
columns of an imported row are rendered into unit files and parsed again: a value
with a comment character is cut, a missing public key comes back as `None`, and a
column that leaves out its line takes what the file name smuggles in.

* `ScannedTunnel.Lines` — what the columns of a candidate look like;
* `reparsed_eq_iff` — when the seven columns come back;
* `adoption_keeps_iff` — the same of every row of a scan.
-/

namespace Dn42Ctl

open Text Txn Prog Builtins

/-! ## the columns of a candidate -/

/-- A text that is not empty and fits on a line. -/
structure Filled (v : Str) : Prop extends LineText v where
  nonempty : v ≠ []

/-- The columns of a candidate. -/
structure ScannedTunnel.Lines (t : ScannedTunnel) : Prop where
  privateKey : Filled t.privateKey
  localLla : Filled t.localLla
  noSlash : 47 ∉ t.localLla
  peerPublicKey : ∀ v, t.peerPublicKey = some v → Filled v
  endpoint : ∀ v, t.endpoint = some v → Filled v
  peerLla : ∀ v, t.peerLla = some v → Filled v
  port : 0 ≤ t.listenPort
  someAllowed : t.allowedIps ≠ []
  allowedIps : ∀ v ∈ t.allowedIps, AllowedItem v ∧ 35 ∉ v

/-- A text without white space stands on its line as it is. -/
theorem lineText_of_noSpace {v : Str} (h : ∀ c ∈ v, isSpace c = false) : LineText v :=
  ⟨oneLine_of_noSpace h, trimmed_of_all h⟩

theorem strip_of_trimmed {v : Str} (h : Trimmed isSpace v) : strip v = v := trim_of_trimmed h

/-- A value of a unit file, as it is stored. -/
theorem UnitValue.filled {text v : Str} {o : Option Str} (h : ∀ u, o = some u → UnitValue text u)
    (hv : orNone (textOf o) = some v) : Filled v := by
  obtain ⟨hne, rfl⟩ := orNone_eq_some.mp hv
  cases o with
  | none => exact absurd rfl hne
  | some u =>
      have hu := h u rfl
      refine ⟨⟨?_, trimmed_trim _ _⟩, hne⟩
      exact fun c hc => hu.oneLine c (mem_of_mem_strip hc)

/-- A value that was read and is not empty is a filled one. -/
theorem filled_textOf {text : Str} {o : Option Str} (h : ∀ u, o = some u → UnitValue text u)
    (hne : textOf o ≠ []) : Filled (textOf o) :=
  UnitValue.filled h (orNone_eq_some.mpr ⟨hne, rfl⟩)

/-- The default networks are items. -/
theorem defaultAllowedIps_items : ∀ v ∈ defaultAllowedIps, AllowedItem v ∧ 35 ∉ v := by
  have hall : ∀ v ∈ defaultAllowedIps,
      v ≠ [] ∧ (∀ c ∈ v, isSpace c = false ∧ c ≠ 44) ∧ IpAddress.isIPv6Interface v = true ∧
        35 ∉ v := by decide
  intro v hv
  obtain ⟨hne, hchars, hnet, hhash⟩ := hall v hv
  exact ⟨⟨hne, hchars, hnet⟩, hhash⟩

/-- What the scan reads as networks are items. -/
theorem tunnelOf_allowed (netdev : Str) (network : ParsedNetwork) :
    (tunnelOf (parseNetworkdNetdev netdev) network).allowedIps ≠ [] ∧
      ∀ v ∈ (tunnelOf (parseNetworkdNetdev netdev) network).allowedIps, AllowedItem v ∧ 35 ∉ v := by
  have hall := (parseNetworkdNetdev_values netdev).allowedIps
  dsimp only [tunnelOf]
  cases hempty : (parseNetworkdNetdev netdev).allowedIps.isEmpty with
  | true =>
      rw [if_pos rfl]
      exact ⟨by decide, defaultAllowedIps_items⟩
  | false =>
      rw [if_neg Bool.false_ne_true]
      refine ⟨List.isEmpty_eq_false_iff.mp hempty, fun v hv => ?_⟩
      exact ⟨(hall v hv).2, (hall v hv).1.noHash⟩

/-- A candidate's tunnel was read from lines. -/
theorem Source.lines {netdev network : Str} {birdLla : Option Str} {c : Candidate}
    (h : Source netdev network birdLla c) : c.tunnel.Lines := by
  have hd := parseNetworkdNetdev_values netdev
  have hw := parseNetworkdNetwork_values network
  obtain ⟨hsome, hallowed⟩ := tunnelOf_allowed netdev (parseNetworkdNetwork network)
  -- the address is what stands before the slash of its value
  have hlocal : ∀ d ∈ textOf (parseNetworkdNetwork network).localLla,
      isLineBreak d = false ∧ d ≠ 47 := by
    intro d hmem
    cases ho : (parseNetworkdNetwork network).localLla with
    | none =>
        rw [ho] at hmem
        cases hmem
    | some v =>
        rw [ho] at hmem
        obtain ⟨val, hval, rfl⟩ := hw.localLla v ho
        have htake := mem_of_mem_strip hmem
        refine ⟨hval.oneLine d ((List.takeWhile_sublist _).subset htake), ?_⟩
        simpa using List.mem_takeWhile_imp htake
  rw [h.tunnel]
  refine ⟨filled_textOf hd.privateKey h.hasKey, ⟨⟨?_, trimmed_trim _ _⟩, h.hasAddress⟩, ?_,
    fun v => UnitValue.filled hd.peerPublicKey, fun v => UnitValue.filled hd.endpoint,
    fun v hv => ?_, ?_, hsome, hallowed⟩
  · exact fun d hmem => (hlocal d hmem).1
  · exact fun hmem => (hlocal 47 hmem).2 rfl
  · dsimp only at hv
    cases hown : orNone (textOf (parseNetworkdNetwork network).peerLla) with
    | some u =>
        rw [hown, Option.some_or] at hv
        exact UnitValue.filled hw.peerLla (hown.trans hv)
    | none =>
        rw [hown, Option.none_or] at hv
        obtain ⟨hne, hspace, -⟩ := h.bird v hv
        exact ⟨lineText_of_noSpace hspace, hne⟩
  · exact (tunnelOf_plain h.netdevPlain h.networkPlain).port

/-! ## rendering and parsing -/

/-- The columns that come back when the files of a tunnel are parsed. -/
def NetBackendArgs.reparsed (a : NetBackendArgs) : ScannedTunnel :=
  tunnelOf
    (parseNetworkdNetdev (renderNetworkdNetdev a.ifname a.privateKey a.listenPort a.peerPublicKey
      a.endpoint a.allowedIps))
    (parseNetworkdNetwork (renderNetworkdNetwork a.ifname a.localLla a.peerLla))

/-- The columns of a row that a scan fills. -/
def PeerRecordBase.tunnel (r : PeerRecordBase) : ScannedTunnel where
  privateKey := r.wgPrivateKey
  listenPort := r.listenPort
  localLla := r.localLla
  peerPublicKey := r.peerPublicKey
  endpoint := r.endpoint
  allowedIps := r.allowedIps
  peerLla := r.peerLla

/-- Rendering the row and parsing the files gives its columns back. -/
def PeerRecordBase.ReadsBack (r : PeerRecordBase) : Prop :=
  (rowBackendArgs r (orDefault r.peerLla [])).reparsed = r.tunnel

/-- The addresses that come back: those before a `;` are not lost.  The file name
may put addresses with a `;` in front, which its own line keeps and theirs drops. -/
def AllowedBack (smuggledIn allowed : List Str) : Prop :=
  allowed = smuggledIn ++ allowed.filter (fun a => !a.contains 59) ∧
    ∀ a ∈ smuggledIn, allowedItems (lineValue a) = []

/-- What the files must say for the columns to come back. -/
structure Adoptable (ifname : Str) (t : ScannedTunnel) : Prop where
  peerPublicKey : ∃ v, t.peerPublicKey = some v ∧ Uncommented v
  privateKey : Uncommented t.privateKey
  localLla : Uncommented t.localLla
  endpoint : ∀ v, t.endpoint = some v → Uncommented v
  peerLla : ∀ v, t.peerLla = some v → Uncommented v
  allowedIps : AllowedBack (smuggled ifname).2.allowedIps t.allowedIps
  noEndpoint : t.endpoint = none → textOf (smuggled ifname).2.endpoint = []
  noPort : t.listenPort = 0 → (smuggled ifname).2.listenPort.getD 0 ≤ 0

theorem textOf_lineValue (v : Str) : textOf (some (lineValue v)) = lineValue v :=
  strip_of_trimmed (trimmed_trim _ _)

/-- A value that is not empty comes back when it has no comment character. -/
theorem orNone_lineValue {v : Str} (h : Filled v) :
    orNone (lineValue v) = some v ↔ Uncommented v := by
  rw [orNone_eq_some, ← lineValue_eq_self_iff h.trimmed]
  constructor
  · exact fun hv => hv.2
  · intro hv
    rw [hv]
    exact ⟨h.nonempty, rfl⟩

/-- A printed value is read back exactly when it has no comment mark. -/
theorem printed_back {o : Option Str} (h : ∀ v, o = some v → Filled v) :
    orNone (lineValue (printed o)) = o ↔ ∃ v, o = some v ∧ Uncommented v := by
  cases o with
  | none =>
      have hnone : orNone (lineValue (lit "None")) = some (lit "None") := by decide
      rw [printed, hnone]
      simp
  | some v =>
      rw [printed, orNone_lineValue (h v rfl)]
      simp

theorem orDefault_filled {v : Str} (h : Filled v) : orDefault (some v) [] = v := by
  rw [orDefault, if_neg (by simpa using h.nonempty)]

/-- So is an optional one. -/
theorem optional_back {o : Option Str} (h : ∀ v, o = some v → Filled v) :
    orNone (lineValue (orDefault o [])) = o ↔ ∀ v, o = some v → Uncommented v := by
  cases o with
  | none => simp [orDefault, show orNone (lineValue []) = none from rfl]
  | some v =>
      rw [orDefault_filled (h v rfl), orNone_lineValue (h v rfl)]
      simp

/-- An endpoint is read back when it has no comment mark or, absent, none is found elsewhere. -/
theorem endpoint_back {o other : Option Str} (h : ∀ v, o = some v → Filled v) :
    orNone (textOf (if (orDefault o []).isEmpty then other
      else some (lineValue (orDefault o [])))) = o ↔
      (∀ v, o = some v → Uncommented v) ∧ (o = none → textOf other = []) := by
  cases o with
  | none =>
      rw [orDefault, List.isEmpty_nil, if_pos rfl, orNone]
      by_cases hother : textOf other = []
      · simp [hother]
      · rw [if_neg (by simpa using hother)]
        simp [hother]
  | some v =>
      have hv := h v rfl
      rw [orDefault_filled hv, if_neg (by simpa using hv.nonempty), textOf_lineValue,
        orNone_lineValue hv]
      simp

/-- The local address is read back without its prefix length. -/
theorem localLla_back {lla : Str} (h : Filled lla) (hslash : 47 ∉ lla) :
    LineText (lla ++ lit "/128") ∧
      (textOf (some (partition 47 (lineValue (lla ++ lit "/128"))).1) = lla ↔ Uncommented lla) := by
  have htrimmed : Trimmed isSpace (lla ++ lit "/128") := by
    refine ⟨fun c hc => ?_, fun c hc => ?_⟩
    · obtain ⟨d, ds, rfl⟩ := List.exists_cons_of_ne_nil h.nonempty
      exact h.trimmed.head c hc
    · rw [List.getLast?_append] at hc
      cases hc
      rfl
  have hline : LineText (lla ++ lit "/128") :=
    ⟨oneLine_append.mpr ⟨h.oneLine, by decide⟩, htrimmed⟩
  refine ⟨hline, fun hback => ?_, fun hplain => ?_⟩
  · have hchars : ∀ c ∈ lla, c ∈ lineValue (lla ++ lit "/128") := by
      intro c hc
      rw [← hback] at hc
      exact (List.takeWhile_sublist _).subset (mem_of_mem_strip hc)
    have hhash : 35 ∉ lla := fun hmem =>
      noHash_stripInlineComment _ (mem_of_mem_strip (hchars 35 hmem))
    have hall : 35 ∉ lla ++ lit "/128" := by
      rw [List.mem_append, not_or]
      exact ⟨hhash, by decide⟩
    exact ⟨hhash, fun hmem =>
      noSemicolon_stripInlineComment hall (mem_of_mem_strip (hchars 59 hmem))⟩
  · have hvalue : lineValue (lla ++ lit "/128") = lla ++ lit "/128" := by
      rw [lineValue_eq_self_iff htrimmed]
      refine ⟨?_, ?_⟩
      · rw [List.mem_append, not_or]
        exact ⟨hplain.1, by decide⟩
      · rw [List.mem_append, not_or]
        exact ⟨hplain.2, by decide⟩
    rw [hvalue, show lla ++ lit "/128" = lla ++ 47 :: lit "128" from rfl, partition_append hslash]
    exact strip_of_trimmed h.trimmed

/-- A port is read back exactly when, being 0, none is found elsewhere. -/
theorem listenPort_back {port : Int} {other : Option Int} (hport : 0 ≤ port) :
    (if (if port > 0 then some port else other).getD 0 ≤ 0 then 0
      else (if port > 0 then some port else other).getD 0) = port ↔
      (port = 0 → other.getD 0 ≤ 0) := by
  by_cases hpos : port > 0
  · rw [if_pos hpos, Option.getD_some, if_neg (by omega)]
    exact ⟨fun _ hzero => by omega, fun _ => rfl⟩
  · rw [if_neg hpos]
    have hzero : port = 0 := by omega
    subst hzero
    split
    · rename_i hother
      exact ⟨fun _ _ => hother, fun _ => rfl⟩
    · rename_i hother
      exact ⟨fun h => absurd h (by omega), fun h => absurd (h rfl) hother⟩

/-! ## the allowed addresses -/

section Allowed

variable {allowed : List Str}

/-- An item is read as itself. -/
theorem allowedItems_self {v : Str} (h : AllowedItem v) : allowedItems v = [v] := by
  have hsep : ∀ c ∈ v, (isSpace c || c == 44) = false := by
    intro c hc
    simp [h.chars c hc]
  have hsplit : v.splitOnP (fun c => isSpace c || c == 44) = [v] := List.splitOnP_eq_singleton hsep
  have hstrip : strip v = v := strip_of_trimmed (trimmed_of_all fun c hc => (h.chars c hc).1)
  rw [allowedItems, hsplit, List.map_singleton, hstrip]
  simp [h.nonempty, h.network]

/-- An address without a `;` comes back. -/
theorem allowedItems_back {v : Str} (h : AllowedItem v ∧ 35 ∉ v) (hsemi : v.contains 59 = false) :
    allowedItems (lineValue v) = [v] := by
  have hplain : Uncommented v := by
    refine ⟨h.2, fun hmem => ?_⟩
    rw [List.contains_iff_mem.mpr hmem] at hsemi
    cases hsemi
  rw [(lineValue_eq_self_iff (trimmed_of_all fun c hc => (h.1.chars c hc).1)).mpr hplain]
  exact allowedItems_self h.1

/-- What comes back has no `;`. -/
theorem noSemicolon_back {v item : Str} (h : 35 ∉ v) (hitem : item ∈ allowedItems (lineValue v)) :
    item.contains 59 = false := by
  rw [Bool.eq_false_iff, ne_eq, List.contains_iff_mem]
  intro hmem
  exact noSemicolon_stripInlineComment h
    (mem_of_mem_strip ((allowedItems_item hitem).2 59 hmem))

theorem filter_sublist_back (h : ∀ v ∈ allowed, AllowedItem v ∧ 35 ∉ v) :
    List.Sublist (allowed.filter fun a => !a.contains 59)
      (allowed.flatMap fun a => allowedItems (lineValue a)) := by
  induction allowed with
  | nil => exact .slnil
  | cons a allowed ih =>
      have hrest := ih fun v hv => h v (List.mem_cons_of_mem _ hv)
      rw [List.flatMap_cons]
      cases ha : a.contains 59 with
      | false =>
          rw [List.filter_cons_of_pos (by rw [ha]; rfl),
            allowedItems_back (h a (List.mem_cons_self ..)) ha, List.singleton_append]
          exact hrest.cons_cons a
      | true =>
          rw [List.filter_cons_of_neg (by rw [ha]; exact Bool.false_ne_true)]
          exact hrest.trans (List.sublist_append_right _ _)

/-- When only the addresses without a `;` come back, the others are dropped. -/
theorem dropped_of_filter (h : ∀ v ∈ allowed, AllowedItem v ∧ 35 ∉ v)
    (heq : (allowed.flatMap fun a => allowedItems (lineValue a)) =
      allowed.filter fun a => !a.contains 59) :
    ∀ a ∈ allowed, a.contains 59 = true → allowedItems (lineValue a) = [] := by
  induction allowed with
  | nil => exact fun a ha => absurd ha List.not_mem_nil
  | cons b allowed ih =>
      have hrest := fun v hv => h v (List.mem_cons_of_mem _ hv)
      rw [List.flatMap_cons] at heq
      have htail : (allowed.flatMap fun a => allowedItems (lineValue a)) =
            (allowed.filter fun a => !a.contains 59) ∧
          (b.contains 59 = true → allowedItems (lineValue b) = []) := by
        cases hb : b.contains 59 with
        | false =>
            rw [List.filter_cons_of_pos (by rw [hb]; rfl),
              allowedItems_back (h b (List.mem_cons_self ..)) hb, List.singleton_append,
              List.cons.injEq] at heq
            exact ⟨heq.2, fun hfalse => absurd hfalse Bool.false_ne_true⟩
        | true =>
            rw [List.filter_cons_of_neg (by rw [hb]; exact Bool.false_ne_true)] at heq
            have hlength := congrArg List.length heq
            have hle := (filter_sublist_back hrest).length_le
            rw [List.length_append] at hlength
            have hnil : allowedItems (lineValue b) = [] := List.eq_nil_of_length_eq_zero (by omega)
            rw [hnil, List.nil_append] at heq
            exact ⟨heq, fun _ => hnil⟩
      intro a ha hsemi
      rcases List.mem_cons.mp ha with rfl | ha
      · exact htail.2 hsemi
      · exact ih hrest htail.1 a ha hsemi

/-- When the list of networks is read back. -/
theorem allowed_back {smuggledIn : List Str} (hne : allowed ≠ [])
    (h : ∀ v ∈ allowed, AllowedItem v ∧ 35 ∉ v) :
    (if (smuggledIn ++ allowed.flatMap fun a => allowedItems (lineValue a)).isEmpty
      then defaultAllowedIps
      else smuggledIn ++ allowed.flatMap fun a => allowedItems (lineValue a)) = allowed ↔
      AllowedBack smuggledIn allowed := by
  have hback : ∀ item ∈ (allowed.flatMap fun a => allowedItems (lineValue a)),
      (!item.contains 59) = true := by
    intro item hitem
    obtain ⟨a, ha, hitem⟩ := List.mem_flatMap.mp hitem
    rw [noSemicolon_back (h a ha).2 hitem]
    rfl
  constructor
  · intro heq
    have hnonempty : (smuggledIn ++ allowed.flatMap fun a => allowedItems (lineValue a)) ≠ [] := by
      intro hempty
      -- then the defaults came back, and none of them has a `;`
      rw [if_pos (by rw [hempty]; rfl)] at heq
      have hplain : (allowed.filter fun a => !a.contains 59) = allowed := by
        rw [← heq]
        decide
      have hsub := filter_sublist_back h
      rw [hplain, (List.append_eq_nil_iff.mp hempty).2, List.sublist_nil] at hsub
      exact hne hsub
    rw [if_neg (by simpa using hnonempty)] at heq
    have hfilter := congrArg (List.filter fun a => !a.contains 59) heq
    rw [List.filter_append, List.filter_eq_self.mpr hback] at hfilter
    have hle := (filter_sublist_back h).length_le
    have hlength := congrArg List.length hfilter
    rw [List.length_append] at hlength
    have hnone : (smuggledIn.filter fun a => !a.contains 59) = [] :=
      List.eq_nil_of_length_eq_zero (by omega)
    rw [hnone, List.nil_append] at hfilter
    refine ⟨?_, fun a ha => ?_⟩
    · rw [← hfilter]
      exact heq.symm
    · have hmem : a ∈ allowed := by
        rw [← heq]
        exact List.mem_append_left _ ha
      have hsemi := List.filter_eq_nil_iff.mp hnone a ha
      exact dropped_of_filter h hfilter a hmem (by simpa using hsemi)
  · rintro ⟨hallowed, hdropped⟩
    have hparts : (allowed.flatMap fun a => allowedItems (lineValue a)) =
        allowed.filter fun a => !a.contains 59 := by
      have hfirst : (smuggledIn.flatMap fun a => allowedItems (lineValue a)) = [] :=
        List.flatMap_eq_nil_iff.mpr hdropped
      have hsecond : ((allowed.filter fun a => !a.contains 59).flatMap
          fun a => allowedItems (lineValue a)) = allowed.filter fun a => !a.contains 59 := by
        have hsingle : ∀ a ∈ allowed.filter (fun a => !a.contains 59),
            allowedItems (lineValue a) = [a] := by
          intro a ha
          rw [List.mem_filter, Bool.not_eq_true'] at ha
          exact allowedItems_back (h a ha.1) ha.2
        rw [List.flatMap_congr hsingle, List.flatMap_singleton']
      conv_lhs => rw [hallowed]
      rw [List.flatMap_append, hfirst, hsecond, List.nil_append]
    rw [hparts, ← hallowed, if_neg (by simpa using hne)]

end Allowed

/-! ## the rows of a scan -/

/-- The seven columns come back exactly when nothing in them is cut, the public
key is there and the file name adds nothing. -/
theorem reparsed_eq_iff {n ifname pub : Str} {t : ScannedTunnel} (h : t.Lines)
    (hport : t.listenPort < 2 ^ 63) :
    (t.record n ifname pub).ReadsBack ↔ Adoptable ifname t := by
  have hempty : LineText [] := ⟨by decide, trimmed_of_all fun c hc => absurd hc List.not_mem_nil⟩
  have hpub : LineText (printed t.peerPublicKey) := by
    cases hkey : t.peerPublicKey with
    | none => exact lineText_of_noSpace (by decide)
    | some v => exact (h.peerPublicKey v hkey).toLineText
  have hoptional : ∀ {o : Option Str}, (∀ v, o = some v → Filled v) →
      LineText (orDefault o []) := by
    intro o ho
    cases o with
    | none => exact hempty
    | some v =>
        rw [orDefault_filled (ho v rfl)]
        exact (ho v rfl).toLineText
  have hallowed : ∀ a ∈ t.allowedIps, LineText a := fun a ha =>
    lineText_of_noSpace fun c hc => ((h.allowedIps a ha).1.chars c hc).1
  obtain ⟨hlocal, hlocalBack⟩ := localLla_back h.localLla h.noSlash
  rw [PeerRecordBase.ReadsBack, NetBackendArgs.reparsed]
  dsimp only [rowBackendArgs, ScannedTunnel.record]
  rw [parse_renderNetworkdNetdev h.privateKey.toLineText hport hpub (hoptional h.endpoint) hallowed,
    parse_renderNetworkdNetwork hlocal (hoptional h.peerLla)]
  dsimp only [tunnelOf, PeerRecordBase.tunnel]
  rw [ScannedTunnel.mk.injEq, textOf_lineValue, textOf_lineValue, textOf_lineValue,
    lineValue_eq_self_iff h.privateKey.trimmed, listenPort_back h.port, hlocalBack,
    printed_back h.peerPublicKey, endpoint_back h.endpoint, allowed_back h.someAllowed h.allowedIps,
    optional_back h.peerLla]
  constructor
  · rintro ⟨hpriv, hno, hlla, hkey, ⟨hep, hnoEp⟩, hips, hpeer⟩
    exact ⟨hkey, hpriv, hlla, hep, hpeer, hips, hnoEp, hno⟩
  · rintro ⟨hkey, hpriv, hlla, hep, hpeer, hips, hnoEp, hno⟩
    exact ⟨hpriv, hno, hlla, hkey, ⟨hep, hnoEp⟩, hips, hpeer⟩

/-- The rows a scan has added. -/
def importedRows (db db' : Db) : List PeerRecordBase :=
  (db'.bgpPeers.drop db.bgpPeers.length).map (·.toPeerRecordBase) ++
    (db'.ibgpPeers.drop db.ibgpPeers.length).map (·.toPeerRecordBase)

/-- A row the scan imported is the record of a candidate it read. -/
theorem RowsFrom.imported {files : ScanFiles} {config : AppConfig} {wg : WgCommand}
    {babel : List (Str × BabelParams)} {db db' : Db} {seen : List Str} {row : PeerRecordBase}
    (h : RowsFrom files config wg babel db db' seen) (hrow : row ∈ importedRows db db') :
    ∃ x ∈ seen, ∃ c pub, Reads files config x c ∧ c.tunnel.listenPort < 2 ^ 63 ∧
      row = c.tunnel.record config.nodeId x pub := by
  have hport : ∀ {n x pub : Str} {c : Candidate}, c.tunnel.Lines →
      params (c.rowParams n babel x pub) = none → c.tunnel.listenPort < 2 ^ 63 := by
    intro n x pub c hlines hfits
    rw [← convert_int hlines.port]
    refine params_eq_none.mp hfits _ ?_
    cases c with
    | bgp asn t =>
        simp [Candidate.rowParams, Database.baseParams, ScannedTunnel.record, Candidate.tunnel]
    | ibgp name peerIp t =>
        simp [Candidate.rowParams, Database.baseParams, ScannedTunnel.record, Candidate.tunnel]
  have hlines : ∀ {x c}, Reads files config x c → c.tunnel.Lines := by
    intro x c hc
    obtain ⟨-, netdev, network, birdLla, hsource⟩ := readCandidate_ok hc
    exact hsource.lines
  rcases List.mem_append.mp hrow with hrow | hrow
  · obtain ⟨r, hr, rfl⟩ := List.mem_map.mp hrow
    obtain ⟨x, hx, asn, t, pub, hc, -, hfits, hrecord⟩ := h.bgp r hr
    refine ⟨x, hx, .bgp asn t, pub, hc, hport (hlines hc) hfits, ?_⟩
    rw [hrecord]
    rfl
  · obtain ⟨r, hr, rfl⟩ := List.mem_map.mp hrow
    obtain ⟨x, hx, name, peerIp, t, pub, hc, -, hfits, hrecord⟩ := h.ibgp r hr
    refine ⟨x, hx, .ibgp name peerIp t, pub, hc, hport (hlines hc) hfits, ?_⟩
    rw [hrecord]
    rfl

section Rows

variable {isWord : Nat → Bool} {now : Str} {wg : WgCommand} {files : ScanFiles} {config : AppConfig}
  {db db' : Db} {r : ScanResult} {row : PeerRecordBase}

/-- Where a row of a scan comes from, and when it comes back. -/
theorem importedRow_reads
    (hscan : eval (scanLocalConfigs isWord now (some wg) files config) db = (.ok r, db'))
    (hrow : row ∈ importedRows db db') :
    row.ifname ∈ candidates files config ∧ ∃ c, Reads files config row.ifname c ∧
      c.tunnel = row.tunnel ∧ (row.ReadsBack ↔ Adoptable row.ifname c.tunnel) := by
  rcases @scan_cases isWord files config wg db now with
    ⟨-, r', db'', hrun, hinv⟩ | ⟨-, e, db'', hrun⟩
  · rw [hscan, Prod.mk.injEq] at hrun
    obtain ⟨-, rfl⟩ := hrun
    obtain ⟨x, hx, c, pub, hc, hport, rfl⟩ := hinv.rows.imported hrow
    obtain ⟨-, netdev, network, birdLla, hsource⟩ := readCandidate_ok hc
    exact ⟨hx, c, hc, rfl, reparsed_eq_iff hsource.lines hport⟩
  · rw [hscan] at hrun
    cases hrun

/-- Adopting a configuration keeps it exactly when its files say what
`Adoptable` asks of them. -/
theorem adoption_keeps_iff
    (hscan : eval (scanLocalConfigs isWord now (some wg) files config) db = (.ok r, db'))
    (hrow : row ∈ importedRows db db') :
    ∃ c, Reads files config row.ifname c ∧ (row.ReadsBack ↔ Adoptable row.ifname c.tunnel) := by
  obtain ⟨-, c, hc, -, hiff⟩ := importedRow_reads hscan hrow
  exact ⟨c, hc, hiff⟩

end Rows

/-- A `.netdev` file that names its peer. -/
def namedPeer : String := "[WireGuard]\nPrivateKey=k\n[WireGuardPeer]\nPublicKey=q"

/-- A `.netdev` file that does not. -/
def unnamedPeer : String := "[WireGuard]\nPrivateKey=k"

/-- A scan of a machine with one BGP tunnel. -/
abbrev scanMachine (netdev : String) : DbTx ScanResult :=
  scanLocalConfigs (fun _ => false) (lit "t") (some sampleWg) (machineFiles netdev "64512")
    sampleConfig

/-- The columns it finds. -/
def adoptedTunnel (peerPublicKey : Option Str) : ScannedTunnel where
  privateKey := lit "k"
  listenPort := 0
  localLla := lit "fe80::2"
  peerPublicKey := peerPublicKey
  endpoint := none
  allowedIps := defaultAllowedIps
  peerLla := some (lit "fe80::1")

theorem adoptable_adoptedTunnel : Adoptable (lit "dn42_1") (adoptedTunnel (some (lit "q"))) := by
  have hsmuggled : smuggled (lit "dn42_1") = (lit "NetDev", {}) := by decide +kernel
  refine ⟨⟨_, rfl, by decide⟩, by decide, by decide, (fun v hv => by cases hv), fun v hv => ?_,
    ?_, fun _ => ?_, fun _ => ?_⟩
  · cases hv
    decide
  · rw [hsmuggled]
    exact ⟨by decide, fun a ha => absurd ha List.not_mem_nil⟩
  · rw [hsmuggled]
    rfl
  · rw [hsmuggled]
    decide

/-- One row comes of it, with the columns the files give. -/
theorem importedRow_machine {netdev : String} {key : Option Str}
    (hok : (eval (scanMachine netdev) Db.empty).1.isOk = true)
    (hlength : (importedRows Db.empty (eval (scanMachine netdev) Db.empty).2).length = 1)
    (hcandidates : candidates (machineFiles netdev "64512") sampleConfig = [lit "dn42_1"])
    (hread : ((readCandidate (machineFiles netdev "64512") sampleConfig
      (lit "dn42_1")).2.toOption.map Candidate.tunnel) = some (adoptedTunnel key)) :
    ∃ r db' row, eval (scanMachine netdev) Db.empty = (.ok r, db') ∧
      row ∈ importedRows Db.empty db' ∧ row.tunnel = adoptedTunnel key ∧
      (row.ReadsBack ↔ Adoptable (lit "dn42_1") (adoptedTunnel key)) := by
  generalize heval : eval (scanMachine netdev) Db.empty = outcome at hok hlength
  obtain ⟨result, db'⟩ := outcome
  cases result with
  | error e => cases hok
  | ok r =>
      obtain ⟨row, hrow⟩ := List.length_eq_one_iff.mp hlength
      have hmem : row ∈ importedRows Db.empty db' := by
        rw [hrow]
        exact List.mem_singleton_self row
      obtain ⟨hx, c, hc, htunnel, hiff⟩ := importedRow_reads heval hmem
      rw [hcandidates, List.mem_singleton] at hx
      rw [hx] at hc hiff
      rw [Reads] at hc
      rw [hc] at hread
      have hcolumns : c.tunnel = adoptedTunnel key := Option.some.inj hread
      rw [hcolumns] at htunnel hiff
      exact ⟨r, db', row, rfl, hmem, htunnel.symm, hiff⟩

/-- A tunnel that names its peer is kept. -/
theorem adoption_keeps_named : ∃ r db' row, eval (scanMachine namedPeer) Db.empty = (.ok r, db') ∧
    row ∈ importedRows Db.empty db' ∧ row.ReadsBack ∧
    ∃ c, Reads (machineFiles namedPeer "64512") sampleConfig row.ifname c ∧
      Adoptable row.ifname c.tunnel := by
  obtain ⟨r, db', row, hscan, hmem, -, hiff⟩ := @importedRow_machine namedPeer (some (lit "q"))
    (by decide +kernel) (by decide +kernel) (by decide +kernel) (by decide +kernel)
  have hback := hiff.mpr adoptable_adoptedTunnel
  obtain ⟨c, hc, hkeeps⟩ := adoption_keeps_iff hscan hmem
  exact ⟨r, db', row, hscan, hmem, hback, c, hc, hkeeps.mp hback⟩

/-- A tunnel that does not is rendered with the key `None`, which is read back as
a key. -/
theorem adoption_invents_key : ∃ r db' row,
    eval (scanMachine unnamedPeer) Db.empty = (.ok r, db') ∧ row ∈ importedRows Db.empty db' ∧
      row.tunnel = adoptedTunnel none ∧ ¬ row.ReadsBack := by
  obtain ⟨r, db', row, hscan, hmem, htunnel, hiff⟩ := @importedRow_machine unnamedPeer none
    (by decide +kernel) (by decide +kernel) (by decide +kernel) (by decide +kernel)
  refine ⟨r, db', row, hscan, hmem, htunnel, fun hback => ?_⟩
  obtain ⟨v, hv, -⟩ := (hiff.mp hback).peerPublicKey
  cases hv

end Dn42Ctl
