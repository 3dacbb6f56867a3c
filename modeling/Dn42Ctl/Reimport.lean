import Dn42Ctl.Confinement
import Dn42Ctl.PeerSpecs
import Dn42Ctl.Lib.Trim

/-!
# Reimport

`services/report_import.py`: importing a report with the peers of an earlier one.
An entry is skipped when a row with its key exists.  A BGP peer is stored under
the number it was looked up with; an iBGP peer is looked up under the name that
was sent and stored under what `sanitize_name` makes of it.

* `sanitizeName_fixed` — a stored name is its own clean form;
* `Imported` — what an import does to the peers, entry by entry;
* `reimport_skips_iff` — when a second import skips every entry, and what is
  left behind by one that raises.
-/

namespace Dn42Ctl

open Text Txn Prog

/-! ## clean names -/

/-- What `sanitize_name` returns: lower-case words joined by single underscores. -/
structure CleanName (s : Str) : Prop where
  nonempty : s ≠ []
  chars : ∀ c ∈ s, isNameChar c = true ∧ ¬ (65 ≤ c ∧ c ≤ 90)
  squeezed : Squeezed 95 s
  trimmed : Trimmed (· == 95) s

theorem isSpace_of_nameChar {c : Nat} (h : isNameChar c = true) : isSpace c = false := by
  have hrange : 48 ≤ c ∧ c ≤ 122 := by
    simp only [isNameChar, isAlnum, Bool.or_eq_true, Bool.and_eq_true, decide_eq_true_eq,
      beq_iff_eq] at h
    omega
  have hall : ∀ d : Fin 123, 48 ≤ d.val → isSpace d.val = false := by decide
  exact hall ⟨c, by omega⟩ hrange.1

/-- The lower case of a character of a name, and when it is an underscore. -/
theorem lower_nameChar {c : Nat} (h : isNameChar c = true) :
    ∃ l, (if 65 ≤ c ∧ c ≤ 90 then c + 32 else if c = 0x212A then 107 else c) = l ∧
      (isNameChar l = true ∧ ¬ (65 ≤ l ∧ l ≤ 90)) ∧ (l = 95 ↔ c = 95) := by
  simp only [isNameChar, isAlnum, Bool.or_eq_true, Bool.and_eq_true, decide_eq_true_eq,
    beq_iff_eq] at h ⊢
  refine ⟨_, rfl, ?_⟩
  split
  · omega
  · split <;> omega

theorem cleanName_of_sanitizeName {name s : Str} (h : sanitizeName name = .ok s) :
    CleanName s := by
  rw [sanitizeName] at h
  split at h
  · cases h
  · rename_i hempty
    cases h
    generalize hwords : subRuns (fun c => !isNameChar c) 95 false (strip name) = words at hempty ⊢
    have hchars : ∀ c ∈ stripOf 95 (subRuns (· == 95) 95 false words), isNameChar c = true := by
      intro c hc
      rcases mem_subRuns (mem_of_mem_trim hc) with rfl | ⟨hword, -⟩
      · rfl
      · rw [← hwords] at hword
        rcases mem_subRuns hword with rfl | ⟨-, hnot⟩
        · rfl
        · simpa using hnot
    have htrimmed : Trimmed (· == 95) (stripOf 95 (subRuns (· == 95) 95 false words)) :=
      trimmed_trim _ _
    have hsqueezed : Squeezed 95 (stripOf 95 (subRuns (· == 95) 95 false words)) :=
      List.IsChain.infix squeezed_subRuns (trim_part _ _)
    refine ⟨?_, ?_, hsqueezed.map ?_, htrimmed.map ?_⟩
    · simpa [lower] using hempty
    · intro c hc
      obtain ⟨a, ha, rfl⟩ := List.mem_map.mp hc
      obtain ⟨l, hl, hclean, -⟩ := lower_nameChar (hchars a ha)
      rw [hl]
      exact hclean
    · intro a ha hunder
      obtain ⟨l, hl, -, hiff⟩ := lower_nameChar (hchars a ha)
      exact hiff.mp (hl.symm.trans hunder)
    · intro a ha hnot
      obtain ⟨l, hl, -, hiff⟩ := lower_nameChar (hchars a ha)
      rw [hl, beq_eq_false_iff_ne, ne_eq, hiff]
      simpa using hnot

theorem sanitizeName_of_clean {s : Str} (h : CleanName s) : sanitizeName s = .ok s := by
  have hstrip : strip s = s :=
    trim_of_trimmed (trimmed_of_all fun c hc => isSpace_of_nameChar (h.chars c hc).1)
  have hwords : subRuns (fun c => !isNameChar c) 95 false s = s :=
    subRuns_of_none fun c hc => by simp [(h.chars c hc).1]
  have hlower : lower s = s := by
    rw [lower]
    conv_rhs => rw [← List.map_id s]
    refine List.map_congr_left fun c hc => ?_
    obtain ⟨hname, hcapital⟩ := h.chars c hc
    have hkelvin : c ≠ 0x212A := by
      simp only [isNameChar, isAlnum, Bool.or_eq_true, Bool.and_eq_true, decide_eq_true_eq,
        beq_iff_eq] at hname
      omega
    rw [if_neg hcapital, if_neg hkelvin]
    rfl
  have htrim : stripOf 95 s = s := trim_of_trimmed h.trimmed
  rw [sanitizeName, hstrip, hwords, subRuns_of_squeezed h.squeezed, htrim, hlower,
    if_neg (by simpa using h.nonempty)]
  rfl

/-- The name a peer is stored under is its own clean form. -/
theorem sanitizeName_fixed {name s : Str} (h : sanitizeName name = .ok s) :
    sanitizeName s = .ok s :=
  sanitizeName_of_clean (cleanName_of_sanitizeName h)

/-! ## what an import does to the peers -/

/-- From `w` to `w'` peers were added at the end, iBGP peers under clean names. -/
structure Imported (w w' : Db) : Prop where
  bgp : w.bgpPeers <+: w'.bgpPeers
  ibgp : w.ibgpPeers <+: w'.ibgpPeers
  clean : ∀ x ∈ w'.ibgpPeers, x ∈ w.ibgpPeers ∨ sanitizeName x.name = .ok x.name

namespace Imported

variable {w w' w'' : Db}

theorem refl (w : Db) : Imported w w := ⟨List.prefix_rfl, List.prefix_rfl, fun _ hx => .inl hx⟩

theorem trans (h : Imported w w') (h' : Imported w' w'') : Imported w w'' where
  bgp := h.bgp.trans h'.bgp
  ibgp := h.ibgp.trans h'.ibgp
  clean := fun x hx => (h'.clean x hx).elim (h.clean x) .inr

/-- A peer that could be found still is. -/
theorem getBgpPeer (h : Imported w w') {n : Str} {asn : Int}
    (hfound : (w.getBgpPeer n asn).isSome) : (w'.getBgpPeer n asn).isSome := by
  rw [Db.getBgpPeer, List.find?_isSome] at hfound ⊢
  obtain ⟨x, hx, hkey⟩ := hfound
  exact ⟨x, h.bgp.subset hx, hkey⟩

theorem getIbgpPeer (h : Imported w w') {n name : Str}
    (hfound : (w.getIbgpPeer n name).isSome) : (w'.getIbgpPeer n name).isSome := by
  rw [Db.getIbgpPeer, List.find?_isSome] at hfound ⊢
  obtain ⟨x, hx, hkey⟩ := hfound
  exact ⟨x, h.ibgp.subset hx, hkey⟩

/-- A name that can be found only now is a clean one. -/
theorem clean_of_found (h : Imported w w') {n name : Str}
    (hfound : (w'.getIbgpPeer n name).isSome) :
    (w.getIbgpPeer n name).isSome ∨ sanitizeName name = .ok name := by
  rw [Db.getIbgpPeer, List.find?_isSome] at hfound ⊢
  obtain ⟨x, hx, hkey⟩ := hfound
  refine (h.clean x hx).imp (fun hold => ⟨x, hold, hkey⟩) fun hclean => ?_
  rw [IbgpRow.is, Bool.and_eq_true, beq_iff_eq, beq_iff_eq] at hkey
  rw [← hkey.2]
  exact hclean

/-- Nothing was added before a state in which nothing has been. -/
theorem same_of_same (h : Imported w w') (h' : Imported w' w'') (hsame : SamePeers w w'') :
    SamePeers w w' where
  bgp := by
    have hle := h'.bgp.length_le
    rw [hsame.bgp] at hle
    exact (h.bgp.eq_of_length_le hle).symm
  ibgp := by
    have hle := h'.ibgp.length_le
    rw [hsame.ibgp] at hle
    exact (h.ibgp.eq_of_length_le hle).symm

end Imported

/-! ## one entry -/

section Entry

variable {env : PeerEnv} {cfg n : Str} {peer : JsonObject} {w w' : Db} {created : Bool}

/-- The entry is skipped: a peer has its number. -/
def BgpPresent (n : Str) (w : Db) (peer : JsonObject) : Prop :=
  ∃ parsed, parseBgpPeer peer = .ok parsed ∧ params [.text n, .int parsed.peerAsn] = none ∧
    (w.getBgpPeer n parsed.peerAsn).isSome

/-- The entry is skipped: a peer has its name, as it was sent. -/
def IbgpPresent (n : Str) (w : Db) (peer : JsonObject) : Prop :=
  ∃ parsed, parseIbgpPeer peer = .ok parsed ∧ params [.text n, .text parsed.name] = none ∧
    (w.getIbgpPeer n parsed.name).isSome

/-- A query on a connection of its own. -/
theorem run_lookup_eq_ok {α : Type} {msg : PyError} {b : Option BindError} {f : Db → α} {a : α} :
    (onConnection (queryOr msg b f)).run w = (.ok a, w') ↔ b = none ∧ f w = a ∧ w' = w := by
  show eval (queryOr msg b f) w = (.ok a, w') ↔ _
  rw [eval_eq_ok]
  constructor
  · rintro ⟨c', hrun, rfl⟩
    obtain ⟨hbind, hfound, rfl⟩ := Txn.run_queryOr_eq_ok.mp hrun
    exact ⟨hbind, hfound, rfl⟩
  · rintro ⟨hbind, hfound, rfl⟩
    exact ⟨_, Txn.run_queryOr_eq_ok.mpr ⟨hbind, hfound, rfl⟩, rfl⟩

/-- Parse, look up and create: what both kinds of entry do, when they return. -/
theorem run_importOne {π ρ : Type} {r : Except PyError π} {msg : PyError}
    {b : π → Option BindError} {get : π → Db → Option ρ} {create : π → DbTx PeerResult} :
    (do
      let parsed ← liftCheck r
      let existing ← onConnection (queryOr msg (b parsed) (get parsed))
      if existing.isSome then pure false
      else do
        let _ ← onConnection (create parsed)
        pure true : Service Bool).run w = (.ok created, w') ↔
      ∃ parsed, r = .ok parsed ∧ b parsed = none ∧
        ((get parsed w).isSome ∧ created = false ∧ w' = w ∨
          get parsed w = none ∧ created = true ∧ ∃ res, eval (create parsed) w = (.ok res, w')) := by
  rw [run_bind_eq_ok]
  constructor
  · rintro ⟨parsed, w1, hparse, h⟩
    obtain ⟨hr, rfl⟩ := run_liftCheck_eq_ok.mp hparse
    obtain ⟨existing, w2, hlookup, h⟩ := run_bind_eq_ok.mp h
    obtain ⟨hbind, rfl, rfl⟩ := run_lookup_eq_ok.mp hlookup
    refine ⟨parsed, hr, hbind, ?_⟩
    split at h
    · rename_i hsome
      cases h
      exact .inl ⟨hsome, rfl, rfl⟩
    · rename_i hnone
      obtain ⟨res, w3, hcreate, h⟩ := run_bind_eq_ok.mp h
      cases h
      exact .inr ⟨Option.not_isSome_iff_eq_none.mp hnone, rfl, res, hcreate⟩
  · rintro ⟨parsed, hparse, hbind, h⟩
    refine ⟨parsed, w, run_liftCheck_eq_ok.mpr ⟨hparse, rfl⟩, ?_⟩
    refine run_bind_eq_ok.mpr ⟨_, w, run_lookup_eq_ok.mpr ⟨hbind, rfl, rfl⟩, ?_⟩
    rcases h with ⟨hsome, rfl, rfl⟩ | ⟨hnone, rfl, res, hcreate⟩
    · rw [if_pos hsome]
      rfl
    · rw [hnone, Option.isSome_none, if_neg Bool.false_ne_true]
      exact run_bind_eq_ok.mpr ⟨res, w', hcreate, rfl⟩

theorem importBgp_cases :
    (importBgp env cfg n peer).run w = (.ok created, w') ↔
      ∃ parsed, parseBgpPeer peer = .ok parsed ∧ params [.text n, .int parsed.peerAsn] = none ∧
        ((w.getBgpPeer n parsed.peerAsn).isSome ∧ created = false ∧ w' = w ∨
          w.getBgpPeer n parsed.peerAsn = none ∧ created = true ∧
            ∃ res, eval (createBgpPeer env cfg (parsed.toArgs n)) w = (.ok res, w')) :=
  run_importOne

theorem importIbgp_cases :
    (importIbgp env cfg n peer).run w = (.ok created, w') ↔
      ∃ parsed, parseIbgpPeer peer = .ok parsed ∧ params [.text n, .text parsed.name] = none ∧
        ((w.getIbgpPeer n parsed.name).isSome ∧ created = false ∧ w' = w ∨
          w.getIbgpPeer n parsed.name = none ∧ created = true ∧
            ∃ res, eval (createIbgpPeer env cfg (parsed.toArgs n)) w = (.ok res, w')) :=
  run_importOne

/-- An entry whose peer is present is skipped, and no other. -/
theorem importBgp_skips_iff :
    (importBgp env cfg n peer).run w = (.ok false, w') ↔ BgpPresent n w peer ∧ w' = w := by
  rw [importBgp_cases, BgpPresent]
  constructor
  · rintro ⟨parsed, hparse, hbind, ⟨hsome, -, rfl⟩ | ⟨-, hfalse, -⟩⟩
    · exact ⟨⟨parsed, hparse, hbind, hsome⟩, rfl⟩
    · cases hfalse
  · rintro ⟨⟨parsed, hparse, hbind, hsome⟩, rfl⟩
    exact ⟨parsed, hparse, hbind, .inl ⟨hsome, rfl, rfl⟩⟩

theorem importIbgp_skips_iff :
    (importIbgp env cfg n peer).run w = (.ok false, w') ↔ IbgpPresent n w peer ∧ w' = w := by
  rw [importIbgp_cases, IbgpPresent]
  constructor
  · rintro ⟨parsed, hparse, hbind, ⟨hsome, -, rfl⟩ | ⟨-, hfalse, -⟩⟩
    · exact ⟨⟨parsed, hparse, hbind, hsome⟩, rfl⟩
    · cases hfalse
  · rintro ⟨⟨parsed, hparse, hbind, hsome⟩, rfl⟩
    exact ⟨parsed, hparse, hbind, .inl ⟨hsome, rfl, rfl⟩⟩

/-- After an import of a BGP entry its peer is present. -/
theorem importBgp_present (hn : n ≠ [])
    (h : (importBgp env cfg n peer).run w = (.ok created, w')) :
    Imported w w' ∧ BgpPresent n w' peer ∧
      (created = true → w.bgpPeers.length < w'.bgpPeers.length) := by
  obtain ⟨parsed, hparse, hbind, ⟨hsome, rfl, rfl⟩ | ⟨-, rfl, res, hcreate⟩⟩ :=
    importBgp_cases.mp h
  · exact ⟨.refl _, ⟨parsed, hparse, hbind, hsome⟩, fun hfalse => by cases hfalse⟩
  · obtain ⟨backend, port, keys, -, -, -, -, hbgp, hibgp, -⟩ := eval_createBgpPeer hcreate
    refine ⟨⟨?_, ?_, ?_⟩, ⟨parsed, hparse, hbind, ?_⟩, fun _ => ?_⟩
    · rw [hbgp]
      exact List.prefix_append _ _
    · exact hibgp ▸ List.prefix_rfl
    · rw [hibgp]
      exact fun x hx => .inl hx
    · rw [Db.getBgpPeer, List.find?_isSome, hbgp]
      refine ⟨_, List.mem_append_right _ (List.mem_singleton_self _), ?_⟩
      simp [BgpRow.is, newBgpRow, BgpPeerPayload.toArgs, orDefault_some hn]
    · rw [hbgp, List.length_append]
      exact Nat.lt_succ_self _

/-- After an import of an iBGP entry a peer has its name, or its clean name. -/
theorem importIbgp_present (hn : n ≠ [])
    (h : (importIbgp env cfg n peer).run w = (.ok created, w')) :
    Imported w w' ∧
      (∃ parsed, parseIbgpPeer peer = .ok parsed ∧
        params [.text n, .text parsed.name] = none ∧
        ((w.getIbgpPeer n parsed.name).isSome ∨
          ∃ s, sanitizeName parsed.name = .ok s ∧ (w'.getIbgpPeer n s).isSome)) ∧
      (created = true → w.ibgpPeers.length < w'.ibgpPeers.length) := by
  obtain ⟨parsed, hparse, hbind, ⟨hsome, rfl, rfl⟩ | ⟨-, rfl, res, hcreate⟩⟩ :=
    importIbgp_cases.mp h
  · exact ⟨.refl _, ⟨parsed, hparse, hbind, .inl hsome⟩, fun hfalse => by cases hfalse⟩
  · obtain ⟨s, t, mid, hs, -, -, hibgp, hbgp, -⟩ := eval_createIbgpPeer hcreate
    refine ⟨⟨?_, ?_, ?_⟩, ⟨parsed, hparse, hbind, .inr ⟨s, hs, ?_⟩⟩, fun _ => ?_⟩
    · exact hbgp ▸ List.prefix_rfl
    · rw [hibgp]
      exact List.prefix_append _ _
    · rw [hibgp]
      intro x hx
      rcases List.mem_append.mp hx with hx | hx
      · exact .inl hx
      · rw [List.mem_singleton.mp hx]
        exact .inr (sanitizeName_fixed hs)
    · rw [Db.getIbgpPeer, List.find?_isSome, hibgp]
      refine ⟨_, List.mem_append_right _ (List.mem_singleton_self _), ?_⟩
      simp [IbgpRow.is, newIbgpRow, IbgpPeerPayload.toArgs, orDefault_some hn]
    · rw [hibgp, List.length_append]
      exact Nat.lt_succ_self _

theorem requireName_ok {name : Str} (h : requireName peer = .ok name) :
    Json.lookup (lit "name") peer = some (.str name) := by
  obtain ⟨v, hv, h⟩ := bind_eq_ok.mp h
  obtain ⟨sent, hsent, h⟩ := bind_eq_ok.mp h
  have hsame : sent = name := by
    split at h
    · cases h
    · cases h
      rfl
  rw [requireField] at hv
  cases hlookup : Json.lookup (lit "name") peer with
  | none =>
      rw [hlookup] at hv
      cases hv
  | some value =>
      rw [hlookup] at hv
      cases hv
      cases v with
      | str s =>
          cases hsent
          rw [hsame]
      | _ => cases hsent

/-- The name of a parsed entry is the one it was sent under. -/
theorem lookup_name {parsed : IbgpPeerPayload} (h : parseIbgpPeer peer = .ok parsed) :
    Json.lookup (lit "name") peer = some (.str parsed.name) := by
  obtain ⟨name, hname, h⟩ := bind_eq_ok.mp h
  have hrest : ∀ {hasWg : Bool} {tunnel : Option Str × Option Str}, (do
      let peerIp ← requireIpv6 peer "peer_ip"
      let endpoint ← payloadEndpoint peer
      let netBackend ← payloadNetBackend peer
      let babelRxcost ← requireInt peer "babel_rxcost" validateRxcost
      let babelType ← requireText peer "babel_type" validateBabelType
      let listenPort ← optionalListenPort peer
      pure (⟨name, peerIp, hasWg, tunnel.1, endpoint, tunnel.2, netBackend, babelRxcost,
        babelType, listenPort⟩ : IbgpPeerPayload) : Except PyError IbgpPeerPayload) =
        .ok parsed → parsed.name = name := by
    intro hasWg tunnel h
    obtain ⟨peerIp, -, h⟩ := bind_eq_ok.mp h
    obtain ⟨endpoint, -, h⟩ := bind_eq_ok.mp h
    obtain ⟨netBackend, -, h⟩ := bind_eq_ok.mp h
    obtain ⟨cost, -, h⟩ := bind_eq_ok.mp h
    obtain ⟨type, -, h⟩ := bind_eq_ok.mp h
    obtain ⟨port, -, h⟩ := bind_eq_ok.mp h
    cases h
    rfl
  have hparsed : parsed.name = name := by
    obtain ⟨v, -, h⟩ := bind_eq_ok.mp h
    obtain ⟨hasWg, -, h⟩ := bind_eq_ok.mp h
    cases hasWg with
    | true =>
        obtain ⟨tunnel, -, h⟩ := bind_eq_ok.mp h
        exact hrest h
    | false => exact @hrest false (none, none) h
  rw [hparsed]
  exact requireName_ok hname

end Entry

/-! ## the loops -/

section Loop

variable {one : Nat → JsonObject → Service Bool}
  {count : Option Bool → ImportCounts → ImportCounts} {w w' : Db}

theorem run_withContext_eq_ok {what key : String} {peer : JsonObject} {m : Service Bool}
    {created : Bool} :
    (withContext what key peer m).run w = (.ok created, w') ↔ m.run w = (.ok created, w') := by
  refine run_catching_eq_ok fun e s1 b s2 h => ?_
  split at h
  · cases h
  · cases h

/-- A loop that returns has imported each of its objects, in a state between
its first and its last. -/
theorem importPeers_entries
    (hone : ∀ i peer w created w', (one i peer).run w = (.ok created, w') → Imported w w')
    {peers : List Json} {i : Nat} {counts counts' : ImportCounts}
    (h : (importPeers one count i peers counts).run w = (.ok counts', w')) :
    Imported w w' ∧ ∀ peer, Json.dict peer ∈ peers → ∃ j w1 created w2,
      Imported w w1 ∧ (one j peer).run w1 = (.ok created, w2) ∧ Imported w2 w' := by
  induction peers generalizing i counts w with
  | nil =>
      cases h
      exact ⟨.refl _, fun peer hpeer => absurd hpeer List.not_mem_nil⟩
  | cons entry peers ih =>
      cases entry with
      | dict obj =>
          obtain ⟨created, mid, hobj, hrest⟩ := run_bind_eq_ok.mp h
          obtain ⟨hmid, hentries⟩ := ih hrest
          have hstep := hone i obj w created mid hobj
          refine ⟨hstep.trans hmid, fun peer hpeer => ?_⟩
          rcases List.mem_cons.mp hpeer with hhead | htail
          · cases hhead
            exact ⟨i, w, created, mid, .refl w, hobj, hmid⟩
          · obtain ⟨j, w1, created', w2, h1, hrun, h2⟩ := hentries peer htail
            exact ⟨j, w1, created', w2, hstep.trans h1, hrun, h2⟩
      | _ =>
          obtain ⟨hmid, hentries⟩ := ih h
          refine ⟨hmid, fun peer hpeer => ?_⟩
          rcases List.mem_cons.mp hpeer with hhead | htail
          · cases hhead
          · exact hentries peer htail

/-- `isinstance(peer, dict)`. -/
def isObject : Json → Bool
  | .dict _ => true
  | _ => false

/-- A loop all of whose objects are skipped. -/
theorem importPeers_skips {peers : List Json} {i : Nat} {counts : ImportCounts}
    (hone : ∀ j peer, Json.dict peer ∈ peers → (one j peer).run w = (.ok false, w)) :
    (importPeers one count i peers counts).run w =
      (.ok (peers.foldl (fun c p => count (if isObject p then some false else none) c) counts),
        w) := by
  induction peers generalizing i counts with
  | nil => rfl
  | cons entry peers ih =>
      have hrest := fun {j c} => @ih j c fun j peer hpeer =>
        hone j peer (List.mem_cons_of_mem _ hpeer)
      cases entry with
      | dict obj => exact run_bind_eq_ok.mpr ⟨_, w, hone i obj (List.mem_cons_self ..), hrest⟩
      | _ => exact hrest

theorem foldl_countBgp (peers : List Json) (c : ImportCounts) :
    peers.foldl (fun c p => countBgp (if isObject p then some false else none) c) c =
      { c with bgpSkipped := c.bgpSkipped + peers.countP isObject,
               malformed := c.malformed + peers.countP fun p => !isObject p } := by
  induction peers generalizing c with
  | nil => rfl
  | cons p peers ih =>
      rw [List.foldl_cons, ih]
      cases hp : isObject p with
      | true => simp [hp, countBgp, Nat.add_assoc, Nat.add_comm 1]
      | false => simp [hp, countBgp, Nat.add_assoc, Nat.add_comm 1]

theorem foldl_countIbgp (peers : List Json) (c : ImportCounts) :
    peers.foldl (fun c p => countIbgp (if isObject p then some false else none) c) c =
      { c with ibgpSkipped := c.ibgpSkipped + peers.countP isObject,
               malformed := c.malformed + peers.countP fun p => !isObject p } := by
  induction peers generalizing c with
  | nil => rfl
  | cons p peers ih =>
      rw [List.foldl_cons, ih]
      cases hp : isObject p with
      | true => simp [hp, countIbgp, Nat.add_assoc, Nat.add_comm 1]
      | false => simp [hp, countIbgp, Nat.add_assoc, Nat.add_comm 1]

end Loop

/-! ## the two loops -/

/-- The counts of an import that skips every object. -/
def skippedAll (bgp ibgp : List Json) : ImportCounts where
  bgpSkipped := bgp.countP isObject
  ibgpSkipped := ibgp.countP isObject
  malformed := (bgp.countP fun p => !isObject p) + ibgp.countP fun p => !isObject p

section Entries

variable {env : Nat → PeerEnv} {cfg : Str} {r : NodeReport} {w w' : Db} {counts : ImportCounts}

/-- The loops, when they return. -/
theorem importEntries_cases :
    (importEntries env cfg r).run w = (.ok counts, w') ↔
      ∃ bgp ibgp mid midCounts, reportPeers r.payload = .ok (bgp, ibgp) ∧
        (importPeers (fun i peer => withContext "导入 BGP peer 失败" "peer_asn" peer
          (importBgp (env i) cfg r.nodeId peer)) countBgp 0 bgp {}).run w = (.ok midCounts, mid) ∧
        (importPeers (fun i peer => withContext "导入 iBGP peer 失败" "name" peer
          (importIbgp (env i) cfg r.nodeId peer)) countIbgp bgp.length ibgp midCounts).run mid =
            (.ok counts, w') := by
  rw [importEntries, importEntriesWith, run_bind_eq_ok]
  constructor
  · rintro ⟨⟨bgp, ibgp⟩, w1, hpeers, h⟩
    obtain ⟨hpayload, rfl⟩ := run_liftCheck_eq_ok.mp hpeers
    obtain ⟨midCounts, mid, hbgp, hibgp⟩ := run_bind_eq_ok.mp h
    exact ⟨bgp, ibgp, mid, midCounts, hpayload, hbgp, hibgp⟩
  · rintro ⟨bgp, ibgp, mid, midCounts, hpayload, hbgp, hibgp⟩
    exact ⟨(bgp, ibgp), w, run_liftCheck_eq_ok.mpr ⟨hpayload, rfl⟩,
      run_bind_eq_ok.mpr ⟨midCounts, mid, hbgp, hibgp⟩⟩

theorem importEntries_skips {bgp ibgp : List Json}
    (hpeers : reportPeers r.payload = .ok (bgp, ibgp))
    (hbgp : ∀ peer, Json.dict peer ∈ bgp → BgpPresent r.nodeId w peer)
    (hibgp : ∀ peer, Json.dict peer ∈ ibgp → IbgpPresent r.nodeId w peer) :
    (importEntries env cfg r).run w = (.ok (skippedAll bgp ibgp), w) := by
  refine importEntries_cases.mpr ⟨bgp, ibgp, w, _, hpeers, importPeers_skips ?_, ?_⟩
  · intro j peer hpeer
    exact run_withContext_eq_ok.mpr (importBgp_skips_iff.mpr ⟨hbgp peer hpeer, rfl⟩)
  · rw [importPeers_skips, foldl_countBgp, foldl_countIbgp]
    · simp [skippedAll]
    · intro j peer hpeer
      exact run_withContext_eq_ok.mpr (importIbgp_skips_iff.mpr ⟨hibgp peer hpeer, rfl⟩)

/-- After an import every BGP entry is present, and an iBGP entry is exactly when
it was before or its name is clean. -/
theorem importEntries_present (hn : r.nodeId ≠ [])
    (h : (importEntries env cfg r).run w = (.ok counts, w')) :
    ∃ bgp ibgp, reportPeers r.payload = .ok (bgp, ibgp) ∧ Imported w w' ∧
      (∀ peer, Json.dict peer ∈ bgp → BgpPresent r.nodeId w' peer) ∧
      ∀ peer, Json.dict peer ∈ ibgp → ∃ parsed, parseIbgpPeer peer = .ok parsed ∧
        params [.text r.nodeId, .text parsed.name] = none ∧
        ((w'.getIbgpPeer r.nodeId parsed.name).isSome ↔
          sanitizeName parsed.name = .ok parsed.name ∨
            (w.getIbgpPeer r.nodeId parsed.name).isSome) := by
  obtain ⟨bgp, ibgp, mid, midCounts, hpeers, hfirst, hsecond⟩ := importEntries_cases.mp h
  obtain ⟨hmid, hbgp⟩ := importPeers_entries (fun _ _ _ _ _ hone =>
    (importBgp_present hn (run_withContext_eq_ok.mp hone)).1) hfirst
  obtain ⟨hend, hibgp⟩ := importPeers_entries (fun _ _ _ _ _ hone =>
    (importIbgp_present hn (run_withContext_eq_ok.mp hone)).1) hsecond
  refine ⟨bgp, ibgp, hpeers, hmid.trans hend, fun peer hpeer => ?_, fun peer hpeer => ?_⟩
  · obtain ⟨j, w1, created, w2, -, hone, hafter⟩ := hbgp peer hpeer
    obtain ⟨-, ⟨parsed, hparse, hbind, hsome⟩, -⟩ :=
      importBgp_present hn (run_withContext_eq_ok.mp hone)
    exact ⟨parsed, hparse, hbind, (hafter.trans hend).getBgpPeer hsome⟩
  · obtain ⟨j, w1, created, w2, hbefore, hone, hafter⟩ := hibgp peer hpeer
    obtain ⟨hstep, ⟨parsed, hparse, hbind, hstored⟩, -⟩ :=
      importIbgp_present hn (run_withContext_eq_ok.mp hone)
    refine ⟨parsed, hparse, hbind, fun hfound => ?_, fun hcond => ?_⟩
    · exact ((hmid.trans hend).clean_of_found hfound).symm
    · rcases hcond with hclean | hold
      · rcases hstored with hsent | ⟨s, hs, hfound⟩
        · exact (hstep.trans hafter).getIbgpPeer hsent
        · rw [hclean] at hs
          cases hs
          exact hafter.getIbgpPeer hfound
      · exact (hmid.trans hend).getIbgpPeer hold

/-- An import that adds no peer has found each of its iBGP entries. -/
theorem ibgpPresent_of_same (hn : r.nodeId ≠ [])
    (h : (importEntries env cfg r).run w = (.ok counts, w')) (hsame : SamePeers w w')
    {bgp ibgp : List Json} (hpeers : reportPeers r.payload = .ok (bgp, ibgp)) {peer : JsonObject}
    (hpeer : Json.dict peer ∈ ibgp) : IbgpPresent r.nodeId w peer := by
  obtain ⟨bgp', ibgp', mid, midCounts, hpeers', hfirst, hsecond⟩ := importEntries_cases.mp h
  rw [hpeers] at hpeers'
  cases hpeers'
  obtain ⟨hmid, -⟩ := importPeers_entries (fun _ _ _ _ _ hone =>
    (importBgp_present hn (run_withContext_eq_ok.mp hone)).1) hfirst
  obtain ⟨-, hibgp⟩ := importPeers_entries (fun _ _ _ _ _ hone =>
    (importIbgp_present hn (run_withContext_eq_ok.mp hone)).1) hsecond
  obtain ⟨j, w1, created, w2, hbefore, hone, hafter⟩ := hibgp peer hpeer
  have hrun := run_withContext_eq_ok.mp hone
  obtain ⟨hstep, -, hgrows⟩ := importIbgp_present hn hrun
  have hsame1 := (hmid.trans hbefore).same_of_same (hstep.trans hafter) hsame
  have hsame2 := ((hmid.trans hbefore).trans hstep).same_of_same hafter hsame
  cases created with
  | true =>
      have hlt := hgrows rfl
      rw [hsame1.ibgp, hsame2.ibgp] at hlt
      exact absurd hlt (Nat.lt_irrefl _)
  | false =>
      obtain ⟨⟨parsed, hparse, hbind, hfound⟩, -⟩ := importIbgp_skips_iff.mp hrun
      rw [Db.getIbgpPeer, hsame1.ibgp] at hfound
      exact ⟨parsed, hparse, hbind, hfound⟩

end Entries

/-! ## importing again -/

/-- Report `r` can be imported: it is a scan that was not imported before. -/
structure Db.Importable (w : Db) (id : Nat) (r : NodeReport) : Prop where
  found : w.getReport id = some r
  kind : r.kind = .scanResult
  fresh : r.importedAt = none
  rowid : params [.int id] = none

section Report

variable {env : Nat → PeerEnv} {now cfg : Str} {id : Nat} {r : NodeReport} {w w' : Db}

theorem run_requireImportable :
    (onConnection (requireImportable id)).run w = (.ok r, w') ↔ w.Importable id r ∧ w' = w := by
  show eval (requireImportable id) w = (.ok r, w') ↔ _
  constructor
  · intro h
    obtain ⟨c', hrun, rfl⟩ := eval_eq_ok.mp h
    obtain ⟨hbind, hrun⟩ := bind_queryOr hrun
    cases hr : w.getReport id with
    | none => simp [hr] at hrun
    | some q =>
        simp only [hr] at hrun
        split at hrun
        · simp at hrun
        · rename_i hkind
          cases hat : q.importedAt with
          | some at_ => simp [hat] at hrun
          | none =>
              simp only [hat, Prog.run_pure, Prod.mk.injEq, Except.ok.injEq] at hrun
              obtain ⟨rfl, rfl⟩ := hrun
              exact ⟨⟨hr, not_not.mp hkind, hat, hbind⟩, rfl⟩
  · rintro ⟨h, rfl⟩
    refine eval_eq_ok.mpr ⟨⟨w', w', false, none, false⟩, ?_, rfl⟩
    rw [requireImportable, ReportStore.get, h.rowid, run_bind_ok (run_queryOr_none ..), h.found]
    dsimp only
    rw [if_neg (not_not.mpr h.kind), h.fresh]
    rfl

/-- The report as it is after `mark_imported`. -/
def Db.imported (now : Str) (id : Nat) (w : Db) : Db :=
  { w with
    nodeReports := Rows.updateWhere (fun r => r.id == id)
      (fun r => { r with importedAt := some now }) w.nodeReports }

/-- A report that was read can be marked. -/
theorem run_markImported (hfound : w.getReport id = some r) (hid : params [.int id] = none) :
    ∃ r', (onConnection (ReportStore.markImported now id)).run w = (.ok r', w.imported now id) := by
  have hcount : ((w.nodeReports.countP fun r => r.id == id) == 0) = false := by
    rw [beq_eq_false_iff_ne, ne_eq, countP_eq_zero_iff_find?]
    intro hnone
    rw [Db.getReport, hnone] at hfound
    cases hfound
  have habort : ∀ c : Conn Db, (abortIf ((w.nodeReports.countP fun r => r.id == id) == 0)
      (databaseErrorOf "report 不存在: " (ofInt id)) : DbTx Unit).run c = (.ok (), c) := by
    intro c
    rw [hcount]
    rfl
  have hbody : ∀ {onError : SqlError → PyError}, (guarded onError (do
      let rowcount ← Txn.execute none fun db =>
        .ok (db.nodeReports.countP fun r => r.id == id, db.imported now id)
      abortIf (rowcount == 0) (databaseErrorOf "report 不存在: " (ofInt id))
      commit) : DbTx Unit).run (Conn.fresh w none false) =
      (.ok (), ⟨w.imported now id, w.imported now id, false, none, false⟩) := by
    intro onError
    rw [run_guarded_eq_ok, run_bind_ok (run_execute_none ..), run_bind_ok (habort _)]
    rfl
  have hread : (w.imported now id).getReport id = some { r with importedAt := some now } := by
    have hfind := @Rows.find?_updateWhere_self _ (fun r : NodeReport => r.id == id)
      (fun r => { r with importedAt := some now }) w.nodeReports fun _ _ _ => rfl
    rw [Db.getReport] at hfound
    rw [hfound] at hfind
    exact hfind
  refine ⟨{ r with importedAt := some now }, ?_⟩
  show eval (ReportStore.markImported now id) w = _
  refine eval_eq_ok.mpr ⟨⟨w.imported now id, w.imported now id, false, none, false⟩, ?_, rfl⟩
  rw [ReportStore.markImported, hid]
  exact (run_bind_ok hbody).trans (run_readBack_eq_ok.mpr ⟨rfl, hread, rfl⟩)

/-- Reports as they were, and no peer row changed or removed. -/
structure KeepsRows (w w' : Db) : Prop where
  reports : w'.nodeReports = w.nodeReports
  bgp : w.bgpPeers <+: w'.bgpPeers
  ibgp : w.ibgpPeers <+: w'.ibgpPeers

theorem addsPeers_keepsRows {n : Str} : AddsPeersOf n (KeepsRows w) where
  nodes _ _ h := ⟨h.reports, h.bgp, h.ibgp⟩
  queue _ _ _ _ h := ⟨h.reports, h.bgp, h.ibgp⟩
  addBgp _ _ _ h := ⟨h.reports, h.bgp.trans (List.prefix_append _ _), h.ibgp⟩
  addIbgp _ _ _ h := ⟨h.reports, h.bgp, h.ibgp.trans (List.prefix_append _ _)⟩

theorem importEntries_keepsRows : KeepsRows w ((importEntries env cfg r).run w).2 :=
  maintains_importEntries env cfg addsPeers_keepsRows w ⟨rfl, List.prefix_rfl, List.prefix_rfl⟩

/-- After the loops the report can be marked: `import_report` returns exactly
when they do. -/
theorem run_markEntries {counts : ImportCounts} {mid : Db} (hr : w.Importable id r)
    (hentries : (importEntries env cfg r).run w = (.ok counts, mid)) :
    (importReport env now cfg id).run w = (.ok counts, mid.imported now id) := by
  have hkeeps := @importEntries_keepsRows env cfg r w
  rw [hentries] at hkeeps
  have hfound : mid.getReport id = some r := by
    rw [Db.getReport, hkeeps.reports]
    exact hr.found
  obtain ⟨r', hmark⟩ := @run_markImported now id r mid hfound hr.rowid
  rw [importReport_eq, run_bind_ok (run_requireImportable.mpr ⟨hr, rfl⟩), run_bind_ok hentries,
    run_bind_ok hmark]
  rfl

/-- `import_report`, when it returns. -/
theorem importReport_cases {counts : ImportCounts} :
    (importReport env now cfg id).run w = (.ok counts, w') ↔
      ∃ r mid, w.Importable id r ∧ (importEntries env cfg r).run w = (.ok counts, mid) ∧
        w' = mid.imported now id := by
  constructor
  · intro h
    have hparts := h
    rw [importReport_eq] at hparts
    obtain ⟨r, w1, hread, hrest⟩ := run_bind_eq_ok.mp hparts
    obtain ⟨hr, rfl⟩ := run_requireImportable.mp hread
    obtain ⟨counts', mid, hentries, -⟩ := run_bind_eq_ok.mp hrest
    rw [run_markEntries hr hentries] at h
    cases h
    exact ⟨r, mid, hr, hentries, rfl⟩
  · rintro ⟨r, mid, hr, hentries, rfl⟩
    exact run_markEntries hr hentries

end Report

/-! ## an import in which statements fail -/

section Faults

variable {α β : Type} {m m' : Service α}

/-- What the first program returns, the second one does too. -/
def ReturnsAs (m m' : Service α) : Prop :=
  ∀ w a w', m.run w = (.ok a, w') → m'.run w = (.ok a, w')

theorem ReturnsAs.refl (m : Service α) : ReturnsAs m m := fun _ _ _ h => h

theorem ReturnsAs.bind {f f' : α → Service β} (hm : ReturnsAs m m')
    (hf : ∀ a, ReturnsAs (f a) (f' a)) : ReturnsAs (m >>= f) (m' >>= f') := by
  intro w b w' h
  obtain ⟨a, w1, h1, h2⟩ := run_bind_eq_ok.mp h
  exact run_bind_eq_ok.mpr ⟨a, w1, hm w a w1 h1, hf a w1 b w' h2⟩

theorem ReturnsAs.withContext {m m' : Service Bool} (hm : ReturnsAs m m') (what key : String)
    (peer : JsonObject) : ReturnsAs (withContext what key peer m) (withContext what key peer m') :=
  fun w a w' h => run_withContext_eq_ok.mpr (hm w a w' (run_withContext_eq_ok.mp h))

/-- A connection that returns has met no failing statement. -/
theorem returnsAs_onConnection {m : DbTx α} (hm : Steady m) (f : ConnFault) :
    ReturnsAs (onConnectionWith f m) (onConnection m) := by
  intro w a w' h
  cases hrun : m.run (Conn.fresh w f.fault f.late) with
  | mk res c =>
      have hstart : (onConnectionWith f m).run w = (res, c.committed) := by
        show (onConnectionWith f m) w = _
        rw [onConnectionWith, hrun]
      rw [hstart] at h
      cases h
      exact Atomic.eval_of_run hm (Conn.fresh_clean w f.fault f.late) hrun

theorem returnsAs_importPeers {one one' : Nat → JsonObject → Service Bool}
    (hone : ∀ i peer, ReturnsAs (one i peer) (one' i peer))
    (count : Option Bool → ImportCounts → ImportCounts) (i : Nat) (peers : List Json)
    (counts : ImportCounts) :
    ReturnsAs (importPeers one count i peers counts) (importPeers one' count i peers counts) := by
  induction peers generalizing i counts with
  | nil => exact .refl _
  | cons peer peers ih =>
      cases peer with
      | dict peer => exact .bind (hone i peer) fun created => ih _ _
      | _ => exact ih _ _

theorem steady_createBgpPeer (env : PeerEnv) (cfg : Str) (a : BgpPeerArgs) :
    Steady (createBgpPeer env cfg a) := by
  refine .bind (readOnly_checkValid _).steady fun backend => .bind (atomic_ensureNode _).steady
    fun _ => .bind (readOnly_wrapDatabaseError (.queryOr ..)).steady fun existing => ?_
  split
  · exact .fail _
  · exact .bind (readOnly_bgpListenPort ..).steady fun _ =>
      .bind (readOnly_resolveWgKeypair ..).steady fun _ => .bind (readOnly_checkValid _).steady
      fun _ => .bind (atomic_insertBgpPeer ..).steady fun _ => .pure _

theorem steady_createIbgpPeer (env : PeerEnv) (cfg : Str) (a : IbgpPeerArgs) :
    Steady (createIbgpPeer env cfg a) := by
  refine .bind (atomic_ensureNode _).steady fun _ =>
    .bind (readOnly_check _).steady fun peerName => ?_
  dsimp only
  split
  · exact .fail _
  · exact .bind (readOnly_tunnelFor ..).steady fun _ =>
      .bind (atomic_insertIbgpPeer ..).steady fun _ => .pure _

theorem steady_requireImportable (id : Nat) : Steady (requireImportable id) := by
  refine .bind (.queryOr _ _ _) fun found => ?_
  split
  · exact .fail _
  · split
    · exact .fail _
    · split
      · exact .fail _
      · exact .pure _

/-- The loops. -/
theorem returnsAs_importEntries (faults : Nat → EntryFaults) (env : Nat → PeerEnv) (cfg : Str)
    (r : NodeReport) :
    ReturnsAs (importEntriesWith faults env cfg r) (importEntries env cfg r) := by
  refine .bind (.refl _) fun peers => .bind (returnsAs_importPeers (fun i peer => ?_) _ _ _ _)
    fun counts => returnsAs_importPeers (fun i peer => ?_) _ _ _ _
  · refine ReturnsAs.withContext (.bind (.refl _) fun parsed =>
      .bind (returnsAs_onConnection (.queryOr _ _ _) _) fun existing => ?_) _ _ _
    split
    · exact .refl _
    · exact .bind (returnsAs_onConnection (steady_createBgpPeer _ _ _) _) fun _ => .refl _
  · refine ReturnsAs.withContext (.bind (.refl _) fun parsed =>
      .bind (returnsAs_onConnection (.queryOr _ _ _) _) fun existing => ?_) _ _ _
    split
    · exact .refl _
    · exact .bind (returnsAs_onConnection (steady_createIbgpPeer _ _ _) _) fun _ => .refl _

end Faults

section Raises

variable {env : Nat → PeerEnv} {now cfg : Str} {id : Nat} {w w' : Db} {faults : ImportFaults}

/-- The last connection, when it raises: the report is as it was, or it was marked
and could not be read back. -/
theorem markImported_raises {e : Exc PyError} {mid : Db}
    (h : (onConnectionWith faults.mark (ReportStore.markImported now id)).run mid =
      (.error e, w')) :
    w' = mid ∨ faults.mark.late = true ∧
      ∃ r, (onConnection (ReportStore.markImported now id)).run mid = (.ok r, w') := by
  obtain ⟨r, c, hrun, -⟩ | ⟨e', c, hrun, hsame | ⟨-, hlate, hmarked⟩⟩ :=
    (@atomic_markImported now id).run_fresh mid faults.mark.fault faults.mark.late
  · have hok : (onConnectionWith faults.mark (ReportStore.markImported now id)).run mid =
        (.ok r, c.committed) := by
      show onConnectionWith faults.mark (ReportStore.markImported now id) mid = _
      rw [onConnectionWith, hrun]
    rw [hok] at h
    cases h
  all_goals
    have herror : (onConnectionWith faults.mark (ReportStore.markImported now id)).run mid =
        (.error e', c.committed) := by
      show onConnectionWith faults.mark (ReportStore.markImported now id) mid = _
      rw [onConnectionWith, hrun]
    rw [herror] at h
    cases h
  · exact .inl hsame
  · exact .inr ⟨hlate, hmarked⟩

/-- An import that raises leaves the reports and the peers that were there, unless
it is over and only its last read failed. -/
theorem importReport_raises {e : Exc PyError}
    (h : (importReportWith faults env now cfg id).run w = (.error e, w')) :
    KeepsRows w w' ∨ faults.mark.late = true ∧
      ∃ counts, (importReport env now cfg id).run w = (.ok counts, w') := by
  have hstart : KeepsRows w w := ⟨rfl, List.prefix_rfl, List.prefix_rfl⟩
  rw [importReportWith_eq] at h
  cases hread : (onConnectionWith faults.read (requireImportable id)).run w with
  | mk result w1 =>
      cases result with
      | error e' =>
          have hkept := maintains_onConnectionWith
            (preserves_requireImportable (I := KeepsRows w) id) faults.read w hstart
          rw [run_bind_error hread] at h
          rw [hread] at hkept
          cases h
          exact .inl hkept
      | ok r =>
          have hcalm := returnsAs_onConnection (steady_requireImportable id) faults.read _ _ _ hread
          obtain ⟨hr, rfl⟩ := run_requireImportable.mp hcalm
          have hkept := maintains_importEntriesWith faults.entry env cfg (r := r)
            (addsPeers_keepsRows (w := w1)) w1 hstart
          rw [run_bind_ok hread] at h
          cases hentries : (importEntriesWith faults.entry env cfg r).run w1 with
          | mk result mid =>
              rw [hentries] at hkept
              cases result with
              | error e' =>
                  rw [run_bind_error hentries] at h
                  cases h
                  exact .inl hkept
              | ok counts =>
                  have hloops := returnsAs_importEntries faults.entry env cfg r _ _ _ hentries
                  rw [run_bind_ok hentries] at h
                  have hraised : ∃ e', (onConnectionWith faults.mark
                      (ReportStore.markImported now id)).run mid = (.error e', w') := by
                    rw [run_bind] at h
                    split at h
                    · cases h
                    · next hmark =>
                        cases h
                        exact ⟨_, hmark⟩
                  obtain ⟨e', hmark⟩ := hraised
                  obtain rfl | ⟨hlate, marked, hmarked⟩ := markImported_raises hmark
                  · exact .inl hkept
                  · refine .inr ⟨hlate, counts, ?_⟩
                    rw [importReport_eq, run_bind_ok hcalm, run_bind_ok hloops,
                      run_bind_ok hmarked]
                    rfl

end Raises

/-- Importing report `id`, whose payload is given, skips every object and adds
no peer. -/
def SkipsAll (env : Nat → PeerEnv) (now cfg : Str) (id : Nat) (payload : JsonObject) (w : Db) :
    Prop :=
  ∃ bgp ibgp w', reportPeers payload = .ok (bgp, ibgp) ∧
    (importReport env now cfg id).run w = (.ok (skippedAll bgp ibgp), w') ∧ SamePeers w w'

/-- Every iBGP entry was sent under the name it is stored with, or under the name
of a peer the node has. -/
def SentAsStored (n : Str) (payload : JsonObject) (w : Db) : Prop :=
  ∀ bgp ibgp peer name, reportPeers payload = .ok (bgp, ibgp) → Json.dict peer ∈ ibgp →
    Json.lookup (lit "name") peer = some (.str name) →
      sanitizeName name = .ok name ∨ (w.getIbgpPeer n name).isSome

/-- A second import, given a first one. -/
theorem skipsAll_iff {env env' : Nat → PeerEnv} {now now' cfg cfg' : Str} {id id' : Nat}
    {r r' : NodeReport} {w w1 w2 : Db} {counts : ImportCounts} (hr : w.getReport id = some r)
    (hn : r.nodeId ≠ []) (hfirst : (importReport env now cfg id).run w = (.ok counts, w1))
    (hsame : SamePeers w1 w2) (hr' : w2.Importable id' r') (hnode : r'.nodeId = r.nodeId)
    (hpayload : r'.payload = r.payload) :
    SkipsAll env' now' cfg' id' r.payload w2 ↔ SentAsStored r.nodeId r.payload w := by
  obtain ⟨q, mid, hq, hentries, rfl⟩ := importReport_cases.mp hfirst
  have hqr : q = r := Option.some.inj (hq.found.symm.trans hr)
  subst hqr
  obtain ⟨bgp, ibgp, hpeers, himported, hbgp, hibgp⟩ := importEntries_present hn hentries
  have hpeers' : reportPeers r'.payload = .ok (bgp, ibgp) := by rw [hpayload, hpeers]
  have hfind : ∀ name, w2.getIbgpPeer q.nodeId name = mid.getIbgpPeer q.nodeId name := by
    intro name
    rw [Db.getIbgpPeer, hsame.ibgp]
    rfl
  constructor
  · rintro ⟨bgp', ibgp', w3, hpeers2, hsecond, hsame'⟩ bgp'' ibgp'' peer name hpeers3 hpeer hname
    rw [hpeers] at hpeers3
    cases hpeers3
    obtain ⟨q', mid', hq', hentries', rfl⟩ := importReport_cases.mp hsecond
    have hqr' : q' = r' := Option.some.inj (hq'.found.symm.trans hr'.found)
    subst hqr'
    have hmid : SamePeers w2 mid' := ⟨hsame'.bgp, hsame'.ibgp⟩
    obtain ⟨parsed, hparse, -, hfound⟩ :=
      ibgpPresent_of_same (hnode ▸ hn) hentries' hmid hpeers' hpeer
    obtain ⟨parsed', hparse', -, hiff⟩ := hibgp peer hpeer
    rw [hparse] at hparse'
    cases hparse'
    have hsent := lookup_name hparse
    rw [hname] at hsent
    cases hsent
    rw [hnode, hfind] at hfound
    exact hiff.mp hfound
  · intro hstored
    refine ⟨bgp, ibgp, w2.imported now' id', hpeers, ?_, rfl, rfl⟩
    refine importReport_cases.mpr ⟨r', w2, hr', importEntries_skips hpeers' ?_ ?_, rfl⟩
    · intro peer hpeer
      obtain ⟨parsed, hparse, hbind, hfound⟩ := hbgp peer hpeer
      rw [hnode]
      refine ⟨parsed, hparse, hbind, ?_⟩
      rw [Db.getBgpPeer, hsame.bgp]
      exact hfound
    · intro peer hpeer
      obtain ⟨parsed, hparse, hbind, hiff⟩ := hibgp peer hpeer
      rw [hnode]
      refine ⟨parsed, hparse, hbind, ?_⟩
      rw [hfind]
      exact hiff.mpr (hstored bgp ibgp peer parsed.name hpeers hpeer (lookup_name hparse))

/-- **Importing again.**  After a report was imported, a second one of the node
with the same payload is imported with every object skipped and nothing created,
exactly when every iBGP entry was sent under its clean name or the name of a
peer the node had before.  An import that raises, whichever statement fails, leaves
the reports and the peers that existed as they were, unless only the read after the
mark failed: then it leaves what an import that returns does. -/
theorem reimport_skips_iff (env : Nat → PeerEnv) (now cfg : Str) (id : Nat) (w : Db) :
    (∀ env' now' cfg' id' r r' w1 w2 counts, Db.getReport id w = some r →
      r.nodeId ≠ [] → (importReport env now cfg id).run w = (.ok counts, w1) →
      SamePeers w1 w2 → w2.Importable id' r' → r'.nodeId = r.nodeId → r'.payload = r.payload →
      (SkipsAll env' now' cfg' id' r.payload w2 ↔ SentAsStored r.nodeId r.payload w)) ∧
    ∀ faults w' e, (importReportWith faults env now cfg id).run w = (.error e, w') →
      KeepsRows w w' ∨ faults.mark.late = true ∧
        ∃ counts, (importReport env now cfg id).run w = (.ok counts, w') := by
  refine ⟨?_, fun faults w' e h => importReport_raises h⟩
  intro env' now' cfg' id' r r' w1 w2 counts hr hn hfirst hsame hr' hnode hpayload
  exact skipsAll_iff hr hn hfirst hsame hr' hnode hpayload

/-! ### one payload, imported twice -/

def sampleIbgpPeer (name : String) : JsonObject :=
  [(lit "name", .str (lit name)), (lit "has_wg", .bool false),
    (lit "peer_ip", .str (lit "fd00::2")), (lit "babel_rxcost", .int 96),
    (lit "babel_type", .str (lit "wired"))]

def scanPayload (name : String) : JsonObject :=
  [(lit "bgp_peers", .list [.dict sampleBgpPeer, .null]),
    (lit "ibgp_peers", .list [.dict (sampleIbgpPeer name)])]

/-- A node that has sent the same scan twice. -/
def scannedDb (name : String) : Db :=
  (Machine.exec hubStep Db.empty
    [⟨.call (.addNode (lit "a") (lit "alpha")), lit "t0", none, false⟩,
      ⟨.call (.addReport (lit "a") (lit "scan_result") (scanPayload name)), lit "t1", none, false⟩,
      ⟨.call (.addReport (lit "a") (lit "scan_result") (scanPayload name)), lit "t2", none,
        false⟩]).getD Db.empty

def importScan (id : Nat) : Service ImportCounts :=
  importReport (fun i => { sampleEnv (lit "t3") with draw := fun k => i + k }) (lit "t3")
    (lit "hub") id

def scanReport (id : Nat) (received name : String) : NodeReport :=
  { id, nodeId := lit "a", kind := .scanResult, payload := scanPayload name,
    receivedAt := lit received, importedAt := none }

/-- A clean name is found again. -/
theorem reimport_skips_clean :
    SentAsStored (lit "a") (scanPayload "tokyo") (scannedDb "tokyo") ∧
      ∃ counts w1, (importScan 1).run (scannedDb "tokyo") = (.ok counts, w1) ∧
        SkipsAll (fun _ => sampleEnv (lit "t4")) (lit "t4") (lit "hub") 2 (scanPayload "tokyo")
          w1 := by
  have hsent : SentAsStored (lit "a") (scanPayload "tokyo") (scannedDb "tokyo") := by
    intro bgp ibgp peer name hpeers hpeer hname
    cases hpeers
    cases List.mem_singleton.mp hpeer
    cases hname
    exact .inl rfl
  have hfirst : (importScan 1).run (scannedDb "tokyo") =
      (.ok ⟨1, 0, 1, 0, 1⟩, ((importScan 1).run (scannedDb "tokyo")).2) := Prod.ext rfl rfl
  have hsecond : ((importScan 1).run (scannedDb "tokyo")).2.Importable 2
      (scanReport 2 "t2" "tokyo") := ⟨rfl, rfl, rfl, rfl⟩
  refine ⟨hsent, _, _, hfirst, ?_⟩
  exact ((reimport_skips_iff _ _ _ _ _).1 _ _ _ _ (scanReport 1 "t1" "tokyo") _ _ _ _ rfl
    (by decide) hfirst ⟨rfl, rfl⟩ hsecond rfl rfl).mpr hsent

/-- A name with a capital and a dash is stored as another one: importing the
payload again raises. -/
theorem reimport_renamed_raises :
    ∃ counts w1, (importScan 1).run (scannedDb "To-1") = (.ok counts, w1) ∧
      w1.Importable 2 (scanReport 2 "t2" "To-1") ∧
      ((importScan 2).run w1).1.isOk = false := by
  have hfirst : (importScan 1).run (scannedDb "To-1") =
      (.ok ⟨1, 0, 1, 0, 1⟩, ((importScan 1).run (scannedDb "To-1")).2) := Prod.ext rfl rfl
  exact ⟨_, _, hfirst, ⟨rfl, rfl, rfl, rfl⟩, by decide +kernel⟩

end Dn42Ctl
