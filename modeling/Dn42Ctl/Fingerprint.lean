import Dn42Ctl.Hello
import Dn42Ctl.RenderAgreement
import Dn42Ctl.Rollback

/-!
# Fingerprint

`compute_desired_fingerprint` reads what a node would receive and hashes it;
`build_desired_state` returns it, under a revision that carries a hash.  The
JSON objects behind the two are put together in three places, each with its
own test for an empty node block:

* `computeContentDigest` — the object the fingerprint hashes;
* `basePayload` — the object a revision is computed from;
* `desiredPayload` — the object a snapshot is stored as, which the fingerprint
  of a pinned node takes apart again.

`hash` stands for the first eight hex digits of SHA-256 over
`json.dumps(obj, sort_keys=True, ensure_ascii=False)`.
-/

namespace Dn42Ctl

open Text Txn

/-! ## the three objects -/

section Hash

variable (hash : JsonObject → Str)

/-- `compute_content_digest`: `node` only enters when it is non-empty. -/
def computeContentDigest (nodeId bgpPeers ibgpPeers node : Json) : Str :=
  hash ([(lit "node_id", nodeId), (lit "bgp_peers", bgpPeers), (lit "ibgp_peers", ibgpPeers)] ++
    if node.truthy then [(lit "node", node)] else [])

/-- The digest of a content, from its own fields. -/
def contentDigest (content : DesiredContent) : Str :=
  computeContentDigest hash (.str content.nodeId)
    (.list (content.bgpPeers.map BgpPeerDesired.json))
    (.list (content.ibgpPeers.map IbgpPeerDesired.json)) (.dict content.node.entries)

/-- `base` of `build_desired_state`. -/
def basePayload (content : DesiredContent) : JsonObject :=
  [(lit "node_id", .str content.nodeId),
   (lit "bgp_peers", .list (content.bgpPeers.map BgpPeerDesired.json)),
   (lit "ibgp_peers", .list (content.ibgpPeers.map IbgpPeerDesired.json))] ++
  if content.node.entries.isEmpty then [] else [(lit "node", .dict content.node.entries)]

/-- `_compute_revision` of such an object. -/
def computePayloadRevision (payload : JsonObject) (generatedAt : Str) : Str :=
  generatedAt ++ 45 :: hash payload

/-- What the fingerprint of a pinned node hashes: the entries of the stored
payload.  Older snapshots do not carry `node`. -/
def pinnedDigest (nodeId : Str) (payload : JsonObject) : Str :=
  computeContentDigest hash (Json.getD (lit "node_id") payload (.str nodeId))
    (Json.getD (lit "bgp_peers") payload (.list []))
    (Json.getD (lit "ibgp_peers") payload (.list []))
    (Json.getD (lit "node") payload (.dict []))

/-- The build hashes the object the fingerprint hashes. -/
theorem computeRevision_contentDigest (content : DesiredContent) (now : Str) :
    computeRevision (contentDigest hash) content now =
      computePayloadRevision hash (basePayload content) now := by
  rw [computeRevision, computePayloadRevision, contentDigest, computeContentDigest, basePayload]
  cases content.node.entries with
  | nil => rfl
  | cons e es => rfl

/-- The stored payload hashes as the content it was made of, also when it was
stored without a node block. -/
theorem pinnedDigest_desiredPayload (n : Str) (st : DesiredState) :
    pinnedDigest hash n (desiredPayload st) = contentDigest hash st.toDesiredContent := by
  have hnode : (Json.getD (lit "node") (desiredPayload st) (.dict [])) =
      .dict st.node.entries := by
    rw [desiredPayload]
    cases st.node.entries with
    | nil => rfl
    | cons e es => rfl
  rw [pinnedDigest, hnode]
  rfl

end Hash

/-! ## the pin around a build -/

/-- What recording leaves: the tables as they were, or one more row under a
revision that was not recorded. -/
theorem after_record (db : Db) (n rev gen : Str) (payload : DesiredState) :
    Call.after [] db (.record n rev gen payload) = db ∨
      db.getByRevision n rev = none ∧ Call.after [] db (.record n rev gen payload) = { db with
        configRevisions := db.configRevisions ++ [⟨db.revisionSeq + 1, n, rev, gen, payload⟩]
        revisionSeq := db.revisionSeq + 1 } := by
  rw [Call.after]
  cases hc : (Call.record n rev gen payload).commit [] db with
  | none => exact .inl rfl
  | some done =>
      obtain ⟨mid, evs⟩ := done
      have hnil : evs = [] := events_record hc
      simp only [Call.commit, Option.ite_none_left_eq_some] at hc
      obtain ⟨⟨rowId, hr⟩, -⟩ := committedIf_eq_some hc.2
      obtain ⟨hnone, rfl⟩ := insertRevision_ok hr
      rw [hnil]
      exact .inr ⟨hnone, rfl⟩

section Pin

variable {n rev gen : Str} {content : DesiredContent} {keep : Int} {db : Db}

/-- A pin that names a recorded row names it after a build. -/
theorem getPin_recorded {pin : ConfigRevision} (h : db.getPin n = some pin) :
    (db.recorded n rev gen content keep).getPin n = some pin := by
  obtain ⟨p, hp, hrow⟩ := Option.bind_eq_some_iff.mp h
  have hrev : pin.revision = p.revision := (getByRevision_mem hrow).2
  have hheld : db.Held n pin := ⟨⟨p, hp, hrev.symm⟩, by rw [hrev]; exact hrow⟩
  refine Db.Held.getPin_eq (Db.Held.trim ?_ n keep)
  obtain hsame | ⟨-, hrec⟩ :=
    after_record db n rev gen { content with revision := rev, generatedAt := gen }
  · rw [hsame]
    exact hheld
  · rw [hrec]
    exact ⟨hheld.pinned, getByRevision_append hheld.recorded⟩

/-- A pin that named no row can only have come to name the row of the build. -/
theorem getPin_recorded_none (h : db.getPin n = none) {pin : ConfigRevision}
    (hpin : (db.recorded n rev gen content keep).getPin n = some pin) :
    pin.payload = { content with revision := rev, generatedAt := gen } := by
  obtain ⟨p, hp, hrow⟩ := Option.bind_eq_some_iff.mp hpin
  rw [getPinRow_recorded] at hp
  have habsent : ∀ r ∈ db.configRevisions, ConfigRevision.is n p.revision r = false := by
    rw [Db.getPin, hp, Option.bind_some] at h
    exact fun r hr => Bool.eq_false_iff.mpr (List.find?_eq_none.mp h r hr)
  have his : ConfigRevision.is n p.revision pin = true := List.find?_some hrow
  have hmem : pin ∈ (Call.after [] db (.record n rev gen
      { content with revision := rev, generatedAt := gen })).configRevisions :=
    List.mem_of_mem_filter (List.mem_of_find?_eq_some hrow)
  have hnotMem : pin ∉ db.configRevisions := fun hin => by
    rw [habsent pin hin] at his
    cases his
  obtain hsame | ⟨-, hrec⟩ :=
    after_record db n rev gen { content with revision := rev, generatedAt := gen }
  · rw [hsame] at hmem
    exact absurd hmem hnotMem
  · rw [hrec] at hmem
    obtain hin | hnew := List.mem_append.mp hmem
    · exact absurd hin hnotMem
    · rw [List.mem_singleton.mp hnew]

end Pin

/-! ## agreement -/

section Digest

variable {digest : DesiredContent → Str} {n now : Str} {keep : Int} {db db' : Db}
  {st : DesiredState}

/-- What a build returns, in every database: the pinned payload, or the live
content under a revision that carries its digest. -/
theorem build_returned (hhex : HexDigest digest)
    (h : (buildDesiredState digest now n true keep).run db = (.ok st, db')) :
    st.toDesiredContent = db.desiredContent n ∧
      (db.getPin n = none → Names digest st.revision st.toDesiredContent) := by
  obtain ⟨-, built, hcases, hst⟩ := build_ok h
  rw [Db.desiredContent]
  cases hpin : db.getPin n with
  | some pin =>
      have hpin' : db'.getPin n = some pin := by
        obtain ⟨-, rfl⟩ | ⟨-, -, rfl⟩ := hcases
        · exact hpin
        · exact getPin_recorded hpin
      rw [hpin'] at hst
      exact ⟨by rw [hst], fun hnone => by cases hnone⟩
  | none =>
      have hnames : Names digest built.1 (db.liveContent n) := by
        rw [Names, ← names_computeRevision hhex (db.liveContent n) now]
        obtain ⟨hreuse, -⟩ | ⟨-, hbuilt, -⟩ := hcases
        · exact digest_of_reusable hreuse
        · rw [hbuilt]
      cases hpin' : db'.getPin n with
      | none =>
          rw [hpin'] at hst
          exact ⟨by rw [hst], fun _ => by rw [hst]; exact hnames⟩
      | some pin =>
          -- a pin without a row, which the build has just recorded
          have hst' : st = pin.payload := by
            rw [hst, hpin']
          obtain ⟨-, rfl⟩ | ⟨-, hbuilt, rfl⟩ := hcases
          · rw [hpin] at hpin'
            cases hpin'
          · rw [hst', getPin_recorded_none hpin hpin']
            rw [hbuilt] at hnames
            exact ⟨rfl, fun _ => hnames⟩

/-- The fingerprint writes nothing. -/
theorem fingerprint_keeps (digest : DesiredContent → Str) (n : Str) (db : Db) :
    (eval (computeDesiredFingerprint digest n) db).2 = db := by
  have hkeeps : Preserves (fun d => d = db) (computeDesiredFingerprint digest n) :=
    .bind (preserves_readLive n) fun _ => .bind (preserves_getPin n) fun _ => .pure _
  exact maintains_onConnection hkeeps db rfl

end Digest

section Hash

variable {hash : JsonObject → Str}

theorem hexDigest_contentDigest (hhex : ∀ obj, hash obj ≠ [] ∧ 45 ∉ hash obj) :
    HexDigest (contentDigest hash) := fun _ => hhex _

/-- The digest of a content is the hash of the object its revision is computed
from. -/
theorem contentDigest_eq_basePayload (hash : JsonObject → Str) (content : DesiredContent) :
    contentDigest hash content = hash (basePayload content) := by
  have h := computeRevision_contentDigest hash content []
  rw [computeRevision, computePayloadRevision] at h
  exact List.cons.inj h |>.2

/-- **The fingerprint equals the build**, in every database: it writes nothing,
and its hash is the digest of what a build returns, whichever of the three
objects it is taken of. -/
theorem fingerprint_agrees_with_build (hhex : ∀ obj, hash obj ≠ [] ∧ 45 ∉ hash obj) (db : Db)
    (n : Str) :
    (eval (computeDesiredFingerprint (contentDigest hash) n) db).2 = db ∧
    ∀ now keep st db', (buildDesiredState (contentDigest hash) now n true keep).run db =
        (.ok st, db') →
      ∃ fp, (eval (computeDesiredFingerprint (contentDigest hash) n) db).1 = .ok fp ∧
        fp.contentHash = computeContentDigest hash (.str st.nodeId)
          (.list (st.bgpPeers.map BgpPeerDesired.json))
          (.list (st.ibgpPeers.map IbgpPeerDesired.json)) (.dict st.node.entries) ∧
        (∀ pin, db.getPin n = some pin →
          fp.contentHash = pinnedDigest hash n (desiredPayload pin.payload)) ∧
        (db.getPin n = none →
          fp.contentHash = hash (basePayload (db.liveContent n)) ∧
          digestOfRevision st.revision = some fp.contentHash) := by
  refine ⟨fingerprint_keeps _ n db, fun now keep st db' h => ?_⟩
  obtain ⟨hcontent, hnames⟩ := build_returned (hexDigest_contentDigest hhex) h
  have hb : params [.text n] = none := (build_ok h).1
  rw [eval_fingerprint db hb]
  refine ⟨_, rfl, ?_, fun pin hpin => ?_, fun hnone => ⟨?_, ?_⟩⟩
  · dsimp only
    rw [← hcontent]
    rfl
  · dsimp only
    rw [pinnedDigest_desiredPayload, Db.desiredContent, hpin]
  · dsimp only
    rw [Db.desiredContent, hnone, contentDigest_eq_basePayload]
  · dsimp only
    rw [hnames hnone, hcontent]

end Hash

/-- The hash of the two objects of a node `a` without peers: without an address
of its own, and with `fd00::1`. -/
def sampleHash (obj : JsonObject) : Str :=
  if (Json.lookup (lit "node") obj).isNone then lit "7efbcf6b" else lit "be743994"

theorem sampleHash_hex (obj : JsonObject) : sampleHash obj ≠ [] ∧ 45 ∉ sampleHash obj := by
  rw [sampleHash]
  split
  · exact ⟨by decide, by decide⟩
  · exact ⟨by decide, by decide⟩

/-- The database of a registered node that is not built yet. -/
def registeredDb : Db :=
  (hubStep Db.empty ⟨.call (.addNode (lit "a") (lit "alpha")), lit "t0", none, false⟩).getD Db.empty

theorem fingerprint_agrees_with_build_sample :
    ∃ st db' fp, (buildDesiredState (contentDigest sampleHash) (lit "t1") (lit "a") true 50).run
        registeredDb = (.ok st, db') ∧
      (eval (computeDesiredFingerprint (contentDigest sampleHash) (lit "a")) registeredDb).1 =
        .ok fp ∧
      digestOfRevision st.revision = some fp.contentHash := by
  have hbuild : ∃ st db', (buildDesiredState (contentDigest sampleHash) (lit "t1") (lit "a") true
      50).run registeredDb = (.ok st, db') := ⟨_, _, Prod.ext rfl rfl⟩
  obtain ⟨st, db', h⟩ := hbuild
  obtain ⟨fp, hfp, -, -, hnone⟩ :=
    (fingerprint_agrees_with_build sampleHash_hex registeredDb (lit "a")).2 _ _ _ _ h
  exact ⟨st, db', fp, h, hfp, (hnone rfl).2⟩

end Dn42Ctl
