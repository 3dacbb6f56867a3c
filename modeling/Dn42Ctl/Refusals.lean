import Dn42Ctl.Decisions
import Dn42Ctl.ScanAccounts
import Dn42Ctl.Lib.Digits
import Dn42Ctl.Lib.Endings

/-!
# Refusals

What a submitted peer can be answered with.  A payload without lone surrogates
is checked and applied, or refused with a `Dn42CtlError` whose text can be sent.

* `refuses_applyPeerAdd` — for a new peer whose `peer_kind` can be hashed.
-/

namespace Dn42Ctl

open Text Txn Endings

/-! ## texts -/

/-- The text of the message can be encoded. -/
def Msg.encodable (m : Msg) : Bool := m.all Fragment.encodable

/-- An exception of the class, whose text can be encoded. -/
structure Raises (cls : ErrorClass) (e : PyError) : Prop where
  cls : e.cls = cls
  text : Msg.encodable e.text = true

/-- A `Dn42CtlError` that can be told. -/
def Refusal (e : Exc PyError) : Prop := ∃ err, e = .raised err ∧ Raises .dn42CtlError err

/-- Stripping a text leaves no surrogate that was not there. -/
theorem encodable_strip {s : Str} (h : encodable s = true) : encodable (strip s) = true :=
  encodable_of_chars (fun _ hc => mem_of_mem_strip hc) h

theorem encodable_toDigits (n : Nat) : encodable ((Nat.toDigits 10 n).map Char.toNat) = true := by
  refine encodable_of_small fun c hc => ?_
  have hdigit := asciiDigits_ofInt n c hc
  omega

/-- A number is printed in ASCII. -/
theorem encodable_ofInt (k : Int) : encodable (ofInt k) = true := by
  cases k with
  | ofNat n => exact encodable_toDigits n
  | negSucc n =>
      have hminus : encodable [45] = true := by decide
      exact encodable_append.mpr ⟨hminus, encodable_toDigits (n + 1)⟩

theorem encodable_hexDigit (n : Nat) (h : n < 16) : hexDigit n < 0xD800 := by
  unfold hexDigit
  split <;> omega

/-- A link-local address that is drawn is ASCII. -/
theorem encodable_generateRandomLla (a b : Nat) : encodable (generateRandomLla a b) = true := by
  have hhex : ∀ n, encodable (hex4 n) = true := by
    intro n
    refine encodable_of_small fun c hc => ?_
    simp only [hex4, List.mem_cons, List.not_mem_nil, or_false] at hc
    obtain rfl | rfl | rfl | rfl := hc <;> exact encodable_hexDigit _ (Nat.mod_lt _ (by decide))
  have hstart : encodable (lit "fe80::") = true := by decide
  have hcolon : encodable [58] = true := by decide
  exact encodable_append.mpr ⟨encodable_append.mpr ⟨hstart, hhex _⟩,
    encodable_append.mpr ⟨hcolon, hhex _⟩⟩

/-- The fields of an object without surrogates have none. -/
theorem encodable_lookup {d : JsonObject} (h : Json.encodable (.dict d) = true) {key : Str}
    {v : Json} (hlookup : Json.lookup key d = some v) : Json.encodable v = true := by
  rw [Json.encodable] at h
  induction d with
  | nil => cases hlookup
  | cons entry d ih =>
      obtain ⟨k, w⟩ := entry
      rw [Json.encodableEntries, Bool.and_eq_true, Bool.and_eq_true] at h
      rw [Json.lookup, List.find?_cons] at hlookup
      cases hkey : (k == key) with
      | true =>
          simp only [hkey, Option.map_some, Option.some.injEq] at hlookup
          rw [← hlookup]
          exact h.1.2
      | false =>
          simp only [hkey] at hlookup
          exact ih h.2 hlookup

/-! ## validators -/

theorem encodable_nil : Msg.encodable [] = true := rfl

theorem encodable_cons_text {s : Str} {m : Msg} (hs : encodable s = true)
    (hm : Msg.encodable m = true) : Msg.encodable (.text s :: m) = true := by
  rw [Msg.encodable, List.all_cons, Bool.and_eq_true]
  exact ⟨hs, hm⟩

/-- The `repr` of a value escapes what cannot be encoded. -/
theorem encodable_cons_repr {v : Json} {m : Msg} (hm : Msg.encodable m = true) :
    Msg.encodable (.repr v :: m) = true := by
  rw [Msg.encodable, List.all_cons, Bool.and_eq_true]
  exact ⟨rfl, hm⟩

section Validators

variable {value : Str}

/-- The check returns the key as it is, or tells the text it was given. -/
theorem checks_validatePubkey (h : encodable value = true) :
    Checks (fun s => encodable s = true) (Raises .validationError) (validatePubkey value) := by
  unfold validatePubkey
  dsimp only
  split
  · exact .throw ⟨rfl, by decide⟩
  · split
    · exact .throw ⟨rfl, encodable_cons_text (by decide) (encodable_cons_repr encodable_nil)⟩
    · split
      · exact .throw ⟨rfl, encodable_cons_text (by decide) <|
          encodable_cons_text (encodable_ofInt _) <| encodable_cons_text (by decide) <|
          encodable_cons_repr encodable_nil⟩
      · exact .pure (encodable_strip h)

/-- The port of an endpoint is part of its text. -/
theorem matchEndpoint_digits {host digits : Str} (h : matchEndpoint value = some (host, digits)) :
    ∀ c ∈ digits, c ∈ value := by
  unfold matchEndpoint at h
  split at h
  · cases h
  · next host' digits' hsplit =>
      split at h
      · obtain ⟨rfl, rfl⟩ := Prod.mk.inj (Option.some.inj h)
        obtain ⟨hvalue, -⟩ := rpartition_eq_some hsplit
        intro c hc
        rw [hvalue]
        exact List.mem_append_right _ (List.mem_cons_of_mem _ hc)
      · cases h

/-- An endpoint that is returned is the text that was checked. -/
theorem checks_validateEndpoint (allowEmpty : Bool) (h : encodable value = true) :
    Checks (fun s => encodable s = true) (Raises .validationError)
      (validateEndpoint value allowEmpty) := by
  have hstrip := encodable_strip h
  unfold validateEndpoint
  dsimp only
  split
  · split
    · exact .pure hstrip
    · exact .throw ⟨rfl, by decide⟩
  · split
    · exact .throw ⟨rfl, encodable_cons_text (by decide) (encodable_cons_repr encodable_nil)⟩
    · next host digits hmatch =>
        split
        · have hdigits : encodable (digits.take 16) = true :=
            encodable_of_chars
              (fun c hc => matchEndpoint_digits hmatch c (List.mem_of_mem_take hc)) hstrip
          exact .throw ⟨rfl, encodable_cons_text (by decide) <| encodable_cons_text hdigits <|
            encodable_cons_text (by decide) encodable_nil⟩
        · split
          · exact .pure hstrip
          · exact .throw ⟨rfl, encodable_cons_text (by decide) <|
              encodable_cons_text (encodable_ofInt _) encodable_nil⟩

/-- The error names its field and the text. -/
theorem checks_validateIpv6Address {field : Str} (hfield : encodable field = true)
    (h : encodable value = true) :
    Checks (fun s => encodable s = true) (Raises .validationError)
      (validateIpv6Address value field) := by
  unfold validateIpv6Address validateWith
  dsimp only
  split
  · exact .throw ⟨rfl, encodable_cons_text hfield <| encodable_cons_text (by decide) encodable_nil⟩
  · split
    · exact .pure (encodable_strip h)
    · exact .throw ⟨rfl, encodable_cons_text (by decide) (encodable_cons_repr encodable_nil)⟩

theorem checks_validateBabelType :
    Checks (fun s => encodable s = true) (Raises .validationError) (validateBabelType value) := by
  unfold validateBabelType
  dsimp only
  split
  · next htype =>
      refine .pure ?_
      obtain htype | htype | htype := htype <;> rw [htype] <;> decide
  · exact .throw ⟨rfl, encodable_cons_text (by decide) (encodable_cons_repr encodable_nil)⟩

/-- There are two backends, both ASCII. -/
theorem checks_validateNetBackend :
    Checks (fun s => encodable s = true) (Raises .validationError) (validateNetBackend value) := by
  unfold validateNetBackend
  dsimp only
  split
  · exact .pure (by decide)
  · split
    · exact .pure (by decide)
    · exact .throw ⟨rfl, encodable_cons_text (by decide) (encodable_cons_repr encodable_nil)⟩

/-- A number that a statement can bind. -/
def Bindable (k : Int) : Prop := 0 ≤ k ∧ k < 2 ^ 63

instance (k : Int) : Decidable (Bindable k) := inferInstanceAs (Decidable (_ ∧ _))

/-- Such a number fits a column. -/
theorem convert_bindable {k : Int} (h : Bindable k) : (Param.int k).convert = none :=
  (convert_int h.1).mpr h.2

/-- A port that passes fits a column. -/
theorem checks_validateListenPort (port : Int) :
    Checks Bindable (Raises .validationError) (validateListenPort port true) := by
  unfold validateListenPort
  rw [if_pos rfl]
  dsimp only
  split
  · exact .throw ⟨rfl, encodable_cons_text (by decide) <|
      encodable_cons_text (encodable_ofInt _) <| encodable_cons_text (by decide) <|
      encodable_cons_text (encodable_ofInt _) encodable_nil⟩
  · next hrange =>
      refine .pure ?_
      simp only [maxPort, Bindable] at hrange ⊢
      omega

/-- So does a cost. -/
theorem checks_validateRxcost (rxcost : Int) :
    Checks Bindable (Raises .validationError) (validateRxcost rxcost) := by
  unfold validateRxcost
  split
  · exact .throw ⟨rfl, encodable_cons_text (by decide) <|
      encodable_cons_text (encodable_ofInt _) encodable_nil⟩
  · next hrange =>
      refine .pure ?_
      simp only [maxPort, Bindable] at hrange ⊢
      omega

/-- So does an ASN. -/
theorem checks_validateAsn (asn : Int) :
    Checks Bindable (Raises .validationError) (validateAsn asn) := by
  unfold validateAsn
  split
  · exact .throw ⟨rfl, encodable_cons_text (by decide) <|
      encodable_cons_text (encodable_ofInt _) encodable_nil⟩
  · split
    · exact .throw ⟨rfl, encodable_cons_text (by decide) <|
        encodable_cons_text (encodable_ofInt _) encodable_nil⟩
    · refine .pure ?_
      simp only [maxAsn, Bindable] at *
      omega

/-- The error tells the prefix it refuses by its `repr`. -/
theorem checks_validateAllowedIpsList (ips : List Str) :
    Checks (fun _ => True) (Raises .validationError) (validateAllowedIpsList ips) := by
  unfold validateAllowedIpsList
  split
  · exact .throw ⟨rfl, by decide⟩
  · refine .forM fun item _ => ?_
    dsimp only
    split
    · exact .throw ⟨rfl, by decide⟩
    · split
      · exact .pure trivial
      · exact .throw ⟨rfl, encodable_cons_text (by decide) (encodable_cons_repr encodable_nil)⟩

end Validators

/-! ## the fields of a payload -/

section Fields

variable {peer : JsonObject} {field : String}

/-- A field of the payload, or the error that names it. -/
theorem checks_requireField (hfield : encodable (lit field) = true)
    (h : Json.encodable (.dict peer) = true) :
    Checks (fun v => Json.encodable v = true) (Raises .dn42CtlError) (requireField peer field) := by
  unfold requireField
  split
  · next v hlookup => exact .pure (encodable_lookup h hlookup)
  · exact .throw ⟨rfl, encodable_cons_text (by decide) <|
      encodable_cons_text hfield encodable_nil⟩

/-- A value of the wrong type is told by its `repr`. -/
theorem raises_typeError (hfield : encodable (lit field) = true) {what : String}
    (hwhat : encodable (lit what) = true) (v : Json) :
    Raises .dn42CtlError (typeError field what v) :=
  ⟨rfl, encodable_cons_text hfield <| encodable_cons_text (by decide) <|
    encodable_cons_text hwhat <| encodable_cons_text (by decide) <|
    encodable_cons_repr encodable_nil⟩

/-- An integer, or the error that names the field. -/
theorem checks_asInt (hfield : encodable (lit field) = true) (v : Json) :
    Checks (fun _ => True) (Raises .dn42CtlError) (asInt field v) := by
  unfold asInt
  split
  · exact .pure trivial
  · exact .throw (raises_typeError hfield (by decide) _)

/-- A text of the payload, or the error that names the field. -/
theorem checks_asStr (hfield : encodable (lit field) = true) {v : Json}
    (h : Json.encodable v = true) :
    Checks (fun s => encodable s = true) (Raises .dn42CtlError) (asStr field v) := by
  unfold asStr
  split
  · rw [Json.encodable] at h
    exact .pure h
  · exact .throw (raises_typeError hfield (by decide) _)

/-- A boolean, or the error that names the field. -/
theorem checks_asBool (hfield : encodable (lit field) = true) (v : Json) :
    Checks (fun _ => True) (Raises .dn42CtlError) (asBool field v) := by
  unfold asBool
  split
  · exact .pure trivial
  · exact .throw (raises_typeError hfield (by decide) _)

/-- `_validated` puts the field in front of the error's text. -/
theorem checks_checked {α : Type} {Q : α → Prop} {r : Except PyError α}
    (hfield : encodable (lit field) = true) (h : Checks Q (Raises .validationError) r) :
    Checks Q (Raises .dn42CtlError) (checked field r) := by
  refine Checks.mapError (h.mono (fun _ ha => ha) fun e he => ?_)
  rw [if_pos he.cls]
  exact ⟨rfl, encodable_cons_text hfield (encodable_cons_text (by decide) he.text)⟩

/-- A text that may be missing: the payload's, or the default. -/
theorem checks_optionalStr (hfield : encodable (lit field) = true)
    (h : Json.encodable (.dict peer) = true) {default : Str} (hdefault : encodable default = true) :
    Checks (fun s => encodable s = true) (Raises .dn42CtlError)
      (optionalStr peer field default) := by
  unfold optionalStr
  split
  · exact .pure hdefault
  · exact .pure hdefault
  · next v _ hlookup =>
      refine .bind (checks_asStr hfield (encodable_lookup h hlookup)) fun s hs => ?_
      split
      · exact .pure hdefault
      · exact .pure hs

/-- A text with a validator of its own. -/
theorem checks_requireText (hfield : encodable (lit field) = true)
    (h : Json.encodable (.dict peer) = true) {validator : Str → Except PyError Str}
    (hvalidator : ∀ s, encodable s = true →
      Checks (fun s => encodable s = true) (Raises .validationError) (validator s)) :
    Checks (fun s => encodable s = true) (Raises .dn42CtlError)
      (requireText peer field validator) :=
  .bind (checks_requireField hfield h) fun _ hv => .bind (checks_asStr hfield hv) fun s hs =>
    checks_checked hfield (hvalidator s hs)

/-- A number with a validator of its own. -/
theorem checks_requireInt (hfield : encodable (lit field) = true)
    (h : Json.encodable (.dict peer) = true) {validator : Int → Except PyError Int}
    (hvalidator : ∀ k, Checks Bindable (Raises .validationError) (validator k)) :
    Checks Bindable (Raises .dn42CtlError) (requireInt peer field validator) :=
  .bind (checks_requireField hfield h) fun v _ => .bind (checks_asInt hfield v) fun k _ =>
    checks_checked hfield (hvalidator k)

/-- An address, whose error names the field twice. -/
theorem checks_requireIpv6 (hfield : encodable (lit field) = true)
    (h : Json.encodable (.dict peer) = true) :
    Checks (fun s => encodable s = true) (Raises .dn42CtlError) (requireIpv6 peer field) :=
  checks_requireText hfield h fun _ hs => checks_validateIpv6Address hfield hs

/-- A port that may be missing fits a column where it is there. -/
theorem checks_optionalListenPort :
    Checks (fun port => ∀ k, port = some k → Bindable k) (Raises .dn42CtlError)
      (optionalListenPort peer) := by
  unfold optionalListenPort
  split
  · exact .pure fun k hk => by cases hk
  · exact .pure fun k hk => by cases hk
  · refine .bind (checks_asInt (by decide) _) fun n _ =>
      .bind (checks_checked (by decide) (checks_validateListenPort n)) fun port hport => ?_
    exact .pure fun k hk => by
      cases hk
      exact hport

theorem checks_payloadNetBackend (h : Json.encodable (.dict peer) = true) :
    Checks (fun s => encodable s = true) (Raises .dn42CtlError) (payloadNetBackend peer) :=
  .bind (checks_optionalStr (by decide) h (by decide)) fun _ _ =>
    checks_checked (by decide) checks_validateNetBackend

theorem checks_payloadEndpoint (h : Json.encodable (.dict peer) = true) :
    Checks (fun s => encodable s = true) (Raises .dn42CtlError) (payloadEndpoint peer) :=
  .bind (checks_optionalStr (by decide) h (by decide)) fun _ hs =>
    checks_checked (by decide) (checks_validateEndpoint true hs)

end Fields

/-! ## peers -/

/-- A payload of which every part can be bound. -/
structure BgpPeerPayload.Fits (p : BgpPeerPayload) : Prop where
  peerAsn : Bindable p.peerAsn
  peerPublicKey : encodable p.peerPublicKey = true
  endpoint : encodable p.endpoint = true
  peerLla : encodable p.peerLla = true
  listenPort : ∀ k, p.listenPort = some k → Bindable k

structure IbgpPeerPayload.Fits (p : IbgpPeerPayload) : Prop where
  peerIp : encodable p.peerIp = true
  peerPublicKey : ∀ s, p.peerPublicKey = some s → encodable s = true
  endpoint : encodable p.endpoint = true
  peerLla : ∀ s, p.peerLla = some s → encodable s = true
  babelRxcost : Bindable p.babelRxcost
  babelType : encodable p.babelType = true
  listenPort : ∀ k, p.listenPort = some k → Bindable k

section Parse

variable {peer : JsonObject} (h : Json.encodable (.dict peer) = true)

include h

/-- A parsed BGP peer has values that fit the columns, or the payload is refused. -/
theorem checks_parseBgpPeer :
    Checks BgpPeerPayload.Fits (Raises .dn42CtlError) (parseBgpPeer peer) :=
  .bind (checks_requireInt (by decide) h checks_validateAsn) fun _ hasn =>
    .bind (checks_requireText (by decide) h fun _ => checks_validatePubkey) fun _ hkey =>
    .bind (checks_payloadEndpoint h) fun _ hendpoint =>
    .bind (checks_requireIpv6 (by decide) h) fun _ hlla =>
    .bind (checks_payloadNetBackend h) fun _ _ =>
    .bind checks_optionalListenPort fun _ hport => .pure ⟨hasn, hkey, hendpoint, hlla, hport⟩

theorem checks_requireName :
    Checks (fun _ => True) (Raises .dn42CtlError) (requireName peer) := by
  refine .bind (checks_requireField (by decide) h) fun v hv =>
    .bind (checks_asStr (by decide) hv) fun name _ => ?_
  split
  · exact .throw ⟨rfl, by decide⟩
  · exact .pure trivial

/-- The key and the endpoint of a tunnel can be encoded. -/
theorem checks_parseTunnel :
    Checks (fun t : Option Str × Option Str => (∀ s, t.1 = some s → encodable s = true) ∧
      ∀ s, t.2 = some s → encodable s = true) (Raises .dn42CtlError) (parseTunnel peer) := by
  refine .bind (checks_requireText (by decide) h fun _ => checks_validatePubkey) fun key hkey =>
    .bind (checks_requireIpv6 (by decide) h) fun lla hlla => .pure ⟨?_, ?_⟩
  · intro s hs
    cases hs
    exact hkey
  · intro s hs
    cases hs
    exact hlla

/-- The fields after the tunnel. -/
theorem checks_ibgpFields (name : Str) (hasWg : Bool) {tunnel : Option Str × Option Str}
    (hkey : ∀ s, tunnel.1 = some s → encodable s = true)
    (hlla : ∀ s, tunnel.2 = some s → encodable s = true) :
    Checks IbgpPeerPayload.Fits (Raises .dn42CtlError) (do
      let peerIp ← requireIpv6 peer "peer_ip"
      let endpoint ← payloadEndpoint peer
      let netBackend ← payloadNetBackend peer
      let babelRxcost ← requireInt peer "babel_rxcost" validateRxcost
      let babelType ← requireText peer "babel_type" validateBabelType
      let listenPort ← optionalListenPort peer
      pure { name, peerIp, hasWg, peerPublicKey := tunnel.1, endpoint, peerLla := tunnel.2,
             netBackend, babelRxcost, babelType, listenPort }) :=
  .bind (checks_requireIpv6 (by decide) h) fun _ hip =>
    .bind (checks_payloadEndpoint h) fun _ hendpoint =>
    .bind (checks_payloadNetBackend h) fun _ _ =>
    .bind (checks_requireInt (by decide) h checks_validateRxcost) fun _ hrxcost =>
    .bind (checks_requireText (by decide) h fun _ _ => checks_validateBabelType) fun _ htype =>
    .bind checks_optionalListenPort fun _ hport =>
    .pure ⟨hip, hkey, hendpoint, hlla, hrxcost, htype, hport⟩

/-- A parsed iBGP peer has values that fit the columns, or the payload is refused. -/
theorem checks_parseIbgpPeer :
    Checks IbgpPeerPayload.Fits (Raises .dn42CtlError) (parseIbgpPeer peer) := by
  unfold parseIbgpPeer
  refine .bind (checks_requireName h) fun name _ => .bind (checks_requireField (by decide) h)
    fun v _ => .bind (checks_asBool (by decide) v) fun hasWg _ => ?_
  dsimp only
  split
  · exact .bind (checks_parseTunnel h) fun tunnel htunnel =>
      checks_ibgpFields h name hasWg htunnel.1 htunnel.2
  · exact checks_ibgpFields h name hasWg (fun s hs => by cases hs) fun s hs => by cases hs

end Parse

/-! ## the operations -/

/-- A `DatabaseError` that can be told. -/
def DatabaseRefusal (e : Exc PyError) : Prop := ∃ err, e = .raised err ∧ Raises .databaseError err

section Operations

variable {α : Type} {Q : α → Prop} {n cfg : Str} {env : PeerEnv}

/-- A `DatabaseError` of the store becomes a refusal. -/
theorem ends_wrapDatabaseError {m : DbTx α} (h : Ends Conn.Quiet Q DatabaseRefusal m) :
    Ends Conn.Quiet Q Refusal (wrapDatabaseError m) := by
  refine .catching h fun e he => ?_
  obtain ⟨⟨cls, text⟩, rfl, hcls, htext⟩ := he
  dsimp only at hcls htext
  subst hcls
  exact Quiet.fail ⟨_, rfl, rfl, htext⟩

/-- A check of a payload ends in its value or a refusal. -/
theorem ends_check {r : Except PyError α} (h : Checks Q (Raises .dn42CtlError) r) :
    Ends Conn.Quiet Q Refusal (check r) :=
  .lift (.mapError (h.mono (fun _ ha => ha) fun e he => ⟨e, rfl, he⟩))

/-- A validation error becomes a refusal. -/
theorem ends_checkValid {r : Except PyError α} (h : Checks Q (Raises .validationError) r) :
    Ends Conn.Quiet Q Refusal (checkValid r) :=
  ends_check (.mapError (h.mono (fun _ ha => ha) fun _ he => ⟨rfl, he.text⟩))

theorem ends_failWith {s : String} (h : encodable (lit s) = true) :
    Ends Conn.Quiet Q Refusal (failWith s : DbTx α) :=
  Quiet.fail ⟨_, rfl, rfl, encodable_cons_text h encodable_nil⟩

/-- The texts of the store's errors can be sent. -/
theorem databaseRefusal {s : String} (h : encodable (lit s) = true) :
    DatabaseRefusal (.raised (databaseError s)) :=
  ⟨_, rfl, rfl, encodable_cons_text h encodable_nil⟩

/-- The statements of `emit_sync_event` fit once the node's id does. -/
theorem ends_emitSyncEvent {P : Exc PyError → Prop} (hn : params [.text n] = none)
    (hsql : ∀ s, P (.sqlite s)) (now : Str) (kind : SyncKind) :
    Ends Conn.Quiet (fun _ => True) P (emitSyncEvent now n kind) := by
  unfold emitSyncEvent
  rw [hn]
  refine .bind (Quiet.execute _ hsql) fun newId _ => ?_
  split
  · exact Quiet.modify _
  · exact .pure trivial

/-- What a transaction of one statement and one event raises. -/
theorem ends_guardedWrite {onError : SqlError → PyError} {bd : Option BindError}
    {f : Db → Except SqlError (Unit × Db)} (hbind : bd = none) (hn : params [.text n] = none)
    (hon : ∀ s, DatabaseRefusal (.raised (onError s))) (now : Str) :
    Ends Conn.Quiet (fun _ => True) DatabaseRefusal (guarded onError (do
      Txn.execute bd f
      emitSyncEvent now n
      commit)) := by
  subst hbind
  exact Quiet.guarded (.bind (Quiet.execute _ fun s => .inl ⟨s, rfl⟩) fun _ _ =>
    .bind (ends_emitSyncEvent hn (fun s => .inl ⟨s, rfl⟩) now _) fun _ _ => Quiet.commit) hon

/-- A node's row is written, or the call is refused. -/
theorem ends_ensureNode (hn : params [.text n] = none) :
    Ends Conn.Quiet (fun _ => True) Refusal (ensureNode n) := by
  unfold ensureNode Database.ensureNode
  rw [hn]
  exact ends_wrapDatabaseError (Quiet.guarded (.bind (Quiet.modify _) fun _ _ => Quiet.commit)
    fun _ => databaseRefusal (by decide))

/-- The ports in use are read, or the call is refused. -/
theorem ends_usedListenPorts (hn : params [.text n] = none) :
    Ends Conn.Quiet (fun _ => True) Refusal
      (wrapDatabaseError (Database.getUsedListenPorts n)) := by
  unfold Database.getUsedListenPorts
  rw [hn]
  exact ends_wrapDatabaseError
    (.bind (Quiet.queryOr _ _) fun _ _ => .bind (Quiet.queryOr _ _) fun _ _ => .pure trivial)

/-- The pair of keys can be bound, and the complaint of the tool can be told. -/
structure PeerEnv.Decoded (env : PeerEnv) : Prop where
  keys : ∀ priv pub, env.wgKeypair = .ok (priv, pub) →
    encodable priv = true ∧ encodable pub = true
  complaint : ∀ text, env.wgKeypair = .error text → Msg.encodable text = true

/-- A key pair that is generated can be encoded. -/
theorem ends_resolveWgKeypair (henv : env.Decoded) :
    Ends Conn.Quiet (fun keys : Str × Str => encodable keys.1 = true ∧ encodable keys.2 = true)
      Refusal (resolveWgKeypair env none none) := by
  unfold resolveWgKeypair
  cases hkeys : env.wgKeypair with
  | ok pair => exact .pure (henv.keys pair.1 pair.2 hkeys)
  | error text => exact Quiet.fail ⟨_, rfl, rfl, henv.complaint text hkeys⟩

/-- The port an ASN gives fits a column. -/
theorem lastFive_bindable {asn : Int} (h : Bindable asn) : Bindable (lastFive asn) := by
  obtain ⟨hlo, -⟩ := h
  cases asn with
  | ofNat k =>
      simp only [lastFive, Bindable]
      omega
  | negSucc k => omega

/-- The port of a new BGP peer fits a column. -/
theorem ends_bgpListenPort {asn : Int} (hasn : Bindable asn) {given : Option Int} :
    Ends Conn.Quiet Bindable Refusal (bgpListenPort asn given) := by
  unfold bgpListenPort
  split
  · split
    · exact Quiet.fail ⟨_, rfl, rfl, encodable_cons_text (by decide) <|
        encodable_cons_text (encodable_ofInt _) encodable_nil⟩
    · exact .pure (lastFive_bindable hasn)
  · exact ends_checkValid (checks_validateListenPort _)

/-- The columns both kinds of peer have can be bound. -/
structure PeerRecordBase.Bound (r : PeerRecordBase) : Prop where
  ifname : encodable r.ifname = true
  wgPrivateKey : encodable r.wgPrivateKey = true
  wgPublicKey : encodable r.wgPublicKey = true
  peerPublicKey : ∀ s, r.peerPublicKey = some s → encodable s = true
  endpoint : ∀ s, r.endpoint = some s → encodable s = true
  localLla : encodable r.localLla = true
  peerLla : ∀ s, r.peerLla = some s → encodable s = true
  listenPort : Bindable r.listenPort
  allowedIps : ∀ s ∈ r.allowedIps, encodable s = true
  netBackend : encodable r.netBackend = true

/-- The columns that both kinds of peer have are then bound. -/
theorem baseParams_bound {r : PeerRecordBase} (h : r.Bound) :
    params (Database.baseParams r) = none := by
  simp only [Database.baseParams, params_cons, convert_text, convert_ofOption,
    convert_texts h.allowedIps, convert_bindable h.listenPort, h.ifname, h.wgPrivateKey,
    h.wgPublicKey, h.localLla, h.netBackend, true_and]
  exact ⟨h.peerPublicKey, h.endpoint, h.peerLla, rfl⟩

/-- The insert of a BGP peer whose columns fit is run or refused. -/
theorem ends_insertBgpPeer {record : BgpPeerRecord} (hbase : record.toPeerRecordBase.Bound)
    (hasn : Bindable record.peerAsn) (hn : params [.text record.nodeId] = none) (now : Str) :
    Ends Conn.Quiet (fun _ => True) Refusal
      (wrapDatabaseError (Database.insertBgpPeer now record)) := by
  refine ends_wrapDatabaseError (ends_guardedWrite ?_ hn (fun s => ?_) now)
  · rw [params_append, params_cons, params_cons]
    exact ⟨⟨(params_cons.mp hn).1, convert_bindable hasn, rfl⟩, baseParams_bound hbase⟩
  · cases s <;> exact databaseRefusal (by decide)

/-- The insert of an iBGP peer whose columns fit is run or refused. -/
theorem ends_insertIbgpPeer {record : IbgpPeerRecord} (hbase : record.toPeerRecordBase.Bound)
    (hname : encodable record.name = true) (hn : params [.text record.nodeId] = none)
    (hrxcost : Bindable record.babelRxcost) (hip : ∀ s, record.peerIp = some s → encodable s = true)
    (htype : encodable record.babelType = true) (hremote : record.remoteNodeId = none)
    (now : Str) :
    Ends Conn.Quiet (fun _ => True) Refusal
      (wrapDatabaseError (Database.insertIbgpPeer now record)) := by
  refine ends_wrapDatabaseError (ends_guardedWrite ?_ hn (fun s => ?_) now)
  · rw [params_append, params_append, params_cons, params_cons]
    refine ⟨⟨⟨(params_cons.mp hn).1, convert_text.mpr hname, rfl⟩, baseParams_bound hbase⟩, ?_⟩
    simp only [params_cons, convert_bindable hrxcost, convert_ofOption, convert_text, htype,
      hremote, true_and]
    exact ⟨hip, fun s hs => (by cases hs), rfl⟩
  · cases s <;> exact databaseRefusal (by decide)

theorem encodable_ifname (pre : String) (hpre : encodable (lit pre) = true) {s : Str}
    (hs : encodable s = true) : encodable (lit pre ++ s) = true :=
  encodable_append.mpr ⟨hpre, hs⟩

/-- `create_bgp_peer` on a parsed payload returns or refuses. -/
theorem ends_createBgpPeer {p : BgpPeerPayload} (hp : p.Fits) (henv : env.Decoded)
    (hn : encodable (orDefault (some n) cfg) = true) :
    Ends Conn.Quiet (fun _ => True) Refusal (createBgpPeer env cfg (p.toArgs n)) := by
  have hbind : params [.text (orDefault (some n) cfg)] = none :=
    params_cons.mpr ⟨convert_text.mpr hn, rfl⟩
  have hkey : params [.text (orDefault (some n) cfg), .int p.peerAsn] = none :=
    params_cons.mpr ⟨convert_text.mpr hn, params_cons.mpr ⟨convert_bindable hp.peerAsn, rfl⟩⟩
  have hlookup : Ends Conn.Quiet (fun _ => True) Refusal
      (wrapDatabaseError (Database.getBgpPeer (orDefault (some n) cfg) p.peerAsn)) := by
    unfold Database.getBgpPeer
    rw [hkey]
    exact ends_wrapDatabaseError (Quiet.queryOr _ _)
  refine .bind (ends_checkValid checks_validateNetBackend) fun backend hbackend =>
    .bind (ends_ensureNode hbind) fun _ _ => .bind hlookup fun existing _ => ?_
  split
  · exact ends_failWith (by decide)
  · refine .bind (ends_bgpListenPort hp.peerAsn) fun port hport =>
      .bind (ends_resolveWgKeypair henv) fun keys hkeys =>
      .bind (ends_checkValid (checks_validateAllowedIpsList _)) fun _ _ =>
      .bind (ends_insertBgpPeer ⟨?_, hkeys.1, hkeys.2, ?_, ?_, ?_, ?_, hport, ?_, hbackend⟩
        hp.peerAsn hbind _) fun _ _ => .pure trivial
    · exact encodable_ifname "dn42_" (by decide)
        (encodable_of_chars (fun _ hc => List.mem_of_mem_drop hc) (encodable_ofInt p.peerAsn))
    · intro s hs
      cases hs
      exact hp.peerPublicKey
    · intro s hs
      cases hs
      exact hp.endpoint
    · exact encodable_generateRandomLla _ _
    · intro s hs
      cases hs
      exact hp.peerLla
    · have hips : ∀ s ∈ defaultAllowedIps, encodable s = true := by decide
      exact hips

/-- A port that is drawn fits a column; there may be none left. -/
theorem checks_pickFrom (draw : Nat → Nat) (used : List Int) (left i : Nat) :
    Checks Bindable (Raises .dn42CtlError) (pickFrom draw used left i) := by
  induction left generalizing i with
  | zero => exact .throw ⟨rfl, by decide⟩
  | succ left ih =>
      unfold pickFrom
      split
      · exact ih (i + 1)
      · refine .pure ?_
        simp only [randomPort, Bindable]
        omega

/-- A port is free, or the call is refused. -/
theorem ends_checkPortFree (hn : params [.text n] = none) (port current : Int) :
    Ends Conn.Quiet (fun _ => True) Refusal (checkPortFree n port current) := by
  refine .bind (ends_usedListenPorts hn) fun used _ => ?_
  split
  · exact Quiet.fail ⟨_, rfl, rfl, encodable_cons_text (by decide) <|
      encodable_cons_text (encodable_ofInt _) encodable_nil⟩
  · exact .pure trivial

/-- The port of a new tunnel fits a column. -/
theorem ends_ibgpListenPort (hn : params [.text n] = none) (given : Option Int) :
    Ends Conn.Quiet Bindable Refusal (ibgpListenPort env n given) := by
  unfold ibgpListenPort
  split
  · exact .bind (ends_usedListenPorts hn) fun used _ => ends_check (checks_pickFrom _ _ _ _)
  · refine .bind (ends_checkValid (checks_validateListenPort _)) fun port hport => ?_
    split
    · exact .bind (ends_checkPortFree hn _ _) fun _ _ => .pure hport
    · exact .pure hport

/-- The columns of a tunnel can be bound. -/
structure Tunnel.Bound (t : Tunnel) : Prop where
  backend : encodable t.backend = true
  listenPort : Bindable t.listenPort
  privateKey : encodable t.privateKey = true
  publicKey : encodable t.publicKey = true
  localLla : encodable t.localLla = true
  allowedIps : ∀ s ∈ t.allowedIps, encodable s = true

theorem encodable_ibgpAllowedIps : ∀ s ∈ ibgpAllowedIps, encodable s = true := by decide

/-- The columns of a new tunnel fit. -/
theorem ends_tunnelFor (henv : env.Decoded) (hn : params [.text n] = none) (p : IbgpPeerPayload)
    (target : Str) :
    Ends Conn.Quiet Tunnel.Bound Refusal (tunnelFor env n (p.toArgs target)) := by
  unfold tunnelFor
  split
  · exact .bind (ends_checkValid checks_validateNetBackend) fun backend hbackend =>
      .bind (ends_ibgpListenPort hn _) fun port hport =>
      .bind (ends_checkValid (checks_validateRxcost _)) fun _ _ =>
      .bind (ends_checkValid checks_validateBabelType) fun _ _ =>
      .bind (ends_resolveWgKeypair henv) fun keys hkeys =>
      .bind (ends_checkValid (checks_validateAllowedIpsList _)) fun _ _ =>
      .pure ⟨hbackend, hport, hkeys.1, hkeys.2, encodable_generateRandomLla _ _,
        encodable_ibgpAllowedIps⟩
  · have hbackend : encodable (lit "networkd") = true := by decide
    have hport : Bindable 0 := by decide
    exact .pure ⟨hbackend, hport, rfl, rfl, rfl, encodable_ibgpAllowedIps⟩

/-- A name that is left of a text is clean. -/
theorem checks_sanitizeName (name : Str) :
    Checks CleanName (Raises .dn42CtlError) (sanitizeName name) := by
  cases hname : sanitizeName name with
  | ok s => exact cleanName_of_sanitizeName hname
  | error e =>
      unfold sanitizeName at hname
      dsimp only at hname
      split at hname
      · cases hname
        exact ⟨rfl, by decide⟩
      · cases hname

/-- `create_ibgp_peer` on a parsed payload returns or refuses. -/
theorem ends_createIbgpPeer {p : IbgpPeerPayload} (hp : p.Fits) (henv : env.Decoded)
    (hn : encodable (orDefault (some n) cfg) = true) :
    Ends Conn.Quiet (fun _ => True) Refusal (createIbgpPeer env cfg (p.toArgs n)) := by
  have hbind : params [.text (orDefault (some n) cfg)] = none :=
    params_cons.mpr ⟨convert_text.mpr hn, rfl⟩
  have hdefault : ∀ o : Option Str, (∀ s, o = some s → encodable s = true) →
      encodable (orDefault o []) = true := by
    intro o ho
    cases o with
    | none => rfl
    | some s =>
        unfold orDefault
        dsimp only
        split
        · rfl
        · exact ho s rfl
  refine .bind (ends_ensureNode hbind) fun _ _ =>
    .bind (ends_check (checks_sanitizeName _)) fun name hname => ?_
  have hclean := encodable_clean hname
  dsimp only
  split
  · exact ends_failWith (by decide)
  · refine .bind (ends_tunnelFor henv hbind p n) fun t ht =>
      .bind (ends_insertIbgpPeer ⟨encodable_ifname "wg_" (by decide) hclean, ht.privateKey,
        ht.publicKey, ?_, ?_, ht.localLla, ?_, ht.listenPort, ht.allowedIps, ht.backend⟩ hclean
        hbind hp.babelRxcost ?_ hp.babelType rfl _) fun _ _ => .pure trivial
    · intro s hs
      cases hs
      exact hdefault _ hp.peerPublicKey
    · intro s hs
      cases hs
      refine hdefault _ fun s hs => ?_
      cases hs
      exact hp.endpoint
    · intro s hs
      cases hs
      exact hdefault _ hp.peerLla
    · intro s hs
      cases hs
      exact hp.peerIp

end Operations

/-! ## a submitted peer -/

/-- The value can be a member of a set. -/
def hashable : Json → Bool
  | .list _ | .dict _ => false
  | _ => true

/-- The `peer_kind` of a payload, as the membership test gets it. -/
def peerKind (payload : JsonObject) : Json := (Json.lookup (lit "peer_kind") payload).getD .null

section Submitted

variable {α : Type} {Q : α → Prop} {env : PeerEnv} {cfg target : Str} {payload : JsonObject}

/-- A program that ends so on a quiet connection ends so on a connection of its own. -/
theorem ends_onConnection {P : Exc PyError → Prop} {m : DbTx α} (h : Ends Conn.Quiet Q P m) :
    Ends (fun _ => True) Q P (onConnection m) :=
  fun db _ => ⟨trivial, (h _ (Conn.fresh_quiet db)).2⟩

theorem ends_liftCheck {r : Except PyError α} (h : Checks Q (Raises .dn42CtlError) r) :
    Ends (fun _ => True) Q Refusal (liftCheck r) :=
  .lift (.mapError (h.mono (fun _ ha => ha) fun e he => ⟨e, rfl, he⟩))

/-- A `peer_kind` that can be hashed is one of the two, or the payload is refused. -/
theorem checks_requirePeerKind (h : hashable (peerKind payload) = true) :
    Checks (fun _ => True) (Raises .dn42CtlError) (requirePeerKind payload) := by
  have hrefused : ∀ v : Json, Raises .dn42CtlError
      (dn42CtlError [.text (lit "payload.peer_kind 必须是 'bgp' 或 'ibgp', 收到 "), .repr v]) :=
    fun v => ⟨rfl, encodable_cons_text (by decide) (encodable_cons_repr encodable_nil)⟩
  unfold requirePeerKind
  unfold peerKind at h
  cases hkind : (Json.lookup (lit "peer_kind") payload).getD .null with
  | list xs =>
      rw [hkind] at h
      cases h
  | dict kvs =>
      rw [hkind] at h
      cases h
  | str s =>
      dsimp only
      split
      · exact .pure trivial
      · split
        · exact .pure trivial
        · exact .throw (hrefused _)
  | null => exact .throw (hrefused _)
  | bool b => exact .throw (hrefused _)
  | int k => exact .throw (hrefused _)
  | float f => exact .throw (hrefused _)

/-- The peer of a payload is an object, or the payload is refused. -/
theorem checks_requirePeer (h : Json.encodable (.dict payload) = true) {field : String}
    (hfield : encodable (lit field) = true) :
    Checks (fun peer => Json.encodable (.dict peer) = true) (Raises .dn42CtlError)
      (requirePeer payload field) := by
  unfold requirePeer
  split
  · next peer hlookup => exact .pure (encodable_lookup h hlookup)
  · exact .throw ⟨rfl, encodable_cons_text (by decide) <| encodable_cons_text hfield <|
      encodable_cons_text (by decide) encodable_nil⟩

/-- A new peer is created, or refused with an error that can be told. -/
theorem refuses_applyPeerAdd (h : Json.encodable (.dict payload) = true)
    (hkind : hashable (peerKind payload) = true) (henv : env.Decoded)
    (hn : encodable (orDefault (some target) cfg) = true) :
    Ends (fun _ => True) (fun _ => True) Refusal (applyPeerAdd env cfg target payload) := by
  refine .bind (ends_liftCheck (checks_requirePeerKind hkind)) fun ibgp _ =>
    .bind (ends_liftCheck (checks_requirePeer h (by decide))) fun peer hpeer => ?_
  split
  · exact .bind (ends_liftCheck (checks_parseIbgpPeer hpeer)) fun p hp =>
      .bind (ends_onConnection (ends_createIbgpPeer hp henv hn)) fun _ _ => .pure trivial
  · exact .bind (ends_liftCheck (checks_parseBgpPeer hpeer)) fun p hp =>
      .bind (ends_onConnection (ends_createBgpPeer hp henv hn)) fun _ _ => .pure trivial

/-- A `peer_kind` that cannot be hashed is a `TypeError`. -/
theorem applyPeerAdd_unhashable (hkind : hashable (peerKind payload) = false) (db : Db) :
    ∃ text, (applyPeerAdd env cfg target payload).run db =
      (.error (.raised ⟨.typeError, text⟩), db) := by
  have hraises : ∃ text, requirePeerKind payload = .error ⟨.typeError, text⟩ := by
    unfold requirePeerKind
    unfold peerKind at hkind
    cases hvalue : (Json.lookup (lit "peer_kind") payload).getD .null with
    | list xs => exact ⟨_, rfl⟩
    | dict kvs => exact ⟨_, rfl⟩
    | str s => simp [hvalue, hashable] at hkind
    | null => simp [hvalue, hashable] at hkind
    | bool b => simp [hvalue, hashable] at hkind
    | int k => simp [hvalue, hashable] at hkind
    | float f => simp [hvalue, hashable] at hkind
  obtain ⟨text, hraise⟩ := hraises
  refine ⟨text, ?_⟩
  rw [applyPeerAdd, hraise]
  rfl

end Submitted

end Dn42Ctl
