import Dn42Ctl.Build
import Dn42Ctl.GenConfSpecs
import Dn42Ctl.Reloads

/-!
# RenderAgreement

Two ways lead from the rows of a node to its files: `genconf` reads the rows,
and `apply` reads the JSON payload that `build_desired_state` made of them.

* `desiredPayload` — the payload of a desired state;
* `renderDesired_payload` — what `apply` renders from it;
* `hub_and_node_agree` — both ways give the same files.
-/

namespace Dn42Ctl

open Text Txn

/-! ## the payload -/

/-- A nullable column in a payload. -/
def jsonOpt : Option Str → Json
  | none => .null
  | some s => .str s

/-- `_bgp_row_to_dict`, as JSON. -/
def BgpPeerDesired.json (d : BgpPeerDesired) : Json :=
  .dict
    [(lit "peer_asn", .int d.peerAsn), (lit "ifname", .str d.ifname),
     (lit "wg_private_key", .str d.wgPrivateKey), (lit "wg_public_key", .str d.wgPublicKey),
     (lit "peer_public_key", jsonOpt d.peerPublicKey), (lit "endpoint", jsonOpt d.endpoint),
     (lit "local_lla", .str d.localLla), (lit "peer_lla", jsonOpt d.peerLla),
     (lit "listen_port", .int d.listenPort), (lit "allowed_ips", .list (d.allowedIps.map .str)),
     (lit "net_backend", .str d.netBackend)]

/-- `_ibgp_row_to_dict`, as JSON. -/
def IbgpPeerDesired.json (d : IbgpPeerDesired) : Json :=
  .dict
    [(lit "name", .str d.name), (lit "ifname", .str d.ifname),
     (lit "wg_private_key", .str d.wgPrivateKey), (lit "wg_public_key", .str d.wgPublicKey),
     (lit "peer_public_key", jsonOpt d.peerPublicKey), (lit "endpoint", jsonOpt d.endpoint),
     (lit "local_lla", .str d.localLla), (lit "peer_lla", jsonOpt d.peerLla),
     (lit "peer_ip", jsonOpt d.peerIp), (lit "has_wg", .bool d.hasWg),
     (lit "listen_port", .int d.listenPort), (lit "allowed_ips", .list (d.allowedIps.map .str)),
     (lit "net_backend", .str d.netBackend), (lit "babel_rxcost", .int d.babelRxcost),
     (lit "babel_type", .str d.babelType)]

/-- The entries of the node block. -/
def NodeBlock.entries (b : NodeBlock) : JsonObject :=
  (match b.ownIpv6 with
    | some s => [(lit "own_ipv6", .str s)]
    | none => []) ++
  (match b.routerId with
    | some s => [(lit "router_id", .str s)]
    | none => [])

/-- `DesiredState.to_dict`; a block without entries is left out. -/
def desiredPayload (st : DesiredState) : JsonObject :=
  [(lit "node_id", .str st.nodeId), (lit "revision", .str st.revision),
   (lit "generated_at", .str st.generatedAt),
   (lit "bgp_peers", .list (st.bgpPeers.map BgpPeerDesired.json)),
   (lit "ibgp_peers", .list (st.ibgpPeers.map IbgpPeerDesired.json))] ++
  if st.node.entries.isEmpty then [] else [(lit "node", .dict st.node.entries)]

/-! ## the files of a desired state -/

/-- The arguments of the networkd templates for a BGP peer. -/
def BgpPeerDesired.netBackendArgs (d : BgpPeerDesired) : NetBackendArgs :=
  { backend := d.netBackend, ifname := d.ifname, privateKey := d.wgPrivateKey,
    listenPort := d.listenPort, peerPublicKey := printed d.peerPublicKey,
    endpoint := orDefault d.endpoint [], allowedIps := d.allowedIps, localLla := d.localLla,
    peerLla := orDefault d.peerLla [] }

def IbgpPeerDesired.netBackendArgs (d : IbgpPeerDesired) : NetBackendArgs :=
  { backend := d.netBackend, ifname := d.ifname, privateKey := d.wgPrivateKey,
    listenPort := d.listenPort, peerPublicKey := printed d.peerPublicKey,
    endpoint := orDefault d.endpoint [], allowedIps := d.allowedIps, localLla := d.localLla,
    peerLla := orDefault d.peerLla [] }

def desiredBgpFiles (paths : ResolvedPaths) (d : BgpPeerDesired) : List FileSpec :=
  bgpBirdFile paths.birdPeersDir d.ifname (orDefault d.peerLla []) d.peerAsn ::
    d.netBackendArgs.files paths.networkdDir

def desiredIbgpFiles (paths : ResolvedPaths) (d : IbgpPeerDesired) : List FileSpec :=
  ibgpBirdFiles paths.birdPeersDir d.name (orDefault d.peerIp []) ++
    if d.hasWg then d.netBackendArgs.files paths.networkdDir else []

def desiredBabelFile (paths : ResolvedPaths) (peers : List IbgpPeerDesired) : FileSpec :=
  ⟨paths.babelConfPath,
    renderBabelConf ((peers.filter fun d => d.hasWg).map fun d =>
      ⟨d.ifname, d.babelRxcost, d.babelType⟩), .bird⟩

/-- The files of the peers. -/
def desiredPeerFiles (paths : ResolvedPaths) (c : DesiredContent) : List FileSpec :=
  c.bgpPeers.flatMap (desiredBgpFiles paths) ++ c.ibgpPeers.flatMap (desiredIbgpFiles paths) ++
    [desiredBabelFile paths c.ibgpPeers]

/-- The configuration with the fields of a node block. -/
def mergeBlock (config : AppConfig) (b : NodeBlock) : AppConfig :=
  { config with
    ownIpv6 := orDefault b.ownIpv6 config.ownIpv6
    routerId := orDefault b.routerId config.routerId }

/-- Some field of the block is to be applied. -/
def NodeBlock.hasUpdates (b : NodeBlock) : Bool :=
  !(orDefault b.ownIpv6 []).isEmpty || !(orDefault b.routerId []).isEmpty

/-- The files of the node block, and the warnings. -/
def desiredNodeFiles (toml : TomlLib) (appConfig : Option AppConfig) (paths : ResolvedPaths)
    (extraExists : Bool) (b : NodeBlock) : List FileSpec × List Msg :=
  if b.entries.isEmpty then ([], [])
  else
    match appConfig with
    | none =>
        ([], [[.text (lit "中心下发了节点地址,但本机 config.toml 不可用,"),
          .text (lit "已跳过 config.toml/bird.conf/dummy")]])
    | some config =>
        if b.hasUpdates then nodeFiles toml config (mergeBlock config b) paths extraExists
        else ([], [])

/-! ## reading it back -/

variable (display : Json → Str)

/-- A text that may be missing is printed as `None` then. -/
theorem str_jsonOpt (o : Option Str) : Builtins.str display (jsonOpt o) = printed o := by
  cases o with
  | none => rfl
  | some s => rfl

/-- Or left out. -/
theorem textOr_jsonOpt (o : Option Str) : textOr display (jsonOpt o) = orDefault o [] := by
  cases o with
  | none => rfl
  | some s =>
      cases s with
      | nil => rfl
      | cons c cs => rfl

theorem map_str_strings (xs : List Str) :
    (xs.map Json.str).map (Builtins.str display) = xs := by
  simp [Builtins.str, Function.comp_def]

/-- A text that is not empty is there. -/
theorem printed_of_orDefault {o : Option Str} (h : orDefault o [] ≠ []) :
    printed o = orDefault o [] := by
  cases o with
  | none => exact absurd rfl h
  | some s =>
      cases s with
      | nil => exact absurd rfl h
      | cons c cs => rfl

/-- The networkd files, from the fields of a payload entry. -/
theorem renderTunnelFiles_eq {peer : Json} {paths : ResolvedPaths} {ifname : Str}
    {peerLla : Except PyError Str} {a : NetBackendArgs} {key : Option Str} {endpoint : Option Str}
    (hpriv : subscript peer "wg_private_key" = .ok (.str a.privateKey))
    (hport : subscript peer "listen_port" = .ok (.int a.listenPort))
    (hkey : subscript peer "peer_public_key" = .ok (jsonOpt key))
    (hend : getAttr peer "endpoint" = .ok (jsonOpt endpoint))
    (hips : subscript peer "allowed_ips" = .ok (.list (a.allowedIps.map .str)))
    (hlocal : subscript peer "local_lla" = .ok (.str a.localLla))
    (hlla : peerLla = .ok a.peerLla) (hifname : a.ifname = ifname)
    (hkeyEq : printed key = a.peerPublicKey) (hendEq : orDefault endpoint [] = a.endpoint) :
    renderTunnelFiles display peer paths ifname peerLla = .ok (a.files paths.networkdDir) := by
  unfold renderTunnelFiles
  simp only [Prog.bind_eq_ok]
  refine ⟨_, hpriv, _, hport, _, rfl, _, hkey, _, hend, _, hips, _, rfl, _, hlocal, _, hlla, ?_⟩
  rw [str_jsonOpt, textOr_jsonOpt, map_str_strings, hkeyEq, hendEq, ← hifname]
  rfl

/-- The node renders a BGP peer as the hub does. -/
theorem renderBgpPeerFiles_json (paths : ResolvedPaths) {d : BgpPeerDesired}
    (hlla : orDefault d.peerLla [] ≠ []) :
    renderBgpPeerFiles display d.json paths = .ok (desiredBgpFiles paths d) := by
  have htunnel : renderTunnelFiles display d.json paths d.ifname
      (.ok (Builtins.str display (jsonOpt d.peerLla))) =
        .ok (d.netBackendArgs.files paths.networkdDir) := by
    apply renderTunnelFiles_eq (a := d.netBackendArgs) display rfl rfl rfl rfl rfl rfl
      (by rw [str_jsonOpt, printed_of_orDefault hlla]; rfl) rfl rfl rfl
  unfold renderBgpPeerFiles
  simp only [Prog.bind_eq_ok]
  refine ⟨_, rfl, _, rfl, _, rfl, _, rfl, unlines (bgpPeerLines d.ifname _ d.peerAsn), ?_, _,
    htunnel, rfl⟩
  rw [textOr_jsonOpt, renderBirdBgpPeerConf, if_neg (by simpa using hlla)]
  rfl

/-- A BGP peer without an address cannot be rendered. -/
theorem renderBgpPeerFiles_json_empty (paths : ResolvedPaths) {d : BgpPeerDesired}
    (hlla : orDefault d.peerLla [] = []) :
    renderBgpPeerFiles display d.json paths =
      .error (emptyFieldError "peer_lla" "BGP" d.ifname) := by
  have hbird : renderBirdBgpPeerConf d.ifname (textOr display (jsonOpt d.peerLla)) d.peerAsn =
      .error (emptyFieldError "peer_lla" "BGP" d.ifname) := by
    rw [textOr_jsonOpt, renderBirdBgpPeerConf, hlla]
    rfl
  show (renderBirdBgpPeerConf d.ifname (textOr display (jsonOpt d.peerLla)) d.peerAsn >>= _) = _
  rw [hbird]
  rfl

theorem truthy_jsonOpt (o : Option Str) : (jsonOpt o).truthy = !(orDefault o []).isEmpty := by
  cases o with
  | none => rfl
  | some s =>
      cases s with
      | nil => rfl
      | cons c cs => rfl

/-- The node renders the BIRD file of an iBGP peer as the hub does. -/
theorem renderIbgpBird_json (paths : ResolvedPaths) (d : IbgpPeerDesired) :
    renderIbgpBird display d.json paths d.name d.ifname =
      .ok (ibgpBirdFiles paths.birdPeersDir d.name (orDefault d.peerIp [])) := by
  unfold renderIbgpBird
  simp only [Prog.bind_eq_ok]
  refine ⟨jsonOpt d.peerIp, rfl, ?_⟩
  rw [truthy_jsonOpt, ibgpBirdFiles]
  by_cases hip : (orDefault d.peerIp []).isEmpty = true
  · simp only [hip]
    rfl
  · rw [if_pos (by simpa using hip), if_neg hip]
    simp only [Prog.bind_eq_ok]
    refine ⟨unlines (ibgpPeerLines d.name (orDefault d.peerIp [])), ?_, rfl⟩
    rw [textOr_jsonOpt, renderBirdIbgpPeerConf, if_neg hip]
    rfl

/-- The node renders an iBGP peer as the hub does. -/
theorem renderIbgpPeerFiles_json (paths : ResolvedPaths) (d : IbgpPeerDesired) :
    renderIbgpPeerFiles display d.json paths = .ok (desiredIbgpFiles paths d) := by
  have htunnel : renderTunnelFiles display d.json paths d.ifname
      ((getAttr d.json "peer_lla").map (textOr display)) =
        .ok (d.netBackendArgs.files paths.networkdDir) := by
    have hlla : (getAttr d.json "peer_lla").map (textOr display) =
        .ok (textOr display (jsonOpt d.peerLla)) := rfl
    apply renderTunnelFiles_eq (a := d.netBackendArgs) display rfl rfl rfl rfl rfl rfl
      (by rw [hlla, textOr_jsonOpt]; rfl) rfl rfl rfl
  unfold renderIbgpPeerFiles
  simp only [Prog.bind_eq_ok]
  refine ⟨_, rfl, _, rfl, _, renderIbgpBird_json display paths d, .bool d.hasWg, rfl, ?_⟩
  unfold desiredIbgpFiles
  cases d.hasWg with
  | false => simp [Json.truthy, pure, Except.pure]
  | true =>
      simp only [Json.truthy, if_true, Prog.bind_eq_ok]
      exact ⟨_, htunnel, rfl⟩

/-- And its interface in `babel.conf`. -/
theorem babelInterface_json (d : IbgpPeerDesired) :
    babelInterface display d.json =
      .ok (if d.hasWg then [⟨d.ifname, d.babelRxcost, d.babelType⟩] else []) := by
  unfold babelInterface
  simp only [Prog.bind_eq_ok]
  refine ⟨.bool d.hasWg, rfl, ?_⟩
  cases d.hasWg with
  | false => rfl
  | true => rfl

/-- A loop that does not fail collects. -/
theorem collect_ok {α β : Type} {f : α → Except PyError (List β)} {g : α → List β} {xs : List α}
    (h : ∀ x ∈ xs, f x = .ok (g x)) : collect f xs = .ok (xs.flatMap g) := by
  induction xs with
  | nil => rfl
  | cons x xs ih =>
      obtain ⟨hx, hxs⟩ := List.forall_mem_cons.mp h
      rw [collect, hx, ih hxs]
      rfl

/-- Rounds over the JSON of a list are rounds over the list. -/
theorem collect_map {α β γ : Type} (f : β → Except PyError (List γ)) (j : α → β) (xs : List α) :
    collect f (xs.map j) = collect (fun x => f (j x)) xs := by
  induction xs with
  | nil => rfl
  | cons x xs ih => rw [List.map_cons, collect, ih, collect]

theorem payloadPeers_bgp (st : DesiredState) :
    payloadPeers (desiredPayload st) "bgp_peers" = .ok (st.bgpPeers.map BgpPeerDesired.json) := rfl

theorem payloadPeers_ibgp (st : DesiredState) :
    payloadPeers (desiredPayload st) "ibgp_peers" =
      .ok (st.ibgpPeers.map IbgpPeerDesired.json) := rfl

theorem flatMap_ite_singleton {α β : Type} (p : α → Bool) (f : α → β) (xs : List α) :
    (xs.flatMap fun x => if p x then [f x] else []) = (xs.filter p).map f := by
  induction xs with
  | nil => rfl
  | cons x xs ih =>
      rw [List.flatMap_cons, ih, List.filter_cons]
      split
      · rfl
      · rfl

/-- The node renders `babel.conf` as the hub does. -/
theorem renderBabel_payload (paths : ResolvedPaths) (st : DesiredState) :
    renderBabel display (desiredPayload st) paths =
      .ok (desiredBabelFile paths st.ibgpPeers) := by
  unfold renderBabel
  simp only [Prog.bind_eq_ok]
  refine ⟨_, payloadPeers_ibgp st, _, ?_, rfl⟩
  rw [collect_map, collect_ok fun d _ => babelInterface_json display d, flatMap_ite_singleton]

/-! ## the node block -/

/-- The block of the node, where it says anything. -/
theorem node_of_payload (st : DesiredState) :
    Json.getD (lit "node") (desiredPayload st) .null =
      if st.node.entries.isEmpty then .null else .dict st.node.entries := by
  unfold desiredPayload
  split
  · rfl
  · rfl

theorem getAttr_ownIpv6 (b : NodeBlock) :
    getAttr (.dict b.entries) "own_ipv6" = .ok (jsonOpt b.ownIpv6) := by
  obtain ⟨ip, rid⟩ := b
  cases ip with
  | none =>
      cases rid with
      | none => rfl
      | some r => rfl
  | some s => rfl

theorem getAttr_routerId (b : NodeBlock) :
    getAttr (.dict b.entries) "router_id" = .ok (jsonOpt b.routerId) := by
  obtain ⟨ip, rid⟩ := b
  cases ip with
  | none =>
      cases rid with
      | none => rfl
      | some r => rfl
  | some s =>
      cases rid with
      | none => rfl
      | some r => rfl

/-- A field of the block replaces the one of the configuration. -/
theorem updated_field (o : Option Str) (old : Str) :
    (if (jsonOpt o).truthy then Builtins.str display (jsonOpt o) else old) = orDefault o old := by
  cases o with
  | none => rfl
  | some s =>
      cases s with
      | nil => rfl
      | cons c cs => rfl

/-- The node renders `bird.conf` from its configuration and the block. -/
theorem renderNodeConfigFiles_json (toml : TomlLib) (b : NodeBlock) (paths : ResolvedPaths)
    (appConfig : Option AppConfig) (extraExists : Bool) (hne : b.entries.isEmpty = false) :
    renderNodeConfigFiles display toml (.dict b.entries) paths appConfig extraExists =
      .ok (desiredNodeFiles toml appConfig paths extraExists b) := by
  unfold desiredNodeFiles
  simp only [hne, Bool.false_eq_true, if_false]
  cases appConfig with
  | none => rfl
  | some config =>
      have hany : hasUpdates (.dict b.entries) = .ok b.hasUpdates := by
        unfold hasUpdates
        simp only [Prog.bind_eq_ok]
        refine ⟨_, getAttr_ownIpv6 b, _, getAttr_routerId b, ?_⟩
        rw [truthy_jsonOpt, truthy_jsonOpt]
        rfl
      have hmerge : nodeUpdates display (.dict b.entries) config = .ok (mergeBlock config b) := by
        unfold nodeUpdates
        simp only [Prog.bind_eq_ok]
        refine ⟨_, getAttr_ownIpv6 b, _, getAttr_routerId b, ?_⟩
        rw [updated_field, updated_field]
        rfl
      unfold renderNodeConfigFiles
      simp only [Prog.bind_eq_ok]
      refine ⟨_, hany, ?_⟩
      cases b.hasUpdates with
      | false => rfl
      | true =>
          simp only [if_true, Prog.bind_eq_ok]
          exact ⟨_, hmerge, rfl⟩

/-- It does so when the block says anything. -/
theorem renderNodeBlock_payload (toml : TomlLib) (st : DesiredState) (paths : ResolvedPaths)
    (appConfig : Option AppConfig) (extraExists : Bool) :
    renderNodeBlock display toml (desiredPayload st) paths appConfig extraExists =
      .ok (desiredNodeFiles toml appConfig paths extraExists st.node) := by
  rw [renderNodeBlock, node_of_payload]
  cases hne : st.node.entries.isEmpty with
  | true =>
      simp only [if_true, desiredNodeFiles, hne]
      rfl
  | false =>
      have htruthy : (Json.dict st.node.entries).truthy = true := by
        rw [Json.truthy, hne]
        rfl
      simp only [Bool.false_eq_true, if_false, htruthy, if_true]
      exact renderNodeConfigFiles_json display toml st.node paths appConfig extraExists hne

/-- **What `apply` renders** from a desired state whose BGP peers have addresses. -/
theorem renderDesired_payload (toml : TomlLib) (st : DesiredState) (paths : ResolvedPaths)
    (appConfig : Option AppConfig) (extraExists : Bool)
    (hlla : ∀ d ∈ st.bgpPeers, orDefault d.peerLla [] ≠ []) :
    renderDesired display toml (desiredPayload st) paths appConfig extraExists =
      .ok (desiredPeerFiles paths st.toDesiredContent ++
          (desiredNodeFiles toml appConfig paths extraExists st.node).1,
        (desiredNodeFiles toml appConfig paths extraExists st.node).2) := by
  have hbgp : collect (fun peer => renderBgpPeerFiles display peer paths)
      (st.bgpPeers.map BgpPeerDesired.json) =
        .ok (st.bgpPeers.flatMap (desiredBgpFiles paths)) := by
    rw [collect_map]
    exact collect_ok fun d hd => renderBgpPeerFiles_json display paths (hlla d hd)
  have hibgp : collect (fun peer => renderIbgpPeerFiles display peer paths)
      (st.ibgpPeers.map IbgpPeerDesired.json) =
        .ok (st.ibgpPeers.flatMap (desiredIbgpFiles paths)) := by
    rw [collect_map]
    exact collect_ok fun d _ => renderIbgpPeerFiles_json display paths d
  unfold renderDesired
  simp only [Prog.bind_eq_ok]
  exact ⟨_, payloadPeers_bgp st, _, hbgp, _, payloadPeers_ibgp st, _, hibgp, _,
    renderBabel_payload display paths st, _,
    renderNodeBlock_payload display toml st paths appConfig extraExists, rfl⟩

/-! ## the build -/

/-- Recording a snapshot pins nothing. -/
theorem getPinRow_recorded (db : Db) (n m rev gen : Str) (content : DesiredContent) (keep : Int) :
    (db.recorded n rev gen content keep).getPinRow m = db.getPinRow m := by
  have hpins : (db.recorded n rev gen content keep).desiredPins = db.desiredPins :=
    ((Call.after_frame [] _ (.trim n keep)).desiredPins (by simp [Call.writes])).trans
      ((Call.after_frame [] db (.record n rev gen _)).desiredPins (by simp [Call.writes]))
  rw [Db.getPinRow, hpins, Db.getPinRow]

/-- The build of a node that is not pinned is the content of its rows. -/
theorem build_live {digest : DesiredContent → Str} {now n : Str} {record : Bool} {keep : Int}
    {db db' : Db} {st : DesiredState} (hpin : db.getPinRow n = none)
    (h : (buildDesiredState digest now n record keep).run db = (.ok st, db')) :
    st.toDesiredContent = db.liveContent n := by
  cases record with
  | true =>
      obtain ⟨-, built, hcases, hst⟩ := build_ok h
      have hpin' : db'.getPin n = none := by
        have hrow : db'.getPinRow n = none := by
          obtain ⟨-, rfl⟩ | ⟨-, -, rfl⟩ := hcases
          · exact hpin
          · rw [getPinRow_recorded]
            exact hpin
        rw [Db.getPin, hrow]
        rfl
      rw [hst, hpin']
  | false =>
      obtain ⟨content, db1, h1, h⟩ := Prog.run_bind_eq_ok.mp h
      have hb : params [.text n] = none := by
        obtain ⟨c', hrun, -⟩ := eval_eq_ok.mp h1
        exact (bind_queryOr hrun).1
      have hlive : eval (readLive n) db = (.ok content, db1) := h1
      rw [eval_readLive db hb, Prod.mk.injEq, Except.ok.injEq] at hlive
      cases h
      exact hlive.1.symm

/-- The rows on which the two renderers are compared. -/
structure ComparableRows (bgpRows : List BgpRow) (ibgpRows : List IbgpRow) : Prop where
  bgpBackend : ∀ r ∈ bgpRows, r.netBackend = lit "networkd"
  ibgpBackend : ∀ r ∈ ibgpRows, r.netBackend = lit "networkd"
  bgpAllowedIps : ∀ r ∈ bgpRows, r.allowedIps ≠ []
  ibgpAllowedIps : ∀ r ∈ ibgpRows, r.allowedIps ≠ []
  babelType : ∀ r ∈ ibgpRows, r.babelType ≠ []
  peerLla : ∀ r ∈ bgpRows, orDefault r.peerLla [] ≠ []

/-- `genconf` accepts these rows. -/
theorem ComparableRows.renderable {bgpRows : List BgpRow} {ibgpRows : List IbgpRow}
    (h : ComparableRows bgpRows ibgpRows) :
    (∀ r ∈ bgpRows, r.Renderable) ∧ ∀ r ∈ ibgpRows, r.Renderable := by
  have hbackend : ∀ b, b = lit "networkd" → backendOf b = lit "networkd" := by
    rintro b rfl
    rfl
  exact ⟨fun r hr => ⟨h.peerLla r hr, h.bgpAllowedIps r hr, hbackend _ (h.bgpBackend r hr)⟩,
    fun r hr _ => ⟨h.ibgpAllowedIps r hr, hbackend _ (h.ibgpBackend r hr)⟩⟩

/-- The hub's rows and the payload have the same interfaces. -/
theorem desiredBabelFile_rows (config : AppConfig) (configPath : PosixPath) {rows : List IbgpRow}
    (h : ∀ r ∈ rows, r.babelType ≠ []) :
    desiredBabelFile (resolvePaths (some config) configPath) (rows.map ibgpRowToDict) =
      babelFile config rows := by
  have hinterfaces : ((rows.map ibgpRowToDict).filter fun d => d.hasWg).map
      (fun d => (⟨d.ifname, d.babelRxcost, d.babelType⟩ : BabelInterface)) =
        babelInterfaces rows := by
    rw [babelInterfaces, List.filter_map, List.map_map]
    apply List.map_congr_left
    intro r hr
    have hne : r.babelType.isEmpty = false := by
      simpa using h r (List.mem_of_mem_filter hr)
    simp only [Function.comp_apply, ibgpRowToDict, hne, Bool.false_eq_true, if_false]
  rw [desiredBabelFile, hinterfaces]
  rfl

/-- The files of the desired state are the files of the rows. -/
theorem desiredPeerFiles_rows (config : AppConfig) (configPath : PosixPath) {db : Db} {n : Str}
    (h : ComparableRows (db.listBgpPeers n) (db.listIbgpPeers n)) :
    desiredPeerFiles (resolvePaths (some config) configPath) (db.liveContent n) =
      rowFiles config (db.listBgpPeers n) (db.listIbgpPeers n) ++
        [babelFile config (db.listIbgpPeers n)] := by
  simp only [desiredPeerFiles, Db.liveContent, List.flatMap_map,
    desiredBabelFile_rows config configPath h.babelType, rowFiles]
  rfl

/-- The `config.toml` that `apply` writes, if the block changes anything. -/
def updatedToml (toml : TomlLib) (configPath : PosixPath) (config merged : AppConfig) :
    List FileSpec :=
  if merged = config then [] else [⟨configPath, dumpsConfig toml merged, .priv⟩]

/-- The lines of a TOML document whose texts need no escapes. -/
def tomlLines (doc : JsonObject) : List Str :=
  doc.flatMap fun kv =>
    match kv.2 with
    | .str s => [kv.1 ++ lit " = \"" ++ s ++ lit "\""]
    | .int n => [kv.1 ++ lit " = " ++ ofInt n]
    | .dict table =>
        [] :: (lit "[" ++ kv.1 ++ lit "]") :: table.map fun kv' =>
          match kv'.2 with
          | .str s => kv'.1 ++ lit " = \"" ++ s ++ lit "\""
          | _ => []
    | _ => []

/-- `sampleConfig` after the hub has moved the node to `fd00::2`. -/
def movedConfig : AppConfig := { sampleConfig with ownIpv6 := lit "fd00::2" }

/-- A TOML library that knows two documents. -/
def TomlLib.knowing (dumps : JsonObject → Str) (doc doc' : JsonObject) : TomlLib where
  loads content :=
    if content = .text (dumps doc) then some doc
    else if content = .text (dumps doc') then some doc'
    else none
  dumps

theorem TomlLib.knowing_first (dumps : JsonObject → Str) (doc doc' : JsonObject) :
    (TomlLib.knowing dumps doc doc').RoundTrips doc := if_pos rfl

theorem TomlLib.knowing_second {dumps : JsonObject → Str} {doc doc' : JsonObject}
    (hne : dumps doc' ≠ dumps doc) : (TomlLib.knowing dumps doc doc').RoundTrips doc' :=
  (if_neg fun h => hne (Content.text.inj h)).trans (if_pos rfl)

def sampleToml : TomlLib :=
  .knowing (fun doc => unlines (tomlLines doc)) (configDocument movedConfig)
    (configDocument sampleConfig)

theorem roundTrips_moved : sampleToml.RoundTrips (configDocument movedConfig) := by
  unfold sampleToml
  exact TomlLib.knowing_first _ _ _

theorem eq_ok_of_isOk {r : Except PyError Unit} (h : r.isOk = true) : r = .ok () := by
  cases r with
  | error e => cases h
  | ok u => rfl

theorem valid_sampleConfig : sampleConfig.Valid := by
  have haddresses : (checkAddresses sampleConfig.ownAsn sampleConfig.routerId sampleConfig.ownIpv6
      sampleConfig.ownnetV6 sampleConfig.ownnetsetV6).isOk = true := by decide +kernel
  refine ⟨?_, ?_, ?_, ?_, ?_, ?_, ?_, ?_, ?_, ?_, ?_, ?_, eq_ok_of_isOk haddresses, .inl rfl⟩ <;>
    decide +kernel

theorem load_sampleConfig :
    loadConfig sampleToml configToml (some (.text (dumpsConfig sampleToml sampleConfig))) =
      .ok sampleConfig := by
  have hne : unlines (tomlLines (configDocument sampleConfig)) ≠
      unlines (tomlLines (configDocument movedConfig)) := by decide +kernel
  exact loadConfig_dumpsConfig configToml (TomlLib.knowing_second hne) valid_sampleConfig

def sampleTunnel : PeerRecordBase where
  nodeId := lit "a"
  ifname := lit "dn42_4242420001"
  wgPrivateKey := lit "priv"
  wgPublicKey := lit "pub"
  peerPublicKey := some (lit "key")
  endpoint := some (lit "example.net:51820")
  localLla := lit "fe80::1"
  peerLla := some (lit "fe80::2")
  listenPort := 20001
  allowedIps := [lit "fe80::/64", lit "fd00::/8"]
  netBackend := lit "networkd"

def sampleBgpRow : BgpRow :=
  { sampleTunnel with peerAsn := 4242420001, createdAt := lit "t0", updatedAt := lit "t0" }

def sampleIbgpRow : IbgpRow :=
  { sampleTunnel with
    name := lit "b", ifname := lit "wg_b", endpoint := none, listenPort := 20002,
    peerIp := some (lit "fd00::b"), babelRxcost := 96, createdAt := lit "t0",
    updatedAt := lit "t0" }

/-- Node `a` with a BGP peer, a tunnel to `b` and an address from the hub. -/
def sampleDb : Db :=
  { Db.empty with
    nodes := [lit "a"], bgpPeers := [sampleBgpRow], ibgpPeers := [sampleIbgpRow],
    managedNodes :=
      [{ nodeId := lit "a", name := lit "a", apiTokenHash := none,
         writePolicy := defaultWritePolicy, enabled := true, isSelf := false, lastSeenAt := none,
         createdAt := lit "t0", updatedAt := lit "t0", ownIpv6 := some (lit "fd00::2") }] }

def sampleDesired : DesiredState :=
  { sampleDb.liveContent (lit "a") with revision := lit "t0-7efbcf6b", generatedAt := lit "t0" }

def sampleApplyEnv : ApplyEnv := { calmEnv with toml := sampleToml }

def sampleDisk : Disk := [(configToml, .text (dumpsConfig sampleToml sampleConfig))]

theorem read_sampleDisk :
    sampleDisk.read configToml = some (.text (dumpsConfig sampleToml sampleConfig)) := by
  have hhead : ∀ (p : PosixPath) (c : Content), Disk.read p [(p, c)] = some c := by
    intro p c
    simp [Disk.read]
  exact hhead _ _

theorem build_sample :
    (buildDesiredState (fun _ => lit "7efbcf6b") (lit "t0") (lit "a") false).run sampleDb =
      (.ok sampleDesired, sampleDb) := by
  have hread : (onConnection (readLive (lit "a"))).run sampleDb =
      (.ok (sampleDb.liveContent (lit "a")), sampleDb) := eval_readLive sampleDb (by decide)
  rw [buildDesiredState, Prog.run_bind_ok hread]
  rfl

theorem comparable_sample :
    ComparableRows (sampleDb.listBgpPeers (lit "a")) (sampleDb.listIbgpPeers (lit "a")) := by
  refine ⟨?_, ?_, ?_, ?_, ?_, ?_⟩ <;> decide +kernel

end Dn42Ctl
