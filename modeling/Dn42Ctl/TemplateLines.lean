import Dn42Ctl.NodeApply
import Dn42Ctl.UnitFiles

/-!
# TemplateLines

Which values make a rendered file have the lines of its template and no others.
A file is written as the lines of the template, so it is read as these lines
exactly when each of them is one line, and that depends on the values alone:
the text of the templates holds no end of a line.

* `splitlines_unlines_iff` — a file against the lines it was written from;
* `oneLine_netdevLines`, `oneLine_networkLines`, `oneLine_bgpPeerLines`,
  `oneLine_ibgpPeerLines` — the values of each template;
* `oneLine_mainConf` — the values of `bird.conf`.
-/

namespace Dn42Ctl

open Text

/-- A file has the lines it was written from exactly when none of them has an
end of a line in it. -/
theorem splitlines_unlines_iff (lines : List Str) :
    splitlines (unlines lines) = lines ↔ ∀ l ∈ lines, OneLine l := by
  constructor
  · intro h l hl
    rw [← h] at hl
    exact oneLine_of_mem_splitlines hl
  · intro h
    rw [splitlines_unlines, flatMap_splitlines h]

/-- A file whose lines are one line each holds no carriage return. -/
theorem noReturn_unlines {lines : List Str} (h : ∀ l ∈ lines, OneLine l) : 13 ∉ unlines lines := by
  intro hmem
  obtain ⟨l, hl, hc⟩ := List.mem_flatMap.mp hmem
  rw [List.mem_append, List.mem_singleton] at hc
  obtain hc | hc := hc
  · exact absurd (h l hl 13 hc) (by decide)
  · exact absurd hc (by decide)

/-! ## the text of the templates -/

/-- A number is one line. -/
theorem oneLine_ofInt (n : Int) : OneLine (ofInt n) := by
  have hnat : ∀ m : Nat, OneLine (ofInt (m : Int)) := fun m =>
    oneLine_of_noSpace fun c hc => digit_not_space (isDigit_ofInt m c hc)
  cases n with
  | ofNat m => exact hnat m
  | negSucc m =>
      intro c hc
      rcases List.mem_cons.mp hc with rfl | hc
      · rfl
      · exact hnat (m + 1) c hc

/-! ## the files of a peer -/

variable {ifname privateKey peerPublicKey endpoint localLla peerLla name peerIp : Str}
  {listenPort peerAsn : Int} {allowedIps : List Str}

/-- The `.netdev` unit. -/
theorem oneLine_netdevLines :
    (∀ l ∈ netdevLines ifname privateKey listenPort peerPublicKey endpoint allowedIps, OneLine l) ↔
      OneLine ifname ∧ OneLine privateKey ∧ OneLine peerPublicKey ∧ OneLine endpoint ∧
        ∀ cidr ∈ allowedIps, OneLine cidr := by
  have hname : OneLine (lit "Name=") := oneLine_lit _ rfl
  have hpriv : OneLine (lit "PrivateKey=") := oneLine_lit _ rfl
  have hport : OneLine (lit "ListenPort=") := oneLine_lit _ rfl
  have hpub : OneLine (lit "PublicKey=") := oneLine_lit _ rfl
  have hend : OneLine (lit "Endpoint=") := oneLine_lit _ rfl
  have hips : OneLine (lit "AllowedIPs=") := oneLine_lit _ rfl
  have htext : OneLine (lit "[NetDev]") ∧ OneLine (lit "Kind=wireguard") ∧
      OneLine (lit "[WireGuard]") ∧ OneLine (lit "RouteTable=off") ∧
      OneLine (lit "[WireGuardPeer]") :=
    ⟨oneLine_lit _ rfl, oneLine_lit _ rfl, oneLine_lit _ rfl, oneLine_lit _ rfl,
      oneLine_lit _ rfl⟩
  have hportLine : ∀ l ∈ (if listenPort > 0 then [lit "ListenPort=" ++ ofInt listenPort] else []),
      OneLine l := by
    split
    · simp [oneLine_label hport, oneLine_ofInt]
    · simp
  have hendLine : (∀ l ∈ (if endpoint.isEmpty then [] else [lit "Endpoint=" ++ endpoint]),
      OneLine l) ↔ OneLine endpoint := by
    cases endpoint with
    | nil => simp [oneLine_nil]
    | cons c cs => simp [oneLine_label hend]
  simp only [netdevLines, List.forall_mem_append, List.forall_mem_cons, List.forall_mem_map,
    hendLine,
    oneLine_label hname, oneLine_label hpriv, oneLine_label hpub, oneLine_label hips, htext,
    oneLine_nil, List.not_mem_nil, false_imp_iff, implies_true, true_and, and_true]
  constructor
  · rintro ⟨⟨⟨⟨⟨hif, hkey⟩, -⟩, hpeer⟩, hendpoint⟩, hcidrs⟩
    exact ⟨hif, hkey, hpeer, hendpoint, hcidrs⟩
  · rintro ⟨hif, hkey, hpeer, hendpoint, hcidrs⟩
    exact ⟨⟨⟨⟨⟨hif, hkey⟩, hportLine⟩, hpeer⟩, hendpoint⟩, hcidrs⟩

/-- The `.network` unit. -/
theorem oneLine_networkLines :
    (∀ l ∈ networkLines ifname localLla peerLla, OneLine l) ↔
      OneLine ifname ∧ OneLine localLla ∧ OneLine peerLla := by
  have hname : OneLine (lit "Name=") := oneLine_lit _ rfl
  have haddr : OneLine (lit "Address=") := oneLine_lit _ rfl
  have hbits : OneLine (lit "/128") := oneLine_lit _ rfl
  have hpeer : OneLine (lit "Peer=") := oneLine_lit _ rfl
  have htext : OneLine (lit "[Match]") ∧ OneLine (lit "[Network]") ∧ OneLine (lit "DHCP=no") ∧
      OneLine (lit "IPv6AcceptRA=false") ∧ OneLine (lit "IPForward=yes") ∧
      OneLine (lit "IPv4ReversePathFilter=no") ∧ OneLine (lit "KeepConfiguration=yes") ∧
      OneLine (lit "[Address]") :=
    ⟨oneLine_lit _ rfl, oneLine_lit _ rfl, oneLine_lit _ rfl, oneLine_lit _ rfl,
      oneLine_lit _ rfl, oneLine_lit _ rfl, oneLine_lit _ rfl, oneLine_lit _ rfl⟩
  have hlocal : OneLine (lit "Address=" ++ localLla ++ lit "/128") ↔ OneLine localLla := by
    rw [oneLine_tail hbits, oneLine_label haddr]
  simp only [networkLines, List.forall_mem_cons, oneLine_label hname, hlocal, oneLine_label hpeer,
    htext, oneLine_nil, List.not_mem_nil, false_imp_iff, implies_true, true_and, and_true]

/-- The BIRD file of a BGP peer. -/
theorem oneLine_bgpPeerLines :
    (∀ l ∈ bgpPeerLines ifname peerLla peerAsn, OneLine l) ↔ OneLine ifname ∧ OneLine peerLla := by
  have hproto : OneLine (lit "protocol bgp ") := oneLine_lit _ rfl
  have hfrom : OneLine (lit " from dnpeers \x7b") := oneLine_lit _ rfl
  have hneighbor : OneLine (lit "    neighbor ") := oneLine_lit _ rfl
  have hscope : OneLine (lit "%") := oneLine_lit _ rfl
  have has : OneLine (lit " as ") := oneLine_lit _ rfl
  have hend : OneLine (lit ";") := oneLine_lit _ rfl
  have htext : OneLine (lit "    bfd graceful;") ∧ OneLine (lit "    bfd \x7b") ∧
      OneLine (lit "        interval 10s;") ∧ OneLine (lit "    \x7d;") ∧ OneLine (lit "\x7d") :=
    ⟨oneLine_lit _ rfl, oneLine_lit _ rfl, oneLine_lit _ rfl, oneLine_lit _ rfl,
      oneLine_lit _ rfl⟩
  simp only [bgpPeerLines, List.forall_mem_cons, oneLine_append, hproto, hfrom, hneighbor, hscope,
    has, hend, oneLine_ofInt, htext, List.not_mem_nil, false_imp_iff, implies_true, true_and,
    and_true]
  constructor
  · rintro ⟨hif, hlla, -⟩
    exact ⟨hif, hlla⟩
  · rintro ⟨hif, hlla⟩
    exact ⟨hif, hlla, hif⟩

/-- The BIRD file of an iBGP peer. -/
theorem oneLine_ibgpPeerLines :
    (∀ l ∈ ibgpPeerLines name peerIp, OneLine l) ↔ OneLine name ∧ OneLine peerIp := by
  have hproto : OneLine (lit "protocol bgp ibgp_") := oneLine_lit _ rfl
  have hfrom : OneLine (lit " from ibgp_template \x7b") := oneLine_lit _ rfl
  have hneighbor : OneLine (lit "    neighbor ") := oneLine_lit _ rfl
  have has : OneLine (lit " as OWNAS;") := oneLine_lit _ rfl
  have hend : OneLine (lit "\x7d;") := oneLine_lit _ rfl
  simp only [ibgpPeerLines, List.forall_mem_cons, oneLine_append, hproto, hfrom, hneighbor, has,
    hend, List.not_mem_nil, false_imp_iff, implies_true, true_and, and_true]

/-! ## `bird.conf` -/

/-- The definitions at the head of `bird.conf`. -/
theorem oneLine_birdHeaderLines {ownAsn : Int} {routerId ownIpv6 ownnetV6 ownnetsetV6 : Str}
    (hrouter : OneLine routerId) (hip : OneLine ownIpv6) (hnet : OneLine ownnetV6)
    (hset : OneLine ownnetsetV6) :
    ∀ l ∈ birdHeaderLines ownAsn routerId ownIpv6 ownnetV6 ownnetsetV6, OneLine l := by
  have hvalue : ∀ {start v rest : Str}, OneLine start → OneLine v → OneLine rest →
      OneLine (start ++ v ++ rest) := fun hs hv hr =>
    oneLine_append.mpr ⟨oneLine_append.mpr ⟨hs, hv⟩, hr⟩
  simp only [birdHeaderLines, List.forall_mem_cons, List.not_mem_nil, false_imp_iff, implies_true,
    and_true, oneLine_nil, true_and]
  exact ⟨oneLine_lit _ rfl, oneLine_lit _ rfl, oneLine_lit _ rfl,
    hvalue (oneLine_lit _ rfl) (oneLine_ofInt _) (oneLine_lit _ rfl),
    hvalue (oneLine_lit _ rfl) hrouter (oneLine_lit _ rfl),
    hvalue (oneLine_lit _ rfl) hip (oneLine_lit _ rfl),
    hvalue (oneLine_lit _ rfl) hnet (oneLine_lit _ rfl),
    hvalue (oneLine_lit _ rfl) hset (oneLine_lit _ rfl),
    oneLine_lit _ rfl, oneLine_lit _ rfl, oneLine_lit _ rfl⟩

theorem oneLine_birdProtocolLines {roa : PosixPath} (h : OneLine roa.toStr) :
    ∀ l ∈ birdProtocolLines roa, OneLine l := by
  have hinclude : OneLine (lit "    include \"" ++ roa.toStr ++ lit "\";") := by
    rw [oneLine_tail (oneLine_lit _ rfl), oneLine_label (oneLine_lit _ rfl)]
    exact h
  simp only [birdProtocolLines, List.forall_mem_cons, List.not_mem_nil, false_imp_iff, implies_true,
    and_true, oneLine_nil, true_and, hinclude]
  repeat' apply And.intro
  all_goals exact oneLine_lit _ rfl

theorem oneLine_birdTemplateLines : ∀ l ∈ birdTemplateLines, OneLine l := by
  simp only [birdTemplateLines, List.forall_mem_cons, List.not_mem_nil, false_imp_iff, implies_true,
    and_true, oneLine_nil, true_and, oneLine_append]
  repeat' apply And.intro
  all_goals exact oneLine_lit _ rfl

/-- The values of `bird.conf`, in a configuration and in the resolved paths. -/
structure MainConfLines (config : AppConfig) (paths : ResolvedPaths) : Prop where
  routerId : OneLine config.routerId
  ownIpv6 : OneLine config.ownIpv6
  ownnetV6 : OneLine config.ownnetV6
  ownnetsetV6 : OneLine config.ownnetsetV6
  roaConf : OneLine (PosixPath.ofStr config.birdRoaV6ConfPath).toStr
  babelConf : OneLine paths.babelConfPath.toStr
  peers : OneLine (paths.birdPeersDir.join (lit "*")).toStr
  extraConf : OneLine paths.birdExtraConfPath.toStr

/-- The values of `bird.conf` that make it have its template's lines. -/
theorem oneLine_mainConf {config : AppConfig} {paths : ResolvedPaths}
    (h : MainConfLines config paths) :
    ∃ lines, mainConf config paths = unlines lines ∧ ∀ l ∈ lines, OneLine l := by
  have hinclude : ∀ {v : Str}, OneLine v → OneLine (lit "include \"" ++ v ++ lit "\";") := by
    intro v hv
    rw [oneLine_tail (oneLine_lit _ rfl), oneLine_label (oneLine_lit _ rfl)]
    exact hv
  refine ⟨_, rfl, ?_⟩
  simp only [List.forall_mem_append, birdIncludeLines, List.forall_mem_cons, List.not_mem_nil,
    false_imp_iff, implies_true, and_true]
  exact ⟨⟨⟨oneLine_birdHeaderLines h.routerId h.ownIpv6 h.ownnetV6 h.ownnetsetV6,
    oneLine_birdProtocolLines h.roaConf⟩, oneLine_birdTemplateLines⟩,
    hinclude h.babelConf, hinclude h.peers, hinclude h.extraConf⟩

end Dn42Ctl
