import Dn42Ctl.Schema
import Dn42Ctl.Lib.Path

/-!
# Render

`dn42ctl/render.py` and its templates.  Every template ends its lines with a
line feed, so a rendered file is the list of its lines.  A value is printed as
`str()` prints it: a column that is NULL becomes `None`.
-/

namespace Dn42Ctl

open Text

/-- The text of a list of lines. -/
def unlines (lines : List Str) : Str := lines.flatMap fun l => l ++ [10]

/-- `str(x)` of a nullable column. -/
def printed : Option Str → Str
  | none => lit "None"
  | some s => s

/-- `ValueError(f"{what} must not be empty for {kind} peer {ifname}")`. -/
def emptyFieldError (what kind : String) (ifname : Str) : PyError :=
  ⟨.valueError, [.text (lit what), .text (lit " must not be empty for "), .text (lit kind),
    .text (lit " peer "), .text ifname]⟩

/-! ## `bird.conf` -/

/-- The variable header of `bird.conf.j2`. -/
def birdHeaderLines (ownAsn : Int) (routerId ownIpv6 ownnetV6 ownnetsetV6 : Str) : List Str :=
  [lit "################################################",
   lit "#               Variable header                #",
   lit "################################################",
   [],
   lit "define OWNAS =  " ++ ofInt ownAsn ++ lit ";",
   lit "define ROUTERID = " ++ routerId ++ lit ";     # init 时随机生成后两段 (X.Y)",
   lit "define OWNIPv6 = " ++ ownIpv6 ++ lit ";       # 用户指定的 IPv6 地址 (通常为本端 DN42 ULA 地址)",
   lit "define OWNNETv6 = " ++ ownnetV6 ++ lit ";",
   lit "define OWNNETSETv6 = " ++ ownnetsetV6 ++ lit ";",
   [],
   lit "################################################",
   lit "#                 Header end                   #",
   lit "################################################",
   []]

/-- `bird.conf.j2` from `router id` to `protocol bfd`. -/
def birdProtocolLines (birdRoaV6ConfPath : PosixPath) : List Str :=
  [lit "router id ROUTERID;",
   [],
   lit "protocol device \x7b",
   lit "    scan time 10;",
   lit "\x7d",
   [],
   lit "/*",
   lit " *  Utility functions",
   lit " */",
   [],
   lit "function is_self_net_v6() -> bool \x7b",
   lit "  return net ~ OWNNETSETv6;",
   lit "\x7d",
   [],
   lit "roa6 table dn42_roa_v6;",
   [],
   lit "protocol static \x7b",
   lit "    roa6 \x7b table dn42_roa_v6; \x7d;",
   lit "    include \"" ++ birdRoaV6ConfPath.toStr ++ lit "\";",
   lit "\x7d;",
   [],
   lit "function is_valid_network_v6() -> bool \x7b",
   lit "  return net ~ [",
   lit "    fd00::/8\x7b44,64\x7d # ULA address space as per RFC 4193",
   lit "  ];",
   lit "\x7d",
   [],
   lit "protocol kernel \x7b",
   lit "    scan time 20;",
   [],
   lit "    ipv6 \x7b",
   lit "        import none;",
   lit "        export filter \x7b",
   lit "            if source = RTS_STATIC then reject;",
   lit "            krt_prefsrc = OWNIPv6;",
   lit "            accept;",
   lit "        \x7d;",
   lit "    \x7d;",
   lit "\x7d;",
   [],
   lit "protocol static \x7b",
   lit "    route OWNNETv6 reject;",
   [],
   lit "    ipv6 \x7b",
   lit "        import all;",
   lit "        export none;",
   lit "    \x7d;",
   lit "\x7d",
   [],
   lit "protocol bfd \x7b\x7d;",
   []]

/-- The two BGP templates of `bird.conf.j2`. -/
def birdTemplateLines : List Str :=
  [lit "template bgp dnpeers \x7b",
   lit "    local as OWNAS;",
   lit "    path metric on;",
   [],
   lit "    ipv6 \x7b",
   lit "        import filter \x7b",
   lit "          if is_valid_network_v6() && !is_self_net_v6() then \x7b",
   lit "            if (roa_check(dn42_roa_v6, net, bgp_path.last) != ROA_VALID) then \x7b",
   lit "              # Reject when unknown or invalid according to ROA",
   lit "              print \"[dn42] ROA check failed for \", net, \" ASN \", bgp_path.last;",
   lit "              reject;",
   lit "            \x7d else accept;",
   lit "          \x7d else reject;",
   lit "        \x7d;",
   lit "        export filter \x7b if is_valid_network_v6() && source ~ [RTS_STATIC, RTS_BGP]" ++
     lit " then accept; else reject; \x7d;",
   lit "        import limit 9000 action block;",
   lit "    \x7d;",
   lit "\x7d",
   [],
   lit "template bgp ibgp_template \x7b",
   lit "    local as OWNAS;",
   lit "    path metric on;",
   [],
   lit "    ipv6 \x7b",
   lit "        import where source = RTS_BGP && is_valid_network_v6() && !is_self_net_v6();",
   lit "        export where source = RTS_BGP && is_valid_network_v6() && !is_self_net_v6();",
   lit "        next hop self;",
   lit "    \x7d;",
   lit "\x7d",
   []]

def birdIncludeLines (birdBabelConfPath birdPeersDir birdExtraConfPath : PosixPath) : List Str :=
  [lit "include \"" ++ birdBabelConfPath.toStr ++ lit "\";",
   lit "include \"" ++ (birdPeersDir.join (lit "*")).toStr ++ lit "\";",
   lit "include \"" ++ birdExtraConfPath.toStr ++ lit "\";"]

def renderBirdMainConf (ownAsn : Int) (routerId ownIpv6 ownnetV6 ownnetsetV6 : Str)
    (birdBabelConfPath birdPeersDir birdRoaV6ConfPath birdExtraConfPath : PosixPath) : Str :=
  unlines (birdHeaderLines ownAsn routerId ownIpv6 ownnetV6 ownnetsetV6 ++
    birdProtocolLines birdRoaV6ConfPath ++ birdTemplateLines ++
    birdIncludeLines birdBabelConfPath birdPeersDir birdExtraConfPath)

/-- The comment-only file written when `extra.conf` is missing. -/
def renderBirdExtraConfPlaceholder : Str := unlines
  [lit "# dn42ctl: 用户自定义 Bird 配置",
   lit "#",
   lit "# 本文件由 dn42ctl 在缺失时创建一次,此后永不改写,内容完全由你维护。",
   lit "#",
   lit "# bird.conf 在末尾 include 本文件,因此这里可以引用前面已定义的 OWNAS / OWNIPv6 /",
   lit "# OWNNETv6 / OWNNETSETv6 等 define,以及 dnpeers 与 ibgp_template 两个 BGP template。",
   lit "# 反过来,这里定义的 function 无法被 bird.conf 中的内置 filter 使用——那些 filter",
   lit "# 出现得更早。需要修改内置过滤逻辑时,应当修改 dn42ctl 的模板本身。",
   lit "#",
   lit "# 适合写在这里的内容:静态路由、额外的 protocol、面向特定邻居的 filter。",
   lit "#",
   lit "# 语法错误会让 birdc configure 加载整份配置失败,其中包括 dn42ctl 生成的部分。"]

/-! ## BIRD peers -/

/-- `bird_bgp_peer.conf.j2`. -/
def bgpPeerLines (ifname peerLla : Str) (peerAsn : Int) : List Str :=
  [lit "protocol bgp " ++ ifname ++ lit " from dnpeers \x7b",
   lit "    bfd graceful;",
   lit "    bfd \x7b",
   lit "        interval 10s;",
   lit "    \x7d;",
   lit "    neighbor " ++ peerLla ++ lit "%" ++ ifname ++ lit " as " ++ ofInt peerAsn ++ lit ";",
   lit "\x7d"]

def renderBirdBgpPeerConf (ifname peerLla : Str) (peerAsn : Int) : Except PyError Str :=
  if peerLla.isEmpty then throw (emptyFieldError "peer_lla" "BGP" ifname)
  else pure (unlines (bgpPeerLines ifname peerLla peerAsn))

/-- `bird_ibgp_peer.conf.j2`. -/
def ibgpPeerLines (name peerIp : Str) : List Str :=
  [lit "protocol bgp ibgp_" ++ name ++ lit " from ibgp_template \x7b",
   lit "    neighbor " ++ peerIp ++ lit " as OWNAS;",
   lit "\x7d;"]

def renderBirdIbgpPeerConf (name ifname peerIp : Str) : Except PyError Str :=
  if peerIp.isEmpty then throw (emptyFieldError "peer_ip" "iBGP" ifname)
  else pure (unlines (ibgpPeerLines name peerIp))

/-! ## `babel.conf` -/

/-- An entry of `interfaces`: name, rxcost and type. -/
structure BabelInterface where
  ifname : Str
  rxcost : Int
  babelType : Str
deriving DecidableEq, Repr

/-- One round of the loop in `babel.conf.j2`. -/
def BabelInterface.lines (i : BabelInterface) : List Str :=
  [[],
   lit "    interface \"" ++ i.ifname ++ lit "\" \x7b",
   lit "        type " ++ i.babelType ++ lit ";",
   lit "        rxcost " ++ ofInt i.rxcost ++ lit ";",
   lit "        rtt cost 192;",
   lit "        rtt max 394ms; # 4*96+10ms",
   lit "        rtt decay 64;",
   lit "    \x7d;"]

/-- `babel.conf.j2` up to its loop. -/
def babelHeaderLines : List Str :=
  [lit "protocol direct \x7b",
   lit "    ipv4;",
   lit "    ipv6;",
   lit "    interface \"dn42-dummy\";",
   lit "\x7d;",
   [],
   lit "protocol babel intra_babel \x7b",
   lit "    ipv6 \x7b",
   lit "        import where source != RTS_BGP && is_self_net_v6();",
   lit "        export where source != RTS_BGP && is_self_net_v6();",
   lit "    \x7d;"]

def babelLines (interfaces : List BabelInterface) : List Str :=
  babelHeaderLines ++ interfaces.flatMap BabelInterface.lines ++ [[], lit "\x7d;"]

def renderBabelConf (interfaces : List BabelInterface) : Str := unlines (babelLines interfaces)

/-! ## networkd -/

/-- `networkd_netdev.j2`. -/
def netdevLines (ifname privateKey : Str) (listenPort : Int) (peerPublicKey endpoint : Str)
    (allowedIps : List Str) : List Str :=
  [lit "[NetDev]",
   lit "Name=" ++ ifname,
   lit "Kind=wireguard",
   [],
   lit "[WireGuard]",
   lit "PrivateKey=" ++ privateKey] ++
  (if listenPort > 0 then [lit "ListenPort=" ++ ofInt listenPort] else []) ++
  [lit "RouteTable=off",
   [],
   lit "[WireGuardPeer]",
   lit "PublicKey=" ++ peerPublicKey] ++
  (if endpoint.isEmpty then [] else [lit "Endpoint=" ++ endpoint]) ++
  allowedIps.map fun cidr => lit "AllowedIPs=" ++ cidr

def renderNetworkdNetdev (ifname privateKey : Str) (listenPort : Int)
    (peerPublicKey endpoint : Str) (allowedIps : List Str) : Str :=
  unlines (netdevLines ifname privateKey listenPort peerPublicKey endpoint allowedIps)

/-- `networkd_network.j2`. -/
def networkLines (ifname localLla peerLla : Str) : List Str :=
  [lit "[Match]",
   lit "Name=" ++ ifname,
   [],
   lit "[Network]",
   lit "DHCP=no",
   lit "IPv6AcceptRA=false",
   lit "IPForward=yes",
   lit "IPv4ReversePathFilter=no",
   [],
   lit "KeepConfiguration=yes",
   [],
   lit "[Address]",
   lit "Address=" ++ localLla ++ lit "/128",
   lit "Peer=" ++ peerLla]

def renderNetworkdNetwork (ifname localLla peerLla : Str) : Str :=
  unlines (networkLines ifname localLla peerLla)

def renderDummyNetdev : Str := unlines
  [lit "[NetDev]",
   lit "Name=dn42-dummy",
   lit "Kind=dummy"]

def renderDummyNetwork (ownIpv6 : Str) : Str := unlines
  [lit "[Match]",
   lit "Name=dn42-dummy",
   [],
   lit "[Network]",
   lit "DHCP=no",
   lit "IPv6AcceptRA=false",
   [],
   lit "[Address]",
   lit "Address=" ++ ownIpv6 ++ lit "/128"]

end Dn42Ctl
