import KosSim.Library.FirstMatch
import Mathlib.Algebra.Group.Nat.Defs

/-!
networking.py: the address plan of a team and the nftables rules of the router. A
rule is data with a text: what is rendered and what decides about a packet are one list.
-/

namespace KosSim.Networking
open Library

abbrev Address := BitVec 32

def dotted (a b c d : Nat) : Address := BitVec.ofNat 32 (((a * 256 + b) * 256 + c) * 256 + d)

structure Cidr where
  address : Address
  length : Nat
  deriving DecidableEq

def Cidr.contains (cidr : Cidr) (address : Address) : Bool :=
  decide (address.toNat / 2 ^ (32 - cidr.length) = cidr.address.toNat / 2 ^ (32 - cidr.length))

def addressText (address : Address) : String :=
  let value := address.toNat
  String.intercalate "." ([value / 16777216, value / 65536 % 256, value / 256 % 256,
    value % 256].map toString)

def cidrText (cidr : Cidr) : String := addressText cidr.address ++ "/" ++ toString cidr.length

structure TeamNetworkPlan where
  teamId : Int
  teamName : String
  teamCidr : Cidr
  gatewayIp : Address
  vulnboxIp : Address
  playerIp : Address
  playerPrivateKey : String
  playerPublicKey : String
  deriving DecidableEq

def teamNet (teamId : Int) : Cidr := ⟨dotted 10 32 teamId.toNat 0, 24⟩

/-- The network of the team with its gateway, vulnbox and player, or the ValueError. -/
def defaultTeamNetwork (teamId : Int) : Except String (Cidr × Address × Address × Address) :=
  if teamId < 1 ∨ 250 < teamId then .error "default team network supports team ids 1..250"
  else .ok (teamNet teamId, dotted 10 32 teamId.toNat 254, dotted 10 32 teamId.toNat 2,
    dotted 10 32 teamId.toNat 10)

/-- network_settings as ensure_network_state fills it from an environment without overrides. -/
structure NetworkSettings where
  checkerCidr : Cidr := ⟨dotted 10 32 250 0, 24⟩
  controlPublicCidr : Cidr := ⟨dotted 10 32 251 2, 32⟩
  controlPublicPorts : List Nat := [80, 443, 1337]
  routerListenPort : Nat := 51820

/-! nftables. -/

inductive Element where
  | address (value : Address)
  | net (cidr : Cidr)
  deriving DecidableEq

def Element.contains : Element → Address → Bool
  | .address value, wanted => decide (wanted = value)
  | .net cidr, wanted => cidr.contains wanted

def elementText : Element → String
  | .address value => addressText value
  | .net cidr => cidrText cidr

structure NftSet where
  name : String
  interval : Bool
  elements : List Element
  deriving DecidableEq

def NftSet.contains (set : NftSet) (address : Address) : Bool :=
  set.elements.any fun element => element.contains address

inductive CtState where
  | new
  | established
  | related
  | invalid
  | untracked
  deriving DecidableEq

inductive Transport where
  | tcp (dport : Nat)
  | udp (dport : Nat)
  | icmp
  | other
  deriving DecidableEq

structure Packet where
  source : Address
  destination : Address
  state : CtState
  transport : Transport
  inputInterface : String
  deriving DecidableEq

inductive Condition where
  | established
  | loopback
  | icmp
  | saddr (cidr : Cidr)
  | daddr (cidr : Cidr)
  | daddrNot (cidr : Cidr)
  | saddrIn (set : NftSet)
  | daddrIn (set : NftSet)
  | tcpPorts (ports : List Nat)
  | tcpPort (port : Nat)
  | udpPort (port : Nat)
  deriving DecidableEq

def Condition.holds (packet : Packet) : Condition → Bool
  | .established => packet.state = .established || packet.state = .related
  | .loopback => packet.inputInterface = "lo"
  | .icmp => packet.transport = .icmp
  | .saddr cidr => cidr.contains packet.source
  | .daddr cidr => cidr.contains packet.destination
  | .daddrNot cidr => !cidr.contains packet.destination
  | .saddrIn set => set.contains packet.source
  | .daddrIn set => set.contains packet.destination
  | .tcpPorts ports => ports.any fun port => packet.transport = .tcp port
  | .tcpPort port => packet.transport = .tcp port
  | .udpPort port => packet.transport = .udp port

def conditionText : Condition → String
  | .established => "ct state established,related"
  | .loopback => "iifname lo"
  | .icmp => "meta l4proto icmp"
  | .saddr cidr => "ip saddr " ++ cidrText cidr
  | .daddr cidr => "ip daddr " ++ cidrText cidr
  | .daddrNot cidr => "ip daddr != " ++ cidrText cidr
  | .saddrIn set => "ip saddr @" ++ set.name
  | .daddrIn set => "ip daddr @" ++ set.name
  | .tcpPorts ports => "tcp dport \x7b " ++ String.intercalate ", " (ports.map toString) ++ " \x7d"
  | .tcpPort port => "tcp dport " ++ toString port
  | .udpPort port => "udp dport " ++ toString port

inductive Verdict where
  | accept
  | drop
  deriving DecidableEq

structure Rule where
  conditions : List Condition
  counter : Bool
  verdict : Verdict
  deriving DecidableEq

def Rule.applies (packet : Packet) (rule : Rule) : Bool :=
  rule.conditions.all fun condition => condition.holds packet

def verdictText : Verdict → String
  | .accept => "accept"
  | .drop => "drop"

def ruleText (rule : Rule) : String :=
  String.intercalate " " (rule.conditions.map conditionText ++ (if rule.counter then ["counter"] else []) ++
    [verdictText rule.verdict])

def accepting (conditions : List Condition) : Rule := ⟨conditions, false, .accept⟩

def counterDrop : Rule := ⟨[], true, .drop⟩

/-! render_nftables: four sets and two chains, both with policy drop. -/

def setElements (elements : List Element) : List Element :=
  if elements.isEmpty then [.net ⟨dotted 0 0 0 0, 32⟩] else elements

def teamNets (plans : List TeamNetworkPlan) : NftSet :=
  ⟨"team_nets", true, setElements (plans.map fun plan => .net plan.teamCidr)⟩

def vulnboxes (plans : List TeamNetworkPlan) : NftSet :=
  ⟨"vulnboxes", false, setElements (plans.map fun plan => .address plan.vulnboxIp)⟩

def checkerNets (settings : NetworkSettings) : NftSet := ⟨"checker_nets", true, [.net settings.checkerCidr]⟩

def controlPublic (settings : NetworkSettings) : NftSet :=
  ⟨"control_public", true, [.net settings.controlPublicCidr]⟩

def sameTeamRules (plans : List TeamNetworkPlan) : List Rule :=
  plans.map fun plan => accepting [.saddr plan.teamCidr, .daddr plan.teamCidr]

def otherVulnboxRules (plans : List TeamNetworkPlan) : List Rule :=
  plans.map fun plan => accepting [.saddr plan.teamCidr, .daddrNot plan.teamCidr,
    .daddrIn (vulnboxes plans)]

def checkerRule (settings : NetworkSettings) (plans : List TeamNetworkPlan) : Rule :=
  accepting [.saddrIn (checkerNets settings), .daddrIn (teamNets plans)]

def controlRule (settings : NetworkSettings) (plans : List TeamNetworkPlan) : Rule :=
  accepting [.saddrIn (teamNets plans), .daddrIn (controlPublic settings),
    .tcpPorts settings.controlPublicPorts]

def forward (settings : NetworkSettings) (plans : List TeamNetworkPlan) : List Rule :=
  [accepting [.established], checkerRule settings plans] ++ sameTeamRules plans ++
    otherVulnboxRules plans ++ [controlRule settings plans, counterDrop]

def input (settings : NetworkSettings) : List Rule :=
  [accepting [.loopback], accepting [.established], accepting [.saddrIn (checkerNets settings)],
    accepting [.udpPort settings.routerListenPort], accepting [.icmp], accepting [.tcpPort 22], counterDrop]

def setLines (set : NftSet) : List String :=
  ["    set " ++ set.name ++ " \x7b", "        type ipv4_addr"] ++
    (if set.interval then ["        flags interval"] else []) ++
    ["        elements = \x7b " ++ String.intercalate ", " (set.elements.map elementText) ++ " \x7d",
      "    \x7d", ""]

/-- An empty family of rules leaves an empty line. -/
def familyText (rules : List Rule) : String :=
  String.intercalate "\n" (rules.map fun rule => "        " ++ ruleText rule)

def renderNftables (settings : NetworkSettings) (plans : List TeamNetworkPlan) : String :=
  String.intercalate "\n"
    (["#!/usr/sbin/nft -f", "flush table inet kossim_acl", "", "table inet kossim_acl \x7b"] ++
      setLines (teamNets plans) ++ setLines (vulnboxes plans) ++ setLines (checkerNets settings) ++
      setLines (controlPublic settings) ++
      ["    chain forward \x7b", "        type filter hook forward priority filter; policy drop;",
        familyText [accepting [.established], checkerRule settings plans], familyText (sameTeamRules plans),
        familyText (otherVulnboxRules plans), familyText [controlRule settings plans, counterDrop],
        "    \x7d", "", "    chain input \x7b",
        "        type filter hook input priority filter; policy drop;", familyText (input settings),
        "    \x7d", "\x7d", ""])

/-- The forward chain on a packet. -/
def forwards (settings : NetworkSettings) (plans : List TeamNetworkPlan) (packet : Packet) : Verdict :=
  firstMatch (Rule.applies packet) Rule.verdict .drop (forward settings plans)

end KosSim.Networking
