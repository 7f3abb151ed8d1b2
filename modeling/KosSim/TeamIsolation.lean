import KosSim.Networking

/-!
The forward chain between teams. Its rules accept except the last, so a packet passes
exactly if one of the accepting rules holds of it. What is left is the arithmetic of
the address plan: two teams never share an address, and 10.32.251.2 is no team's, but
10.32.250.0/24 is at once the network of the checkers and that of the last team id.
-/

namespace KosSim.Networking
open Library

def Planned (plan : TeamNetworkPlan) : Prop :=
  defaultTeamNetwork plan.teamId = .ok (plan.teamCidr, plan.gatewayIp, plan.vulnboxIp, plan.playerIp)

instance (plan : TeamNetworkPlan) : Decidable (Planned plan) :=
  decidable_of_iff (¬(plan.teamId < 1 ∨ 250 < plan.teamId) ∧
      plan.teamCidr = teamNet plan.teamId ∧ plan.gatewayIp = dotted 10 32 plan.teamId.toNat 254 ∧
        plan.vulnboxIp = dotted 10 32 plan.teamId.toNat 2 ∧
        plan.playerIp = dotted 10 32 plan.teamId.toNat 10) <| by
    by_cases outside : plan.teamId < 1 ∨ 250 < plan.teamId <;>
      simp [Planned, defaultTeamNetwork, outside, eq_comm]

/-- What a team may reach: its own network, the vulnboxes of the others, the public ports of control. -/
def MayReach (settings : NetworkSettings) (plans : List TeamNetworkPlan) (plan : TeamNetworkPlan)
    (packet : Packet) :
    Prop :=
  plan.teamCidr.contains packet.destination = true ∨
    (∃ other ∈ plans, other.teamId ≠ plan.teamId ∧ packet.destination = other.vulnboxIp) ∨
    (settings.controlPublicCidr.contains packet.destination = true ∧
      ∃ port ∈ settings.controlPublicPorts, packet.transport = .tcp port)

/-! The chain as a disjunction. -/

def acceptRules (settings : NetworkSettings) (plans : List TeamNetworkPlan) : List Rule :=
  [accepting [.established], checkerRule settings plans] ++ sameTeamRules plans ++
    otherVulnboxRules plans ++ [controlRule settings plans]

theorem accept_rules_accept (settings : NetworkSettings) (plans : List TeamNetworkPlan) :
    ∀ rule ∈ acceptRules settings plans, rule.verdict = .accept := by
  intro rule member
  simp only [acceptRules, sameTeamRules, otherVulnboxRules, List.mem_append, List.mem_cons, List.mem_map,
    List.not_mem_nil, or_false] at member
  rcases member with (((rfl | rfl) | ⟨plan, _, rfl⟩) | ⟨plan, _, rfl⟩) | rfl <;> rfl

theorem forwards_accept_iff (settings : NetworkSettings) (plans : List TeamNetworkPlan)
    (packet : Packet) :
    forwards settings plans packet = .accept ↔
      ∃ rule ∈ acceptRules settings plans, rule.applies packet = true := by
  have split : forward settings plans = acceptRules settings plans ++ [counterDrop] := by
    simp [forward, acceptRules]
  rw [forwards, split, first_match_block (accept_rules_accept settings plans), ← List.any_eq_true]
  by_cases hit : (acceptRules settings plans).any (Rule.applies packet) = true
  · simp [hit]
  · simp [hit, firstMatch, counterDrop, Rule.applies]

theorem accept_rules_iff (settings : NetworkSettings) (plans : List TeamNetworkPlan) (holds : Rule → Prop) :
    (∃ rule ∈ acceptRules settings plans, holds rule) ↔
      holds (accepting [.established]) ∨ holds (checkerRule settings plans) ∨
        (∃ rule ∈ sameTeamRules plans, holds rule) ∨ (∃ rule ∈ otherVulnboxRules plans, holds rule) ∨
          holds (controlRule settings plans) := by
  simp only [acceptRules, List.mem_append, List.mem_cons, List.not_mem_nil, or_false,
    or_and_right, exists_or, exists_eq_left, or_assoc]

/-! The address plan. -/

theorem team_net_contains {teamId : Int} (inside : 1 ≤ teamId ∧ teamId ≤ 250) (address : Address) :
    (teamNet teamId).contains address = true ↔ address.toNat / 256 = 663552 + teamId.toNat := by
  simp only [teamNet, dotted, Cidr.contains, BitVec.toNat_ofNat, decide_eq_true_eq]
  have bound : teamId.toNat ≤ 250 := by omega
  omega

theorem planned_bounds {plan : TeamNetworkPlan} (planned : Planned plan) :
    1 ≤ plan.teamId ∧ plan.teamId ≤ 250 := by
  by_contra outside
  have refused : plan.teamId < 1 ∨ 250 < plan.teamId := by omega
  simp [Planned, defaultTeamNetwork, refused] at planned

theorem planned_addresses {plan : TeamNetworkPlan} (planned : Planned plan) :
    plan.teamCidr = teamNet plan.teamId ∧ plan.vulnboxIp = dotted 10 32 plan.teamId.toNat 2 := by
  have inside : ¬(plan.teamId < 1 ∨ 250 < plan.teamId) := by have := planned_bounds planned; omega
  simp only [Planned, defaultTeamNetwork, if_neg inside, Except.ok.injEq, Prod.mk.injEq] at planned
  exact ⟨planned.1.symm, planned.2.2.1.symm⟩

/-- The third byte of an address of a team is its id. -/
theorem cidr_contains_iff {plan : TeamNetworkPlan} (planned : Planned plan) (address : Address) :
    plan.teamCidr.contains address = true ↔ address.toNat / 256 = 663552 + plan.teamId.toNat := by
  rw [(planned_addresses planned).1]
  exact team_net_contains (planned_bounds planned) address

theorem vulnbox_address {plan : TeamNetworkPlan} (planned : Planned plan) :
    plan.vulnboxIp.toNat = (663552 + plan.teamId.toNat) * 256 + 2 := by
  have inside := planned_bounds planned
  rw [(planned_addresses planned).2, dotted, BitVec.toNat_ofNat]
  omega

theorem vulnbox_inside {plan : TeamNetworkPlan} (planned : Planned plan) :
    plan.teamCidr.contains plan.vulnboxIp = true := by
  rw [cidr_contains_iff planned, vulnbox_address planned]
  omega

theorem shared_address {plan other : TeamNetworkPlan} (planned : Planned plan) (too : Planned other)
    {address : Address} (mine : plan.teamCidr.contains address = true)
    (theirs : other.teamCidr.contains address = true) : plan.teamId = other.teamId := by
  rw [cidr_contains_iff planned] at mine
  rw [cidr_contains_iff too] at theirs
  have left := planned_bounds planned
  have right := planned_bounds too
  omega

/-- The network of the checkers is the network of team 250. -/
theorem checker_source_iff {plan : TeamNetworkPlan} (planned : Planned plan) {source : Address}
    (mine : plan.teamCidr.contains source = true) :
    (checkerNets {}).contains source = true ↔ plan.teamId = 250 := by
  rw [cidr_contains_iff planned] at mine
  have inside := planned_bounds planned
  simp only [checkerNets, NftSet.contains, Element.contains, List.any_cons, List.any_nil, Bool.or_false]
  rw [show (⟨dotted 10 32 250 0, 24⟩ : Cidr) = teamNet 250 from rfl, team_net_contains (by omega)]
  omega

/-- The address of control is in no team's network. -/
theorem control_outside {plan : TeamNetworkPlan} (planned : Planned plan) {address : Address}
    (control : ({} : NetworkSettings).controlPublicCidr.contains address = true) :
    ¬plan.teamCidr.contains address = true := by
  rw [cidr_contains_iff planned]
  have inside := planned_bounds planned
  simp only [Cidr.contains, dotted, BitVec.toNat_ofNat, decide_eq_true_eq] at control
  omega

/-! Membership of the sets. -/

theorem team_nets_contains {plans : List TeamNetworkPlan} {plan : TeamNetworkPlan} (member : plan ∈ plans)
    (address : Address) :
    (teamNets plans).contains address = true ↔ ∃ other ∈ plans, other.teamCidr.contains address = true := by
  have filled : (plans.map fun plan => Element.net plan.teamCidr).isEmpty = false := by
    cases plans with
    | nil => cases member
    | cons first rest => rfl
  simp [teamNets, setElements, filled, NftSet.contains, Element.contains]

theorem vulnboxes_contains {plans : List TeamNetworkPlan} {plan : TeamNetworkPlan} (member : plan ∈ plans)
    (address : Address) :
    (vulnboxes plans).contains address = true ↔ ∃ other ∈ plans, address = other.vulnboxIp := by
  have filled : (plans.map fun plan => Element.address plan.vulnboxIp).isEmpty = false := by
    cases plans with
    | nil => cases member
    | cons first rest => rfl
  simp [vulnboxes, setElements, filled, NftSet.contains, Element.contains]

/-! One accepting rule at a time, for a new packet out of a team. -/

section Team
variable {plans : List TeamNetworkPlan} {plan : TeamNetworkPlan} {packet : Packet}
  (planned : ∀ other ∈ plans, Planned other) (member : plan ∈ plans)
  (source : plan.teamCidr.contains packet.source = true)
include planned member source

theorem same_team_iff :
    (∃ rule ∈ sameTeamRules plans, rule.applies packet = true) ↔
      plan.teamCidr.contains packet.destination = true := by
  constructor
  · rintro ⟨rule, listed, applies⟩
    obtain ⟨other, inside, rfl⟩ := List.mem_map.mp listed
    simp only [accepting, Rule.applies, Condition.holds, List.all_cons, List.all_nil, Bool.and_true,
      Bool.and_eq_true] at applies
    -- The source of the rule and the source of the packet are one network.
    have same := shared_address (planned plan member) (planned other inside) source applies.1
    rw [cidr_contains_iff (planned plan member), same, ← cidr_contains_iff (planned other inside)]
    exact applies.2
  · intro mine
    refine ⟨_, List.mem_map.mpr ⟨plan, member, rfl⟩, ?_⟩
    simp [accepting, Rule.applies, Condition.holds, source, mine]

theorem other_vulnbox_iff :
    (∃ rule ∈ otherVulnboxRules plans, rule.applies packet = true) ↔
      ∃ other ∈ plans, other.teamId ≠ plan.teamId ∧ packet.destination = other.vulnboxIp := by
  constructor
  · rintro ⟨rule, listed, applies⟩
    obtain ⟨sender, inside, rfl⟩ := List.mem_map.mp listed
    simp only [accepting, Rule.applies, Condition.holds, List.all_cons, List.all_nil, Bool.and_true,
      Bool.and_eq_true, Bool.not_eq_true', vulnboxes_contains member] at applies
    obtain ⟨begins, foreign, other, found, target⟩ := applies
    refine ⟨other, found, ?_, target⟩
    intro same
    have equal := shared_address (planned plan member) (planned sender inside) source begins
    have reached : sender.teamCidr.contains packet.destination = true := by
      rw [target, cidr_contains_iff (planned sender inside), ← equal, ← same,
        ← cidr_contains_iff (planned other found)]
      exact vulnbox_inside (planned other found)
    exact Bool.false_ne_true (foreign.symm.trans reached)
  · rintro ⟨other, found, different, target⟩
    refine ⟨_, List.mem_map.mpr ⟨plan, member, rfl⟩, ?_⟩
    have foreign : plan.teamCidr.contains packet.destination = false := by
      rw [Bool.eq_false_iff, target]
      intro inside
      exact different (shared_address (planned other found) (planned plan member)
        (vulnbox_inside (planned other found)) inside)
    have boxes := (vulnboxes_contains member packet.destination).mpr ⟨other, found, target⟩
    simp [accepting, Rule.applies, Condition.holds, source, foreign, boxes]

omit planned in
theorem control_iff :
    (controlRule {} plans).applies packet = true ↔
      ({} : NetworkSettings).controlPublicCidr.contains packet.destination = true ∧
        ∃ port ∈ ({} : NetworkSettings).controlPublicPorts, packet.transport = .tcp port := by
  have known := (team_nets_contains member packet.source).mpr ⟨plan, member, source⟩
  have control : (controlPublic {}).contains packet.destination =
      ({} : NetworkSettings).controlPublicCidr.contains packet.destination := Bool.or_false _
  simp [controlRule, accepting, Rule.applies, Condition.holds, known, control]

theorem checker_iff :
    (checkerRule {} plans).applies packet = true ↔
      plan.teamId = 250 ∧ ∃ other ∈ plans, other.teamCidr.contains packet.destination = true := by
  have checkers := checker_source_iff (planned plan member) source
  have known := team_nets_contains member packet.destination
  simp [checkerRule, accepting, Rule.applies, Condition.holds, checkers, known]

/-- What passes is what the team may reach, and for team 250 every network of a team. -/
theorem forwards_new_iff (fresh : packet.state ≠ .established ∧ packet.state ≠ .related) :
    forwards {} plans packet = .accept ↔ MayReach {} plans plan packet ∨
      (plan.teamId = 250 ∧ ∃ other ∈ plans, other.teamCidr.contains packet.destination = true) := by
  have closed : ¬(accepting [.established]).applies packet = true := by
    simp [accepting, Rule.applies, Condition.holds, fresh]
  rw [forwards_accept_iff, accept_rules_iff, same_team_iff planned member source,
    other_vulnbox_iff planned member source, control_iff member source, checker_iff planned member source,
    or_iff_right closed, MayReach]
  exact or_comm

/-- The chain isolates a team, except that team 250 passes as a checker into the networks of the others. -/
theorem teams_isolated (fresh : packet.state ≠ .established ∧ packet.state ≠ .related) :
    (forwards {} plans packet = .accept ↔ MayReach {} plans plan packet) ↔
      ¬(plan.teamId = 250 ∧ ∃ other ∈ plans, other.teamId ≠ plan.teamId ∧
        other.teamCidr.contains packet.destination = true ∧ packet.destination ≠ other.vulnboxIp) := by
  rw [forwards_new_iff planned member source fresh]
  constructor
  · rintro exactly ⟨last, other, inside, different, theirs, rest⟩
    -- The checker rule passes the packet; none of the three ways of a player leads there.
    rcases exactly.mp (.inr ⟨last, other, inside, theirs⟩) with own | ⟨box, found, _, target⟩ | ⟨control, _⟩
    · exact different (shared_address (planned other inside) (planned plan member) theirs own)
    · have reached := vulnbox_inside (planned box found)
      rw [← target] at reached
      have same := shared_address (planned other inside) (planned box found) theirs reached
      apply rest
      apply BitVec.eq_of_toNat_eq
      rw [target, vulnbox_address (planned box found), vulnbox_address (planned other inside), same]
    · exact control_outside (planned other inside) control theirs
  · intro apart
    constructor
    · rintro (allowed | ⟨last, other, inside, theirs⟩)
      · exact allowed
      · by_cases same : other.teamId = plan.teamId
        · rw [cidr_contains_iff (planned other inside), same,
            ← cidr_contains_iff (planned plan member)] at theirs
          exact .inl theirs
        · by_cases box : packet.destination = other.vulnboxIp
          · exact .inr (.inl ⟨other, inside, same, box⟩)
          · exact absurd ⟨last, other, inside, same, theirs, box⟩ apart
    · exact .inl

end Team

def seatedPlan (teamId : Int) : TeamNetworkPlan :=
  ⟨teamId, "team" ++ toString teamId, teamNet teamId, dotted 10 32 teamId.toNat 254,
    dotted 10 32 teamId.toNat 2, dotted 10 32 teamId.toNat 10, "priv-" ++ toString teamId, "pub-" ++
    toString teamId⟩

def playerPacket (teamId : Nat) (destination : Address) : Packet :=
  ⟨dotted 10 32 teamId 10, destination, .new, .tcp 22, "wg0"⟩

/-- The player of team 2 and the player of team 1. -/
theorem neighbours_isolated :
    (forwards {} [seatedPlan 1, seatedPlan 2] (playerPacket 2 (dotted 10 32 1 10)) = .accept ↔
        MayReach {} [seatedPlan 1, seatedPlan 2] (seatedPlan 2) (playerPacket 2 (dotted 10 32 1 10))) :=
  have planned : ∀ plan ∈ [seatedPlan 1, seatedPlan 2], Planned plan := by decide +kernel
  (teams_isolated planned (by decide +kernel) (by decide +kernel) (by decide +kernel)).mpr
  (by decide +kernel)

/-- The player of team 250 reaches the player of team 1. -/
theorem last_team_enters :
    (∀ plan ∈ [seatedPlan 1, seatedPlan 250], Planned plan) ∧
      (seatedPlan 250).teamCidr.contains (playerPacket 250 (dotted 10 32 1 10)).source = true ∧
      forwards {} [seatedPlan 1, seatedPlan 250] (playerPacket 250 (dotted 10 32 1 10)) = .accept ∧
      ¬(forwards {} [seatedPlan 1, seatedPlan 250] (playerPacket 250 (dotted 10 32 1 10)) = .accept ↔
        MayReach {} [seatedPlan 1, seatedPlan 250] (seatedPlan 250)
        (playerPacket 250 (dotted 10 32 1 10))) := by
  unfold MayReach
  decide +kernel

end KosSim.Networking
