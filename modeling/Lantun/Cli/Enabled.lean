import Mathlib.Data.List.Perm.Basic
import Lantun.Data.Values
import Lantun.Cli.Config

namespace Lantun
namespace Cli

open State

/-!
# Which entries become tunnels

Every entry of a config becomes a tunnel, whether it is enabled or not.  The
state therefore realises the enabled entries only where nothing is disabled.

For the hosts there is one more way.  The map of host tunnels is keyed by the
decoded secret, and a later entry replaces an earlier one with the same secret.
Strings that differ in the case of their letters decode alike, so even with
pairwise different strings a disabled entry can be replaced by an enabled one.
What decides is the last entry of each secret.
-/

variable {PublicKey : Type}

/-- Partners for all elements of a list. -/
theorem exists_forall₂ {α β : Type} {related : α → β → Prop} {list : List α}
    (every : ∀ element ∈ list, ∃ partner, related element partner) :
    ∃ partners, List.Forall₂ related list partners := by
  induction list with
  | nil => exact ⟨[], .nil⟩
  | cons element list ih =>
      rcases every element List.mem_cons_self with ⟨partner, here⟩
      rcases ih fun other member => every other (List.mem_cons_of_mem element member) with
        ⟨partners, rest⟩
      exact ⟨partner :: partners, .cons here rest⟩

/-- The partner of an element of the first list. -/
theorem partner_of_mem {α β : Type} {related : α → β → Prop} {list : List α} {partners : List β}
    (all : List.Forall₂ related list partners) {element : α} (member : element ∈ list) :
    ∃ partner ∈ partners, related element partner := by
  induction all with
  | nil => cases member
  | cons here _ ih =>
      rcases List.mem_cons.mp member with rfl | inside
      · exact ⟨_, List.mem_cons_self, here⟩
      · rcases ih inside with ⟨partner, found, fits⟩
        exact ⟨partner, List.mem_cons_of_mem _ found, fits⟩

/-- The element whose partner is in the second list. -/
theorem element_of_mem {α β : Type} {related : α → β → Prop} {list : List α} {partners : List β}
    (all : List.Forall₂ related list partners) {partner : β} (member : partner ∈ partners) :
    ∃ element ∈ list, related element partner :=
  partner_of_mem all.flip member

section Realises

variable (hex : Hex) (keys : Keys PublicKey)

/-- The tunnel is the one the entry describes. -/
def HostTunnelEntry.Matches (entry : HostTunnelEntry) (tunnel : HostTunnel) : Prop :=
  tunnel.name = entry.name ∧ tunnel.hostAddr = entry.localAddr ∧
    tunnel.protocol = entry.protocol ∧ hex.secret? entry.privateSecret = some tunnel.secret

def ClientTunnelEntry.Matches (entry : ClientTunnelEntry) (tunnel : ClientTunnel PublicKey) :
    Prop :=
  tunnel.name = entry.name ∧ tunnel.tunnelAddr = entry.localAddr ∧
    tunnel.protocol = entry.protocol ∧ hex.secret? entry.secret = some (keys.asBytes tunnel.secret)

/-- The tunnels of the state correspond one to one to the enabled entries. -/
structure Realises (config : LanTunConfig) (state : LanTun PublicKey) : Prop where
  hosts : ∃ tunnels, tunnels.Perm (values state.host.tunnels) ∧
    List.Forall₂ (HostTunnelEntry.Matches hex)
      (config.hostTunnels.filter fun entry => entry.enabled) tunnels
  clients : ∃ tunnels, tunnels.Perm (values state.client) ∧
    List.Forall₂ (ClientTunnelEntry.Matches hex keys)
      (config.clientTunnels.filter fun entry => entry.enabled) tunnels

/-- No later entry decodes to the same secret. -/
def Final (entries : List HostTunnelEntry) (entry : HostTunnelEntry) : Prop :=
  ∃ front back, entries = front ++ entry :: back ∧
    ∀ later ∈ back, hex.secret? later.privateSecret ≠ hex.secret? entry.privateSecret

/-- Of the entries with one secret exactly one is enabled, and it describes the
same tunnel as the last of them. -/
structure OneEnabled (entries : List HostTunnelEntry) : Prop where
  once : (entries.filter fun entry => entry.enabled).Pairwise fun first second =>
    hex.secret? first.privateSecret ≠ hex.secret? second.privateSecret
  agrees : ∀ last, Final hex entries last → ∃ entry ∈ entries, entry.enabled = true ∧
    hex.secret? entry.privateSecret = hex.secret? last.privateSecret ∧
    entry.name = last.name ∧ entry.localAddr = last.localAddr ∧ entry.protocol = last.protocol

end Realises

variable {hex : Hex} {keys : Keys PublicKey}

/-! ## The entry that decides for a secret -/

theorem Final.mem {entries : List HostTunnelEntry} {entry : HostTunnelEntry}
    (last : Final hex entries entry) : entry ∈ entries := by
  rcases last with ⟨front, back, rfl, _⟩
  exact List.mem_append_right front List.mem_cons_self

theorem Final.cons {entries : List HostTunnelEntry} {entry : HostTunnelEntry}
    (last : Final hex entries entry) (first : HostTunnelEntry) :
    Final hex (first :: entries) entry := by
  rcases last with ⟨front, back, rfl, none_⟩
  exact ⟨first :: front, back, rfl, none_⟩

/-- Where an entry decodes to a secret, one is the last to do so. -/
theorem exists_final {entries : List HostTunnelEntry} {wanted : Option Secret}
    (some_ : ∃ entry ∈ entries, hex.secret? entry.privateSecret = wanted) :
    ∃ last, Final hex entries last ∧ hex.secret? last.privateSecret = wanted := by
  induction entries with
  | nil =>
      rcases some_ with ⟨entry, member, _⟩
      cases member
  | cons first entries ih =>
      by_cases later : ∃ entry ∈ entries, hex.secret? entry.privateSecret = wanted
      · rcases ih later with ⟨last, is, same⟩
        exact ⟨last, is.cons first, same⟩
      · rcases some_ with ⟨entry, member, is⟩
        rcases List.mem_cons.mp member with rfl | inside
        · refine ⟨entry, ⟨[], entries, rfl, fun other after same => ?_⟩, is⟩
          exact later ⟨other, after, same.trans is⟩
        · exact absurd ⟨entry, inside, is⟩ later

/-- Entries with pairwise different secrets are told apart by them. -/
theorem eq_of_secret {entries : List HostTunnelEntry}
    (distinct : entries.Pairwise fun first second =>
      hex.secret? first.privateSecret ≠ hex.secret? second.privateSecret)
    {first second : HostTunnelEntry} (here : first ∈ entries) (there : second ∈ entries)
    (same : hex.secret? first.privateSecret = hex.secret? second.privateSecret) :
    first = second :=
  List.inj_on_of_nodup_map (List.pairwise_map.mpr distinct) here there same

/-! ## The tunnels `create_state` makes -/

/-- A secret no entry decodes to keeps what it had. -/
theorem createHostTunnels_frame {entries : List HostTunnelEntry} {host next : Hosting}
    {secret : Secret} (made : createHostTunnels hex entries host = .ok next)
    (none_ : ∀ entry ∈ entries, hex.secret? entry.privateSecret ≠ some secret) :
    next.tunnels.lookup secret = host.tunnels.lookup secret := by
  induction entries generalizing host with
  | nil =>
      cases made
      rfl
  | cons first entries ih =>
      rcases createHostTunnels_cons_eq_ok.mp made with ⟨used, is, rest⟩
      have different : secret ≠ used := by
        rintro rfl
        exact none_ first List.mem_cons_self is
      exact (ih rest fun entry member => none_ entry (List.mem_cons_of_mem first member)).trans
        (AList.lookup_insert_ne different)

/-- The last entry of a secret is the one its tunnel is made from. -/
theorem createHostTunnels_final {entries : List HostTunnelEntry} {host next : Hosting}
    {entry : HostTunnelEntry} (made : createHostTunnels hex entries host = .ok next)
    (last : Final hex entries entry) :
    ∃ tunnel, next.tunnels.lookup tunnel.secret = some tunnel ∧ entry.Matches hex tunnel := by
  rcases last with ⟨front, back, rfl, none_⟩
  induction front generalizing host with
  | nil =>
      rcases createHostTunnels_cons_eq_ok.mp made with ⟨secret, is, rest⟩
      refine ⟨HostTunnel.created entry.localAddr entry.name secret entry.protocol host.cells, ?_,
        rfl, rfl, rfl, is⟩
      exact (createHostTunnels_frame rest fun later member same =>
        none_ later member (same.trans is.symm)).trans (AList.lookup_insert _)
  | cons first front ih =>
      rcases createHostTunnels_cons_eq_ok.mp made with ⟨secret, is, rest⟩
      exact ih rest

/-- Every tunnel made is stored under its secret. -/
theorem createHostTunnels_lookup {entries : List HostTunnelEntry} {next : Hosting}
    {secret : Secret} {tunnel : HostTunnel}
    (made : createHostTunnels hex entries Hosting.new = .ok next)
    (found : next.tunnels.lookup secret = some tunnel) :
    tunnel.secret = secret ∧ ∃ entry, Final hex entries entry ∧ entry.Matches hex tunnel := by
  by_cases named : ∃ entry ∈ entries, hex.secret? entry.privateSecret = some secret
  · rcases exists_final named with ⟨last, is, same⟩
    rcases createHostTunnels_final made is with ⟨other, there, fits⟩
    have at_ : other.secret = secret := Option.some.inj (fits.2.2.2.symm.trans same)
    rw [at_] at there
    cases there.symm.trans found
    exact ⟨at_, last, is, fits⟩
  · have kept := createHostTunnels_frame made fun entry member is => named ⟨entry, member, is⟩
    rw [kept] at found
    cases found

/-- The map holds at most one tunnel for each secret. -/
theorem eq_of_mem_values {entries : List HostTunnelEntry} {next : Hosting}
    {first second : HostTunnel} (made : createHostTunnels hex entries Hosting.new = .ok next)
    (here : first ∈ values next.tunnels) (there : second ∈ values next.tunnels)
    (same : first.secret = second.secret) : first = second := by
  rcases mem_values.mp here with ⟨firstKey, found⟩
  rcases mem_values.mp there with ⟨secondKey, found'⟩
  rw [← (createHostTunnels_lookup made found).1, same] at found
  rw [← (createHostTunnels_lookup made found').1] at found'
  exact Option.some.inj (found.symm.trans found')

theorem pairwise_values {entries : List HostTunnelEntry} {next : Hosting}
    (made : createHostTunnels hex entries Hosting.new = .ok next) :
    (values next.tunnels).Pairwise fun first second => first.secret ≠ second.secret := by
  have keys : (values next.tunnels).map HostTunnel.secret = next.tunnels.keys := by
    rw [values, List.map_map, AList.keys, List.keys]
    apply List.map_congr_left
    rintro ⟨secret, tunnel⟩ member
    exact (createHostTunnels_lookup made (AList.mem_lookup_iff.mpr member)).1
  have nodup := next.tunnels.keys_nodup
  rw [← keys] at nodup
  exact List.pairwise_map.mp nodup

/-- All client entries become tunnels, each one its own. -/
theorem createClientTunnels_values {entries : List ClientTunnelEntry}
    {client next : ClientState PublicKey}
    (made : createClientTunnels hex keys entries client = .ok next) :
    ∃ tunnels, List.Forall₂ (ClientTunnelEntry.Matches hex keys) entries tunnels ∧
      (values next).Perm (tunnels ++ values client) := by
  induction entries generalizing client with
  | nil =>
      cases made
      exact ⟨[], .nil, List.Perm.refl _⟩
  | cons entry entries ih =>
      rcases createClientTunnels_cons_eq_ok.mp made with ⟨absent, secret, key, is, valid, rest⟩
      rcases ih rest with ⟨tunnels, fit, perm⟩
      rw [values_insert absent] at perm
      refine ⟨_ :: tunnels, .cons ⟨rfl, rfl, rfl, ?_⟩ fit, perm.trans List.perm_middle⟩
      rw [is, ← keys.asBytes_fromBytes secret key valid]
      rfl

/-! ## When the enabled entries are realised -/

theorem secret?_of_forall₂ {entries : List HostTunnelEntry} {tunnels : List HostTunnel}
    (fit : List.Forall₂ (HostTunnelEntry.Matches hex) entries tunnels) :
    entries.map (fun entry => hex.secret? entry.privateSecret) =
      tunnels.map fun tunnel => some tunnel.secret := by
  induction fit with
  | nil => rfl
  | cons here _ ih => rw [List.map_cons, List.map_cons, ih, here.2.2.2]

/-- Entries with pairwise different secrets and their tunnels. -/
theorem pairwise_iff_of_forall₂ {entries : List HostTunnelEntry} {tunnels : List HostTunnel}
    (fit : List.Forall₂ (HostTunnelEntry.Matches hex) entries tunnels) :
    (entries.Pairwise fun first second =>
        hex.secret? first.privateSecret ≠ hex.secret? second.privateSecret) ↔
      tunnels.Pairwise fun first second => first.secret ≠ second.secret := by
  have same := secret?_of_forall₂ fit
  have left : (entries.map fun entry => hex.secret? entry.privateSecret).Nodup ↔
      entries.Pairwise fun first second =>
        hex.secret? first.privateSecret ≠ hex.secret? second.privateSecret := List.pairwise_map
  have right : (tunnels.map fun tunnel => some tunnel.secret).Nodup ↔
      tunnels.Pairwise fun first second => some first.secret ≠ some second.secret :=
    List.pairwise_map
  rw [← left, same, right]
  simp only [ne_eq, Option.some.injEq]

theorem hosts_realised_iff {entries : List HostTunnelEntry} {next : Hosting}
    (made : createHostTunnels hex entries Hosting.new = .ok next) :
    (∃ tunnels, tunnels.Perm (values next.tunnels) ∧
      List.Forall₂ (HostTunnelEntry.Matches hex)
        (entries.filter fun entry => entry.enabled) tunnels) ↔ OneEnabled hex entries := by
  constructor
  · rintro ⟨tunnels, perm, fit⟩
    refine ⟨?_, fun last is => ?_⟩
    · rw [pairwise_iff_of_forall₂ fit]
      exact (pairwise_values made).perm perm.symm Ne.symm
    · rcases createHostTunnels_final made is with ⟨tunnel, found, fits⟩
      have member := perm.mem_iff.mpr (mem_values.mpr ⟨_, found⟩)
      rcases element_of_mem fit member with ⟨entry, chosen, partner⟩
      rcases List.mem_filter.mp chosen with ⟨inside, on⟩
      exact ⟨entry, inside, on, partner.2.2.2.trans fits.2.2.2.symm, partner.1.symm.trans fits.1,
        partner.2.1.symm.trans fits.2.1, partner.2.2.1.symm.trans fits.2.2.1⟩
  · intro one
    have enabled : ∀ entry ∈ entries.filter fun entry => entry.enabled,
        ∃ tunnel, tunnel ∈ values next.tunnels ∧ entry.Matches hex tunnel := by
      intro entry member
      rcases exists_final ⟨entry, (List.mem_filter.mp member).1, rfl⟩ with ⟨last, is, same⟩
      rcases createHostTunnels_final made is with ⟨tunnel, found, fits⟩
      rcases one.agrees last is with ⟨other, inside, on, sameSecret, name, addr, protocol⟩
      have equal : other = entry :=
        eq_of_secret one.once (List.mem_filter.mpr ⟨inside, on⟩) member (sameSecret.trans same)
      subst equal
      exact ⟨tunnel, mem_values.mpr ⟨_, found⟩, fits.1.trans name.symm, fits.2.1.trans addr.symm,
        fits.2.2.1.trans protocol.symm, sameSecret.trans fits.2.2.2⟩
    rcases exists_forall₂ enabled with ⟨tunnels, fit⟩
    have matched := fit.imp fun _ _ both => both.2
    have stored : ∀ tunnel ∈ tunnels, tunnel ∈ values next.tunnels := by
      intro tunnel member
      rcases element_of_mem fit member with ⟨_, _, there, _⟩
      exact there
    refine ⟨tunnels, ?_, matched⟩
    have distinct := (pairwise_iff_of_forall₂ matched).mp one.once
    refine (List.perm_ext_iff_of_nodup (distinct.imp ?_) ((pairwise_values made).imp ?_)).mpr
      fun tunnel => ⟨stored tunnel, fun member => ?_⟩
    · rintro first second different rfl
      exact different rfl
    · rintro first second different rfl
      exact different rfl
    · rcases mem_values.mp member with ⟨secret, found⟩
      rcases createHostTunnels_lookup made found with ⟨_, last, is, fits⟩
      rcases one.agrees last is with ⟨other, inside, on, sameSecret, _⟩
      rcases partner_of_mem fit (List.mem_filter.mpr ⟨inside, on⟩) with
        ⟨partner, listed, there, alike⟩
      have same : partner.secret = tunnel.secret :=
        Option.some.inj ((alike.2.2.2.symm.trans sameSecret).trans fits.2.2.2)
      exact eq_of_mem_values made there member same ▸ listed

theorem clients_realised_iff {entries : List ClientTunnelEntry} {next : ClientState PublicKey}
    (made : createClientTunnels hex keys entries ∅ = .ok next) :
    (∃ tunnels, tunnels.Perm (values next) ∧
      List.Forall₂ (ClientTunnelEntry.Matches hex keys)
        (entries.filter fun entry => entry.enabled) tunnels) ↔
      ∀ entry ∈ entries, entry.enabled = true := by
  rcases createClientTunnels_values made with ⟨all, fit, perm⟩
  rw [values_empty, List.append_nil] at perm
  constructor
  · rintro ⟨tunnels, same, enabled⟩
    have lengths : (entries.filter fun entry => entry.enabled).length = entries.length := by
      rw [enabled.length_eq, same.length_eq, perm.length_eq, fit.length_eq]
    exact List.length_filter_eq_length_iff.mp lengths
  · intro every
    rw [List.filter_eq_self.mpr every]
    exact ⟨all, perm.symm, fit⟩

/-- A state that `create_state` has made realises exactly the enabled entries if
and only if every client entry is enabled and so is exactly one host entry of
each decoded secret, which describes the same tunnel as the last of them. -/
theorem realises_iff_enabled {config : LanTunConfig} {state : LanTun PublicKey}
    (made : createState hex keys config = .ok state) :
    Realises hex keys config state ↔
      OneEnabled hex config.hostTunnels ∧
        ∀ entry ∈ config.clientTunnels, entry.enabled = true := by
  rcases createState_eq_ok.mp made with ⟨host, client⟩
  rw [← hosts_realised_iff host, ← clients_realised_iff client]
  exact ⟨fun realises => ⟨realises.hosts, realises.clients⟩, fun both => ⟨both.1, both.2⟩⟩

/-- One tunnel to host, disabled. -/
def hidden : LanTunConfig where
  hostTunnels :=
    [⟨"web", .v4 0 80, .tcp, base16.encode (List.replicate 32 1),
      base16.encode onesPublic.toList, false⟩]
  clientTunnels := []

theorem exists_state_hidden : ∃ state, createState base16 someKeys hidden = .ok state := by
  refine exists_createState.mpr ⟨?_, (fun _ member => nomatch member), by decide⟩
  simp only [hidden, List.mem_singleton, forall_eq]
  exact ⟨_, base16.secret?_encode (List.Vector.replicate 32 1)⟩

theorem realises_iff_enabled_hidden : ∃ state, createState base16 someKeys hidden = .ok state ∧
    (Realises base16 someKeys hidden state ↔
      OneEnabled base16 hidden.hostTunnels ∧
        ∀ entry ∈ hidden.clientTunnels, entry.enabled = true) := by
  rcases exists_state_hidden with ⟨state, made⟩
  exact ⟨state, made, realises_iff_enabled made⟩

/-- The disabled entry is exposed. -/
theorem hidden_exposed : ¬ ∀ (config : LanTunConfig) (state : LanTun Secret),
    (config.hostTunnels.Pairwise fun first second =>
      first.privateSecret ≠ second.privateSecret) →
    (config.clientTunnels.map ClientTunnelEntry.slot).Nodup →
    createState base16 someKeys config = .ok state → Realises base16 someKeys config state := by
  intro always
  rcases exists_state_hidden with ⟨state, made⟩
  rcases (always hidden state (List.pairwise_singleton _ _) (by decide) made).hosts with
    ⟨tunnels, perm, fit⟩
  cases fit
  have entry : Final base16 hidden.hostTunnels hidden.hostTunnels[0] :=
    ⟨[], [], rfl, fun _ member => nomatch member⟩
  rcases createHostTunnels_final (createState_eq_ok.mp made).1 entry with ⟨tunnel, found, _⟩
  exact absurd (perm.mem_iff.mpr (mem_values.mpr ⟨_, found⟩)) List.not_mem_nil

/-- Where no two secrets decode alike, this asks for every host entry to be
enabled. -/
theorem oneEnabled_iff {entries : List HostTunnelEntry}
    (distinct : entries.Pairwise fun first second =>
      hex.secret? first.privateSecret ≠ hex.secret? second.privateSecret) :
    OneEnabled hex entries ↔ ∀ entry ∈ entries, entry.enabled = true := by
  constructor
  · intro one entry member
    rcases exists_final ⟨entry, member, rfl⟩ with ⟨last, is, same⟩
    rcases one.agrees last is with ⟨other, inside, on, sameSecret, _⟩
    have equal := eq_of_secret distinct inside member (sameSecret.trans same)
    exact equal ▸ on
  · intro every
    refine ⟨?_, fun last is => ⟨last, is.mem, every last is.mem, rfl, rfl, rfl, rfl⟩⟩
    rw [List.filter_eq_self.mpr every]
    exact distinct

end Cli
end Lantun
