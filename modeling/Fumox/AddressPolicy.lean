import Fumox.VettedAddresses

/-!
The address policy of the probe.  An address is refused by its range, and an IPv6 address that
carries an IPv4 address is judged by the address it carries.
-/

namespace AddressPolicy

open RustText AddressText ConfigModels VettedAddresses

def checkIpv4 (a b c d : ℕ) : Option Text :=
  if a = 127 then some ("loopback address" : Text)
  else if a = 10 ∨ a = 172 ∧ 16 ≤ b ∧ b ≤ 31 ∨ a = 192 ∧ b = 168 then
    some ("RFC1918 private address" : Text)
  else if a = 169 ∧ b = 254 then some ("link-local address (cloud metadata range)" : Text)
  else if a = 0 ∧ b = 0 ∧ c = 0 ∧ d = 0 then some ("unspecified address" : Text)
  else if a = 255 ∧ b = 255 ∧ c = 255 ∧ d = 255 then some ("broadcast address" : Text)
  else if 224 ≤ a ∧ a ≤ 239 then some ("multicast address" : Text)
  else if a = 0 then some ("0.0.0.0/8" : Text)
  else if a = 100 ∧ b &&& 0xc0 = 64 then some ("100.64.0.0/10 CGNAT" : Text)
  else if a = 198 ∧ (b = 18 ∨ b = 19) then some ("198.18.0.0/15 benchmarking" : Text)
  else if a = 192 ∧ b = 0 then some ("192.0.0.0/24 IETF" : Text)
  else if a = 192 ∧ b = 2 then some ("192.0.2.0/24 TEST-NET-1" : Text)
  else if a = 198 ∧ b = 51 ∧ c = 100 then some ("198.51.100.0/24 TEST-NET-2" : Text)
  else if a = 203 ∧ b = 0 ∧ c = 113 then some ("203.0.113.0/24 TEST-NET-3" : Text)
  else none

def checkEmbedded (high low : ℕ) : Option Text :=
  checkIpv4 (high / 256) (high % 256) (low / 256) (low % 256)

def checkIpv6 : List ℕ → Option Text
  | [s₀, s₁, s₂, s₃, s₄, s₅, s₆, s₇] =>
    let zeros := s₀ = 0 ∧ s₁ = 0 ∧ s₂ = 0 ∧ s₃ = 0 ∧ s₄ = 0
    if zeros ∧ s₅ = 0xffff then checkEmbedded s₆ s₇
    else if zeros ∧ s₅ = 0 ∧ s₆ = 0 ∧ s₇ = 1 then some ("loopback address" : Text)
    else if zeros ∧ s₅ = 0 ∧ s₆ = 0 ∧ s₇ = 0 then some ("unspecified address" : Text)
    else if zeros ∧ s₅ = 0 then checkEmbedded s₆ s₇
    else if s₀ &&& 0xff00 = 0xff00 then some ("multicast address" : Text)
    else if s₀ &&& 0xffc0 = 0xfe80 then some ("link-local address" : Text)
    else if s₀ &&& 0xfe00 = 0xfc00 then some ("unique-local address" : Text)
    else if s₀ &&& 0xffc0 = 0xfec0 then
      some ("site-local address (deprecated fec0::/10)" : Text)
    else if s₀ = 0x64 ∧ s₁ = 0xff9b ∧ s₂ = 0 ∧ s₃ = 0 ∧ s₄ = 0 ∧ s₅ = 0 then checkEmbedded s₆ s₇
    else if s₀ = 0x2002 then checkEmbedded s₁ s₂
    else none
  | _ => none

/-- The reason of the policy against an address, when there is one. -/
def checkIp (allowPrivate : Bool) (ip : IpAddr) : Option Text :=
  if allowPrivate then none
  else
    match ip with
    | .v4 a b c d => checkIpv4 a b c d
    | .v6 segments => checkIpv6 segments

/-- `vet_probe_host_addrs`; the resolver answers with a list or an error. -/
def vetProbeHostAddrs (resolve : Text → Except Text (List IpAddr)) (allowPrivate : Bool)
    (host : Text) : Except Text (List IpAddr) :=
  match parseIp host with
  | some ip => (checkIp allowPrivate ip).elim (.ok [ip]) .error
  | none => (resolve host).bind (vetResolvedAddrs (checkIp allowPrivate) host)

inductive Carries (high low : ℕ) : List ℕ → Prop where
  | mapped : Carries high low [0, 0, 0, 0, 0, 0xffff, high, low]
  | compatible : Carries high low [0, 0, 0, 0, 0, 0, high, low]
  | nat64 : Carries high low [0x64, 0xff9b, 0, 0, 0, 0, high, low]
  | sixToFour (s₃ s₄ s₅ s₆ s₇ : ℕ) : Carries high low [0x2002, high, low, s₃, s₄, s₅, s₆, s₇]

theorem checkIp_carried {high low : ℕ} {segments : List ℕ} (h : Carries high low segments)
    (hblocked : checkEmbedded high low ≠ none) : checkIp false (.v6 segments) ≠ none := by
  cases h with
  | mapped => simpa [checkIp, checkIpv6] using hblocked
  | compatible =>
    by_cases hlow : high = 0 ∧ (low = 1 ∨ low = 0)
    · obtain ⟨rfl, rfl | rfl⟩ := hlow <;> simp [checkIp, checkIpv6]
    · have hone : ¬ (high = 0 ∧ low = 1) := fun h => hlow ⟨h.1, .inl h.2⟩
      have hzero : ¬ (high = 0 ∧ low = 0) := fun h => hlow ⟨h.1, .inr h.2⟩
      simpa [checkIp, checkIpv6, hone, hzero] using hblocked
  | nat64 => simpa [checkIp, checkIpv6] using hblocked
  | sixToFour => simpa [checkIp, checkIpv6] using hblocked

section Vetting

variable {resolve : Text → Except Text (List IpAddr)} {allowPrivate : Bool} {host : Text}
  {out : List IpAddr}

/-- The addresses that a host stands for: itself as a literal, or the resolver's answers. -/
def Answers (resolve : Text → Except Text (List IpAddr)) (host : Text) (ip : IpAddr) : Prop :=
  match parseIp host with
  | some literal => ip = literal
  | none => ∃ lookup, resolve host = .ok lookup ∧ ip ∈ lookup

theorem vetProbeHostAddrs_ok (h : vetProbeHostAddrs resolve allowPrivate host = .ok out) :
    out ≠ [] ∧ (∀ ip ∈ out, Answers resolve host ip) ∧
      ∀ ip, Answers resolve host ip → checkIp allowPrivate ip = none := by
  rw [vetProbeHostAddrs] at h
  unfold Answers
  cases hliteral : parseIp host with
  | some literal =>
    simp only [hliteral] at h
    cases hcheck : checkIp allowPrivate literal with
    | some reason => simp [hcheck] at h
    | none =>
      rw [hcheck] at h
      obtain rfl := Except.ok.inj h
      refine ⟨List.cons_ne_nil _ _, fun ip hip => List.mem_singleton.mp hip, ?_⟩
      rintro ip rfl
      exact hcheck
  | none =>
    simp only [hliteral] at h
    cases hresolve : resolve host with
    | error e => simp [hresolve, Except.bind] at h
    | ok lookup =>
      rw [hresolve] at h
      obtain ⟨hall, addrs, rfl, hne, -, hmem⟩ := vetResolvedAddrs_ok h
      refine ⟨?_, fun ip hip => ?_, ?_⟩
      · intro hnil
        apply hne
        obtain ⟨ip, rest, hcons⟩ := List.exists_cons_of_ne_nil hne
        have hpick := pickVetted_capVetted addrs .any
        rw [hnil, hcons] at hpick
        simp [pickVetted] at hpick
      · exact ⟨lookup, rfl, (hmem ip).mp ((capVetted_sublist addrs).subset hip)⟩
      · rintro ip ⟨answers, hanswers, hip⟩
        obtain rfl := Except.ok.inj hanswers
        exact hall ip hip

theorem vetProbeHostAddrs_accepts (hsome : ∃ ip, Answers resolve host ip)
    (hall : ∀ ip, Answers resolve host ip → checkIp allowPrivate ip = none) :
    ∃ out, vetProbeHostAddrs resolve allowPrivate host = .ok out := by
  obtain ⟨ip, hip⟩ := hsome
  rw [vetProbeHostAddrs]
  unfold Answers at hip hall
  cases hliteral : parseIp host with
  | some literal =>
    simp only [hliteral] at hall
    exact ⟨[literal], by simp [hall literal rfl]⟩
  | none =>
    simp only [hliteral] at hip hall
    obtain ⟨lookup, hresolve, hmem⟩ := hip
    simp only [hresolve]
    exact vetResolvedAddrs_accepts (fun answer hanswer => hall answer ⟨lookup, hresolve, hanswer⟩)
      (List.ne_nil_of_mem hmem)

theorem vetProbeHostAddrs_refused_iff :
    (∃ reason, vetProbeHostAddrs resolve allowPrivate host = .error reason) ↔
      (∃ ip, Answers resolve host ip ∧ checkIp allowPrivate ip ≠ none) ∨
        ∀ ip, ¬ Answers resolve host ip := by
  constructor
  · rintro ⟨reason, herror⟩
    by_contra hnot
    obtain ⟨hblocked, hnone⟩ := not_or.mp hnot
    obtain ⟨out, hok⟩ := @vetProbeHostAddrs_accepts resolve allowPrivate host
      (not_forall_not.mp hnone) fun ip hip => by_contra fun hcheck => hblocked ⟨ip, hip, hcheck⟩
    rw [herror] at hok
    cases hok
  · intro h
    cases hout : vetProbeHostAddrs resolve allowPrivate host with
    | error reason => exact ⟨reason, rfl⟩
    | ok out =>
      obtain ⟨hne, hanswers, haccepted⟩ := vetProbeHostAddrs_ok hout
      rcases h with ⟨ip, hip, hblocked⟩ | hnone
      · exact absurd (haccepted ip hip) hblocked
      · obtain ⟨ip, rest, rfl⟩ := List.exists_cons_of_ne_nil hne
        exact absurd (hanswers ip List.mem_cons_self) (hnone ip)

end Vetting

end AddressPolicy
