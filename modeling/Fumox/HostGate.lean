import Fumox.ClientKey
import Fumox.SocketText

/-!
The policy for the `Host` header: one canonical form, which the gate compares with a list of
allowed hosts and which the serve link of the panel names.
-/

namespace HostGate

open RustText AddressText SocketText ClientKey

inductive RejectionReason where
  | missing | notAllowed
  deriving DecidableEq, Repr

structure HostRejected where
  host : Text
  reason : RejectionReason
  deriving DecidableEq, Repr

def HostRejected.message (rejected : HostRejected) : Text :=
  match rejected.reason with
  | .missing => "Host header is missing"
  | .notAllowed => "Host header value is not in the allowlist"

def canonicalizeHostStr (raw : Text) : Text :=
  if '@' ∈ raw then []
  else if raw.head? = some '[' then
    -- what stands behind the bracket is not read
    '[' :: (toAsciiLowercase (raw.tail.takeWhile (· != ']')) ++ [']'])
  else if raw.count ':' = 1 then
    match rsplitOnce ':' raw with
    | some (host, _) => toAsciiLowercase host
    | none => toAsciiLowercase raw
  else if 1 < raw.count ':' then '[' :: (toAsciiLowercase raw ++ [']'])
  else toAsciiLowercase raw

/-- The value of the `Host` header is `none` when it is absent or cannot be read as text. -/
def canonicalRequestHost : Option Text → Text
  | some host => if host = [] then [] else canonicalizeHostStr host
  | none => []

def validateRequestHost (host : Option Text) (allowedHosts : List Text) :
    Except HostRejected Unit :=
  if allowedHosts = [] then .ok ()
  else if canonicalRequestHost host = [] then .error ⟨canonicalRequestHost host, .missing⟩
  else if canonicalRequestHost host ∈ allowedHosts.map canonicalizeHostStr then .ok ()
  else .error ⟨canonicalRequestHost host, .notAllowed⟩

def serveLinkHost (host : Option Text) : Option Text :=
  host.bind fun raw =>
    if trim raw = [] then none
    else if canonicalizeHostStr (trim raw) = [] then none
    else some (canonicalizeHostStr (trim raw))

def fallbackHost : SocketAddr → Text
  | .v4 a b c d _ => if a = 0 ∧ b = 0 ∧ c = 0 ∧ d = 0 then "127.0.0.1" else printIpv4 a b c d
  | .v6 segments _ _ =>
    if ∀ s ∈ segments, s = 0 then "127.0.0.1" else '[' :: (printIpv6 segments ++ [']'])

def buildServeLinkHost (bind : SocketAddr) (host : Option Text) (allowedHosts : List Text) :
    Except HostRejected Text := do
  validateRequestHost host allowedHosts
  return (serveLinkHost host).getD (fallbackHost bind)

/-- The characters that end the host of a URL, and white space. -/
def Delimiter (c : Char) : Prop :=
  c = '@' ∨ c = '/' ∨ c = '?' ∨ c = '#' ∨ isWhitespace c = true

instance (c : Char) : Decidable (Delimiter c) :=
  inferInstanceAs (Decidable (_ ∨ _ ∨ _ ∨ _ ∨ _))

def Plain (h : Text) : Prop :=
  ∀ c ∈ h, ¬Delimiter c ∧ c ≠ '[' ∧ c ≠ ']'

/-- A host of the allowlist: a name, or an address with colons, bare or in brackets. -/
inductive WellFormed : Text → Prop
  | name {h : Text} : h ≠ [] → Plain h → ':' ∉ h → WellFormed h
  | ipv6 {h : Text} : Plain h → 2 ≤ h.count ':' → WellFormed h
  | bracketed {h : Text} : Plain h → 2 ≤ h.count ':' → WellFormed ('[' :: (h ++ [']']))

def bare (h : Text) : Text :=
  h.filter fun c => decide (c ≠ '[' ∧ c ≠ ']')

/-- Equal up to letter case and brackets. -/
def SameHost (h entry : Text) : Prop :=
  toAsciiLowercase (bare h) = toAsciiLowercase (bare entry)

def canonicalForm (entry : Text) : Text :=
  if 2 ≤ entry.count ':' then '[' :: (toAsciiLowercase (bare entry) ++ [']'])
  else toAsciiLowercase entry

/-- Nothing, or a colon and a port of digits. -/
def PortTail (tail : Text) : Prop :=
  tail = [] ∨ ∃ port, tail = ':' :: port ∧ ∀ c ∈ port, c.isDigit = true

/-- The text is the host, or the host and a port. -/
inductive Names (h : Text) : Text → Prop
  | name {tail : Text} : ':' ∉ h → PortTail tail → Names h (h ++ tail)
  | ipv6 : 2 ≤ h.count ':' → Names h h
  | bracketed {tail : Text} : 2 ≤ h.count ':' → PortTail tail →
      Names h ('[' :: (h ++ ']' :: tail))

/-- The text is the host and then something that is no port, or its bracket is not closed. -/
inductive Overruns (h : Text) : Text → Prop
  | name {port : Text} : ':' ∉ h → ':' ∉ port → '@' ∉ port → (∃ c ∈ port, c.isDigit = false) →
      Overruns h (h ++ ':' :: port)
  | unclosed : 2 ≤ h.count ':' → Overruns h ('[' :: h)
  | bracketed {tail : Text} : 2 ≤ h.count ':' → '@' ∉ tail → ¬PortTail tail →
      Overruns h ('[' :: (h ++ ']' :: tail))

def Admitted (text : Text) (allowedHosts : List Text) : Prop :=
  ∃ h, Plain h ∧ Names h text ∧ ∃ entry ∈ allowedHosts, SameHost h entry

/-- The text goes on behind a host of the list. -/
def Overrun (text : Text) (allowedHosts : List Text) : Prop :=
  ∃ h, Plain h ∧ Overruns h text ∧ ∃ entry ∈ allowedHosts, SameHost h entry

section LetterCase

/-- A character that is no letter of ASCII. -/
def Caseless (c : Char) : Prop :=
  c.toNat < 65 ∨ 90 < c.toNat ∧ c.toNat < 97 ∨ 122 < c.toNat

instance (c : Char) : Decidable (Caseless c) :=
  inferInstanceAs (Decidable (_ ∨ _ ∧ _ ∨ _))

variable {c d : Char} {s t : Text}

theorem toLower_eq_iff (hd : Caseless d) : c.toLower = d ↔ c = d := by
  unfold Caseless at hd
  unfold Char.toLower
  split
  next hupper =>
    obtain ⟨hlow, hhigh⟩ := hupper
    have hlow' : 65 ≤ c.toNat := hlow
    have hhigh' : c.toNat ≤ 90 := hhigh
    have hsum : (c.val + ('a'.val - 'A'.val)).toNat = c.toNat + 32 := by
      rw [UInt32.toNat_add]
      exact Nat.mod_eq_of_lt (by change c.toNat + 32 < 2 ^ 32; omega)
    constructor
    · intro heq
      have hnat : (c.val + ('a'.val - 'A'.val)).toNat = d.toNat := congrArg Char.toNat heq
      omega
    · rintro rfl
      omega
  next => rfl

theorem mem_lower_iff (hd : Caseless d) : d ∈ toAsciiLowercase t ↔ d ∈ t := by
  unfold toAsciiLowercase
  rw [List.mem_map]
  constructor
  · rintro ⟨c, hc, heq⟩
    rw [← (toLower_eq_iff hd).mp heq]
    exact hc
  · exact fun h => ⟨d, h, (toLower_eq_iff hd).mpr rfl⟩

theorem count_lower (hd : Caseless d) : (toAsciiLowercase t).count d = t.count d := by
  unfold toAsciiLowercase List.count
  rw [List.countP_map]
  refine List.countP_congr fun c _ => ?_
  simp only [Function.comp_apply, beq_iff_eq]
  exact toLower_eq_iff hd

theorem caseless_delimiter (h : Delimiter c) : Caseless c := by
  rcases h with rfl | rfl | rfl | rfl | h
  · decide
  · decide
  · decide
  · decide
  · unfold isWhitespace at h
    simp only [Bool.or_eq_true, Bool.and_eq_true, decide_eq_true_eq, beq_iff_eq] at h
    unfold Caseless
    omega

theorem caseless_special (h : Delimiter c ∨ c = '[' ∨ c = ']') : Caseless c := by
  rcases h with h | rfl | rfl
  · exact caseless_delimiter h
  · decide
  · decide

/-- Whether a character of a host has a special meaning does not depend on the case. -/
theorem plain_lower : Plain (toAsciiLowercase t) ↔ Plain t := by
  have hspecial : ∀ u : Text, Plain u ↔ ∀ c, Delimiter c ∨ c = '[' ∨ c = ']' → c ∉ u := by
    intro u
    constructor
    · intro h c hspecial hc
      obtain ⟨hdelimiter, hopen, hclose⟩ := h c hc
      tauto
    · intro h c hc
      exact ⟨fun hd => h c (.inl hd) hc, fun ho => h c (.inr (.inl ho)) hc,
        fun hcl => h c (.inr (.inr hcl)) hc⟩
  rw [hspecial, hspecial]
  refine forall_congr' fun c => imp_congr_right fun hc => not_congr ?_
  exact mem_lower_iff (caseless_special hc)

end LetterCase

section PlainHosts

variable {h : Text}

theorem Plain.notMem (hplain : Plain h) {c : Char} (hc : Delimiter c ∨ c = '[' ∨ c = ']') :
    c ∉ h := by
  intro hmem
  obtain ⟨hdelimiter, hopen, hclose⟩ := hplain c hmem
  tauto

theorem bare_plain (hplain : Plain h) : bare h = h :=
  List.filter_eq_self.mpr fun c hc => decide_eq_true (hplain c hc).2

theorem bare_bracketed (hplain : Plain h) : bare ('[' :: (h ++ [']'])) = h := by
  have hbare := bare_plain hplain
  unfold bare at hbare ⊢
  rw [List.filter_cons_of_neg (by decide), List.filter_append, hbare,
    List.filter_cons_of_neg (by decide), List.filter_nil, List.append_nil]

theorem WellFormed.bare_cases {entry : Text} (hwf : WellFormed entry) : Plain (bare entry) ∧
    (bare entry ≠ [] ∧ ':' ∉ bare entry ∧ entry = bare entry ∨ 2 ≤ (bare entry).count ':' ∧
      (entry = bare entry ∨ entry = '[' :: (bare entry ++ [']']))) := by
  cases hwf with
  | name hne hplain hcolon =>
    rw [bare_plain hplain]
    exact ⟨hplain, .inl ⟨hne, hcolon, rfl⟩⟩
  | ipv6 hplain hcount =>
    rw [bare_plain hplain]
    exact ⟨hplain, .inr ⟨hcount, .inl rfl⟩⟩
  | bracketed hplain hcount =>
    rw [bare_bracketed hplain]
    exact ⟨hplain, .inr ⟨hcount, .inr rfl⟩⟩

end PlainHosts

section Canonical

variable {text g h : Text}

theorem count_eq_zero_of_notMem (h : ':' ∉ text) : text.count ':' = 0 :=
  List.count_eq_zero.mpr h

theorem canonicalize_name_iff (hne : g ≠ []) (hplain : Plain g) (hcolon : ':' ∉ g) :
    canonicalizeHostStr text = g ↔ '@' ∉ text ∧ ∃ h tail, toAsciiLowercase h = g ∧
      text = h ++ tail ∧ (tail = [] ∨ ∃ port, tail = ':' :: port ∧ ':' ∉ port) := by
  constructor
  · intro heq
    have hopen : '[' ∉ g := hplain.notMem (.inr (.inl rfl))
    unfold canonicalizeHostStr at heq
    split_ifs at heq with hat hbracket hone hmany
    · exact absurd heq.symm hne
    · exact absurd (heq ▸ List.mem_cons_self) hopen
    · refine ⟨hat, ?_⟩
      cases hsplit : rsplitOnce ':' text with
      | none =>
        rw [hsplit] at heq
        exact ⟨text, [], heq, (List.append_nil _).symm, .inl rfl⟩
      | some parts =>
        obtain ⟨host, port⟩ := parts
        rw [hsplit] at heq
        obtain ⟨htext, hport⟩ := rsplitOnce_eq_some hsplit
        exact ⟨host, ':' :: port, heq, htext, .inr ⟨port, rfl, hport⟩⟩
    · exact absurd (heq ▸ List.mem_cons_self) hopen
    · exact ⟨hat, text, [], heq, (List.append_nil _).symm, .inl rfl⟩
  · rintro ⟨hat, h, tail, rfl, rfl, htail⟩
    have hplain' := plain_lower.mp hplain
    have hcolon' : ':' ∉ h := mt (mem_lower_iff (by decide)).mpr hcolon
    have hhead : (h ++ tail).head? ≠ some '[' := by
      cases h with
      | nil => exact absurd rfl hne
      | cons c h =>
        intro hhead
        exact (hplain' c List.mem_cons_self).2.1 (Option.some_inj.mp hhead)
    unfold canonicalizeHostStr
    rw [if_neg hat, if_neg hhead]
    rcases htail with rfl | ⟨port, rfl, hport⟩
    · rw [List.append_nil, count_eq_zero_of_notMem hcolon', if_neg (by decide), if_neg (by decide)]
    · have hone : (h ++ ':' :: port).count ':' = 1 := by
        rw [List.count_append, List.count_cons_self, count_eq_zero_of_notMem hcolon',
          count_eq_zero_of_notMem hport]
      rw [if_pos hone, rsplitOnce_append hport]

theorem takeWhile_unbracketed {tail : Text} (h : ']' ∉ g)
    (htail : tail = [] ∨ ∃ t, tail = ']' :: t) :
    (g ++ tail).takeWhile (· != ']') = g := by
  have hall : ∀ c ∈ g, (c != ']') = true := fun c hc => bne_iff_ne.mpr fun heq => h (heq ▸ hc)
  rw [List.takeWhile_append_of_pos hall]
  rcases htail with rfl | ⟨t, rfl⟩
  · exact List.append_nil _
  · rw [List.takeWhile_cons_of_neg (by decide), List.append_nil]

theorem bracket_parts (rest : Text) : ']' ∉ '[' :: rest.takeWhile (· != ']') ∧
    (rest.dropWhile (· != ']') = [] ∨ ∃ t, rest.dropWhile (· != ']') = ']' :: t) := by
  refine ⟨?_, ?_⟩
  · rw [List.mem_cons, not_or]
    refine ⟨by decide, fun hmem => ?_⟩
    have hstop := List.mem_takeWhile_imp hmem
    exact absurd hstop (by decide)
  · cases hrest : rest.dropWhile (· != ']') with
    | nil => exact .inl rfl
    | cons c t =>
      have hnot := List.head?_dropWhile_not (· != ']') rest
      rw [hrest] at hnot
      have hc : c = ']' := by simpa using hnot
      exact .inr ⟨t, by rw [hc]⟩

theorem canonicalize_ipv6_iff (hplain : Plain g) (hcount : 2 ≤ g.count ':') :
    canonicalizeHostStr text = '[' :: (g ++ [']']) ↔ '@' ∉ text ∧ ∃ h, toAsciiLowercase h = g ∧
      (text = h ∨ text = '[' :: h ∨ ∃ tail, text = '[' :: (h ++ ']' :: tail)) := by
  constructor
  · intro heq
    have hbare : ∀ t : Text, text.head? ≠ some '[' → t <+: text →
        toAsciiLowercase t ≠ '[' :: (g ++ [']']) := by
      rintro t hhead ⟨rest, rfl⟩ heq
      cases t with
      | nil => cases heq
      | cons c t =>
        have hc : c.toLower = '[' := (List.cons.inj heq).1
        rw [(toLower_eq_iff (by decide)).mp hc] at hhead
        exact hhead rfl
    unfold canonicalizeHostStr at heq
    split_ifs at heq with hat hbracket hone hmany
    · refine ⟨hat, _, List.append_cancel_right (List.cons.inj heq).2, .inr ?_⟩
      obtain ⟨rest, rfl⟩ := List.head?_eq_some_iff.mp hbracket
      rw [List.tail_cons]
      have hrest : rest = rest.takeWhile (· != ']') ++ rest.dropWhile (· != ']') :=
        List.takeWhile_append_dropWhile.symm
      rcases (bracket_parts rest).2 with hnil | ⟨tail, hclose⟩
      · rw [hnil, List.append_nil] at hrest
        exact .inl (congrArg _ hrest)
      · rw [hclose] at hrest
        exact .inr ⟨tail, congrArg _ hrest⟩
    · cases hsplit : rsplitOnce ':' text with
      | none =>
        rw [hsplit] at heq
        exact absurd heq (hbare text hbracket (List.prefix_refl _))
      | some parts =>
        obtain ⟨host, port⟩ := parts
        rw [hsplit] at heq
        obtain ⟨htext, -⟩ := rsplitOnce_eq_some hsplit
        exact absurd heq (hbare host hbracket ⟨_, htext.symm⟩)
    · exact ⟨hat, text, List.append_cancel_right (List.cons.inj heq).2, .inl rfl⟩
    · exact absurd heq (hbare text hbracket (List.prefix_refl _))
  · rintro ⟨hat, h, rfl, htext⟩
    have hplain' := plain_lower.mp hplain
    have hclose : ']' ∉ h := hplain'.notMem (.inr (.inr rfl))
    rw [count_lower (by decide)] at hcount
    unfold canonicalizeHostStr
    rw [if_neg hat]
    rcases htext with rfl | rfl | ⟨tail, rfl⟩
    · have hhead : text.head? ≠ some '[' := fun hhead =>
        hplain'.notMem (.inr (.inl rfl)) (List.mem_of_head? hhead)
      rw [if_neg hhead, if_neg (by omega), if_pos (by omega)]
    · have htake := takeWhile_unbracketed hclose (.inl rfl)
      rw [List.append_nil] at htake
      rw [if_pos List.head?_cons, List.tail_cons, htake]
    · rw [if_pos List.head?_cons, List.tail_cons,
        takeWhile_unbracketed hclose (.inr ⟨tail, rfl⟩)]

end Canonical

section Matching

variable {text entry h h' : Text}

theorem WellFormed.form_cases (hwf : WellFormed entry) :
    Plain (toAsciiLowercase (bare entry)) ∧
      (toAsciiLowercase (bare entry) ≠ [] ∧ ':' ∉ toAsciiLowercase (bare entry) ∧
          canonicalForm entry = toAsciiLowercase (bare entry) ∨
        2 ≤ (toAsciiLowercase (bare entry)).count ':' ∧
          canonicalForm entry = '[' :: (toAsciiLowercase (bare entry) ++ [']'])) := by
  obtain ⟨hplain, hcases⟩ := hwf.bare_cases
  refine ⟨plain_lower.mpr hplain, ?_⟩
  rw [count_lower (by decide), mem_lower_iff (by decide)]
  unfold canonicalForm
  rcases hcases with ⟨hne, hcolon, heq⟩ | ⟨hcount, heq⟩
  · have hnone : ¬2 ≤ entry.count ':' := by
      rw [heq, count_eq_zero_of_notMem hcolon]
      omega
    rw [if_neg hnone, ← heq]
    exact .inl ⟨mt toAsciiLowercase_eq_nil.mp (by rwa [heq]), by rwa [heq], rfl⟩
  · have hcolons : 2 ≤ entry.count ':' := by
      rcases heq with heq | heq
      · rwa [heq]
      · rw [heq, List.count_cons_of_ne (by decide), List.count_append]
        exact Nat.le_add_right_of_le hcount
    rw [if_pos hcolons]
    exact .inr ⟨hcount, rfl⟩

theorem canonicalForm_ne_nil (hwf : WellFormed entry) : canonicalForm entry ≠ [] := by
  obtain ⟨-, ⟨hne, -, hform⟩ | ⟨-, hform⟩⟩ := hwf.form_cases
  · rwa [hform]
  · rw [hform]
    exact List.cons_ne_nil _ _

theorem canonicalize_entry (hwf : WellFormed entry) :
    canonicalizeHostStr entry = canonicalForm entry := by
  obtain ⟨hbare, hcases⟩ := hwf.bare_cases
  have hat : '@' ∉ bare entry := hbare.notMem (.inl (.inl rfl))
  obtain ⟨hplain, ⟨hne, hcolon, hform⟩ | ⟨hcount, hform⟩⟩ := hwf.form_cases
  · rw [hform]
    refine (canonicalize_name_iff hne hplain hcolon).mpr ?_
    rcases hcases with ⟨-, -, heq⟩ | ⟨hcount, -⟩
    · rw [← heq] at hat ⊢
      exact ⟨hat, entry, [], rfl, (List.append_nil _).symm, .inl rfl⟩
    · rw [mem_lower_iff (by decide)] at hcolon
      rw [count_eq_zero_of_notMem hcolon] at hcount
      omega
  · rw [hform]
    refine (canonicalize_ipv6_iff hplain hcount).mpr ?_
    rcases hcases with ⟨-, hcolon, -⟩ | ⟨-, heq | heq⟩
    · rw [count_lower (by decide), count_eq_zero_of_notMem hcolon] at hcount
      omega
    · refine ⟨?_, bare entry, rfl, .inl heq⟩
      rwa [heq]
    · refine ⟨?_, bare entry, rfl, .inr (.inr ⟨[], heq⟩)⟩
      rw [heq]
      simp [hat]

theorem SameHost.lower (hplain : Plain h) (hsame : SameHost h entry) :
    toAsciiLowercase h = toAsciiLowercase (bare entry) := by
  unfold SameHost at hsame
  rwa [bare_plain hplain] at hsame

theorem Plain.sameHost (hplain : Plain h)
    (hlower : toAsciiLowercase h = toAsciiLowercase (bare entry)) : SameHost h entry := by
  unfold SameHost
  rwa [bare_plain hplain]

theorem portTail_or_not (port : Text) : PortTail (':' :: port) ∨ ∃ c ∈ port, c.isDigit = false := by
  by_cases hdigits : ∀ c ∈ port, c.isDigit = true
  · exact .inl (.inr ⟨port, rfl, hdigits⟩)
  · simp only [not_forall] at hdigits
    obtain ⟨c, hc, hdigit⟩ := hdigits
    exact .inr ⟨c, hc, eq_false_of_ne_true hdigit⟩

theorem PortTail.cases {tail : Text} (htail : PortTail tail) :
    '@' ∉ tail ∧ (tail = [] ∨ ∃ port, tail = ':' :: port ∧ ':' ∉ port) := by
  rcases htail with rfl | ⟨port, rfl, hdigits⟩
  · exact ⟨List.not_mem_nil, .inl rfl⟩
  · have hnot : ∀ c, c.isDigit = false → c ∉ port := by
      intro c hc hmem
      rw [hdigits c hmem] at hc
      cases hc
    refine ⟨?_, .inr ⟨port, rfl, hnot ':' (by decide)⟩⟩
    rw [List.mem_cons, not_or]
    exact ⟨by decide, hnot '@' (by decide)⟩

theorem canonicalize_eq_iff (hwf : WellFormed entry) :
    canonicalizeHostStr text = canonicalForm entry ↔
      ∃ h, Plain h ∧ (Names h text ∨ Overruns h text) ∧ SameHost h entry := by
  obtain ⟨hplain, ⟨hne, hcolon, hform⟩ | ⟨hcount, hform⟩⟩ := hwf.form_cases
  · rw [hform, canonicalize_name_iff hne hplain hcolon]
    constructor
    · rintro ⟨hat, h, tail, hlower, rfl, htail⟩
      rw [← hlower] at hplain hcolon
      have hplain' := plain_lower.mp hplain
      have hcolon' := mt (mem_lower_iff (by decide)).mpr hcolon
      refine ⟨h, hplain', ?_, hplain'.sameHost hlower⟩
      rcases htail with rfl | ⟨port, rfl, hport⟩
      · exact .inl (.name hcolon' (.inl rfl))
      · rcases portTail_or_not port with htail | hdigit
        · exact .inl (.name hcolon' htail)
        · refine .inr (.name hcolon' hport (fun hmem => hat ?_) hdigit)
          exact List.mem_append_right _ (List.mem_cons_of_mem _ hmem)
    · rintro ⟨h, hplain', htext, hsame⟩
      have hlower := hsame.lower hplain'
      have hat : '@' ∉ h := hplain'.notMem (.inl (.inl rfl))
      have hfew : ¬2 ≤ h.count ':' := by
        rw [← count_lower (by decide), hlower, count_eq_zero_of_notMem hcolon]
        omega
      rcases htext with hnames | hoverruns
      · cases hnames with
        | name hcolon' htail =>
          obtain ⟨hat', htail⟩ := htail.cases
          exact ⟨by simp [hat, hat'], h, _, hlower, rfl, htail⟩
        | ipv6 hcount => exact absurd hcount hfew
        | bracketed hcount => exact absurd hcount hfew
      · cases hoverruns with
        | @name port hcolon' hport hat' =>
          exact ⟨by simp [hat, hat'], h, _, hlower, rfl, .inr ⟨port, rfl, hport⟩⟩
        | unclosed hcount => exact absurd hcount hfew
        | bracketed hcount => exact absurd hcount hfew
  · rw [hform, canonicalize_ipv6_iff hplain hcount]
    constructor
    · rintro ⟨hat, h, hlower, htext⟩
      rw [← hlower] at hplain hcount
      rw [count_lower (by decide)] at hcount
      have hplain' := plain_lower.mp hplain
      refine ⟨h, hplain', ?_, hplain'.sameHost hlower⟩
      rcases htext with rfl | rfl | ⟨tail, rfl⟩
      · exact .inl (.ipv6 hcount)
      · exact .inr (.unclosed hcount)
      · by_cases htail : PortTail tail
        · exact .inl (.bracketed hcount htail)
        · refine .inr (.bracketed hcount (fun hmem => hat ?_) htail)
          exact List.mem_cons_of_mem _ (List.mem_append_right _ (List.mem_cons_of_mem _ hmem))
    · rintro ⟨h, hplain', htext, hsame⟩
      have hlower := hsame.lower hplain'
      have hat : '@' ∉ h := hplain'.notMem (.inl (.inl rfl))
      have hmany : ':' ∈ h := by
        rw [← hlower, count_lower (by decide)] at hcount
        exact List.count_pos_iff.mp (by omega)
      rcases htext with hnames | hoverruns
      · cases hnames with
        | name hcolon => exact absurd hmany hcolon
        | ipv6 => exact ⟨hat, _, hlower, .inl rfl⟩
        | bracketed hcount htail =>
          exact ⟨by simp [hat, htail.cases.1], h, hlower, .inr (.inr ⟨_, rfl⟩)⟩
      · cases hoverruns with
        | name hcolon => exact absurd hmany hcolon
        | unclosed hcount => exact ⟨by simp [hat], h, hlower, .inr (.inl rfl)⟩
        | bracketed hcount hat' =>
          exact ⟨by simp [hat, hat'], h, hlower, .inr (.inr ⟨_, rfl⟩)⟩

theorem names_not_overruns (hplain : Plain h) (hplain' : Plain h') (hnames : Names h text)
    (hoverruns : Overruns h' text) : False := by
  have hopen : '[' ∉ h := hplain.notMem (.inr (.inl rfl))
  have hopen' : '[' ∉ h' := hplain'.notMem (.inr (.inl rfl))
  have hclose : ']' ∉ h := hplain.notMem (.inr (.inr rfl))
  have hclose' : ']' ∉ h' := hplain'.notMem (.inr (.inr rfl))
  cases hnames with
  | @name tail hcolon htail =>
    have hhead : '[' ∉ h ++ tail := by
      rw [List.mem_append, not_or]
      refine ⟨hopen, ?_⟩
      rcases htail with rfl | ⟨port, rfl, hdigits⟩
      · exact List.not_mem_nil
      · rw [List.mem_cons, not_or]
        exact ⟨by decide, fun hmem => Bool.noConfusion (hdigits _ hmem)⟩
    generalize htext : h ++ tail = text at hoverruns hhead
    cases hoverruns with
    | @name port hcolon' hport hat hdigit =>
      obtain ⟨c, hc, hdigit⟩ := hdigit
      rcases htail with rfl | ⟨port', rfl, hdigits⟩
      · rw [List.append_nil] at htext
        rw [htext] at hcolon
        exact hcolon (List.mem_append_right _ List.mem_cons_self)
      · have hsplit := splitOnce_append (b := port') hcolon
        rw [htext, splitOnce_append hcolon'] at hsplit
        obtain ⟨-, rfl⟩ := Prod.mk.inj (Option.some_inj.mp hsplit)
        rw [hdigits c hc] at hdigit
        cases hdigit
    | unclosed => exact hhead List.mem_cons_self
    | bracketed => exact hhead List.mem_cons_self
  | ipv6 hcount =>
    cases hoverruns with
    | name hcolon' hport =>
      rw [List.count_append, List.count_cons_self, count_eq_zero_of_notMem hcolon',
        count_eq_zero_of_notMem hport] at hcount
      omega
    | unclosed => exact hopen List.mem_cons_self
    | bracketed => exact hopen List.mem_cons_self
  | @bracketed tail hcount htail =>
    generalize htext : '[' :: (h ++ ']' :: tail) = text at hoverruns
    cases hoverruns with
    | @name port hcolon' =>
      cases h' with
      | nil => exact absurd (List.cons.inj htext).1 (by decide)
      | cons c h' =>
        rw [← (List.cons.inj htext).1] at hopen'
        exact hopen' List.mem_cons_self
    | unclosed =>
      rw [← (List.cons.inj htext).2] at hclose'
      exact hclose' (List.mem_append_right _ List.mem_cons_self)
    | @bracketed tail' hcount' hat hnot =>
      have hsplit := splitOnce_append (b := tail) hclose
      rw [(List.cons.inj htext).2, splitOnce_append hclose'] at hsplit
      obtain ⟨-, rfl⟩ := Prod.mk.inj (Option.some_inj.mp hsplit)
      exact hnot htail

theorem overrun_not_admitted {allowedHosts : List Text} (hoverrun : Overrun text allowedHosts) :
    ¬Admitted text allowedHosts := by
  obtain ⟨h', hplain', hoverruns, -⟩ := hoverrun
  rintro ⟨h, hplain, hnames, -⟩
  exact names_not_overruns hplain hplain' hnames hoverruns

theorem canonicalize_portTail {tail : Text} (htail : PortTail tail) :
    canonicalizeHostStr tail = [] := by
  rcases htail with rfl | ⟨port, rfl, hdigits⟩
  · rfl
  · obtain ⟨hat, hcases⟩ := PortTail.cases (.inr ⟨port, rfl, hdigits⟩)
    have hport : ':' ∉ port := fun hmem => Bool.noConfusion (hdigits _ hmem)
    have hone : (':' :: port).count ':' = 1 := by
      rw [List.count_cons_self, count_eq_zero_of_notMem hport]
    have hsplit : rsplitOnce ':' (':' :: port) = some ([], port) :=
      rsplitOnce_append (a := []) hport
    unfold canonicalizeHostStr
    rw [if_neg hat, if_neg (by simp), if_pos hone, hsplit]
    rfl

theorem sameHost_of_form {other : Text} (hwf : WellFormed entry) (hwf' : WellFormed other)
    (hform : canonicalForm entry = canonicalForm other) : SameHost entry other := by
  obtain ⟨hplain, hcases⟩ := hwf.form_cases
  obtain ⟨hplain', hcases'⟩ := hwf'.form_cases
  have hopen := hplain.notMem (.inr (.inl rfl))
  have hopen' := hplain'.notMem (.inr (.inl rfl))
  rcases hcases with ⟨-, -, heq⟩ | ⟨-, heq⟩ <;> rcases hcases' with ⟨-, -, heq'⟩ | ⟨-, heq'⟩ <;>
    rw [heq, heq'] at hform
  · exact hform
  · exact absurd (hform ▸ List.mem_cons_self) hopen
  · exact absurd (hform ▸ List.mem_cons_self) hopen'
  · exact List.append_cancel_right (List.cons.inj hform).2

theorem sameHost_of_names (hwf : WellFormed entry)
    (hform : canonicalizeHostStr text = canonicalForm entry) (hplain : Plain h)
    (hnames : Names h text) : SameHost h entry := by
  have hne : h ≠ [] := by
    rintro rfl
    cases hnames with
    | name hcolon htail =>
      rw [List.nil_append, canonicalize_portTail htail] at hform
      exact canonicalForm_ne_nil hwf hform.symm
    | ipv6 hcount => exact absurd hcount (by decide)
    | bracketed hcount => exact absurd hcount (by decide)
  have hwf' : WellFormed h := by
    cases hnames with
    | name hcolon => exact .name hne hplain hcolon
    | ipv6 hcount => exact .ipv6 hplain hcount
    | bracketed hcount => exact .ipv6 hplain hcount
  refine sameHost_of_form hwf' hwf ?_
  rw [← hform]
  exact ((canonicalize_eq_iff hwf').mpr ⟨h, hplain, .inl hnames, rfl⟩).symm

theorem trim_eq_of_not_white {t : Text} (hwhite : ∀ c ∈ t, isWhitespace c = false) : trim t = t :=
  trim_eq_self ⟨fun c hc => hwhite c (List.mem_of_head? hc),
    fun c hc => hwhite c (List.mem_of_getLast? hc)⟩

theorem Plain.not_white (hplain : Plain h) : ∀ c ∈ h, isWhitespace c = false := fun c hc =>
  eq_false_of_ne_true fun hwhite => (hplain c hc).1 (.inr (.inr (.inr (.inr hwhite))))

theorem PortTail.not_white {tail : Text} (htail : PortTail tail) :
    ∀ c ∈ tail, isWhitespace c = false := by
  rcases htail with rfl | ⟨port, rfl, hdigits⟩
  · exact fun c hc => absurd hc List.not_mem_nil
  · intro c hc
    rcases List.mem_cons.mp hc with rfl | hc
    · decide
    · exact isDigit_not_white (hdigits c hc)

theorem trim_append_cons {a b : Text} {c : Char} (ha : ∀ d ∈ a, isWhitespace d = false)
    (hc : isWhitespace c = false) : trim (a ++ c :: b) = a ++ c :: trimEnd b := by
  have hstart : trimStart (a ++ c :: b) = a ++ c :: b := by
    refine trimStart_eq_self fun d hd => ?_
    cases a with
    | nil =>
      rw [← Option.some_inj.mp hd]
      exact hc
    | cons e a =>
      rw [← Option.some_inj.mp hd]
      exact ha e List.mem_cons_self
  unfold trim
  rw [hstart, trimEnd_append_cons hc]

theorem Names.trim (hplain : Plain h) (hnames : Names h text) : trim text = text := by
  refine trim_eq_of_not_white fun c hc => ?_
  cases hnames with
  | name hcolon htail =>
    rcases List.mem_append.mp hc with hc | hc
    · exact hplain.not_white c hc
    · exact htail.not_white c hc
  | ipv6 => exact hplain.not_white c hc
  | bracketed hcount htail =>
    rcases List.mem_cons.mp hc with rfl | hc
    · decide
    · rcases List.mem_append.mp hc with hc | hc
      · exact hplain.not_white c hc
      · rcases List.mem_cons.mp hc with rfl | hc
        · decide
        · exact htail.not_white c hc

theorem Overruns.trim (hplain : Plain h) (hoverruns : Overruns h text) :
    Names h (trim text) ∨ Overruns h (trim text) := by
  cases hoverruns with
  | @name port hcolon hport hat =>
    rw [trim_append_cons hplain.not_white (by decide)]
    rcases portTail_or_not (trimEnd port) with htail | hdigit
    · exact .inl (.name hcolon htail)
    · exact .inr (.name hcolon (mt (trimEnd_sublist port _) hport)
        (mt (trimEnd_sublist port _) hat) hdigit)
  | unclosed hcount =>
    have hwhite : ∀ c ∈ '[' :: h, isWhitespace c = false := by
      intro c hc
      rcases List.mem_cons.mp hc with rfl | hc
      · decide
      · exact hplain.not_white c hc
    rw [trim_eq_of_not_white hwhite]
    exact .inr (.unclosed hcount)
  | @bracketed tail hcount hat =>
    have hwhite : ∀ c ∈ '[' :: h, isWhitespace c = false := by
      intro c hc
      rcases List.mem_cons.mp hc with rfl | hc
      · decide
      · exact hplain.not_white c hc
    rw [← List.cons_append, trim_append_cons hwhite (by decide), List.cons_append]
    by_cases htail : PortTail (trimEnd tail)
    · exact .inl (.bracketed hcount htail)
    · exact .inr (.bracketed hcount (mt (trimEnd_sublist tail _) hat) htail)

theorem canonicalize_trim (hwf : WellFormed entry)
    (hform : canonicalizeHostStr text = canonicalForm entry) :
    canonicalizeHostStr (trim text) = canonicalForm entry := by
  rw [canonicalize_eq_iff hwf] at hform ⊢
  obtain ⟨h, hplain, hnames | hoverruns, hsame⟩ := hform
  · refine ⟨h, hplain, .inl ?_, hsame⟩
    rwa [hnames.trim hplain]
  · exact ⟨h, hplain, hoverruns.trim hplain, hsame⟩

end Matching

section Listed

variable {allowedHosts : List Text} (hne : allowedHosts ≠ [])
  (hwf : ∀ entry ∈ allowedHosts, WellFormed entry) {host : Option Text}

include hne hwf

theorem validate_ok_iff : validateRequestHost host allowedHosts = .ok () ↔ ∃ text,
    host = some text ∧ ∃ entry ∈ allowedHosts, canonicalizeHostStr text = canonicalForm entry := by
  have hcanonical : ∀ text, host = some text → canonicalRequestHost host =
      canonicalizeHostStr text := by
    rintro text rfl
    change (if text = [] then [] else canonicalizeHostStr text) = canonicalizeHostStr text
    split_ifs with hempty
    · rw [hempty]
      rfl
    · rfl
  unfold validateRequestHost
  rw [if_neg hne]
  constructor
  · intro hok
    split_ifs at hok with hempty hlisted
    cases hhost : host with
    | none =>
      rw [hhost] at hempty
      exact absurd rfl hempty
    | some text =>
      obtain ⟨entry, hentry, heq⟩ := List.mem_map.mp hlisted
      refine ⟨text, rfl, entry, hentry, ?_⟩
      rw [← canonicalize_entry (hwf entry hentry), heq, hcanonical text hhost]
  · rintro ⟨text, hhost, entry, hentry, heq⟩
    rw [hcanonical text hhost, heq, if_neg (canonicalForm_ne_nil (hwf entry hentry)), if_pos]
    exact List.mem_map.mpr ⟨entry, hentry, canonicalize_entry (hwf entry hentry)⟩

theorem gate_iff : validateRequestHost host allowedHosts = .ok () ↔
    ∃ text, host = some text ∧ (Admitted text allowedHosts ∨ Overrun text allowedHosts) := by
  rw [validate_ok_iff hne hwf]
  refine exists_congr fun text => and_congr_right fun _ => ?_
  constructor
  · rintro ⟨entry, hentry, hform⟩
    obtain ⟨h, hplain, hnames | hoverruns, hsame⟩ :=
      (canonicalize_eq_iff (hwf entry hentry)).mp hform
    · exact .inl ⟨h, hplain, hnames, entry, hentry, hsame⟩
    · exact .inr ⟨h, hplain, hoverruns, entry, hentry, hsame⟩
  · rintro (⟨h, hplain, hnames, entry, hentry, hsame⟩ | ⟨h, hplain, hover, entry, hentry, hsame⟩)
    · exact ⟨entry, hentry, (canonicalize_eq_iff (hwf entry hentry)).mpr
        ⟨h, hplain, .inl hnames, hsame⟩⟩
    · exact ⟨entry, hentry, (canonicalize_eq_iff (hwf entry hentry)).mpr
        ⟨h, hplain, .inr hover, hsame⟩⟩

theorem link_canonical {bind : SocketAddr} {link : Text}
    (hlink : buildServeLinkHost bind host allowedHosts = .ok link) :
    ∃ entry ∈ allowedHosts, link = canonicalForm entry ∧
      ∀ text h, host = some text → Plain h → Names h text → SameHost h entry := by
  unfold buildServeLinkHost at hlink
  obtain ⟨_, hok, heq⟩ := bind_eq_ok.mp hlink
  obtain ⟨text, rfl, entry, hentry, hform⟩ := (validate_ok_iff hne hwf).mp hok
  have hwf' := hwf entry hentry
  have htrim := canonicalize_trim hwf' hform
  have hblank : trim text ≠ [] := by
    intro hblank
    rw [hblank] at htrim
    exact canonicalForm_ne_nil hwf' htrim.symm
  have hserve : serveLinkHost (some text) = some (canonicalForm entry) := by
    unfold serveLinkHost
    rw [Option.bind_some, if_neg hblank, htrim, if_neg (canonicalForm_ne_nil hwf')]
  rw [hserve] at heq
  refine ⟨entry, hentry, (Except.ok.inj heq).symm, ?_⟩
  rintro text' h htext hplain hnames
  rw [← Option.some_inj.mp htext] at hnames
  exact sameHost_of_names hwf' hform hplain hnames

end Listed

section Unlisted

variable {text : Text}

/-- The part of a text that is cut: behind the bracket, or behind the only colon. -/
def Cut (text before : Text) : Prop :=
  if text.head? = some '[' then ']' ∈ before else text.count ':' = 1 ∧ ':' ∈ before

/-- A delimiter stands in the part of the text that is kept. -/
def Stray (text : Text) : Prop :=
  '@' ∉ text ∧ ∃ before c after, text = before ++ c :: after ∧ Delimiter c ∧ ¬Cut text before

theorem mem_before_iff {stop c : Char} {kept tail : Text} (hstop : stop ∉ kept)
    (htail : tail = [] ∨ ∃ t, tail = stop :: t) (hne : c ≠ stop) :
    (∃ before after, kept ++ tail = before ++ c :: after ∧ stop ∉ before) ↔ c ∈ kept := by
  constructor
  · rintro ⟨before, after, heq, hbefore⟩
    rcases List.append_eq_append_iff.mp heq with ⟨rest, rfl, htail'⟩ | ⟨rest, rfl, hrest⟩
    · cases rest with
      | nil =>
        rw [List.nil_append] at htail'
        rcases htail with rfl | ⟨t, rfl⟩
        · cases htail'
        · exact absurd (List.cons.inj htail').1.symm hne
      | cons d rest =>
        rcases htail with rfl | ⟨t, rfl⟩
        · cases htail'
        · rw [← (List.cons.inj htail').1] at hbefore
          exact absurd (List.mem_append_right _ List.mem_cons_self) hbefore
    · cases rest with
      | nil =>
        rw [List.nil_append] at hrest
        rcases htail with rfl | ⟨t, rfl⟩
        · cases hrest
        · exact absurd (List.cons.inj hrest).1 hne
      | cons d rest =>
        rw [(List.cons.inj hrest).1]
        exact List.mem_append_right _ List.mem_cons_self
  · intro hc
    obtain ⟨before, after, rfl⟩ := List.append_of_mem hc
    refine ⟨before, after ++ tail, by rw [List.append_assoc, List.cons_append], ?_⟩
    exact fun hmem => hstop (List.mem_append_left _ hmem)

theorem delimiter_lower (t : Text) :
    (∃ c ∈ toAsciiLowercase t, Delimiter c) ↔ ∃ c ∈ t, Delimiter c := by
  constructor
  · rintro ⟨c, hc, hdelimiter⟩
    exact ⟨c, (mem_lower_iff (caseless_delimiter hdelimiter)).mp hc, hdelimiter⟩
  · rintro ⟨c, hc, hdelimiter⟩
    exact ⟨c, (mem_lower_iff (caseless_delimiter hdelimiter)).mpr hc, hdelimiter⟩

theorem delimiter_bracketed (t : Text) :
    (∃ c ∈ '[' :: (t ++ [']']), Delimiter c) ↔ ∃ c ∈ t, Delimiter c := by
  constructor
  · rintro ⟨c, hc, hdelimiter⟩
    rcases List.mem_cons.mp hc with rfl | hc
    · exact absurd hdelimiter (by decide)
    · rcases List.mem_append.mp hc with hc | hc
      · exact ⟨c, hc, hdelimiter⟩
      · rw [List.mem_singleton.mp hc] at hdelimiter
        exact absurd hdelimiter (by decide)
  · rintro ⟨c, hc, hdelimiter⟩
    exact ⟨c, List.mem_cons_of_mem _ (List.mem_append_left _ hc), hdelimiter⟩

theorem stray_kept {stop : Char} {kept tail : Text} (htext : text = kept ++ tail)
    (hstop : stop ∉ kept) (htail : tail = [] ∨ ∃ t, tail = stop :: t)
    (hdelimiter : ¬Delimiter stop) :
    (∃ before c after, text = before ++ c :: after ∧ Delimiter c ∧ stop ∉ before) ↔
      ∃ c ∈ kept, Delimiter c := by
  rw [htext]
  constructor
  · rintro ⟨before, c, after, heq, hc, hbefore⟩
    have hne : c ≠ stop := fun hsame => hdelimiter (hsame ▸ hc)
    exact ⟨c, (mem_before_iff hstop htail hne).mp ⟨before, after, heq, hbefore⟩, hc⟩
  · rintro ⟨c, hmem, hc⟩
    have hne : c ≠ stop := fun hsame => hdelimiter (hsame ▸ hc)
    obtain ⟨before, after, heq, hbefore⟩ := (mem_before_iff hstop htail hne).mpr hmem
    exact ⟨before, c, after, heq, hc, hbefore⟩

theorem stray_whole : (∃ before c after, text = before ++ c :: after ∧ Delimiter c) ↔
    ∃ c ∈ text, Delimiter c := by
  constructor
  · rintro ⟨before, c, after, rfl, hc⟩
    exact ⟨c, List.mem_append_right _ List.mem_cons_self, hc⟩
  · rintro ⟨c, hmem, hc⟩
    obtain ⟨before, after, heq⟩ := List.append_of_mem hmem
    exact ⟨before, c, after, heq, hc⟩

/-- The canonical form holds a delimiter when one stands in the part that is kept. -/
theorem delimiter_canonicalize :
    (∃ c ∈ canonicalizeHostStr text, Delimiter c) ↔ Stray text := by
  unfold canonicalizeHostStr Stray Cut
  by_cases hat : '@' ∈ text
  · rw [if_pos hat]
    simp [hat]
  rw [if_neg hat]
  by_cases hbracket : text.head? = some '['
  · obtain ⟨rest, rfl⟩ := List.head?_eq_some_iff.mp hbracket
    obtain ⟨hclose, htail⟩ := bracket_parts rest
    have htext : '[' :: rest =
        ('[' :: rest.takeWhile (· != ']')) ++ rest.dropWhile (· != ']') := by
      rw [List.cons_append, List.takeWhile_append_dropWhile]
    have hopen : (∃ c ∈ '[' :: rest.takeWhile (· != ']'), Delimiter c) ↔
        ∃ c ∈ rest.takeWhile (· != ']'), Delimiter c := by
      rw [List.exists_mem_cons_iff]
      exact or_iff_right (by decide)
    simp only [if_pos hbracket]
    rw [delimiter_bracketed, delimiter_lower, List.tail_cons, ← hopen,
      stray_kept htext hclose htail (by decide)]
    exact (and_iff_right hat).symm
  · simp only [if_neg hbracket]
    by_cases hone : text.count ':' = 1
    · rw [if_pos hone]
      have hmem : ':' ∈ text := List.count_pos_iff.mp (by omega)
      cases hsplit : rsplitOnce ':' text with
      | none =>
        obtain ⟨a, b, heq, hb⟩ := List.eq_append_cons_of_mem (List.mem_reverse.mpr hmem)
        have htext : text = b.reverse ++ ':' :: a.reverse := by
          rw [← List.reverse_reverse text, heq]
          simp
        rw [htext, rsplitOnce_append (by simpa using hb)] at hsplit
        cases hsplit
      | some parts =>
        obtain ⟨host, port⟩ := parts
        obtain ⟨htext, hport⟩ := rsplitOnce_eq_some hsplit
        have hhost : ':' ∉ host := by
          rw [htext, List.count_append, List.count_cons_self] at hone
          exact List.count_eq_zero.mp (by omega)
        dsimp only
        rw [delimiter_lower, ← stray_kept htext hhost (.inr ⟨port, rfl⟩) (by decide)]
        simp only [hone, true_and]
        exact (and_iff_right hat).symm
    · rw [if_neg hone]
      have hall : (∃ c ∈ (if 1 < text.count ':' then '[' :: (toAsciiLowercase text ++ [']'])
          else toAsciiLowercase text), Delimiter c) ↔ ∃ c ∈ text, Delimiter c := by
        split_ifs
        · rw [delimiter_bracketed, delimiter_lower]
        · exact delimiter_lower text
      rw [hall, ← stray_whole]
      simp only [hone, false_and, not_false_iff, and_true]
      exact (and_iff_right hat).symm

end Unlisted

section Fallback

theorem address_decimal {n : ℕ} : ∀ c ∈ decimal n, isAddressChar c = true := by
  intro c hc
  have hdigit := isDigit_of_mem_decimal hc
  have hvalue : hexValue c = some (c.toNat - 48) := if_pos hdigit
  unfold isAddressChar
  rw [hvalue]
  rfl

theorem address_append {s t : Text} (hs : ∀ c ∈ s, isAddressChar c = true)
    (ht : ∀ c ∈ t, isAddressChar c = true) : ∀ c ∈ s ++ t, isAddressChar c = true := by
  intro c hc
  rcases List.mem_append.mp hc with hc | hc
  · exact hs c hc
  · exact ht c hc

theorem address_cons {d : Char} {t : Text} (hd : isAddressChar d = true)
    (ht : ∀ c ∈ t, isAddressChar c = true) : ∀ c ∈ d :: t, isAddressChar c = true := by
  intro c hc
  rcases List.mem_cons.mp hc with rfl | hc
  · exact hd
  · exact ht c hc

theorem address_printIpv4 (a b c d : ℕ) : ∀ x ∈ printIpv4 a b c d, isAddressChar x = true :=
  address_append (address_append (address_append address_decimal
    (address_cons (by decide) address_decimal)) (address_cons (by decide) address_decimal))
    (address_cons (by decide) address_decimal)

theorem address_joinGroups (first : Bool) (groups : List ℕ) :
    ∀ c ∈ joinGroups first groups, isAddressChar c = true := by
  induction groups generalizing first with
  | nil => exact fun c hc => absurd hc List.not_mem_nil
  | cons g groups ih =>
    have hgroup : ∀ c ∈ hexGroup g, isAddressChar c = true := by
      intro c hc
      have hdigit := isDigitOf_of_mem_toDigits (by decide) (by decide) g c hc
      unfold isDigitOf at hdigit
      unfold isAddressChar
      cases hvalue : hexValue c with
      | none =>
        rw [hvalue] at hdigit
        cases hdigit
      | some n => rfl
    have hcolon : ∀ c ∈ (if first then [] else [':']), isAddressChar c = true := by
      cases first <;> decide
    exact address_append (address_append hcolon hgroup) (ih false)

theorem address_printIpv6 (segments : List ℕ) :
    ∀ c ∈ printIpv6 segments, isAddressChar c = true := by
  unfold printIpv6
  split
  · exact address_append (by decide) (address_printIpv4 _ _ _ _)
  · dsimp only
    split_ifs
    · exact address_append (address_append (address_joinGroups true _) (by decide))
        (address_joinGroups true _)
    · exact address_joinGroups true _

theorem not_delimiter_address {c : Char} (h : isAddressChar c = true) : ¬Delimiter c :=
  ascii_of (P := fun c => isAddressChar c = true → ¬Delimiter c) (by decide +kernel)
    (address_ascii h) h

theorem fallbackHost_plain (bind : SocketAddr) : ∀ c ∈ fallbackHost bind, ¬Delimiter c := by
  have hloopback : ∀ c ∈ ("127.0.0.1" : Text), ¬Delimiter c := by decide
  cases bind with
  | v4 a b c d port =>
    unfold fallbackHost
    dsimp only
    split_ifs
    · exact hloopback
    · exact fun x hx => not_delimiter_address (address_printIpv4 a b c d x hx)
  | v6 segments scope port =>
    unfold fallbackHost
    dsimp only
    split_ifs
    · exact hloopback
    · intro c hc hdelimiter
      obtain ⟨d, hd, hdelimiter⟩ := (delimiter_bracketed _).mp ⟨c, hc, hdelimiter⟩
      exact not_delimiter_address (address_printIpv6 segments d hd) hdelimiter

end Fallback

/-- The gate admits only listed hosts, and the serve link names only a host. -/
structure NamesOnlyHosts (bind : SocketAddr) (host : Option Text) (allowedHosts : List Text) :
    Prop where
  gate : allowedHosts ≠ [] → (validateRequestHost host allowedHosts = .ok () ↔
    ∃ text, host = some text ∧ Admitted text allowedHosts)
  link : allowedHosts ≠ [] → ∀ link, buildServeLinkHost bind host allowedHosts = .ok link →
    ∃ entry ∈ allowedHosts, link = canonicalForm entry ∧
      ∀ text h, host = some text → Plain h → Names h text → SameHost h entry
  unlisted : allowedHosts = [] → ∀ link, buildServeLinkHost bind host allowedHosts = .ok link →
    ∀ c ∈ link, ¬Delimiter c

/-- With a list the header does not go on behind a host of it; without one, no delimiter stands
in the part of the trimmed header that is kept. -/
def Orderly (host : Option Text) (allowedHosts : List Text) : Prop :=
  ∀ text, host = some text →
    if allowedHosts = [] then ¬Stray (trim text) else ¬Overrun text allowedHosts

theorem unlisted_iff (bind : SocketAddr) {host : Option Text} :
    (∀ link, buildServeLinkHost bind host [] = .ok link → ∀ c ∈ link, ¬Delimiter c) ↔
      ∀ text, host = some text → ¬Stray (trim text) := by
  have hbuild : buildServeLinkHost bind host [] =
      .ok ((serveLinkHost host).getD (fallbackHost bind)) := rfl
  rw [hbuild]
  simp only [Except.ok.injEq, forall_eq']
  cases host with
  | none =>
    exact ⟨fun _ text htext => (nomatch htext), fun _ => fallbackHost_plain bind⟩
  | some text =>
    have hstray : (∀ c ∈ (serveLinkHost (some text)).getD (fallbackHost bind), ¬Delimiter c) ↔
        ¬Stray (trim text) := by
      rw [← delimiter_canonicalize]
      unfold serveLinkHost
      rw [Option.bind_some]
      split_ifs with hblank hempty
      · have hnil : canonicalizeHostStr (trim text) = [] := by
          rw [hblank]
          rfl
        rw [hnil]
        simpa using fallbackHost_plain bind
      · rw [hempty]
        simpa using fallbackHost_plain bind
      · rw [Option.getD_some]
        simp only [not_exists, not_and]
    rw [hstray]
    exact ⟨fun h text' htext => Option.some_inj.mp htext ▸ h, fun h => h text rfl⟩

theorem namesOnlyHosts_iff (bind : SocketAddr) (host : Option Text) {allowedHosts : List Text}
    (hwf : ∀ entry ∈ allowedHosts, WellFormed entry) :
    NamesOnlyHosts bind host allowedHosts ↔ Orderly host allowedHosts := by
  unfold Orderly
  by_cases hne : allowedHosts = []
  · subst hne
    simp only [if_true]
    rw [← unlisted_iff bind]
    exact ⟨fun h => h.unlisted rfl, fun h => ⟨fun h => absurd rfl h, fun h => absurd rfl h,
      fun _ => h⟩⟩
  · simp only [if_neg hne]
    constructor
    · intro h text htext hoverrun
      obtain ⟨text', htext', hadmitted⟩ := (h.gate hne).mp
        ((gate_iff hne hwf).mpr ⟨text, htext, .inr hoverrun⟩)
      rw [htext, Option.some_inj] at htext'
      rw [← htext'] at hadmitted
      exact overrun_not_admitted hoverrun hadmitted
    · intro h
      refine ⟨fun _ => ?_, fun _ link hlink => link_canonical hne hwf hlink,
        fun hempty => absurd hempty hne⟩
      rw [gate_iff hne hwf]
      refine exists_congr fun text => and_congr_right fun htext => ?_
      exact or_iff_left (h text htext)

theorem namesOnlyHosts_loopback :
    NamesOnlyHosts (.v4 0 0 0 0 8081) (some "[::1]:8081") ["::1"] := by
  refine (namesOnlyHosts_iff _ _ (fun entry hentry => ?_)).mpr ?_
  · rw [List.mem_singleton.mp hentry]
    exact .ipv6 (by unfold Plain; decide) (by decide)
  · rintro text ⟨⟩ ⟨h, hplain, hoverruns, -⟩
    have hport : PortTail ":8081" := .inr ⟨"8081", rfl, by decide⟩
    have hnames : Names "::1" "[::1]:8081" := .bracketed (by decide) hport
    exact names_not_overruns (by unfold Plain; decide) hplain hnames hoverruns

/-- What follows the bracket passes the gate, and a path becomes a part of the serve link. -/
theorem overruns_pass :
    ¬NamesOnlyHosts (.v4 0 0 0 0 8081) (some "[::1]evil.example") ["::1"] ∧
      ¬NamesOnlyHosts (.v4 0 0 0 0 8081) (some "evil.example/panel") [] := by
  refine ⟨fun h => ?_, fun h => ?_⟩
  · have hok : validateRequestHost (some "[::1]evil.example") ["::1"] = .ok () := by
      decide +kernel
    obtain ⟨text, htext, g, hplain, hnames, -⟩ := (h.gate (List.cons_ne_nil _ _)).mp hok
    rw [← Option.some_inj.mp htext] at hnames
    have hoverruns : Overruns "::1" "[::1]evil.example" := by
      refine @Overruns.bracketed _ "evil.example" (by decide) (by decide) ?_
      rintro (hnil | ⟨port, hport, -⟩)
      · exact absurd hnil (by decide)
      · have hhead : some 'e' = some ':' := congrArg List.head? hport
        exact absurd hhead (by decide)
    exact names_not_overruns hplain (by unfold Plain; decide) hnames hoverruns
  · have hlink : buildServeLinkHost (.v4 0 0 0 0 8081) (some "evil.example/panel") [] =
        .ok "evil.example/panel" := by decide +kernel
    exact h.unlisted rfl _ hlink '/' (by decide) (by decide)

end HostGate
