import Fumox.AddressText

/-!
The rate-limit key of a request behind trusted proxies: two forwarded headers, each walked from the
peer towards the client, and what a client can reach with header text of its own.
-/

namespace ClientKey

open RustText AddressText

/-- The values of the two forwarded headers in order, one character for each byte. -/
structure Headers where
  xff : List Text
  forwarded : List Text

def toStr (value : Text) : Option Text :=
  if value.all (fun c => c == '\t' || (32 ≤ c.toNat && c.toNat < 127)) then some value else none

inductive Forwarded where
  | client (ip : IpAddr)
  | trustedChain
  | nothing
  deriving DecidableEq, Repr

def sole (found : Forwarded) (peer : IpAddr) : IpAddr :=
  match found with
  | .client ip => ip
  | .trustedChain => peer
  | .nothing => peer

def stripPrefix (pattern t : Text) : Option Text :=
  if pattern.isPrefixOf t then some (t.drop pattern.length) else none

def stripSuffix (pattern t : Text) : Option Text :=
  if pattern.isSuffixOf t then some (t.take (t.length - pattern.length)) else none

def trimMatches (c : Char) (t : Text) : Text :=
  trimEndMatches c (t.dropWhile (· == c))

def stripBoth (left right : Text) (value : Text) : Text :=
  ((stripPrefix left value).bind (stripSuffix right)).getD value

def stripObfuscation (value : Text) : Text :=
  stripBoth ['"'] ['"'] value

/-- The addresses that the parameters of one element name, up to one that declines to. -/
def paramAddresses : List Text → List IpAddr
  | [] => []
  | param :: rest =>
    match stripPrefix "for=" (trim param) with
    | none => paramAddresses rest
    | some value =>
      let value := stripObfuscation (trimMatches '"' value)
      if value = "_hidden" ∨ eqIgnoreAsciiCase value "unknown" then []
      else
        match parseIp (stripBoth ['['] [']'] value) with
        | none => paramAddresses rest
        | some ip => ip :: paramAddresses rest

def forwardedAddresses (raw : Text) : List IpAddr :=
  paramAddresses ((trim raw).splitOn ';')

def xffAddresses (raw : Text) : List IpAddr :=
  (parseIp (trim raw)).toList

section Walk

variable {ν : Type*} (contains : ν → IpAddr → Bool) (trustedCidrs : List ν)

def isTrusted (ip : IpAddr) : Bool :=
  trustedCidrs.any (contains · ip)

/-- The body of both walks: trusted addresses are skipped, the first other one is the client. -/
def settle : List IpAddr → Bool → Forwarded
  | [], parsedAny => if parsedAny then .trustedChain else .nothing
  | ip :: rest, _ => if isTrusted contains trustedCidrs ip then settle rest true else .client ip

/-- `get` yields the first value of a header. -/
def walk (read : Text → List IpAddr) (lines : List Text) : Forwarded :=
  match lines.head?.bind toStr with
  | none => .nothing
  | some value => settle contains trustedCidrs ((value.splitOn ',').reverse.flatMap read) false

def walkXff (headers : Headers) : Forwarded :=
  walk contains trustedCidrs xffAddresses headers.xff

def walkForwarded (headers : Headers) : Forwarded :=
  walk contains trustedCidrs forwardedAddresses headers.forwarded

def clientKey (peer : IpAddr) (headers : Headers) : IpAddr :=
  if trustedCidrs = [] then peer
  else if isTrusted contains trustedCidrs peer = false then peer
  else
    match headers.xff.isEmpty, headers.forwarded.isEmpty with
    | false, true => sole (walkXff contains trustedCidrs headers) peer
    | true, false => sole (walkForwarded contains trustedCidrs headers) peer
    | true, true => peer
    | false, false =>
      match walkXff contains trustedCidrs headers, walkForwarded contains trustedCidrs headers with
      | .client a, .client b => if a = b then a else peer
      | .client a, .trustedChain => a
      | .trustedChain, .client b => b
      | _, _ => peer

end Walk

structure Node where
  bracketed : Bool
  port : Option ℕ
  quoted : Bool
  deriving DecidableEq

def Node.render (node : Node) (address : Text) : Text :=
  let host := if node.bracketed then '[' :: (address ++ [']']) else address
  let full := host ++ node.port.elim [] fun n => ':' :: decimal n
  if node.quoted then '"' :: (full ++ ['"']) else full

/-- The last element of a header, from the hop itself: the client's address in one of the two
headers, or the refusal to name it. -/
inductive Element where
  | xff (node : Node) (address : Text)
  | forwarded (name : Text) (node : Node) (address : Text)
  | withheld (name word : Text)

def Element.render : Element → Text
  | xff node address => node.render address
  | forwarded name node address => name ++ '=' :: node.render address
  | withheld name word => name ++ '=' :: word

def isV4 : IpAddr → Bool
  | .v4 .. => true
  | .v6 .. => false

/-- The address is spelled correctly, and a port follows a colon-free address or a bracket. -/
def Node.Names (node : Node) (address : Text) (ip : IpAddr) : Prop :=
  parseIp address = some ip ∧ (node.port.isSome = true → node.bracketed = true ∨ isV4 ip = true)

def Element.Names (ip : IpAddr) : Element → Prop
  | xff node address => node.Names address ip
  | forwarded name node address => eqIgnoreAsciiCase name "for" = true ∧ node.Names address ip
  | withheld name word =>
    eqIgnoreAsciiCase name "for" = true ∧
      (word = "_hidden" ∨ eqIgnoreAsciiCase word "unknown" = true)

/-- The hop adds an element behind the lines of the client, on the last of them or on a new one. -/
structure Hop where
  element : Element
  sameLine : Bool
  pad : List Char
  pad_blank : ∀ c ∈ pad, c = ' ' ∨ c = '\t'

def Hop.extend (hop : Hop) (lines : List Text) : List Text :=
  match hop.sameLine, lines.getLast? with
  | true, some last => lines.dropLast ++ [last ++ ',' :: (hop.pad ++ hop.element.render)]
  | _, _ => lines ++ [hop.element.render]

def Hop.headers (hop : Hop) (client : Headers) : Headers :=
  match hop.element with
  | .xff .. => { client with xff := hop.extend client.xff }
  | .forwarded .. => { client with forwarded := hop.extend client.forwarded }
  | .withheld .. => { client with forwarded := hop.extend client.forwarded }

/-- The lines that the client sent in the header of the hop. -/
def Hop.lines (hop : Hop) (client : Headers) : List Text :=
  match hop.element with
  | .xff .. => client.xff
  | .forwarded .. => client.forwarded
  | .withheld .. => client.forwarded

/-- The keys that the hop leaves: the address it names or the peer's, or the peer's alone. -/
def Hop.Allows (hop : Hop) (ip peer key : IpAddr) : Prop :=
  match hop.element with
  | .withheld .. => key = peer
  | _ => key = ip ∨ key = peer

/-- The forms that the walks read: a bare address in one header; in the other one the name in lower
case and no port. -/
def Element.Readable : Element → Prop
  | xff node _ => node = ⟨false, none, false⟩
  | forwarded name node _ => name = "for" ∧ node.port = none
  | withheld .. => False

/-- Printable, and neither a blank nor a separator. -/
def isPlain (c : Char) : Bool :=
  33 ≤ c.toNat && c.toNat ≤ 126 && c != ',' && c != ';'

section Characters

theorem ascii_of {P : Char → Prop} (h : ∀ n : Fin 128, P (Char.ofNat n)) {c : Char}
    (hc : c.toNat < 128) : P c := by
  have hn := h ⟨c.toNat, hc⟩
  rwa [Char.ofNat_toNat] at hn

theorem hexValue_ascii {c : Char} (h : (hexValue c).isSome = true) : c.toNat < 128 := by
  unfold hexValue at h
  split_ifs at h with hdigit hlower hupper
  · exact lt_of_le_of_lt (Char.isDigit_iff_toNat.mp hdigit).2 (by decide)
  · have hle : c.toNat ≤ 'f'.toNat := hlower.2
    exact lt_of_le_of_lt hle (by decide)
  · have hle : c.toNat ≤ 'F'.toNat := hupper.2
    exact lt_of_le_of_lt hle (by decide)
  · cases h

theorem address_ascii {c : Char} (h : isAddressChar c = true) : c.toNat < 128 := by
  simp only [isAddressChar, Bool.or_eq_true, beq_iff_eq] at h
  rcases h with (h | rfl) | rfl
  · exact hexValue_ascii h
  · decide
  · decide

theorem address_plain {c : Char} (h : isAddressChar c = true) :
    isPlain c = true ∧ c ≠ '"' ∧ c ≠ '[' ∧ c ≠ ']' ∧ c ≠ '_' ∧ isAddressChar c.toLower = true :=
  ascii_of (P := fun c => isAddressChar c = true → isPlain c = true ∧ c ≠ '"' ∧ c ≠ '[' ∧
    c ≠ ']' ∧ c ≠ '_' ∧ isAddressChar c.toLower = true) (by decide +kernel) (address_ascii h) h

theorem plain_not_white {c : Char} (h : isPlain c = true) : isWhitespace c = false := by
  have hrange : 33 ≤ c.toNat ∧ c.toNat ≤ 126 := by
    simp only [isPlain, Bool.and_eq_true, decide_eq_true_eq] at h
    exact h.1.1
  have hascii : c.toNat < 128 := by omega
  exact ascii_of (P := fun c => isPlain c = true → isWhitespace c = false) (by decide +kernel)
    hascii h

theorem ascii_of_lower {c : Char} (h : c.toLower.toNat < 128) : c.toNat < 128 := by
  unfold Char.toLower at h
  split at h
  next hupper => exact lt_of_le_of_lt (show c.toNat ≤ 'Z'.toNat from hupper.2) (by decide)
  next => exact h

theorem word_plain {c : Char} {word : Text}
    (hword : ∀ n : Fin 128, (Char.ofNat n).toLower ∈ word →
      isPlain (Char.ofNat n) = true ∧ Char.ofNat n ≠ '"')
    (hascii : ∀ c ∈ word, c.toNat < 128) (h : c.toLower ∈ word) :
    isPlain c = true ∧ c ≠ '"' :=
  ascii_of (P := fun c => c.toLower ∈ word → isPlain c = true ∧ c ≠ '"') hword
    (ascii_of_lower (hascii _ h)) h

theorem mem_lower {t word : Text} {c : Char} (h : eqIgnoreAsciiCase t word = true)
    (hword : toAsciiLowercase word = word) (hc : c ∈ t) : c.toLower ∈ word := by
  have heq : toAsciiLowercase t = toAsciiLowercase word := beq_iff_eq.mp h
  rw [← hword, ← heq]
  exact List.mem_map_of_mem hc

theorem name_plain {name : Text} (h : eqIgnoreAsciiCase name "for" = true) :
    ∀ c ∈ name, isPlain c = true ∧ c ≠ '"' := fun _ hc =>
  word_plain (by decide +kernel) (by decide) (mem_lower h (by decide) hc)

theorem withheld_plain {word : Text}
    (h : word = "_hidden" ∨ eqIgnoreAsciiCase word "unknown" = true) :
    ∀ c ∈ word, isPlain c = true ∧ c ≠ '"' := by
  rcases h with rfl | h
  · decide
  · intro c hc
    exact word_plain (by decide +kernel) (by decide) (mem_lower h (by decide) hc)

theorem digit_plain {n : ℕ} : ∀ c ∈ decimal n, isPlain c = true ∧ c ≠ '"' ∧ c ≠ ']' := by
  intro c hc
  have hdigit := isDigit_of_mem_decimal hc
  have haddress : isAddressChar c = true := by
    simp [isAddressChar, hexValue, hdigit]
  obtain ⟨hplain, hquote, -, hclose, -⟩ := address_plain haddress
  exact ⟨hplain, hquote, hclose⟩

/-- The text between the quotes of a node. -/
def Node.full (node : Node) (address : Text) : Text :=
  (if node.bracketed then '[' :: (address ++ [']']) else address) ++
    node.port.elim [] fun n => ':' :: decimal n

theorem full_plain {node : Node} {address : Text} {ip : IpAddr} (h : node.Names address ip) :
    ∀ c ∈ node.full address, isPlain c = true ∧ c ≠ '"' := by
  have haddress : ∀ c ∈ address, isPlain c = true ∧ c ≠ '"' := by
    intro c hc
    obtain ⟨hplain, hquote, -⟩ := address_plain (parseIp_chars h.1 c hc)
    exact ⟨hplain, hquote⟩
  have hport : ∀ c ∈ (node.port.elim [] fun n => ':' :: decimal n : Text),
      isPlain c = true ∧ c ≠ '"' := by
    cases node.port with
    | none => exact fun c hc => absurd hc List.not_mem_nil
    | some n =>
      exact List.forall_mem_cons.mpr ⟨by decide, fun c hc =>
        ⟨(digit_plain c hc).1, (digit_plain c hc).2.1⟩⟩
  apply List.forall_mem_append.mpr ⟨?_, hport⟩
  split
  · exact List.forall_mem_cons.mpr ⟨by decide,
      List.forall_mem_append.mpr ⟨haddress, List.forall_mem_singleton.mpr (by decide)⟩⟩
  · exact haddress

theorem render_eq (node : Node) (address : Text) :
    node.render address =
      if node.quoted then '"' :: (node.full address ++ ['"']) else node.full address := rfl

theorem element_plain {element : Element} {ip : IpAddr} (h : element.Names ip) :
    ∀ c ∈ element.render, isPlain c = true := by
  have hnode : ∀ {node : Node} {address : Text}, node.Names address ip →
      ∀ c ∈ node.render address, isPlain c = true := by
    intro node address hnames
    have hfull : ∀ c ∈ node.full address, isPlain c = true :=
      fun c hc => (full_plain hnames c hc).1
    rw [render_eq]
    split
    · exact List.forall_mem_cons.mpr ⟨by decide,
        List.forall_mem_append.mpr ⟨hfull, List.forall_mem_singleton.mpr (by decide)⟩⟩
    · exact hfull
  cases element with
  | xff node address => exact hnode h
  | forwarded name node address =>
    exact List.forall_mem_append.mpr ⟨fun c hc => (name_plain h.1 c hc).1,
      List.forall_mem_cons.mpr ⟨by decide, hnode h.2⟩⟩
  | withheld name word =>
    exact List.forall_mem_append.mpr ⟨fun c hc => (name_plain h.1 c hc).1,
      List.forall_mem_cons.mpr ⟨by decide, fun c hc => (withheld_plain h.2 c hc).1⟩⟩

end Characters

section Reading

variable {node : Node} {address : Text} {ip : IpAddr}

theorem parseIp_none {t : Text} {c : Char} (hc : c ∈ t) (h : isAddressChar c = false) :
    parseIp t = none := by
  cases hparse : parseIp t with
  | none => rfl
  | some ip =>
    rw [parseIp_chars hparse c hc] at h
    cases h

theorem trim_pad {t pad : Text} (hpad : ∀ c ∈ pad, c = ' ' ∨ c = '\t') :
    trim (pad ++ t) = trim t := by
  have hskip : trimStart (pad ++ t) = trimStart t := by
    induction pad with
    | nil => rfl
    | cons c pad ih =>
      have hwhite : isWhitespace c = true := by
        rcases hpad c List.mem_cons_self with rfl | rfl <;> decide
      rw [List.cons_append, trimStart, List.dropWhile_cons_of_pos hwhite]
      exact ih fun d hd => hpad d (List.mem_cons_of_mem c hd)
  rw [trim, hskip, trim]

theorem trim_of_plain {t : Text} (ht : ∀ c ∈ t, isPlain c = true) : trim t = t := by
  apply trim_eq_self
  constructor
  · intro c hc
    exact plain_not_white (ht c (List.mem_of_head? hc))
  · intro c hc
    exact plain_not_white (ht c (List.mem_of_getLast? hc))

theorem parse_render (h : node.Names address ip) :
    parseIp (node.render address) = if node = ⟨false, none, false⟩ then some ip else none := by
  obtain ⟨bracketed, port, quoted⟩ := node
  obtain ⟨hparse, hport⟩ := h
  cases quoted with
  | true =>
    rw [if_neg (by simp)]
    exact parseIp_none (c := '"') List.mem_cons_self (by decide)
  | false =>
    cases bracketed with
    | true =>
      rw [if_neg (by simp)]
      exact parseIp_none (c := '[') List.mem_cons_self (by decide)
    | false =>
      cases port with
      | none =>
        rw [if_pos rfl]
        have hrender : (Node.mk false none false).render address = address := List.append_nil _
        rw [hrender, hparse]
      | some n =>
        rw [if_neg (by simp)]
        rcases hport rfl with hbracket | hv4
        · cases hbracket
        · cases ip with
          | v4 a b c d => exact parseIp_port hparse
          | v6 segments => cases hv4

theorem read_xff (h : node.Names address ip) {pad : Text} (hpad : ∀ c ∈ pad, c = ' ' ∨ c = '\t') :
    xffAddresses (pad ++ node.render address) =
      if node = ⟨false, none, false⟩ then [ip] else [] := by
  have hplain : ∀ c ∈ node.render address, isPlain c = true :=
    @element_plain (.xff node address) ip h
  rw [xffAddresses, trim_pad hpad, trim_of_plain hplain, parse_render h]
  split <;> rfl

theorem dropWhile_quotes {t : Text} (h : ∀ c ∈ t, c ≠ '"') :
    t.dropWhile (· == '"') = t ∧ t.rdropWhile (· == '"') = t := by
  constructor
  · cases t with
    | nil => rfl
    | cons c t =>
      exact List.dropWhile_cons_of_neg (by simpa using h c List.mem_cons_self)
  · rw [List.rdropWhile_eq_self_iff]
    intro hne
    simpa using h _ (List.getLast_mem hne)

theorem trimMatches_quotes {t : Text} (h : ∀ c ∈ t, c ≠ '"') :
    trimMatches '"' t = t ∧ trimMatches '"' ('"' :: (t ++ ['"'])) = t := by
  obtain ⟨hleft, hright⟩ := dropWhile_quotes h
  constructor
  · rw [trimMatches, hleft, trimEndMatches, hright]
  · have hstart : ('"' :: (t ++ ['"'])).dropWhile (· == '"') = (t ++ ['"']).dropWhile (· == '"') :=
      rfl
    rw [trimMatches, hstart, trimEndMatches]
    cases t with
    | nil => rfl
    | cons c t =>
      have hc : (c == '"') = false := by simpa using h c List.mem_cons_self
      have hkeep : ((c :: t) ++ ['"']).dropWhile (· == '"') = (c :: t) ++ ['"'] :=
        List.dropWhile_cons_of_neg (by rw [hc]; exact Bool.false_ne_true)
      rw [hkeep, List.rdropWhile_concat_pos _ _ _ (by rfl), hright]

theorem stripBoth_none {left right : Char} {t : Text} (h : ∀ c ∈ t, c ≠ left) :
    stripBoth [left] [right] t = t := by
  have hstem : stripPrefix [left] t = none := by
    cases t with
    | nil => rfl
    | cons c t =>
      have hc : (left == c) = false :=
        beq_false_of_ne (Ne.symm (h c List.mem_cons_self))
      simp [stripPrefix, List.isPrefixOf, hc]
  rw [stripBoth, hstem]
  rfl

theorem stripObfuscation_plain {t : Text} (h : ∀ c ∈ t, c ≠ '"') : stripObfuscation t = t :=
  stripBoth_none h

theorem stripPrefix_cons (c : Char) (t : Text) : stripPrefix [c] (c :: t) = some t := by
  simp [stripPrefix, List.isPrefixOf]

theorem stripSuffix_append (t : Text) (c : Char) : stripSuffix [c] (t ++ [c]) = some t := by
  rw [stripSuffix, if_pos (List.isSuffixOf_iff_suffix.mpr ⟨t, rfl⟩)]
  simp

theorem stripSuffix_none {s t : Text} {c : Char} (hne : t ≠ []) (ht : ∀ d ∈ t, d ≠ c) :
    stripSuffix [c] (s ++ t) = none := by
  rw [stripSuffix, if_neg]
  intro h
  obtain ⟨r, hr⟩ := List.isSuffixOf_iff_suffix.mp h
  have hlast := congrArg List.getLast? hr
  rw [List.getLast?_append_of_ne_nil _ hne, List.getLast?_concat] at hlast
  exact ht c (List.mem_of_getLast? hlast.symm) rfl

theorem parse_full (h : node.Names address ip) :
    parseIp (stripBoth ['['] [']'] (node.full address)) =
      if node.port = none then some ip else none := by
  obtain ⟨bracketed, port, quoted⟩ := node
  obtain ⟨hparse, hport⟩ := h
  have hopen : ∀ c ∈ address, c ≠ '[' := fun c hc =>
    (address_plain (parseIp_chars hparse c hc)).2.2.1
  cases bracketed with
  | true =>
    cases port with
    | none =>
      have hfull : (Node.mk true none quoted).full address = '[' :: (address ++ [']']) :=
        List.append_nil _
      rw [hfull, stripBoth, stripPrefix_cons, Option.bind_some, stripSuffix_append, if_pos rfl]
      exact hparse
    | some n =>
      have hfull : (Node.mk true (some n) quoted).full address =
          '[' :: ((address ++ [']', ':']) ++ decimal n) := by
        simp [Node.full]
      have hdigits : ∀ d ∈ decimal n, d ≠ ']' := fun d hd => (digit_plain d hd).2.2
      have hne : decimal n ≠ [] := Nat.toDigits_ne_nil
      rw [hfull, stripBoth, stripPrefix_cons, Option.bind_some,
        stripSuffix_none hne hdigits, if_neg (by simp)]
      exact parseIp_none (c := '[') List.mem_cons_self (by decide)
  | false =>
    cases port with
    | none =>
      have hfull : (Node.mk false none quoted).full address = address := List.append_nil _
      rw [hfull, stripBoth_none hopen, if_pos rfl]
      exact hparse
    | some n =>
      have hfull : (Node.mk false (some n) quoted).full address = address ++ ':' :: decimal n := rfl
      have hnone : ∀ c ∈ address ++ ':' :: decimal n, c ≠ '[' := by
        apply List.forall_mem_append.mpr ⟨hopen, List.forall_mem_cons.mpr ⟨by decide, ?_⟩⟩
        rintro c hc rfl
        exact absurd (isDigit_of_mem_decimal hc) (by decide)
      rw [hfull, stripBoth_none hnone, if_neg (by simp)]
      rcases hport rfl with hbracket | hv4
      · cases hbracket
      · cases ip with
        | v4 a b c d => exact parseIp_port hparse
        | v6 segments => cases hv4

theorem full_chars (h : node.Names address ip) :
    ∀ c ∈ node.full address, isAddressChar c = true ∨ c = '[' ∨ c = ']' := by
  have haddress : ∀ c ∈ address, isAddressChar c = true ∨ c = '[' ∨ c = ']' :=
    fun c hc => .inl (parseIp_chars h.1 c hc)
  refine List.forall_mem_append.mpr ⟨?_, ?_⟩
  · split
    · exact List.forall_mem_cons.mpr ⟨.inr (.inl rfl),
        List.forall_mem_append.mpr ⟨haddress, List.forall_mem_singleton.mpr (.inr (.inr rfl))⟩⟩
    · exact haddress
  · cases node.port with
    | none => exact fun c hc => absurd hc List.not_mem_nil
    | some n =>
      refine List.forall_mem_cons.mpr ⟨.inl (by decide), fun c hc => .inl ?_⟩
      simp [isAddressChar, hexValue, isDigit_of_mem_decimal hc]

theorem full_not_withheld (h : node.Names address ip) :
    ¬(node.full address = "_hidden" ∨ eqIgnoreAsciiCase (node.full address) "unknown" = true) := by
  rintro (hword | hword)
  · have hmem : '_' ∈ node.full address := by
      rw [hword]
      decide
    rcases full_chars h _ hmem with haddress | hbracket | hbracket
    · exact absurd haddress (by decide)
    · exact absurd hbracket (by decide)
    · exact absurd hbracket (by decide)
  · have hlower : toAsciiLowercase (node.full address) = toAsciiLowercase "unknown" :=
      beq_iff_eq.mp hword
    have hmem : 'u' ∈ toAsciiLowercase (node.full address) := by
      rw [hlower]
      decide
    obtain ⟨c, hc, hu⟩ := List.mem_map.mp hmem
    rcases full_chars h c hc with haddress | rfl | rfl
    · have hkeep := (address_plain haddress).2.2.2.2.2
      rw [hu] at hkeep
      exact absurd hkeep (by decide)
    · exact absurd hu (by decide)
    · exact absurd hu (by decide)

theorem unquote_render (h : node.Names address ip) :
    stripObfuscation (trimMatches '"' (node.render address)) = node.full address := by
  have hquotes : ∀ c ∈ node.full address, c ≠ '"' := fun c hc => (full_plain h c hc).2
  obtain ⟨hplain, hquoted⟩ := trimMatches_quotes hquotes
  rw [render_eq]
  split
  · rw [hquoted, stripObfuscation_plain hquotes]
  · rw [hplain, stripObfuscation_plain hquotes]

theorem stripPrefix_for (value : Text) : stripPrefix "for=" ("for" ++ '=' :: value) = some value := by
  rfl

theorem stripPrefix_name {name value : Text} (hlength : name.length = 3) (hname : name ≠ "for") :
    stripPrefix "for=" (name ++ '=' :: value) = none := by
  rw [stripPrefix, if_neg]
  intro h
  obtain ⟨rest, hrest⟩ := List.isPrefixOf_iff_prefix.mp h
  have htake := congrArg (List.take 3) hrest
  rw [List.take_left' hlength] at htake
  exact hname htake.symm

theorem name_length {name : Text} (h : eqIgnoreAsciiCase name "for" = true) : name.length = 3 := by
  have hlower : toAsciiLowercase name = toAsciiLowercase "for" := beq_iff_eq.mp h
  have hlength := congrArg List.length hlower
  rwa [toAsciiLowercase, List.length_map] at hlength

theorem forwarded_single {pad name value : Text} (hpad : ∀ c ∈ pad, c = ' ' ∨ c = '\t')
    (hplain : ∀ c ∈ name ++ '=' :: value, isPlain c = true) :
    forwardedAddresses (pad ++ (name ++ '=' :: value)) = paramAddresses [name ++ '=' :: value] := by
  have hsplit : (name ++ '=' :: value).splitOn ';' = [name ++ '=' :: value] := by
    apply List.splitOn_eq_singleton
    intro hmem
    exact absurd (hplain _ hmem) (by decide)
  rw [forwardedAddresses, trim_pad hpad, trim_of_plain hplain, hsplit]

theorem read_param {name value : Text} (hplain : ∀ c ∈ name ++ '=' :: value, isPlain c = true) :
    paramAddresses [name ++ '=' :: value] =
      match stripPrefix "for=" (name ++ '=' :: value) with
      | none => []
      | some value =>
        let value := stripObfuscation (trimMatches '"' value)
        if value = "_hidden" ∨ eqIgnoreAsciiCase value "unknown" then []
        else (parseIp (stripBoth ['['] [']'] value)).toList := by
  rw [paramAddresses.eq_def]
  dsimp only
  rw [trim_of_plain hplain]
  cases stripPrefix "for=" (name ++ '=' :: value) with
  | none => rfl
  | some value =>
    dsimp only
    split
    · rfl
    · cases parseIp (stripBoth ['['] [']'] (stripObfuscation (trimMatches '"' value))) <;> rfl

theorem read_forwarded {name pad : Text} (hname : eqIgnoreAsciiCase name "for" = true)
    (h : node.Names address ip) (hpad : ∀ c ∈ pad, c = ' ' ∨ c = '\t') :
    forwardedAddresses (pad ++ (name ++ '=' :: node.render address)) =
      if name = "for" ∧ node.port = none then [ip] else [] := by
  have hplain : ∀ c ∈ name ++ '=' :: node.render address, isPlain c = true :=
    @element_plain (.forwarded name node address) ip ⟨hname, h⟩
  rw [forwarded_single hpad hplain, read_param hplain]
  by_cases hfor : name = "for"
  · subst hfor
    rw [stripPrefix_for]
    dsimp only
    rw [unquote_render h, if_neg (full_not_withheld h), parse_full h]
    by_cases hport : node.port = none
    · rw [if_pos hport, if_pos ⟨rfl, hport⟩]
      rfl
    · rw [if_neg hport, if_neg fun h => hport h.2]
      rfl
  · rw [stripPrefix_name (name_length hname) hfor, if_neg fun h => hfor h.1]

theorem read_withheld {name word pad : Text}
    (h : Element.Names ip (.withheld name word)) (hpad : ∀ c ∈ pad, c = ' ' ∨ c = '\t') :
    forwardedAddresses (pad ++ (name ++ '=' :: word)) = [] := by
  have hplain : ∀ c ∈ name ++ '=' :: word, isPlain c = true := element_plain h
  have hquotes : ∀ c ∈ word, c ≠ '"' := fun c hc => (withheld_plain h.2 c hc).2
  rw [forwarded_single hpad hplain, read_param hplain]
  by_cases hfor : name = "for"
  · subst hfor
    rw [stripPrefix_for]
    dsimp only
    rw [(trimMatches_quotes hquotes).1, stripObfuscation_plain hquotes, if_pos h.2]
  · rw [stripPrefix_name (name_length h.1) hfor]

end Reading

section Rules

variable {noXff noForwarded : Bool} {x f : Forwarded} {peer ip : IpAddr}

def combine (noXff noForwarded : Bool) (x f : Forwarded) (peer : IpAddr) : IpAddr :=
  match noXff, noForwarded with
  | false, true => sole x peer
  | true, false => sole f peer
  | true, true => peer
  | false, false =>
    match x, f with
    | .client a, .client b => if a = b then a else peer
    | .client a, .trustedChain => a
    | .trustedChain, .client b => b
    | _, _ => peer

/-- The outcomes of the two walks that let an address through. -/
def Wins (noXff noForwarded : Bool) (x f : Forwarded) (ip : IpAddr) : Prop :=
  match noXff, noForwarded with
  | false, true => x = .client ip
  | true, false => f = .client ip
  | true, true => False
  | false, false =>
    x = .client ip ∧ (f = .client ip ∨ f = .trustedChain) ∨ x = .trustedChain ∧ f = .client ip

theorem combine_wins (h : Wins noXff noForwarded x f ip) :
    combine noXff noForwarded x f peer = ip := by
  cases noXff <;> cases noForwarded
  · rcases h with ⟨rfl, rfl | rfl⟩ | ⟨rfl, rfl⟩
    · exact if_pos rfl
    · rfl
    · rfl
  · obtain rfl : x = .client ip := h
    rfl
  · obtain rfl : f = .client ip := h
    rfl
  · exact h.elim

theorem combine_peer (h : ∀ ip, ¬Wins noXff noForwarded x f ip) :
    combine noXff noForwarded x f peer = peer := by
  cases noXff <;> cases noForwarded
  · cases x with
    | nothing => rfl
    | trustedChain =>
      cases f with
      | client b => exact absurd (.inr ⟨rfl, rfl⟩) (h b)
      | _ => rfl
    | client a =>
      cases f with
      | nothing => rfl
      | trustedChain => exact absurd (.inl ⟨rfl, .inr rfl⟩) (h a)
      | client b =>
        by_cases hab : a = b
        · exact absurd (.inl ⟨rfl, .inl (by rw [hab])⟩) (h a)
        · exact if_neg hab
  · cases x with
    | client a => exact absurd rfl (h a)
    | _ => rfl
  · cases f with
    | client b => exact absurd rfl (h b)
    | _ => rfl
  · rfl

theorem combine_own_xff (h : x = .client ip ∨ x = .nothing) :
    combine false noForwarded x f peer = ip ∨ combine false noForwarded x f peer = peer := by
  rcases h with rfl | rfl
  · cases noForwarded with
    | true => exact .inl rfl
    | false =>
      cases f with
      | nothing => exact .inr rfl
      | trustedChain => exact .inl rfl
      | client b =>
        by_cases hab : ip = b
        · exact .inl (if_pos hab)
        · exact .inr (if_neg hab)
  · cases noForwarded <;> cases f <;> exact .inr rfl

theorem combine_own_forwarded (h : f = .client ip ∨ f = .nothing) :
    combine noXff false x f peer = ip ∨ combine noXff false x f peer = peer := by
  rcases h with rfl | rfl
  · cases noXff with
    | true => exact .inl rfl
    | false =>
      cases x with
      | nothing => exact .inr rfl
      | trustedChain => exact .inl rfl
      | client a =>
        by_cases hab : a = ip
        · exact .inl ((if_pos hab).trans hab)
        · exact .inr (if_neg hab)
  · cases noXff <;> cases x <;> exact .inr rfl

theorem combine_silent_forwarded :
    combine noXff false x .nothing peer = peer := by
  cases noXff <;> cases x <;> rfl

end Rules

section Keys

variable {ν : Type*} {contains : ν → IpAddr → Bool} {trustedCidrs : List ν}

/-- The address that header lines name, if the rules over both headers let one through. -/
def Names (contains : ν → IpAddr → Bool) (trustedCidrs : List ν) (headers : Headers)
    (ip : IpAddr) : Prop :=
  Wins headers.xff.isEmpty headers.forwarded.isEmpty (walkXff contains trustedCidrs headers)
    (walkForwarded contains trustedCidrs headers) ip

theorem clientKey_eq {peer : IpAddr} (hpeer : isTrusted contains trustedCidrs peer = true)
    (headers : Headers) :
    clientKey contains trustedCidrs peer headers =
      combine headers.xff.isEmpty headers.forwarded.isEmpty
        (walkXff contains trustedCidrs headers) (walkForwarded contains trustedCidrs headers)
        peer := by
  have hne : trustedCidrs ≠ [] := by
    rintro rfl
    cases hpeer
  have htrusted : ¬isTrusted contains trustedCidrs peer = false := by
    rw [hpeer]
    decide
  rw [clientKey, if_neg hne, if_neg htrusted]
  rfl

theorem settle_untrusted {ip : IpAddr} (h : isTrusted contains trustedCidrs ip = false)
    (rest : List IpAddr) (parsedAny : Bool) :
    settle contains trustedCidrs (ip :: rest) parsedAny = .client ip := by
  rw [settle, if_neg (by rw [h]; exact Bool.false_ne_true)]

theorem toStr_append {t e : Text}
    (he : ∀ c ∈ e, isPlain c = true ∨ c = ' ' ∨ c = '\t' ∨ c = ',') :
    toStr (t ++ e) = (toStr t).map (· ++ e) := by
  have hvisible : e.all (fun c => c == '\t' || (32 ≤ c.toNat && c.toNat < 127)) = true := by
    apply List.all_eq_true.mpr
    intro c hc
    rcases he c hc with hplain | rfl | rfl | rfl
    · simp only [isPlain, Bool.and_eq_true, decide_eq_true_eq] at hplain
      have hlow := hplain.1.1.1
      have hhigh := hplain.1.1.2
      simp only [Bool.or_eq_true, Bool.and_eq_true, decide_eq_true_eq]
      omega
    · decide
    · decide
    · decide
  rw [toStr, List.all_append, hvisible, Bool.and_true, toStr]
  split <;> rfl

theorem walk_head {read : Text → List IpAddr} {lines lines' : List Text}
    (h : lines.head? = lines'.head?) :
    walk contains trustedCidrs read lines = walk contains trustedCidrs read lines' := by
  rw [walk, h, walk]

theorem walk_extend {read : Text → List IpAddr} {hop : Hop} {ip : IpAddr} (lines : List Text)
    (hnames : hop.element.Names ip) {found : List IpAddr}
    (hread : ∀ pad : Text, (∀ c ∈ pad, c = ' ' ∨ c = '\t') →
      read (pad ++ hop.element.render) = found) :
    walk contains trustedCidrs read (hop.extend lines) =
      if lines = [] then settle contains trustedCidrs found false
      else if hop.sameLine = true ∧ lines.length = 1 then
        ((lines.head?.bind toStr).elim .nothing fun value =>
          settle contains trustedCidrs (found ++ (value.splitOn ',').reverse.flatMap read) false)
      else walk contains trustedCidrs read lines := by
  have hplain := element_plain hnames
  have hcomma : ∀ pad : Text, (∀ c ∈ pad, c = ' ' ∨ c = '\t') →
      (pad ++ hop.element.render).splitOn ',' = [pad ++ hop.element.render] := by
    intro pad hpad
    apply List.splitOn_eq_singleton
    intro hmem
    rcases List.mem_append.mp hmem with hc | hc
    · rcases hpad _ hc with h | h
      · exact absurd h (by decide)
      · exact absurd h (by decide)
    · exact absurd (hplain _ hc) (by decide)
  have hnone : ∀ c ∈ ([] : Text), c = ' ' ∨ c = '\t' := fun c hc => absurd hc List.not_mem_nil
  cases lines with
  | nil =>
    have hextend : hop.extend [] = [hop.element.render] := by
      unfold Hop.extend
      cases hop.sameLine <;> rfl
    have hvisible : toStr hop.element.render = some hop.element.render :=
      toStr_append (t := []) fun c hc => .inl (hplain c hc)
    have hsplit := hcomma [] hnone
    have hfound := hread [] hnone
    rw [List.nil_append] at hsplit hfound
    rw [if_pos rfl, hextend, walk, List.head?_cons, Option.bind_some, hvisible]
    dsimp only
    rw [hsplit, List.reverse_singleton, List.flatMap_singleton, hfound]
  | cons line rest =>
    rw [if_neg (List.cons_ne_nil line rest)]
    by_cases hsame : hop.sameLine = true
    · cases rest with
      | nil =>
        have hextend : hop.extend [line] =
            [line ++ ',' :: (hop.pad ++ hop.element.render)] := by
          unfold Hop.extend
          rw [hsame]
          rfl
        have hvisible : toStr (line ++ ',' :: (hop.pad ++ hop.element.render)) =
            (toStr line).map (· ++ ',' :: (hop.pad ++ hop.element.render)) := by
          apply toStr_append
          refine List.forall_mem_cons.mpr ⟨by simp, List.forall_mem_append.mpr ⟨?_, ?_⟩⟩
          · intro c hc
            rcases hop.pad_blank c hc with h | h
            · exact .inr (.inl h)
            · exact .inr (.inr (.inl h))
          · exact fun c hc => .inl (hplain c hc)
        rw [if_pos ⟨hsame, rfl⟩, hextend, walk, List.head?_cons, Option.bind_some, hvisible,
          List.head?_cons, Option.bind_some]
        cases toStr line with
        | none => rfl
        | some value =>
          have hsplit : (value ++ ',' :: (hop.pad ++ hop.element.render)).splitOn ',' =
              value.splitOn ',' ++ [hop.pad ++ hop.element.render] := by
            rw [List.splitOn_append_cons_of_beq _ _ (beq_self_eq_true _), hcomma _ hop.pad_blank]
          rw [Option.map_some, Option.elim_some]
          dsimp only
          rw [hsplit, List.reverse_append, List.reverse_singleton, List.flatMap_append,
            List.flatMap_singleton, hread _ hop.pad_blank]
      | cons next rest =>
        have hhead : (hop.extend (line :: next :: rest)).head? = some line := by
          unfold Hop.extend
          rw [hsame, List.getLast?_cons_cons]
          cases (next :: rest).getLast? <;> rfl
        rw [if_neg (by simp), walk_head (hhead.trans List.head?_cons.symm)]
    · have hhead : (hop.extend (line :: rest)).head? = some line := by
        unfold Hop.extend
        rw [Bool.eq_false_iff.mpr hsame]
        rfl
      rw [if_neg fun h => hsame h.1, walk_head (hhead.trans List.head?_cons.symm)]

section Own

variable {read : Text → List IpAddr} {hop : Hop} {ip : IpAddr} {lines : List Text} {R : Prop}
  [Decidable R]

theorem extend_isEmpty (hop : Hop) (lines : List Text) : (hop.extend lines).isEmpty = false := by
  unfold Hop.extend
  split <;> simp

theorem walk_own (hnames : hop.element.Names ip)
    (hip : isTrusted contains trustedCidrs ip = false)
    (hread : ∀ pad : Text, (∀ c ∈ pad, c = ' ' ∨ c = '\t') →
      read (pad ++ hop.element.render) = if R then [ip] else [])
    (h : lines = [] ∨ (R ∧ hop.sameLine = true ∧ lines.length = 1)) :
    walk contains trustedCidrs read (hop.extend lines) = .client ip ∨
      walk contains trustedCidrs read (hop.extend lines) = .nothing := by
  rw [walk_extend lines hnames hread]
  by_cases hlines : lines = []
  · rw [if_pos hlines]
    split
    · exact .inl (settle_untrusted hip [] false)
    · exact .inr rfl
  · obtain ⟨hr, hsame⟩ := h.resolve_left hlines
    rw [if_neg hlines, if_pos hsame]
    cases lines.head?.bind toStr with
    | none => exact .inr rfl
    | some value =>
      rw [Option.elim_some, if_pos hr]
      exact .inl (settle_untrusted hip _ false)

theorem walk_client (hnames : hop.element.Names ip)
    (hread : ∀ pad : Text, (∀ c ∈ pad, c = ' ' ∨ c = '\t') →
      read (pad ++ hop.element.render) = if R then [ip] else [])
    (hlines : lines ≠ []) (h : ¬(R ∧ hop.sameLine = true ∧ lines.length = 1)) :
    walk contains trustedCidrs read (hop.extend lines) =
      walk contains trustedCidrs read lines := by
  rw [walk_extend lines hnames hread, if_neg hlines]
  by_cases hsame : hop.sameLine = true ∧ lines.length = 1
  · have hr : ¬R := fun hr => h ⟨hr, hsame⟩
    rw [if_pos hsame, if_neg hr, walk]
    cases lines.head?.bind toStr <;> rfl
  · rw [if_neg hsame]

end Own

/-- The hop has the last word: the client sent no line of its header, or the element is of a form
that the walk reads and joined to the one line of the client. -/
def LastWord (hop : Hop) (client : Headers) : Prop :=
  hop.lines client = [] ∨
    (hop.element.Readable ∧ hop.sameLine = true ∧ (hop.lines client).length = 1)

theorem allows_peer (hop : Hop) (ip peer : IpAddr) : hop.Allows ip peer peer := by
  unfold Hop.Allows
  split
  · rfl
  · exact .inr rfl

variable {peer ip : IpAddr}

theorem clientKey_client (hpeer : isTrusted contains trustedCidrs peer = true) {hop : Hop}
    (hnames : hop.element.Names ip) (client : Headers) (h : ¬LastWord hop client) :
    clientKey contains trustedCidrs peer (hop.headers client) =
      clientKey contains trustedCidrs peer client := by
  obtain ⟨hlines, hword⟩ := not_or.mp h
  have hempty : ∀ l : List Text, l ≠ [] → l.isEmpty = false := by
    intro l hl
    cases l with
    | nil => exact absurd rfl hl
    | cons => rfl
  rw [clientKey_eq hpeer, clientKey_eq hpeer]
  obtain ⟨element, sameLine, pad, pad_blank⟩ := hop
  cases element with
  | xff node address =>
    have hwalk : walkXff contains trustedCidrs
        ((Hop.mk (.xff node address) sameLine pad pad_blank).headers client) =
        walkXff contains trustedCidrs client :=
      walk_client hnames (fun _ hpad => read_xff hnames hpad) hlines hword
    have hline : ((Hop.mk (.xff node address) sameLine pad pad_blank).headers client).xff.isEmpty =
        client.xff.isEmpty := (extend_isEmpty _ _).trans (hempty _ hlines).symm
    rw [hwalk, hline]
    rfl
  | forwarded name node address =>
    have hwalk : walkForwarded contains trustedCidrs
        ((Hop.mk (.forwarded name node address) sameLine pad pad_blank).headers client) =
        walkForwarded contains trustedCidrs client :=
      walk_client hnames (fun _ hpad => read_forwarded hnames.1 hnames.2 hpad) hlines hword
    have hline : ((Hop.mk (.forwarded name node address) sameLine pad
        pad_blank).headers client).forwarded.isEmpty = client.forwarded.isEmpty :=
      (extend_isEmpty _ _).trans (hempty _ hlines).symm
    rw [hwalk, hline]
    rfl
  | withheld name word =>
    have hread : ∀ pad : Text, (∀ c ∈ pad, c = ' ' ∨ c = '\t') →
        forwardedAddresses (pad ++ (Element.withheld name word).render) =
          if False then [ip] else [] :=
      fun _ hpad => (read_withheld hnames hpad).trans (if_neg not_false).symm
    have hwalk : walkForwarded contains trustedCidrs
        ((Hop.mk (.withheld name word) sameLine pad pad_blank).headers client) =
        walkForwarded contains trustedCidrs client :=
      walk_client hnames hread hlines hword
    have hline : ((Hop.mk (.withheld name word) sameLine pad
        pad_blank).headers client).forwarded.isEmpty = client.forwarded.isEmpty :=
      (extend_isEmpty _ _).trans (hempty _ hlines).symm
    rw [hwalk, hline]
    rfl

theorem clientKey_own (hpeer : isTrusted contains trustedCidrs peer = true) {hop : Hop}
    (hnames : hop.element.Names ip) (hip : isTrusted contains trustedCidrs ip = false)
    (client : Headers) (h : LastWord hop client) :
    hop.Allows ip peer (clientKey contains trustedCidrs peer (hop.headers client)) := by
  rw [clientKey_eq hpeer]
  obtain ⟨element, sameLine, pad, pad_blank⟩ := hop
  cases element with
  | xff node address =>
    have hwalk : walkXff contains trustedCidrs
          ((Hop.mk (.xff node address) sameLine pad pad_blank).headers client) = .client ip ∨
        walkXff contains trustedCidrs
          ((Hop.mk (.xff node address) sameLine pad pad_blank).headers client) = .nothing :=
      walk_own hnames hip (fun _ hpad => read_xff hnames hpad) h
    have hline : ((Hop.mk (.xff node address) sameLine pad pad_blank).headers client).xff.isEmpty =
        false := extend_isEmpty _ _
    rw [hline]
    exact combine_own_xff hwalk
  | forwarded name node address =>
    have hwalk : walkForwarded contains trustedCidrs
          ((Hop.mk (.forwarded name node address) sameLine pad pad_blank).headers client) =
            .client ip ∨
        walkForwarded contains trustedCidrs
          ((Hop.mk (.forwarded name node address) sameLine pad pad_blank).headers client) =
            .nothing :=
      walk_own hnames hip (fun _ hpad => read_forwarded hnames.1 hnames.2 hpad) h
    have hline : ((Hop.mk (.forwarded name node address) sameLine pad
        pad_blank).headers client).forwarded.isEmpty = false := extend_isEmpty _ _
    rw [hline]
    exact combine_own_forwarded hwalk
  | withheld name word =>
    have hlines : client.forwarded = [] := h.resolve_right fun hword => hword.1
    have hwalk : walkForwarded contains trustedCidrs
        ((Hop.mk (.withheld name word) sameLine pad pad_blank).headers client) = .nothing := by
      have hread : ∀ pad : Text, (∀ c ∈ pad, c = ' ' ∨ c = '\t') →
          forwardedAddresses (pad ++ (Element.withheld name word).render) = [] :=
        fun _ hpad => read_withheld hnames hpad
      exact (walk_extend client.forwarded hnames hread).trans (if_pos hlines)
    have hline : ((Hop.mk (.withheld name word) sameLine pad
        pad_blank).headers client).forwarded.isEmpty = false := extend_isEmpty _ _
    rw [hwalk, hline]
    exact combine_silent_forwarded

/-- The key is the hop's to choose, or else whatever the client's own lines name is an address
that the hop allows. -/
theorem key_allowed_iff (hpeer : isTrusted contains trustedCidrs peer = true) (hop : Hop)
    (hnames : hop.element.Names ip) (hip : isTrusted contains trustedCidrs ip = false)
    (client : Headers) :
    hop.Allows ip peer (clientKey contains trustedCidrs peer (hop.headers client)) ↔
      LastWord hop client ∨
        ∀ a, Names contains trustedCidrs client a → hop.Allows ip peer a := by
  by_cases hword : LastWord hop client
  · exact iff_of_true (clientKey_own hpeer hnames hip client hword) (.inl hword)
  · rw [clientKey_client hpeer hnames client hword, clientKey_eq hpeer, or_iff_right hword]
    constructor
    · intro h a ha
      rw [combine_wins ha] at h
      exact h
    · intro h
      by_cases hnone : ∃ a, Names contains trustedCidrs client a
      · obtain ⟨a, ha⟩ := hnone
        rw [combine_wins ha]
        exact h a ha
      · rw [combine_peer (not_exists.mp hnone)]
        exact allows_peer hop ip peer

end Keys

section Samples

def sameAddress (net ip : IpAddr) : Bool := net == ip

def proxy : IpAddr := .v4 10 0 0 1

/-- The proxy as a hop that continues the last line of the client. -/
def proxyHop (element : Element) : Hop :=
  ⟨element, true, [' '], fun _ hc => .inl (List.mem_singleton.mp hc)⟩

/-- Appended bare to the one line of the client. -/
theorem key_allowed_iff_sample :
    (proxyHop (.xff ⟨false, none, false⟩ "7.7.7.7")).Allows (.v4 7 7 7 7) proxy
        (clientKey sameAddress [proxy] proxy
          ((proxyHop (.xff ⟨false, none, false⟩ "7.7.7.7")).headers ⟨["6.6.6.6"], []⟩)) ↔
      LastWord (proxyHop (.xff ⟨false, none, false⟩ "7.7.7.7")) ⟨["6.6.6.6"], []⟩ ∨
        ∀ a, Names sameAddress [proxy] ⟨["6.6.6.6"], []⟩ a →
          (proxyHop (.xff ⟨false, none, false⟩ "7.7.7.7")).Allows (.v4 7 7 7 7) proxy a := by
  have hnames : (Element.xff ⟨false, none, false⟩ "7.7.7.7").Names (.v4 7 7 7 7) :=
    ⟨by decide, fun hport => by cases hport⟩
  exact key_allowed_iff (by decide) _ hnames (by decide) _

/-- The proxy declines to name the client, which has named an address of its choice. -/
theorem withheld_name_runs_on :
    isTrusted sameAddress [proxy] proxy = true ∧
      Element.Names (.v4 7 7 7 7) (.withheld "for" "_hidden") ∧
      isTrusted sameAddress [proxy] (.v4 7 7 7 7) = false ∧
      clientKey sameAddress [proxy] proxy
          ((proxyHop (.withheld "for" "_hidden")).headers ⟨[], ["for=6.6.6.6"]⟩) =
        .v4 6 6 6 6 ∧
      ¬(proxyHop (.withheld "for" "_hidden")).Allows (.v4 7 7 7 7) proxy
        (clientKey sameAddress [proxy] proxy
          ((proxyHop (.withheld "for" "_hidden")).headers ⟨[], ["for=6.6.6.6"]⟩)) := by
  have hkey : clientKey sameAddress [proxy] proxy
      ((proxyHop (.withheld "for" "_hidden")).headers ⟨[], ["for=6.6.6.6"]⟩) = .v4 6 6 6 6 := by
    decide +kernel
  refine ⟨by decide, ⟨by decide, .inl rfl⟩, by decide, hkey, ?_⟩
  rw [hkey]
  intro hallowed
  exact absurd (show IpAddr.v4 6 6 6 6 = proxy from hallowed) (by decide)

end Samples

end ClientKey
