import Fumox.RustText

/-!
Textual IP addresses as the standard library reads them: dotted decimal octets without leading
zeros, or groups of hexadecimal digits with at most one gap and an embedded dotted address at the
end.
-/

namespace AddressText

open RustText

inductive IpAddr where
  | v4 (a b c d : ℕ)
  | v6 (segments : List ℕ)
  deriving DecidableEq, Repr

abbrev Reader (α : Type) := Text → Option (α × Text)

def isDigitOf (radix : ℕ) (c : Char) : Bool :=
  (hexValue c).any (· < radix)

/-- All digits ahead; too many of them, or a value beyond the bound, are refused. -/
def readNumber (radix maxDigits bound : ℕ) (allowZeroPrefix : Bool) : Reader ℕ := fun t =>
  let digits := t.takeWhile (isDigitOf radix)
  let value := digits.foldl (fun n c => radix * n + (hexValue c).getD 0) 0
  if digits = [] ∨ maxDigits < digits.length ∨ bound < value ∨
      (allowZeroPrefix = false ∧ digits.head? = some '0' ∧ 1 < digits.length) then none
  else some (value, t.dropWhile (isDigitOf radix))

/-- A separator in front of every element but the first. -/
def separated {α : Type} (sep : Char) (first : Bool) (read : Reader α) : Reader α := fun t =>
  if first then read t
  else match t with
    | c :: rest => if c = sep then read rest else none
    | [] => none

def readOctet : Reader ℕ := readNumber 10 3 255 false

def readIpv4 : Reader (ℕ × ℕ × ℕ × ℕ) := fun t => do
  let (a, t) ← readOctet t
  let (b, t) ← separated '.' false readOctet t
  let (c, t) ← separated '.' false readOctet t
  let (d, t) ← separated '.' false readOctet t
  return ((a, b, c, d), t)

def readGroup : Reader ℕ := readNumber 16 4 65535 true

/-- At most `remaining` groups.  A dotted address stands for two of them and ends the run; the flag
says whether one did. -/
def readGroups : ℕ → Bool → Text → List ℕ × Bool × Text
  | 0, _, t => ([], false, t)
  | remaining + 1, first, t =>
    match if 1 ≤ remaining then separated ':' first readIpv4 t else none with
    | some ((a, b, c, d), rest) => ([256 * a + b, 256 * c + d], true, rest)
    | none =>
      match separated ':' first readGroup t with
      | some (group, rest) =>
        let (groups, dotted, rest) := readGroups remaining false rest
        (group :: groups, dotted, rest)
      | none => ([], false, t)

def readIpv6 : Reader (List ℕ) := fun t =>
  let (head, dotted, rest) := readGroups 8 true t
  if head.length = 8 then some (head, rest)
  else if dotted then none
  else match rest with
    | ':' :: ':' :: rest =>
      let (tail, _, rest) := readGroups (7 - head.length) true rest
      some (head ++ List.replicate (8 - head.length - tail.length) 0 ++ tail, rest)
    | _ => none

def readIp : Reader IpAddr := fun t =>
  match readIpv4 t with
  | some ((a, b, c, d), rest) => some (.v4 a b c d, rest)
  | none => (readIpv6 t).map fun r => (.v6 r.1, r.2)

/-- `str::parse::<IpAddr>`: nothing may be left over. -/
def parseIp (t : Text) : Option IpAddr :=
  match readIp t with
  | some (ip, []) => some ip
  | _ => none

example : parseIp "2001:db8::9" = some (.v6 [0x2001, 0xdb8, 0, 0, 0, 0, 0, 9]) := by decide

example : parseIp "::ffff:192.0.2.1" = some (.v6 [0, 0, 0, 0, 0, 0xffff, 0xc000, 0x201]) := by decide

def isAddressChar (c : Char) : Bool :=
  (hexValue c).isSome || c == '.' || c == ':'

/-- What a reader takes off the front is made of address characters. -/
def Consumes {α : Type} (read : Reader α) : Prop :=
  ∀ t v rest, read t = some (v, rest) →
    ∃ used, t = used ++ rest ∧ ∀ c ∈ used, isAddressChar c = true

theorem readNumber_consumes (radix maxDigits bound : ℕ) (allowZeroPrefix : Bool) :
    Consumes (readNumber radix maxDigits bound allowZeroPrefix) := by
  intro t v rest h
  unfold readNumber at h
  dsimp only at h
  split at h
  · cases h
  · obtain ⟨rfl, rfl⟩ := Prod.mk.inj (Option.some.inj h)
    refine ⟨t.takeWhile (isDigitOf radix), List.takeWhile_append_dropWhile.symm, ?_⟩
    intro c hc
    have hdigit := List.mem_takeWhile_imp hc
    unfold isDigitOf at hdigit
    unfold isAddressChar
    cases hvalue : hexValue c with
    | none =>
      rw [hvalue] at hdigit
      cases hdigit
    | some n => rfl

theorem separated_consumes {α : Type} {sep : Char} {read : Reader α}
    (hsep : isAddressChar sep = true) (h : Consumes read) (first : Bool) :
    Consumes (separated sep first read) := by
  intro t v rest hread
  cases first with
  | true => exact h t v rest hread
  | false =>
    cases t with
    | nil => cases hread
    | cons c t =>
      by_cases hc : c = sep
      · subst hc
        have hrest : read t = some (v, rest) := by
          rw [← hread]
          exact (if_pos rfl).symm
        obtain ⟨used, rfl, hused⟩ := h t v rest hrest
        exact ⟨c :: used, rfl, List.forall_mem_cons.mpr ⟨hsep, hused⟩⟩
      · have hnone : separated sep false read (c :: t) = none := if_neg hc
        rw [hnone] at hread
        cases hread

theorem consumes_trans {t used rest used' rest' : Text} (h : t = used ++ rest)
    (hused : ∀ c ∈ used, isAddressChar c = true) (h' : rest = used' ++ rest')
    (hused' : ∀ c ∈ used', isAddressChar c = true) :
    ∃ all, t = all ++ rest' ∧ ∀ c ∈ all, isAddressChar c = true := by
  refine ⟨used ++ used', ?_, List.forall_mem_append.mpr ⟨hused, hused'⟩⟩
  rw [h, h', List.append_assoc]

theorem readOctet_consumes : Consumes readOctet :=
  readNumber_consumes _ _ _ _

theorem readIpv4_consumes : Consumes readIpv4 := by
  intro t v rest h
  have hdot : Consumes (separated '.' false readOctet) :=
    separated_consumes (by decide) readOctet_consumes false
  obtain ⟨⟨a, t₁⟩, ha, h⟩ := Option.bind_eq_some_iff.mp h
  obtain ⟨⟨b, t₂⟩, hb, h⟩ := Option.bind_eq_some_iff.mp h
  obtain ⟨⟨c, t₃⟩, hc, h⟩ := Option.bind_eq_some_iff.mp h
  obtain ⟨⟨d, t₄⟩, hd, h⟩ := Option.bind_eq_some_iff.mp h
  obtain ⟨-, rfl⟩ := Prod.mk.inj (Option.some.inj h)
  obtain ⟨u₁, h₁, hu₁⟩ := readOctet_consumes _ _ _ ha
  obtain ⟨u₂, h₂, hu₂⟩ := hdot _ _ _ hb
  obtain ⟨u₃, h₃, hu₃⟩ := hdot _ _ _ hc
  obtain ⟨u₄, h₄, hu₄⟩ := hdot _ _ _ hd
  obtain ⟨u, hu, hall⟩ := consumes_trans h₁ hu₁ h₂ hu₂
  obtain ⟨u, hu, hall⟩ := consumes_trans hu hall h₃ hu₃
  exact consumes_trans hu hall h₄ hu₄

theorem readGroups_consumes (n : ℕ) (first : Bool) (t : Text) :
    ∃ used, t = used ++ (readGroups n first t).2.2 ∧ ∀ c ∈ used, isAddressChar c = true := by
  have hnothing : ∃ used, t = used ++ t ∧ ∀ c ∈ used, isAddressChar c = true :=
    ⟨[], rfl, fun c hc => absurd hc List.not_mem_nil⟩
  induction n generalizing first t with
  | zero => exact hnothing
  | succ n ih =>
    rw [readGroups]
    split
    next a b c d rest hv4 =>
      split at hv4
      · exact separated_consumes (by decide) readIpv4_consumes first _ _ _ hv4
      · cases hv4
    next =>
      split
      next group rest hgroup =>
        obtain ⟨u₁, h₁, hu₁⟩ :=
          separated_consumes (by decide) (readNumber_consumes _ _ _ _) first _ _ _ hgroup
        obtain ⟨u₂, h₂, hu₂⟩ := ih false rest ⟨[], rfl, fun c hc => absurd hc List.not_mem_nil⟩
        exact consumes_trans h₁ hu₁ h₂ hu₂
      next => exact hnothing

theorem readIpv6_consumes : Consumes readIpv6 := by
  intro t v rest h
  obtain ⟨u₁, h₁, hu₁⟩ := readGroups_consumes 8 true t
  unfold readIpv6 at h
  generalize readGroups 8 true t = groups at h h₁
  obtain ⟨head, dotted, left⟩ := groups
  dsimp only at h h₁
  split_ifs at h
  · obtain ⟨-, rfl⟩ := Prod.mk.inj (Option.some.inj h)
    exact ⟨u₁, h₁, hu₁⟩
  · split at h
    next after =>
      obtain ⟨-, rfl⟩ := Prod.mk.inj (Option.some.inj h)
      obtain ⟨u₂, h₂, hu₂⟩ := readGroups_consumes (7 - head.length) true after
      have hgap : ∀ c ∈ [':', ':'], isAddressChar c = true := by decide
      have hcolons : ':' :: ':' :: after = [':', ':'] ++ after := rfl
      obtain ⟨u, hu, hall⟩ := consumes_trans h₁ hu₁ hcolons hgap
      exact consumes_trans hu hall h₂ hu₂
    next => cases h

theorem parseIp_chars {t : Text} {ip : IpAddr} (h : parseIp t = some ip) :
    ∀ c ∈ t, isAddressChar c = true := by
  have hwhole : readIp t = some (ip, []) := by
    unfold parseIp at h
    split at h
    next hread => rw [hread, Option.some.inj h]
    next => cases h
  have hall : ∀ used : Text, t = used ++ [] → (∀ c ∈ used, isAddressChar c = true) →
      ∀ c ∈ t, isAddressChar c = true := by
    intro used heq hused
    rw [heq, List.append_nil]
    exact hused
  unfold readIp at hwhole
  split at hwhole
  next hv4 =>
    obtain ⟨-, rfl⟩ := Prod.mk.inj (Option.some.inj hwhole)
    obtain ⟨used, heq, hused⟩ := readIpv4_consumes _ _ _ hv4
    exact hall used heq hused
  next =>
    obtain ⟨⟨segments, rest⟩, hv6, heq⟩ := Option.map_eq_some_iff.mp hwhole
    obtain ⟨-, rfl⟩ := Prod.mk.inj heq
    obtain ⟨used, heq, hused⟩ := readIpv6_consumes _ _ _ hv6
    exact hall used heq hused

section Port

variable {x : Char} {t s : Text}

theorem takeWhile_stop {p : Char → Bool} (hx : p x = false) :
    (t ++ x :: s).takeWhile p = t.takeWhile p ∧
      (t ++ x :: s).dropWhile p = t.dropWhile p ++ x :: s := by
  induction t with
  | nil => simp [hx]
  | cons c t ih =>
    by_cases hc : p c = true
    · simp [hc, ih]
    · simp [hc]

theorem readNumber_stop {radix maxDigits bound v : ℕ} {allowZeroPrefix : Bool} {rest : Text}
    (hx : isDigitOf radix x = false)
    (h : readNumber radix maxDigits bound allowZeroPrefix t = some (v, rest)) :
    readNumber radix maxDigits bound allowZeroPrefix (t ++ x :: s) = some (v, rest ++ x :: s) := by
  obtain ⟨htake, hdrop⟩ := takeWhile_stop (t := t) (s := s) hx
  unfold readNumber at h ⊢
  dsimp only at h ⊢
  rw [htake, hdrop]
  split_ifs at h ⊢
  obtain ⟨rfl, rfl⟩ := Prod.mk.inj (Option.some.inj h)
  rfl

theorem separated_stop {v : ℕ} {rest : Text} (hx : isDigitOf 10 x = false)
    (h : separated '.' false readOctet t = some (v, rest)) :
    separated '.' false readOctet (t ++ x :: s) = some (v, rest ++ x :: s) := by
  cases t with
  | nil => cases h
  | cons c t =>
    by_cases hc : c = '.'
    · subst hc
      exact readNumber_stop hx h
    · have hnone : separated '.' false readOctet (c :: t) = none := if_neg hc
      rw [hnone] at h
      cases h

theorem readIpv4_stop {v : ℕ × ℕ × ℕ × ℕ} {rest : Text} (hx : isDigitOf 10 x = false)
    (h : readIpv4 t = some (v, rest)) : readIpv4 (t ++ x :: s) = some (v, rest ++ x :: s) := by
  obtain ⟨⟨a, t₁⟩, ha, h⟩ := Option.bind_eq_some_iff.mp h
  obtain ⟨⟨b, t₂⟩, hb, h⟩ := Option.bind_eq_some_iff.mp h
  obtain ⟨⟨c, t₃⟩, hc, h⟩ := Option.bind_eq_some_iff.mp h
  obtain ⟨⟨d, t₄⟩, hd, h⟩ := Option.bind_eq_some_iff.mp h
  obtain ⟨rfl, rfl⟩ := Prod.mk.inj (Option.some.inj h)
  refine Option.bind_eq_some_iff.mpr ⟨_, readNumber_stop hx ha, ?_⟩
  refine Option.bind_eq_some_iff.mpr ⟨_, separated_stop hx hb, ?_⟩
  refine Option.bind_eq_some_iff.mpr ⟨_, separated_stop hx hc, ?_⟩
  exact Option.bind_eq_some_iff.mpr ⟨_, separated_stop hx hd, rfl⟩

theorem parseIp_port {a b c d : ℕ} (h : parseIp t = some (.v4 a b c d)) :
    parseIp (t ++ ':' :: s) = none := by
  have hv4 : readIpv4 t = some ((a, b, c, d), []) := by
    unfold parseIp readIp at h
    split at h
    next ip hread =>
      split at hread
      next hread' =>
        obtain ⟨rfl, rfl⟩ := Prod.mk.inj (Option.some.inj hread)
        obtain ⟨rfl, rfl, rfl, rfl⟩ := IpAddr.v4.inj (Option.some.inj h)
        exact hread'
      next =>
        obtain ⟨r, -, heq⟩ := Option.map_eq_some_iff.mp hread
        obtain ⟨rfl, -⟩ := Prod.mk.inj heq
        cases Option.some.inj h
    next => cases h
  have hport : readIpv4 (t ++ ':' :: s) = some ((a, b, c, d), ':' :: s) :=
    readIpv4_stop (by decide) hv4
  rw [parseIp, readIp, hport]

end Port

end AddressText
