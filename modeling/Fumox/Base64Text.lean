import Fumox.RustText

/-!
Base64 as a parameter, with the laws of the unpadded encoder and the padded decoder, and a concrete
pair that satisfies them.
-/

namespace Base64Text

open RustText

/-- An unpadded encoder and a decoder of padded text. -/
structure Base64 where
  encode : List UInt8 → Text
  decode : Text → Option (List UInt8)

def padding (length : ℕ) : Text :=
  if length % 4 = 2 then ['=', '='] else if length % 4 = 3 then ['='] else []

def InAlphabet (c : Char) : Prop :=
  c.isAlphanum = true ∨ c = '+' ∨ c = '/'

structure Base64.RoundTrips (b : Base64) : Prop where
  alphabet : ∀ bs, ∀ c ∈ b.encode bs, InAlphabet c
  nonempty : ∀ bs, bs ≠ [] → b.encode bs ≠ []
  length : ∀ bs, (b.encode bs).length % 4 ≠ 1
  decode : ∀ bs, b.decode (b.encode bs ++ padding (b.encode bs).length) = some bs

section Standard

def alphabet : Text :=
  "ABCDEFGHIJKLMNOPQRSTUVWXYZabcdefghijklmnopqrstuvwxyz0123456789+/"

def digit (v : ℕ) : Char :=
  (alphabet[v]?).getD 'A'

def digitValue (c : Char) : Option ℕ :=
  if c ∈ alphabet then some (alphabet.idxOf c) else none

theorem digitValue_digit : ∀ v < 64, digitValue (digit v) = some v := by
  decide +kernel

theorem digit_inAlphabet : ∀ v < 64, InAlphabet (digit v) := by
  have h : ∀ v < 64, ((digit v).isAlphanum || digit v == '+' || digit v == '/') = true := by
    decide +kernel
  intro v hv
  have := h v hv
  simpa [InAlphabet, or_assoc] using this

def encode : List UInt8 → Text
  | a :: b :: c :: rest =>
    let n := a.toNat * 65536 + b.toNat * 256 + c.toNat
    digit (n / 262144) :: digit (n / 4096 % 64) :: digit (n / 64 % 64) :: digit (n % 64) ::
      encode rest
  | [a, b] =>
    let n := a.toNat * 1024 + b.toNat * 4
    [digit (n / 4096), digit (n / 64 % 64), digit (n % 64)]
  | [a] =>
    let n := a.toNat * 16
    [digit (n / 64), digit (n % 64)]
  | [] => []

/-- One group of four; bits that no byte uses must be zero. -/
def decodeGroup (w x y z : Char) : Option (List UInt8) := do
  let w ← digitValue w
  let x ← digitValue x
  if y = '=' then
    if z = '=' ∧ x % 16 = 0 then some [UInt8.ofNat (w * 4 + x / 16)] else none
  else
    let y ← digitValue y
    let n := w * 4096 + x * 64 + y
    if z = '=' then
      if y % 4 = 0 then some [UInt8.ofNat (n / 1024), UInt8.ofNat (n / 4 % 256)] else none
    else
      let z ← digitValue z
      let n := n * 64 + z
      some [UInt8.ofNat (n / 65536), UInt8.ofNat (n / 256 % 256), UInt8.ofNat (n % 256)]

def decode : Text → Option (List UInt8)
  | w :: x :: y :: z :: rest => do
    let group ← decodeGroup w x y z
    if z = '=' ∧ rest ≠ [] then none
    else
      let tail ← decode rest
      some (group ++ tail)
  | [] => some []
  | _ => none

def standard : Base64 := ⟨encode, decode⟩

theorem digit_ne_pad {v : ℕ} (h : v < 64) : digit v ≠ '=' := by
  have hall : ∀ v < 64, digit v ≠ '=' := by decide +kernel
  exact hall v h

theorem encode_alphabet (bs : List UInt8) : ∀ c ∈ encode bs, InAlphabet c := by
  induction bs using encode.induct with
  | case1 a b c rest ih =>
    have ha := a.toNat_lt
    have hb := b.toNat_lt
    have hc := c.toNat_lt
    intro d hd
    simp only [encode, List.mem_cons] at hd
    rcases hd with rfl | rfl | rfl | rfl | hd
    · exact digit_inAlphabet _ (by omega)
    · exact digit_inAlphabet _ (by omega)
    · exact digit_inAlphabet _ (by omega)
    · exact digit_inAlphabet _ (by omega)
    · exact ih d hd
  | case2 a b =>
    have ha := a.toNat_lt
    have hb := b.toNat_lt
    intro d hd
    simp only [encode, List.mem_cons, List.not_mem_nil, or_false] at hd
    rcases hd with rfl | rfl | rfl
    · exact digit_inAlphabet _ (by omega)
    · exact digit_inAlphabet _ (by omega)
    · exact digit_inAlphabet _ (by omega)
  | case3 a =>
    have ha := a.toNat_lt
    intro d hd
    simp only [encode, List.mem_cons, List.not_mem_nil, or_false] at hd
    rcases hd with rfl | rfl
    · exact digit_inAlphabet _ (by omega)
    · exact digit_inAlphabet _ (by omega)
  | case4 => simp [encode]

theorem decodeGroup_three (a b c : UInt8) :
    let n := a.toNat * 65536 + b.toNat * 256 + c.toNat
    decodeGroup (digit (n / 262144)) (digit (n / 4096 % 64)) (digit (n / 64 % 64))
      (digit (n % 64)) = some [a, b, c] := by
  intro n
  have ha := a.toNat_lt
  have hb := b.toNat_lt
  have hc := c.toNat_lt
  have h₁ : n / 262144 < 64 := by omega
  have h₂ : n / 4096 % 64 < 64 := by omega
  have h₃ : n / 64 % 64 < 64 := by omega
  have h₄ : n % 64 < 64 := by omega
  have hn : (n / 262144 * 4096 + n / 4096 % 64 * 64 + n / 64 % 64) * 64 + n % 64 = n := by omega
  have hx : n / 65536 = a.toNat := by omega
  have hy : n / 256 % 256 = b.toNat := by omega
  have hz : n % 256 = c.toNat := by omega
  simp [decodeGroup, digitValue_digit _ h₁, digitValue_digit _ h₂, digitValue_digit _ h₃,
    digitValue_digit _ h₄, digit_ne_pad h₃, digit_ne_pad h₄, hn, hx, hy, hz]

theorem decodeGroup_two (a b : UInt8) :
    let n := a.toNat * 1024 + b.toNat * 4
    decodeGroup (digit (n / 4096)) (digit (n / 64 % 64)) (digit (n % 64)) '=' = some [a, b] := by
  intro n
  have ha := a.toNat_lt
  have hb := b.toNat_lt
  have h₁ : n / 4096 < 64 := by omega
  have h₂ : n / 64 % 64 < 64 := by omega
  have h₃ : n % 64 < 64 := by omega
  have hn : n / 4096 * 4096 + n / 64 % 64 * 64 + n % 64 = n := by omega
  have hbits : n % 64 % 4 = 0 := by omega
  have hx : n / 1024 = a.toNat := by omega
  have hy : n / 4 % 256 = b.toNat := by omega
  simp [decodeGroup, digitValue_digit _ h₁, digitValue_digit _ h₂, digitValue_digit _ h₃,
    digit_ne_pad h₃, hn, hbits, hx, hy]

theorem decodeGroup_one (a : UInt8) :
    let n := a.toNat * 16
    decodeGroup (digit (n / 64)) (digit (n % 64)) '=' '=' = some [a] := by
  intro n
  have ha := a.toNat_lt
  have h₁ : n / 64 < 64 := by omega
  have h₂ : n % 64 < 64 := by omega
  have hbits : n % 64 % 16 = 0 := by omega
  have hx : n / 64 * 4 + n % 64 / 16 = a.toNat := by omega
  simp [decodeGroup, digitValue_digit _ h₁, digitValue_digit _ h₂, hbits, hx, -UInt8.ofNat_add]

theorem decode_encode (bs : List UInt8) :
    decode (encode bs ++ padding (encode bs).length) = some bs := by
  induction bs using encode.induct with
  | case1 a b c rest ih =>
    have hpad : padding ((encode rest).length + 1 + 1 + 1 + 1) = padding (encode rest).length := by
      simp only [padding]
      have hmod : ((encode rest).length + 1 + 1 + 1 + 1) % 4 = (encode rest).length % 4 := by omega
      rw [hmod]
    have hne : digit ((a.toNat * 65536 + b.toNat * 256 + c.toNat) % 64) ≠ '=' :=
      digit_ne_pad (by omega)
    have hgroup := decodeGroup_three a b c
    simp only [encode, List.cons_append, List.length_cons, hpad, decode]
    rw [hgroup]
    simp [hne, ih]
  | case2 a b =>
    have hgroup := decodeGroup_two a b
    simp only [encode, padding, List.cons_append, List.nil_append, List.length_cons,
      List.length_nil, Nat.reduceAdd, Nat.reduceMod, Nat.reduceEqDiff, if_false, if_true, decode]
    rw [hgroup]
    simp
  | case3 a =>
    have hgroup := decodeGroup_one a
    simp only [encode, padding, List.cons_append, List.nil_append, List.length_cons,
      List.length_nil, Nat.reduceAdd, Nat.reduceMod, if_true, decode]
    rw [hgroup]
    simp
  | case4 => rfl

theorem standard_roundTrips : standard.RoundTrips where
  alphabet := encode_alphabet
  nonempty bs h := by
    match bs with
    | [] => exact absurd rfl h
    | [a] => simp [standard, encode]
    | [a, b] => simp [standard, encode]
    | a :: b :: c :: rest => simp [standard, encode]
  length bs := by
    change (encode bs).length % 4 ≠ 1
    induction bs using encode.induct with
    | case1 a b c rest ih =>
      simp only [encode, List.length_cons]
      omega
    | case2 a b => simp [encode]
    | case3 a => simp [encode]
    | case4 => simp [encode]
  decode := decode_encode

end Standard

end Base64Text
