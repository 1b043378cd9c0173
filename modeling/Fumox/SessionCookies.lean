import Fumox.ProxyFingerprint

/-!
Session cookies of the admin panel: an expiry under a keyed digest, whose key is mixed with the
revocation epoch, and the epoch as a counter in a row of text.
-/

namespace SessionCookies

open RustText ProxyFingerprint

section Cookies

variable (hmac : List UInt8 → List UInt8 → List UInt8)

def macHex (key : List UInt8) (message : Text) : Text :=
  toHex (hmac key (bytes message))

def beBytes (epoch : ℕ) : List UInt8 :=
  [56, 48, 40, 32, 24, 16, 8, 0].map fun shift => UInt8.ofNat (epoch / 2 ^ shift)

def epochSessionKey (key : List UInt8) (epoch : ℕ) : List UInt8 :=
  hmac key (beBytes epoch)

/-- `{expires}.{mac}`. -/
def issueSession (key : List UInt8) (ttl : ℕ) (epoch : ℕ) (now : ℤ) : Text :=
  let expires := decimalInt (now + ttl)
  expires ++ '.' :: macHex hmac (epochSessionKey hmac key epoch) expires

def verifySession (key : List UInt8) (value : Text) (epoch : ℕ) (now : ℤ) : Option ℤ := do
  let (expires, provided) ← splitOnce '.' value
  let expiresTs ← parseI64 expires
  if expiresTs ≤ now then none
  else if macHex hmac (epochSessionKey hmac key epoch) expires = provided then some expiresTs
  else none

/-- Two keys or two messages never share a digest. -/
def CollisionFree : Prop :=
  ∀ k k' m m', hmac k m = hmac k' m' → k = k' ∧ m = m'

variable {hmac} {key : List UInt8} {epoch epoch' : ℕ}

theorem mod_eq_of_bytes {a b : ℕ} (k : ℕ)
    (h : ∀ i < k, a / 2 ^ (8 * i) % 256 = b / 2 ^ (8 * i) % 256) :
    a % 2 ^ (8 * k) = b % 2 ^ (8 * k) := by
  induction k with
  | zero => rw [Nat.mul_zero, Nat.pow_zero, Nat.mod_one, Nat.mod_one]
  | succ k ih =>
    have hpow : 2 ^ (8 * (k + 1)) = 2 ^ (8 * k) * 256 := by rw [Nat.mul_succ, Nat.pow_add]
    rw [hpow, Nat.mod_mul, Nat.mod_mul, ih fun i hi => h i (by omega), h k (by omega)]

theorem beBytes_injective (h : epoch < 2 ^ 64) (h' : epoch' < 2 ^ 64)
    (heq : beBytes epoch = beBytes epoch') : epoch = epoch' := by
  have hbyte : ∀ shift ∈ [56, 48, 40, 32, 24, 16, 8, 0],
      epoch / 2 ^ shift % 256 = epoch' / 2 ^ shift % 256 := by
    intro shift hshift
    have hsame := List.map_inj_left.mp heq shift hshift
    have htoNat := congrArg UInt8.toNat hsame
    rwa [UInt8.toNat_ofNat', UInt8.toNat_ofNat'] at htoNat
  have hmod := mod_eq_of_bytes 8 fun i hi => hbyte (8 * i) (by simp; omega)
  rwa [Nat.mod_eq_of_lt h, Nat.mod_eq_of_lt h'] at hmod

theorem macHex_injective (hfree : CollisionFree hmac) {k k' : List UInt8} {message : Text}
    (h : macHex hmac k message = macHex hmac k' message) : k = k' :=
  (hfree _ _ _ _ (toHex_injective h)).1

theorem dot_not_mem_decimalInt (z : ℤ) : '.' ∉ decimalInt z := by
  have hdigits : ∀ n : ℕ, '.' ∉ decimal n := fun n h => absurd (isDigit_of_mem_decimal h) (by decide)
  unfold decimalInt
  split
  · intro h
    rcases List.mem_cons.mp h with h | h
    · exact absurd h (by decide)
    · exact hdigits _ h
  · exact hdigits _

theorem epoch_of_verify (hfree : CollisionFree hmac) {ttl : ℕ} {now now' expires : ℤ}
    (h : epoch < 2 ^ 64) (h' : epoch' < 2 ^ 64)
    (hverify : verifySession hmac key (issueSession hmac key ttl epoch now) epoch' now' =
      some expires) : epoch' = epoch := by
  have hsplit : splitOnce '.' (issueSession hmac key ttl epoch now) =
      some (decimalInt (now + ttl),
        macHex hmac (epochSessionKey hmac key epoch) (decimalInt (now + ttl))) :=
    splitOnce_append (dot_not_mem_decimalInt _)
  rw [verifySession, hsplit, Option.bind_eq_bind, Option.bind_some] at hverify
  obtain ⟨expiresTs, -, hmac_eq⟩ := Option.bind_eq_some_iff.mp hverify
  by_cases hpast : expiresTs ≤ now'
  · rw [if_pos hpast] at hmac_eq
    cases hmac_eq
  · rw [if_neg hpast] at hmac_eq
    by_cases hmac_same : macHex hmac (epochSessionKey hmac key epoch') (decimalInt (now + ttl)) =
        macHex hmac (epochSessionKey hmac key epoch) (decimalInt (now + ttl))
    · have hkey := macHex_injective hfree hmac_same
      exact beBytes_injective h' h (hfree _ _ _ _ hkey).2
    · rw [if_neg hmac_same] at hmac_eq
      cases hmac_eq

end Cookies

section Epoch

/-- What a read of the row brings: an error, or the row. A failed read and a value that is no
number are epoch 0. -/
def sessionEpoch : Option (Option Text) → ℕ
  | some (some value) => (parseU64 (trim value)).getD 0
  | some none => 0
  | none => 0

def leadingNumber (t : Text) : ℕ :=
  Nat.ofDigitChars 10 (t.takeWhile Char.isDigit) 0

def castInteger (value : Text) : ℤ :=
  match trimStart value with
  | '-' :: t => max (-2 ^ 63) (-(leadingNumber t : ℤ))
  | '+' :: t => min (2 ^ 63 - 1) (leadingNumber t : ℤ)
  | t => min (2 ^ 63 - 1) (leadingNumber t : ℤ)

/-- The sum becomes a floating point number when it leaves 64 bits. -/
def metaIncrement : Option Text → Text
  | none => "1"
  | some value =>
    if castInteger value = 2 ^ 63 - 1 then "9.22337203685478e+18"
    else decimalInt (castInteger value + 1)

def EpochRow (n : ℕ) (row : Option Text) : Prop :=
  n < 2 ^ 63 ∧ (row = some (decimal n) ∨ (row = none ∧ n = 0))

variable {n : ℕ} {row : Option Text}

theorem leadingNumber_decimal (n : ℕ) : leadingNumber (decimal n) = n := by
  have hall : (decimal n).takeWhile Char.isDigit = decimal n := by
    rw [List.takeWhile_eq_self_iff]
    exact fun c hc => isDigit_of_mem_decimal hc
  rw [leadingNumber, hall]
  exact Nat.ofDigitChars_toDigits (by decide) (by decide)

theorem castInteger_decimal (h : n < 2 ^ 63) : castInteger (decimal n) = n := by
  have hsign : ∀ c ∈ decimal n, c ≠ '-' ∧ c ≠ '+' := by
    intro c hc
    have hdigit := isDigit_of_mem_decimal hc
    constructor <;> rintro rfl <;> exact absurd hdigit (by decide)
  have hnumber := leadingNumber_decimal n
  rw [castInteger, trimStart_decimal]
  split
  next t ht => exact absurd rfl (hsign '-' (ht ▸ List.mem_cons_self)).1
  next t ht => exact absurd rfl (hsign '+' (ht ▸ List.mem_cons_self)).2
  next =>
    rw [hnumber]
    omega

theorem sessionEpoch_row (h : EpochRow n row) : sessionEpoch (some row) = n := by
  obtain ⟨hlt, rfl | ⟨rfl, rfl⟩⟩ := h
  · have hparse : parseU64 (decimal n) = some n := parseUnsigned_decimal (by omega)
    rw [sessionEpoch, trim_decimal, hparse]
    rfl
  · rfl

theorem EpochRow.increment (h : EpochRow n row) (hroom : n + 1 < 2 ^ 63) :
    EpochRow (n + 1) (some (metaIncrement row)) := by
  obtain ⟨hlt, rfl | ⟨rfl, rfl⟩⟩ := h
  · have hcast := castInteger_decimal hlt
    have hne : castInteger (decimal n) ≠ 2 ^ 63 - 1 := by
      rw [hcast]
      omega
    have hnext : decimalInt ((n : ℤ) + 1) = decimal (n + 1) := by
      rw [decimalInt, if_neg (by omega)]
      rfl
    refine ⟨hroom, .inl ?_⟩
    rw [metaIncrement, if_neg hne, hcast, hnext]
  · exact ⟨hroom, .inl rfl⟩

end Epoch

end SessionCookies
