import Mathlib

/-!
Text as Rust's `str` sees it: a sequence of scalar values with an explicit UTF-8 image.
The string operations that the program takes from the standard library are defined on that
sequence.
-/

namespace RustText

/-- The scalar values of a `str`. -/
abbrev Text := List Char

instance : Coe String Text := ⟨String.toList⟩

instance : LawfulBEq Text := inferInstance

/-- A property of the scalar values of a text is tested on these, not on all scalar values. -/
instance (t : Text) (p : Char → Prop) [DecidablePred p] : Decidable (∀ c ∈ t, p c) :=
  List.decidableBAll p t

def bytes (t : Text) : List UInt8 :=
  t.flatMap String.utf8EncodeChar

@[simp] theorem bytes_nil : bytes [] = [] := rfl

@[simp] theorem bytes_cons (c : Char) (t : Text) :
    bytes (c :: t) = String.utf8EncodeChar c ++ bytes t := rfl

@[simp] theorem bytes_append (s t : Text) : bytes (s ++ t) = bytes s ++ bytes t := by
  simp [bytes]

theorem bytes_injective : Function.Injective bytes := by
  intro s t h
  have hencode : s.utf8Encode = t.utf8Encode := congrArg List.toByteArray h
  simpa using congrArg ByteArray.utf8Decode? hencode

theorem forall_byte {P : UInt8 → Prop} (h : ∀ n : Fin 256, P (UInt8.ofFin n)) : ∀ b, P b :=
  fun b => h b.toFin

/-- The decimal image of a number, `to_string`. -/
def decimal (n : ℕ) : Text :=
  Nat.toDigits 10 n

theorem isDigit_of_mem_decimal {n : ℕ} {c : Char} (h : c ∈ decimal n) : c.isDigit = true :=
  Nat.isDigit_of_mem_toDigits (by decide) (by decide) h

theorem decimal_injective : Function.Injective decimal := by
  intro m n h
  have hread := congrArg (fun t => Nat.ofDigitChars 10 t 0) h
  simpa [decimal, Nat.ofDigitChars_toDigits] using hread

/-- `{b:02X}`: two upper-case hexadecimal digits. -/
def upperHex (b : UInt8) : Text :=
  [(Nat.digitChar (b.toNat / 16)).toUpper, (Nat.digitChar (b.toNat % 16)).toUpper]

/-- `{b:02x}`: two lower-case hexadecimal digits. -/
def lowerHex (b : UInt8) : Text :=
  [Nat.digitChar (b.toNat / 16), Nat.digitChar (b.toNat % 16)]

/-- The value of a hexadecimal digit of either case. -/
def hexValue (c : Char) : Option ℕ :=
  if c.isDigit then some (c.toNat - 48)
  else if 'a' ≤ c ∧ c ≤ 'f' then some (c.toNat - 87)
  else if 'A' ≤ c ∧ c ≤ 'F' then some (c.toNat - 55)
  else none

def hexByte (hi lo : Char) : Option UInt8 :=
  match hexValue hi, hexValue lo with
  | some h, some l => some (UInt8.ofNat (16 * h + l))
  | _, _ => none

theorem hexByte_upperHex : ∀ b : UInt8,
    ∃ hi lo, upperHex b = [hi, lo] ∧ hexByte hi lo = some b := by
  have h : ∀ b : UInt8, hexByte (Nat.digitChar (b.toNat / 16)).toUpper
      (Nat.digitChar (b.toNat % 16)).toUpper = some b := forall_byte (by decide +kernel)
  exact fun b => ⟨_, _, rfl, h b⟩

theorem hexByte_lowerHex : ∀ b : UInt8,
    ∃ hi lo, lowerHex b = [hi, lo] ∧ hexByte hi lo = some b := by
  have h : ∀ b : UInt8, hexByte (Nat.digitChar (b.toNat / 16))
      (Nat.digitChar (b.toNat % 16)) = some b := forall_byte (by decide +kernel)
  exact fun b => ⟨_, _, rfl, h b⟩

def toAsciiLowercase (t : Text) : Text :=
  t.map Char.toLower

@[simp] theorem toAsciiLowercase_nil : toAsciiLowercase [] = [] := rfl

@[simp] theorem toAsciiLowercase_append (s t : Text) :
    toAsciiLowercase (s ++ t) = toAsciiLowercase s ++ toAsciiLowercase t := by
  simp [toAsciiLowercase]

theorem toAsciiLowercase_eq_nil {t : Text} : toAsciiLowercase t = [] ↔ t = [] := by
  simp [toAsciiLowercase]

def eqIgnoreAsciiCase (s t : Text) : Bool :=
  toAsciiLowercase s == toAsciiLowercase t

/-- `char::is_whitespace`: the scalar values with the Unicode property White_Space. -/
def isWhitespace (c : Char) : Bool :=
  let n := c.toNat
  (0x9 ≤ n && n ≤ 0xD) || n == 0x20 || n == 0x85 || n == 0xA0 || n == 0x1680 ||
    (0x2000 ≤ n && n ≤ 0x200A) || n == 0x2028 || n == 0x2029 || n == 0x202F || n == 0x205F ||
    n == 0x3000

def isControl (c : Char) : Bool :=
  let n := c.toNat
  n ≤ 0x1F || (0x7F ≤ n && n ≤ 0x9F)

def trimStart (t : Text) : Text :=
  t.dropWhile isWhitespace

def trimEnd (t : Text) : Text :=
  t.rdropWhile isWhitespace

def trim (t : Text) : Text :=
  trimEnd (trimStart t)

def trimEndMatches (c : Char) (t : Text) : Text :=
  t.rdropWhile (· == c)

/-- A text with no white space at either end. -/
def Trimmed (t : Text) : Prop :=
  (∀ c, t.head? = some c → isWhitespace c = false) ∧
    ∀ c, t.getLast? = some c → isWhitespace c = false

theorem trimStart_eq_self {t : Text} (h : ∀ c, t.head? = some c → isWhitespace c = false) :
    trimStart t = t := by
  cases t with
  | nil => rfl
  | cons c t => simp [trimStart, h c rfl]

theorem trimEnd_eq_self {t : Text} (h : ∀ c, t.getLast? = some c → isWhitespace c = false) :
    trimEnd t = t := by
  rcases List.eq_nil_or_concat t with rfl | ⟨s, c, rfl⟩
  · rfl
  · rw [List.concat_eq_append] at h ⊢
    exact List.rdropWhile_concat_neg _ _ _ (by simp [h c (by simp)])

theorem trim_eq_self {t : Text} (h : Trimmed t) : trim t = t := by
  rw [trim, trimStart_eq_self h.1, trimEnd_eq_self h.2]

theorem trimmed_trim (t : Text) : Trimmed (trim t) := by
  constructor
  · intro c hc
    obtain ⟨rest, hrest⟩ := List.rdropWhile_prefix isWhitespace (trimStart t)
    have hstart : (trimStart t).head? = some c := by
      rw [← hrest, List.head?_append]
      exact Option.or_eq_some_iff.mpr (.inl hc)
    have hnot := List.head?_dropWhile_not isWhitespace t
    change (t.dropWhile isWhitespace).head? = some c at hstart
    rw [hstart] at hnot
    exact hnot
  · intro c hc
    have hne : trim t ≠ [] := by
      intro h
      rw [h] at hc
      cases hc
    have hlast := List.rdropWhile_last_not isWhitespace (trimStart t) hne
    rw [List.getLast?_eq_some_getLast hne] at hc
    rw [← Option.some.inj hc]
    exact Bool.eq_false_iff.mpr hlast

theorem trim_trim (t : Text) : trim (trim t) = trim t :=
  trim_eq_self (trimmed_trim t)

/-- Trimming stops at the last character that is no white space. -/
theorem trimEnd_append_cons {c : Char} (hc : isWhitespace c = false) (a b : Text) :
    trimEnd (a ++ c :: b) = a ++ c :: trimEnd b := by
  induction b using List.reverseRecOn with
  | nil => exact List.rdropWhile_concat_neg _ _ _ (by simp [hc])
  | append_singleton b d ih =>
    have hassoc : a ++ c :: (b ++ [d]) = (a ++ c :: b) ++ [d] := by simp
    rw [hassoc]
    by_cases hd : isWhitespace d = true
    · rw [trimEnd, List.rdropWhile_concat_pos _ _ _ hd, trimEnd,
        List.rdropWhile_concat_pos _ _ _ hd]
      exact ih
    · rw [trimEnd, List.rdropWhile_concat_neg _ _ _ hd, trimEnd,
        List.rdropWhile_concat_neg _ _ _ hd]
      simp

theorem trimEnd_sublist (t : Text) : ∀ c ∈ trimEnd t, c ∈ t :=
  fun _ hc => (List.rdropWhile_prefix _ t).subset hc

theorem bytes_trimEnd_le (t : Text) : (bytes (trimEnd t)).length ≤ (bytes t).length := by
  obtain ⟨rest, hrest⟩ := List.rdropWhile_prefix isWhitespace t
  have hlength := congrArg (fun s => (bytes s).length) hrest
  simp only [bytes_append, List.length_append] at hlength
  exact Nat.le_of_add_right_le (Nat.le_of_eq hlength)

theorem bytes_trim_le (t : Text) : (bytes (trim t)).length ≤ (bytes t).length := by
  refine (bytes_trimEnd_le (trimStart t)).trans ?_
  have hparts := congrArg (fun s => (bytes s).length)
    (List.takeWhile_append_dropWhile (p := isWhitespace) (l := t))
  simp only [bytes_append, List.length_append] at hparts
  exact Nat.le_of_add_left_le (Nat.le_of_eq hparts)

section Splitting

variable {c : Char} {s t a b : Text}

/-- `split_once` at the first occurrence of a character. -/
def splitOnce (c : Char) : Text → Option (Text × Text)
  | [] => none
  | d :: t => if d = c then some ([], t) else (splitOnce c t).map fun p => (d :: p.1, p.2)

/-- `rsplit_once` at the last occurrence of a character. -/
def rsplitOnce (c : Char) (t : Text) : Option (Text × Text) :=
  (splitOnce c t.reverse).map fun p => (p.2.reverse, p.1.reverse)

/-- `split_once` at the first occurrence of a pattern. -/
def splitOnceStr (pattern : Text) : Text → Option (Text × Text)
  | [] => if pattern = [] then some ([], []) else none
  | c :: t =>
    if pattern.isPrefixOf (c :: t) then some ([], (c :: t).drop pattern.length)
    else (splitOnceStr pattern t).map fun p => (c :: p.1, p.2)

theorem splitOnce_append (h : c ∉ a) : splitOnce c (a ++ c :: b) = some (a, b) := by
  induction a with
  | nil => simp [splitOnce]
  | cons d a ih =>
    have hd : d ≠ c := fun hdc => h (hdc ▸ List.mem_cons_self)
    simp [splitOnce, hd, ih (List.not_mem_of_not_mem_cons h)]

theorem splitOnce_eq_none (h : c ∉ t) : splitOnce c t = none := by
  induction t with
  | nil => rfl
  | cons d t ih =>
    have hd : d ≠ c := fun hdc => h (hdc ▸ List.mem_cons_self)
    simp [splitOnce, hd, ih (List.not_mem_of_not_mem_cons h)]

theorem splitOnce_eq_some (h : splitOnce c t = some (a, b)) : t = a ++ c :: b ∧ c ∉ a := by
  induction t generalizing a b with
  | nil => simp [splitOnce] at h
  | cons d t ih =>
    unfold splitOnce at h
    split_ifs at h with hd
    · obtain ⟨rfl, rfl⟩ : [] = a ∧ t = b := by simpa using h
      simp [hd]
    · obtain ⟨⟨a', b'⟩, hrest, heq⟩ := Option.map_eq_some_iff.mp h
      obtain ⟨rfl, rfl⟩ := Prod.mk.inj heq
      obtain ⟨rfl, hnot⟩ := ih hrest
      exact ⟨rfl, by simpa [Ne.symm hd] using hnot⟩

theorem splitOnce_eq_none_iff : splitOnce c t = none ↔ c ∉ t := by
  refine ⟨fun h hc => ?_, splitOnce_eq_none⟩
  obtain ⟨a, b, rfl, hnot⟩ := List.eq_append_cons_of_mem hc
  simp [splitOnce_append hnot] at h

theorem rsplitOnce_append (h : c ∉ b) : rsplitOnce c (a ++ c :: b) = some (a, b) := by
  have hrev : (a ++ c :: b).reverse = b.reverse ++ c :: a.reverse := by simp
  rw [rsplitOnce, hrev, splitOnce_append (by simpa using h)]
  simp

theorem rsplitOnce_eq_none (h : c ∉ t) : rsplitOnce c t = none := by
  rw [rsplitOnce, splitOnce_eq_none (by simpa using h), Option.map_none]

theorem rsplitOnce_eq_some (h : rsplitOnce c t = some (a, b)) : t = a ++ c :: b ∧ c ∉ b := by
  obtain ⟨⟨b', a'⟩, hrev, heq⟩ := Option.map_eq_some_iff.mp h
  obtain ⟨rfl, rfl⟩ := Prod.mk.inj heq
  obtain ⟨htext, hnot⟩ := splitOnce_eq_some hrev
  refine ⟨?_, by simpa using hnot⟩
  rw [← List.reverse_reverse t, htext]
  simp

theorem splitOnceStr_append {pattern : Text} (h : c ∉ a) :
    splitOnceStr (c :: pattern) (a ++ (c :: pattern ++ b)) = some (a, b) := by
  induction a with
  | nil => simp [splitOnceStr, List.isPrefixOf_iff_prefix]
  | cons d a ih =>
    have hd : c ≠ d := fun hdc => h (hdc ▸ List.mem_cons_self)
    have hpattern : (c :: pattern).isPrefixOf (d :: (a ++ (c :: pattern ++ b))) = false := by
      simp [List.isPrefixOf, hd]
    rw [List.cons_append, splitOnceStr, hpattern, ih (List.not_mem_of_not_mem_cons h)]
    rfl

end Splitting

section Fallible

universe u v

variable {ε : Type u} {α β : Type v}

/-- An early return of an error. -/
def ensure (p : Prop) [Decidable p] (e : ε) : Except ε Unit :=
  if p then .ok () else .error e

theorem ensure_eq_ok {p : Prop} [Decidable p] {e : ε} {u : Unit} : ensure p e = .ok u ↔ p := by
  unfold ensure
  split <;> simp [*]

theorem toOption_eq_some {x : Except ε α} {a : α} : x.toOption = some a ↔ x = .ok a := by
  cases x <;> simp [Except.toOption]

theorem bind_eq_ok {x : Except ε α} {f : α → Except ε β} {b : β} :
    (x >>= f) = .ok b ↔ ∃ a, x = .ok a ∧ f a = .ok b := by
  cases x with
  | error e => simp [bind, Except.bind]
  | ok a => simp [bind, Except.bind]

theorem elim_eq_ok {e : ε} {x : Option α} {a : α} :
    x.elim (.error e) Except.ok = .ok a ↔ x = some a := by
  cases x <;> simp

theorem mapError_eq_ok {δ : Type} {f : ε → δ} {x : Except ε α} {a : α} :
    x.mapError f = .ok a ↔ x = .ok a := by
  cases x <;> simp [Except.mapError]

theorem mapM_eq_ok {f : α → Except ε β} {l : List α} {m : List β} :
    l.mapM f = .ok m ↔ List.Forall₂ (fun a b => f a = .ok b) l m := by
  induction l generalizing m with
  | nil => cases m <;> simp [pure, Except.pure]
  | cons a l ih =>
    rw [List.mapM_cons, bind_eq_ok]
    constructor
    · rintro ⟨b, hb, hrest⟩
      obtain ⟨bs, hbs, heq⟩ := bind_eq_ok.mp hrest
      obtain rfl := Except.ok.inj heq
      exact .cons hb (ih.mp hbs)
    · rintro (_ | ⟨hb, hbs⟩)
      exact ⟨_, hb, bind_eq_ok.mpr ⟨_, ih.mpr hbs, rfl⟩⟩

theorem mapM_map {γ : Type v} {f : α → Except ε γ} {g : α → Except ε β} {h : β → γ} {l : List α}
    (heq : ∀ a ∈ l, f a = (g a).map h) : l.mapM f = (l.mapM g).map (List.map h) := by
  induction l with
  | nil => rfl
  | cons a l ih =>
    rw [List.mapM_cons, List.mapM_cons, heq a List.mem_cons_self,
      ih fun b hb => heq b (List.mem_cons_of_mem a hb)]
    cases g a with
    | error e => rfl
    | ok b => cases l.mapM g <;> rfl

theorem forM_eq_ok {f : α → Except ε PUnit.{v + 1}} {l : List α} :
    l.forM f = .ok ⟨⟩ ↔ ∀ a ∈ l, f a = .ok ⟨⟩ := by
  induction l with
  | nil => simp [pure, Except.pure]
  | cons a l ih =>
    have hcons : (a :: l).forM f = (f a >>= fun _ => l.forM f) := rfl
    rw [hcons, bind_eq_ok, List.forall_mem_cons, ← ih]
    exact ⟨fun ⟨_, ha, hl⟩ => ⟨ha, hl⟩, fun ⟨ha, hl⟩ => ⟨_, ha, hl⟩⟩

theorem exists_of_mem_mapM {f : α → Except ε β} {l : List α} {m : List β} (h : l.mapM f = .ok m)
    {b : β} (hb : b ∈ m) : ∃ a ∈ l, f a = .ok b := by
  have hall := mapM_eq_ok.mp h
  clear h
  induction hall with
  | nil => simp at hb
  | cons hab _ ih =>
    rcases List.mem_cons.mp hb with rfl | hb
    · exact ⟨_, List.mem_cons_self, hab⟩
    · obtain ⟨a, ha, heq⟩ := ih hb
      exact ⟨a, List.mem_cons_of_mem _ ha, heq⟩

end Fallible

/-- `str::parse::<u16>`: an optional plus sign and decimal digits. -/
def parseU16 (t : Text) : Option UInt16 :=
  let digits := if t.head? = some '+' then t.tail else t
  if digits = [] ∨ digits.any (fun c => !c.isDigit) then none
  else
    let n := Nat.ofDigitChars 10 digits 0
    if n < 65536 then some (UInt16.ofNat n) else none

theorem parseU16_decimal (port : UInt16) : parseU16 (decimal port.toNat) = some port := by
  have hdigits : ∀ c ∈ decimal port.toNat, c.isDigit = true := fun c => isDigit_of_mem_decimal
  have hne : decimal port.toNat ≠ [] := Nat.toDigits_ne_nil
  have hplus : (decimal port.toNat).head? ≠ some '+' := by
    intro h
    exact absurd (hdigits '+' (List.mem_of_mem_head? h)) (by decide)
  have hvalue : Nat.ofDigitChars 10 (decimal port.toNat) 0 = port.toNat :=
    Nat.ofDigitChars_toDigits (by decide) (by decide)
  have hall : ((decimal port.toNat).any fun c => !c.isDigit) = false := by
    simpa using hdigits
  simp only [parseU16, if_neg hplus, hne, hall, hvalue, Bool.false_eq_true, or_self, if_false,
    port.toNat_lt, if_true, Option.some.injEq]
  exact UInt16.ofNat_toNat

/-- `str::parse` for an unsigned integer type: an optional plus sign and decimal digits. -/
def parseUnsigned (bound : ℕ) (t : Text) : Option ℕ :=
  let digits := if t.head? = some '+' then t.tail else t
  if digits = [] ∨ digits.any (fun c => !c.isDigit) then none
  else
    let n := Nat.ofDigitChars 10 digits 0
    if n < bound then some n else none

theorem parseUnsigned_decimal {n bound : ℕ} (h : n < bound) :
    parseUnsigned bound (decimal n) = some n := by
  have hdigits : ∀ c ∈ decimal n, c.isDigit = true := fun c => isDigit_of_mem_decimal
  have hne : decimal n ≠ [] := Nat.toDigits_ne_nil
  have hplus : (decimal n).head? ≠ some '+' := by
    intro hhead
    exact absurd (hdigits '+' (List.mem_of_mem_head? hhead)) (by decide)
  have hvalue : Nat.ofDigitChars 10 (decimal n) 0 = n :=
    Nat.ofDigitChars_toDigits (by decide) (by decide)
  have hall : ((decimal n).any fun c => !c.isDigit) = false := by
    simpa using hdigits
  simp only [parseUnsigned, if_neg hplus, hne, hall, hvalue, Bool.false_eq_true, or_self, if_false,
    h, if_true]

theorem parseUnsigned_lt {n bound : ℕ} {t : Text} (h : parseUnsigned bound t = some n) :
    n < bound := by
  unfold parseUnsigned at h
  dsimp only at h
  generalize (if t.head? = some '+' then t.tail else t) = digits at h
  split_ifs at h with hdigits hlt
  exact Option.some.inj h ▸ hlt

theorem isDigit_not_white {c : Char} (h : c.isDigit = true) : isWhitespace c = false := by
  have hrange := Char.isDigit_iff_toNat.mp h
  have hlo : 48 ≤ c.toNat := hrange.1
  have hhi : c.toNat ≤ 57 := hrange.2
  simp only [isWhitespace, Bool.or_eq_false_iff, Bool.and_eq_false_iff, beq_eq_false_iff_ne,
    decide_eq_false_iff_not]
  omega

theorem trimStart_decimal (n : ℕ) : trimStart (decimal n) = decimal n :=
  trimStart_eq_self fun _ hc => isDigit_not_white (isDigit_of_mem_decimal (List.mem_of_mem_head? hc))

theorem trim_decimal (n : ℕ) : trim (decimal n) = decimal n := by
  apply trim_eq_self
  constructor
  · exact fun c hc => isDigit_not_white (isDigit_of_mem_decimal (List.mem_of_mem_head? hc))
  · exact fun c hc => isDigit_not_white (isDigit_of_mem_decimal (List.mem_of_getLast? hc))

def parseU64 : Text → Option ℕ := parseUnsigned (2 ^ 64)

def parseU32 : Text → Option ℕ := parseUnsigned (2 ^ 32)

def parseI64 : Text → Option ℤ
  | '-' :: digits =>
    if digits.head? = some '+' then none
    else (parseUnsigned (2 ^ 63 + 1) digits).map fun n => -Int.ofNat n
  | t => (parseUnsigned (2 ^ 63) t).map Int.ofNat

/-- `to_string` of a signed integer. -/
def decimalInt (z : ℤ) : Text :=
  if z < 0 then '-' :: decimal z.natAbs else decimal z.natAbs

theorem parseI64_range {t : Text} {z : ℤ} (h : parseI64 t = some z) :
    -2 ^ 63 ≤ z ∧ z ≤ 2 ^ 63 - 1 := by
  unfold parseI64 at h
  split at h
  · split_ifs at h
    obtain ⟨n, hn, rfl⟩ := Option.map_eq_some_iff.mp h
    have hlt := parseUnsigned_lt hn
    simp only [Int.ofNat_eq_natCast]
    omega
  · obtain ⟨n, hn, rfl⟩ := Option.map_eq_some_iff.mp h
    have hlt := parseUnsigned_lt hn
    simp only [Int.ofNat_eq_natCast]
    omega

theorem decimal_head (n : ℕ) {c : Char} (h : (decimal n).head? = some c) : c.isDigit = true :=
  isDigit_of_mem_decimal (List.mem_of_mem_head? h)

theorem parseI64_decimalInt {z : ℤ} (h : -2 ^ 63 ≤ z ∧ z ≤ 2 ^ 63 - 1) :
    parseI64 (decimalInt z) = some z := by
  unfold decimalInt
  split_ifs with hneg
  · have hplus : (decimal z.natAbs).head? ≠ some '+' := fun hhead =>
      absurd (decimal_head _ hhead) (by decide)
    have hbound : z.natAbs < 2 ^ 63 + 1 := by omega
    rw [parseI64, if_neg hplus, parseUnsigned_decimal hbound, Option.map_some, Option.some.injEq,
      Int.ofNat_eq_natCast]
    omega
  · have hbound : z.natAbs < 2 ^ 63 := by omega
    have hminus : ∀ digits, decimal z.natAbs ≠ '-' :: digits := fun digits heq =>
      absurd (decimal_head z.natAbs (by rw [heq]; rfl)) (by decide)
    unfold parseI64
    split
    next digits heq => exact absurd heq (hminus digits)
    next =>
      rw [parseUnsigned_decimal hbound, Option.map_some, Option.some.injEq, Int.ofNat_eq_natCast]
      omega

theorem trim_decimalInt (z : ℤ) : trim (decimalInt z) = decimalInt z := by
  unfold decimalInt
  split_ifs
  · refine trim_eq_self ⟨fun c hc => ?_, fun c hc => ?_⟩
    · obtain rfl := Option.some.inj hc
      decide
    · have hmem := List.mem_of_getLast? hc
      rcases List.mem_cons.mp hmem with rfl | hdigit
      · decide
      · exact isDigit_not_white (isDigit_of_mem_decimal hdigit)
  · exact trim_decimal _

theorem decimalInt_ne_nil (z : ℤ) : decimalInt z ≠ [] := by
  unfold decimalInt
  split_ifs
  · exact List.cons_ne_nil _ _
  · exact Nat.toDigits_ne_nil

theorem visible_not_white {c : Char} (h : 0x21 ≤ c.toNat ∧ c.toNat ≤ 0x7E) :
    isWhitespace c = false := by
  obtain ⟨hlo, hhi⟩ := h
  simp only [isWhitespace, Bool.or_eq_false_iff, Bool.and_eq_false_iff, beq_eq_false_iff_ne,
    decide_eq_false_iff_not]
  omega

theorem length_trim_le (t : Text) : (trim t).length ≤ t.length :=
  (List.rdropWhile_prefix _ _).length_le.trans (List.dropWhile_sublist _).length_le

end RustText
