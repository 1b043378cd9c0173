import Fumox.RustText

/-!
UTF-8 decoding of arbitrary bytes and the percent encoding of text.  Decoding is total: bytes that
are no text become replacement characters, so only encoded text is read back unchanged.
-/

namespace PercentText

open RustText

section Utf8

def isContinuation (b : UInt8) : Bool :=
  0x80 ≤ b && b ≤ 0xBF

/-- Whether `second` may follow the lead byte `first` of a longer sequence. -/
def validSecond (first second : UInt8) : Bool :=
  if first = 0xE0 then 0xA0 ≤ second && second ≤ 0xBF
  else if first = 0xED then 0x80 ≤ second && second ≤ 0x9F
  else if first = 0xF0 then 0x90 ≤ second && second ≤ 0xBF
  else if first = 0xF4 then 0x80 ≤ second && second ≤ 0x8F
  else isContinuation second

/-- The length of the maximal invalid sequence at the front, which one replacement covers. -/
def invalidLength : List UInt8 → ℕ
  | first :: second :: third :: _ =>
    if 0xE0 ≤ first && first ≤ 0xEF then (if validSecond first second then 2 else 1)
    else if 0xF0 ≤ first && first ≤ 0xF4 then
      (if validSecond first second then (if isContinuation third then 3 else 2) else 1)
    else 1
  | first :: second :: [] =>
    if 0xE0 ≤ first && first ≤ 0xF4 && validSecond first second then 2 else 1
  | _ => 1

/-- One character of a lossy decoding and the bytes that remain. -/
def lossyStep (bs : List UInt8) : Char × List UInt8 :=
  match bs.toByteArray.utf8DecodeChar? 0 with
  | some c => (c, bs.drop c.utf8Size)
  | none => (Char.ofNat 0xFFFD, bs.drop (invalidLength bs))

def lossyLoop : ℕ → List UInt8 → Text
  | 0, _ => []
  | _ + 1, [] => []
  | n + 1, b :: bs =>
    let (c, rest) := lossyStep (b :: bs)
    c :: lossyLoop n rest

def fromUtf8Lossy (bs : List UInt8) : Text :=
  lossyLoop bs.length bs

def fromUtf8 (bs : List UInt8) : Option Text :=
  if bytes (fromUtf8Lossy bs) = bs then some (fromUtf8Lossy bs) else none

theorem lossyStep_encode (c : Char) (rest : List UInt8) :
    lossyStep (String.utf8EncodeChar c ++ rest) = (c, rest) := by
  have hdecode : (String.utf8EncodeChar c ++ rest).toByteArray.utf8DecodeChar? 0 = some c := by
    rw [List.toByteArray_append]
    exact ByteArray.utf8DecodeChar?_utf8EncodeChar_append
  rw [lossyStep, hdecode]
  simp [← String.length_utf8EncodeChar]

theorem utf8EncodeChar_ne_nil (c : Char) : String.utf8EncodeChar c ≠ [] := by
  intro h
  have hlen := String.length_utf8EncodeChar c
  rw [h] at hlen
  exact absurd hlen.symm (Nat.ne_of_gt c.utf8Size_pos)

theorem lossyLoop_bytes {n : ℕ} {t : Text} (h : t.length ≤ n) : lossyLoop n (bytes t) = t := by
  induction t generalizing n with
  | nil => cases n <;> rfl
  | cons c t ih =>
    obtain ⟨n, rfl⟩ := Nat.exists_eq_add_one_of_ne_zero (Nat.ne_zero_of_lt h)
    obtain ⟨b, bs, hcode⟩ := List.exists_cons_of_ne_nil (utf8EncodeChar_ne_nil c)
    have hstep := lossyStep_encode c (bytes t)
    rw [bytes_cons, hcode] at *
    rw [List.cons_append] at *
    rw [lossyLoop, hstep]
    simp [ih (Nat.le_of_succ_le_succ h)]

theorem length_le_bytes (t : Text) : t.length ≤ (bytes t).length := by
  induction t with
  | nil => simp
  | cons c t ih =>
    have hpos := List.length_pos_iff.mpr (utf8EncodeChar_ne_nil c)
    simp only [bytes_cons, List.length_append, List.length_cons]
    omega

theorem fromUtf8Lossy_bytes (t : Text) : fromUtf8Lossy (bytes t) = t :=
  lossyLoop_bytes (length_le_bytes t)

theorem fromUtf8_bytes (t : Text) : fromUtf8 (bytes t) = some t := by
  simp [fromUtf8, fromUtf8Lossy_bytes]

end Utf8

section Percent

/-- The bytes that a text stands for once its valid `%XX` escapes are decoded. -/
def percentBytes : Text → List UInt8
  | '%' :: hi :: lo :: rest =>
    match hexByte hi lo with
    | some b => b :: percentBytes rest
    | none => 0x25 :: percentBytes (hi :: lo :: rest)
  | c :: rest => String.utf8EncodeChar c ++ percentBytes rest
  | [] => []

def percentDecode (t : Text) : Text :=
  fromUtf8Lossy (percentBytes t)

def percentByte (b : UInt8) : Text :=
  '%' :: upperHex b

theorem percentBytes_percentByte (b : UInt8) (rest : Text) :
    percentBytes (percentByte b ++ rest) = b :: percentBytes rest := by
  obtain ⟨hi, lo, hhex, hb⟩ := hexByte_upperHex b
  simp [percentByte, hhex, percentBytes, hb]

theorem percentBytes_cons {c : Char} (h : c ≠ '%') (rest : Text) :
    percentBytes (c :: rest) = String.utf8EncodeChar c ++ percentBytes rest := by
  rw [percentBytes]
  rintro hi lo r rfl
  exact absurd rfl h

theorem percentBytes_plain {t : Text} (h : '%' ∉ t) : percentBytes t = bytes t := by
  induction t with
  | nil => rfl
  | cons c t ih =>
    have hc : c ≠ '%' := fun hc => h (hc ▸ List.mem_cons_self)
    rw [percentBytes_cons hc, ih (List.not_mem_of_not_mem_cons h), bytes_cons]

theorem percentDecode_plain {t : Text} (h : '%' ∉ t) : percentDecode t = t := by
  rw [percentDecode, percentBytes_plain h, fromUtf8Lossy_bytes]

theorem percentBytes_ne_nil {t : Text} (h : t ≠ []) : percentBytes t ≠ [] := by
  unfold percentBytes
  split
  · split <;> exact List.cons_ne_nil _ _
  · intro hnil
    exact utf8EncodeChar_ne_nil _ (List.append_eq_nil_iff.mp hnil).1
  · exact absurd rfl h

theorem percentDecode_ne_nil {t : Text} (h : t ≠ []) : percentDecode t ≠ [] := by
  obtain ⟨b, bs, hcode⟩ := List.exists_cons_of_ne_nil (percentBytes_ne_nil h)
  rw [percentDecode, fromUtf8Lossy, hcode, List.length_cons, lossyLoop]
  exact List.cons_ne_nil _ _

end Percent

end PercentText
