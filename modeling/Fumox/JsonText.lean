import Fumox.DelimitedText
import Fumox.JsonValue

/-!
The compact text of JSON objects whose values are strings, and a reader for it.  The pair is a
concrete instance of the codec that `JsonValue` takes as a parameter.
-/

namespace JsonText

open RustText DelimitedText JsonValue

def shortEscape (c : Char) : Option Char :=
  if c = '"' then some '"'
  else if c = '\\' then some '\\'
  else if c = '\n' then some 'n'
  else if c = '\r' then some 'r'
  else if c = '\t' then some 't'
  else if c = Char.ofNat 8 then some 'b'
  else if c = Char.ofNat 12 then some 'f'
  else none

def unescape (e : Char) : Option Char :=
  if e = '"' then some '"'
  else if e = '\\' then some '\\'
  else if e = '/' then some '/'
  else if e = 'n' then some '\n'
  else if e = 'r' then some '\r'
  else if e = 't' then some '\t'
  else if e = 'b' then some (Char.ofNat 8)
  else if e = 'f' then some (Char.ofNat 12)
  else none

def escapeChar (c : Char) : Text :=
  match shortEscape c with
  | some e => ['\\', e]
  | none => if c.toNat < 0x20 then '\\' :: 'u' :: '0' :: '0' :: lowerHex (UInt8.ofNat c.toNat) else [c]

/-- Takes one possibly escaped character off the front of a text. -/
def readChar : Text → Option (Char × Text)
  | '\\' :: 'u' :: '0' :: '0' :: hi :: lo :: rest =>
    (hexByte hi lo).map fun b => (Char.ofNat b.toNat, rest)
  | '\\' :: e :: rest => (unescape e).map fun c => (c, rest)
  | c :: rest => if c = '"' ∨ c.toNat < 0x20 then none else some (c, rest)
  | [] => none

def printString (t : Text) : Text :=
  '"' :: (t.flatMap escapeChar ++ ['"'])

/-- Reads up to the closing quote; the fuel bounds the number of characters. -/
def readBody : ℕ → Text → Option (Text × Text)
  | 0, _ => none
  | _ + 1, '"' :: rest => some ([], rest)
  | n + 1, t => do
    let (c, rest) ← readChar t
    let (body, rest) ← readBody n rest
    return (c :: body, rest)

def readString : Text → Option (Text × Text)
  | '"' :: rest => readBody (rest.length + 1) rest
  | _ => none

def printField (f : Text × Text) : Text :=
  printString f.1 ++ ':' :: printString f.2

def readField (t : Text) : Option ((Text × Text) × Text) := do
  let (key, rest) ← readString t
  match rest with
  | ':' :: rest =>
    let (value, rest) ← readString rest
    return ((key, value), rest)
  | _ => none

def printTail : List (Text × Text) → Text
  | [] => ['\x7d']
  | f :: fs => ',' :: (printField f ++ printTail fs)

def readTail : ℕ → Text → Option (List (Text × Text))
  | 0, _ => none
  | n + 1, t =>
    match t with
    | ['\x7d'] => some []
    | ',' :: rest => do
      let (f, rest) ← readField rest
      let fs ← readTail n rest
      return f :: fs
    | _ => none

def printObject : List (Text × Text) → Text
  | [] => ['\x7b', '\x7d']
  | f :: fs => '\x7b' :: (printField f ++ printTail fs)

def readObject : Text → Option (List (Text × Text))
  | '\x7b' :: rest =>
    if rest = ['\x7d'] then some []
    else do
      let (f, rest) ← readField rest
      let fs ← readTail (rest.length + 1) rest
      return f :: fs
  | _ => none

theorem unescape_shortEscape {c e : Char} (h : shortEscape c = some e) :
    unescape e = some c ∧ e ≠ 'u' := by
  unfold shortEscape at h
  split_ifs at h with h₁ h₂ h₃ h₄ h₅ h₆ h₇ <;> subst_vars <;>
    (obtain rfl := Option.some.inj h; decide)

theorem escapeChar_cases (c : Char) :
    (∃ e, escapeChar c = ['\\', e] ∧ unescape e = some c ∧ e ≠ 'u') ∨
    (∃ hi lo, escapeChar c = ['\\', 'u', '0', '0', hi, lo] ∧
      hexByte hi lo = some (UInt8.ofNat c.toNat) ∧ c.toNat < 0x20) ∨
    (escapeChar c = [c] ∧ c ≠ '"' ∧ c ≠ '\\' ∧ ¬c.toNat < 0x20) := by
  unfold escapeChar
  cases hshort : shortEscape c with
  | some e => exact .inl ⟨e, rfl, unescape_shortEscape hshort⟩
  | none =>
    right
    by_cases hctl : c.toNat < 0x20
    · obtain ⟨hi, lo, hhex, hb⟩ := hexByte_lowerHex (UInt8.ofNat c.toNat)
      exact .inl ⟨hi, lo, by simp [hctl, hhex], hb, hctl⟩
    · refine .inr ⟨by simp [hctl], ?_, ?_, hctl⟩ <;> rintro rfl <;> simp [shortEscape] at hshort

theorem reads_escapeChar : Reads escapeChar readChar := by
  intro c rest
  rcases escapeChar_cases c with ⟨e, hcode, he, hu⟩ | ⟨hi, lo, hcode, hb, hctl⟩ |
    ⟨hcode, hquote, hslash, hctl⟩
  · rw [hcode, List.cons_append, List.singleton_append, readChar, he]
    · rfl
    · rintro _ _ _ rfl
      exact absurd rfl hu
  · simp only [hcode, List.cons_append, List.nil_append, readChar, hb, Option.map_some,
      Option.some.injEq, Prod.mk.injEq, and_true]
    rw [UInt8.toNat_ofNat', Nat.mod_eq_of_lt (by omega), Char.ofNat_toNat]
  · rw [hcode, List.singleton_append, readChar]
    · simp [hquote, hctl]
    · rintro _ _ _ h
      exact absurd h hslash
    · rintro _ _ h
      exact absurd h hslash

theorem escapeChar_head (c : Char) : ∃ d ds, escapeChar c = d :: ds ∧ d ≠ '"' := by
  rcases escapeChar_cases c with ⟨e, hcode, -⟩ | ⟨hi, lo, hcode, -⟩ | ⟨hcode, hquote, -⟩
  · exact ⟨_, _, hcode, by decide⟩
  · exact ⟨_, _, hcode, by decide⟩
  · exact ⟨_, _, hcode, hquote⟩

theorem readBody_print (t rest : Text) {n : ℕ} (hn : t.length < n) :
    readBody n (t.flatMap escapeChar ++ '"' :: rest) = some (t, rest) := by
  induction t generalizing n with
  | nil =>
    obtain ⟨n, rfl⟩ := Nat.exists_eq_add_one_of_ne_zero (Nat.ne_of_gt hn)
    rfl
  | cons c t ih =>
    obtain ⟨n, rfl⟩ := Nat.exists_eq_add_one_of_ne_zero (Nat.ne_zero_of_lt hn)
    obtain ⟨d, ds, hcode, hd⟩ := escapeChar_head c
    have hread := reads_escapeChar c (t.flatMap escapeChar ++ '"' :: rest)
    rw [List.flatMap_cons, List.append_assoc]
    rw [hcode, List.cons_append] at hread ⊢
    rw [readBody, hread]
    · simp [ih (Nat.lt_of_succ_lt_succ hn)]
    · rintro _ h
      exact absurd (List.cons_eq_cons.mp h).1 hd

theorem length_le_flatMap_escapeChar (t : Text) : t.length ≤ (t.flatMap escapeChar).length := by
  induction t with
  | nil => simp
  | cons c t ih =>
    obtain ⟨d, ds, hcode, -⟩ := escapeChar_head c
    simp only [List.flatMap_cons, List.length_append, hcode, List.length_cons]
    omega

theorem readString_print (t rest : Text) : readString (printString t ++ rest) = some (t, rest) := by
  have hlen := length_le_flatMap_escapeChar t
  simp only [printString, List.cons_append, List.append_assoc, readString]
  refine readBody_print t rest ?_
  simp only [List.length_append]
  omega

theorem readField_print (f : Text × Text) (rest : Text) :
    readField (printField f ++ rest) = some (f, rest) := by
  simp [readField, printField, readString_print]

theorem readTail_print (fs : List (Text × Text)) {n : ℕ} (hn : fs.length < n) :
    readTail n (printTail fs) = some fs := by
  induction fs generalizing n with
  | nil =>
    obtain ⟨n, rfl⟩ := Nat.exists_eq_add_one_of_ne_zero (Nat.ne_of_gt hn)
    rfl
  | cons f fs ih =>
    obtain ⟨n, rfl⟩ := Nat.exists_eq_add_one_of_ne_zero (Nat.ne_zero_of_lt hn)
    simp [readTail, printTail, readField_print, ih (Nat.lt_of_succ_lt_succ hn)]

theorem length_lt_printTail (fs : List (Text × Text)) : fs.length < (printTail fs).length + 1 := by
  induction fs with
  | nil => simp
  | cons f fs ih =>
    simp only [printTail, List.length_cons, List.length_append]
    omega

theorem readObject_print (m : List (Text × Text)) : readObject (printObject m) = some m := by
  match m with
  | [] => rfl
  | f :: fs =>
    have hopen : printField f ++ printTail fs ≠ ['\x7d'] := by simp [printField, printString]
    simp [readObject, printObject, hopen, readField_print,
      readTail_print fs (length_lt_printTail fs)]

/-- The string fields of an object, when it has no others. -/
def stringFields : Json → Option (List (Text × Text))
  | .obj fields => fields.mapM fun f => f.2.asStr.map fun v => (f.1, v)
  | _ => none

theorem stringFields_stringObject (m : List (Text × Text)) :
    stringFields (stringObject m) = some m := by
  unfold stringFields stringObject
  induction m with
  | nil => rfl
  | cons f m ih => simp_all [Json.asStr]

/-- The codec on objects of strings. -/
def stringCodec : SerdeJson where
  toStr v := ((stringFields v).map printObject).getD []
  fromStr t := (readObject t).map stringObject

theorem stringCodec_roundTrips : stringCodec.RoundTripsStrings := by
  intro m _
  simp [stringCodec, stringFields_stringObject, readObject_print]

end JsonText
