import Fumox.AddressText

/-!
Socket addresses in the two textual forms of the standard library, `a.b.c.d:port` and
`[v6%scope]:port`.  What the printer writes is read back as the same address.
-/

namespace SocketText

open RustText AddressText

/-- The flow label of a sixth version address has no textual form and is zero on reading. -/
inductive SocketAddr where
  | v4 (a b c d port : ℕ)
  | v6 (segments : List ℕ) (scope port : ℕ)
  deriving DecidableEq, Repr

def SocketAddr.Valid : SocketAddr → Prop
  | .v4 a b c d port => a < 256 ∧ b < 256 ∧ c < 256 ∧ d < 256 ∧ port < 65536
  | .v6 segments scope port =>
    (segments.length = 8 ∧ ∀ s ∈ segments, s < 65536) ∧ scope < 2 ^ 32 ∧ port < 65536

instance (a : SocketAddr) : Decidable a.Valid := by
  cases a <;> unfold SocketAddr.Valid <;> infer_instance

def hexGroup (n : ℕ) : Text := Nat.toDigits 16 n

/-- Every group but the first of an address part stands behind a colon. -/
def joinGroups : Bool → List ℕ → Text
  | _, [] => []
  | first, g :: groups => (if first then [] else [':']) ++ hexGroup g ++ joinGroups false groups

structure Span where
  start : ℕ
  len : ℕ
  deriving DecidableEq, Repr

/-- The loop over the segments, with the longest run of zeros so far and the run that is open. -/
def longestZeros : ℕ → Span → Span → List ℕ → Span
  | _, longest, _, [] => longest
  | i, longest, current, segment :: rest =>
    if segment = 0 then
      let current : Span := ⟨if current.len = 0 then i else current.start, current.len + 1⟩
      longestZeros (i + 1) (if longest.len < current.len then current else longest) current rest
    else longestZeros (i + 1) longest ⟨0, 0⟩ rest

def printIpv4 (a b c d : ℕ) : Text :=
  decimal a ++ '.' :: decimal b ++ '.' :: decimal c ++ '.' :: decimal d

/-- `to_ipv4_mapped`: the two groups of the dotted form. -/
def mappedIpv4 : List ℕ → Option (ℕ × ℕ)
  | [0, 0, 0, 0, 0, 65535, ab, cd] => some (ab, cd)
  | _ => none

def printIpv6 (segments : List ℕ) : Text :=
  match mappedIpv4 segments with
  | some (ab, cd) =>
    "::ffff:" ++ printIpv4 (ab / 256) (ab % 256) (cd / 256) (cd % 256)
  | none =>
    let zeroes := longestZeros 0 ⟨0, 0⟩ ⟨0, 0⟩ segments
    if 1 < zeroes.len then
      joinGroups true (segments.take zeroes.start) ++ "::" ++
        joinGroups true (segments.drop (zeroes.start + zeroes.len))
    else joinGroups true segments

/-- `SocketAddr`'s `Display`. -/
def printSocketAddr : SocketAddr → Text
  | .v4 a b c d port => printIpv4 a b c d ++ ':' :: decimal port
  | .v6 segments scope port =>
    '[' :: (printIpv6 segments ++ (if scope = 0 then [] else '%' :: decimal scope) ++
      "]:" ++ decimal port)

/-- A decimal number of any length behind a given character. -/
def readAfter (mark : Char) (bound : ℕ) : Reader ℕ := fun t =>
  match t with
  | c :: rest => if c = mark then readNumber 10 rest.length bound true rest else none
  | [] => none

def readPort : Reader ℕ := readAfter ':' 65535

def readSocketV4 : Reader SocketAddr := fun t => do
  let ((a, b, c, d), t) ← readIpv4 t
  let (port, t) ← readPort t
  return (.v4 a b c d port, t)

def readSocketV6 : Reader SocketAddr := fun t =>
  match t with
  | '[' :: t => do
    let (segments, t) ← readIpv6 t
    let (scope, t) := (readAfter '%' (2 ^ 32 - 1) t).getD (0, t)
    match t with
    | ']' :: t => do
      let (port, t) ← readPort t
      return (.v6 segments scope port, t)
    | _ => none
  | _ => none

def parseSocketAddr (t : Text) : Option SocketAddr :=
  match (readSocketV4 t).orElse fun _ => readSocketV6 t with
  | some (address, []) => some address
  | _ => none

example : parseSocketAddr "127.0.0.1:8081" = some (.v4 127 0 0 1 8081) := by decide

example : (parseSocketAddr "[2001:DB8:0:0:1::9%3]:80").map printSocketAddr =
    some "[2001:db8::1:0:0:9%3]:80".toList := by decide

theorem hexValue_digitChar {d : ℕ} (h : d < 16) : hexValue (Nat.digitChar d) = some d := by
  have hall : ∀ d : Fin 16, hexValue (Nat.digitChar d.val) = some d.val := by decide
  exact hall ⟨d, h⟩

section Digits

variable {radix : ℕ} (hlo : 1 < radix) (hhi : radix ≤ 16)

include hlo hhi

theorem isDigitOf_of_mem_toDigits (n : ℕ) : ∀ c ∈ Nat.toDigits radix n, isDigitOf radix c = true := by
  have hdigit : ∀ d < radix, isDigitOf radix (Nat.digitChar d) = true := by
    intro d hd
    rw [isDigitOf, hexValue_digitChar (by omega)]
    simpa using hd
  induction n using Nat.strong_induction_on with
  | _ n ih =>
    intro c hc
    rw [Nat.toDigits_eq_if hlo] at hc
    split_ifs at hc with hn
    · rw [List.mem_singleton.mp hc]
      exact hdigit n hn
    · rcases List.mem_append.mp hc with hc | hc
      · exact ih (n / radix) (Nat.div_lt_self (by omega) hlo) c hc
      · rw [List.mem_singleton.mp hc]
        exact hdigit _ (Nat.mod_lt n (by omega))

theorem foldl_toDigits (n : ℕ) :
    (Nat.toDigits radix n).foldl (fun n c => radix * n + (hexValue c).getD 0) 0 = n := by
  induction n using Nat.strong_induction_on with
  | _ n ih =>
    rw [Nat.toDigits_eq_if hlo]
    split_ifs with hn
    · simp [hexValue_digitChar (show n < 16 by omega)]
    · have hmod : n % radix < 16 := (Nat.mod_lt n (by omega)).trans_le hhi
      rw [List.foldl_append, ih _ (Nat.div_lt_self (by omega) hlo), List.foldl_cons, List.foldl_nil,
        hexValue_digitChar hmod]
      exact Nat.div_add_mod n radix

/-- A printed number is read back when no further digit follows it. -/
theorem readNumber_toDigits {n maxDigits bound : ℕ} {rest : Text}
    (hmax : (Nat.toDigits radix n).length ≤ maxDigits) (hbound : n ≤ bound)
    (hrest : ∀ c, rest.head? = some c → isDigitOf radix c = false) :
    readNumber radix maxDigits bound true (Nat.toDigits radix n ++ rest) = some (n, rest) := by
  have halone : readNumber radix maxDigits bound true (Nat.toDigits radix n) = some (n, []) := by
    have hall := isDigitOf_of_mem_toDigits hlo hhi n
    have htake : (Nat.toDigits radix n).takeWhile (isDigitOf radix) = Nat.toDigits radix n :=
      List.takeWhile_eq_self_iff.mpr hall
    have hdrop : (Nat.toDigits radix n).dropWhile (isDigitOf radix) = [] :=
      List.dropWhile_eq_nil_iff.mpr hall
    unfold readNumber
    simp only [htake, hdrop, foldl_toDigits hlo hhi n]
    rw [if_neg]
    rintro (hnil | hlong | hbig | ⟨hfalse, -, -⟩)
    · exact Nat.toDigits_ne_nil hnil
    · omega
    · omega
    · cases hfalse
  cases rest with
  | nil => rwa [List.append_nil]
  | cons x s => exact readNumber_stop (hrest x rfl) halone

end Digits

theorem of_head?_cons {p : Char → Prop} {x : Char} {s : Text} (hx : p x) :
    ∀ c, (x :: s).head? = some c → p c := by
  rintro c ⟨⟩
  exact hx

theorem readOctet_decimal {n : ℕ} {rest : Text} (hn : n < 256)
    (hrest : ∀ c, rest.head? = some c → isDigitOf 10 c = false) :
    readOctet (decimal n ++ rest) = some (n, rest) := by
  have hall : ∀ n : Fin 256, readOctet (decimal n.val) = some (n.val, []) := by decide +kernel
  have halone := hall ⟨n, hn⟩
  cases rest with
  | nil => rwa [List.append_nil]
  | cons x s => exact readNumber_stop (hrest x rfl) halone

theorem readIpv4_print {a b c d : ℕ} {rest : Text} (ha : a < 256) (hb : b < 256)
    (hc : c < 256) (hd : d < 256) (hrest : ∀ c, rest.head? = some c → isDigitOf 10 c = false) :
    readIpv4 (printIpv4 a b c d ++ rest) = some ((a, b, c, d), rest) := by
  have hdot : isDigitOf 10 '.' = false := by decide
  have hshape : printIpv4 a b c d ++ rest =
      decimal a ++ '.' :: (decimal b ++ '.' :: (decimal c ++ '.' :: (decimal d ++ rest))) := by
    simp [printIpv4]
  rw [hshape]
  refine Option.bind_eq_some_iff.mpr ⟨_, readOctet_decimal ha (of_head?_cons hdot), ?_⟩
  refine Option.bind_eq_some_iff.mpr ⟨_, readOctet_decimal hb (of_head?_cons hdot), ?_⟩
  refine Option.bind_eq_some_iff.mpr ⟨_, readOctet_decimal hc (of_head?_cons hdot), ?_⟩
  exact Option.bind_eq_some_iff.mpr ⟨_, readOctet_decimal hd hrest, rfl⟩

theorem readAfter_decimal {mark : Char} {n bound : ℕ} {rest : Text} (hn : n ≤ bound)
    (hrest : ∀ c, rest.head? = some c → isDigitOf 10 c = false) :
    readAfter mark bound (mark :: (decimal n ++ rest)) = some (n, rest) := by
  have hmax : (Nat.toDigits 10 n).length ≤ (decimal n ++ rest).length := by
    rw [List.length_append]
    exact Nat.le_add_right _ _
  have hread := readNumber_toDigits (by decide) (by decide) hmax hn hrest
  simp only [readAfter, if_true]
  exact hread

/-- A run of groups ends here: no digit, no dot, and a colon only as half of a gap. -/
def Stops (rest : Text) : Prop :=
  ∀ c, rest.head? = some c →
    isDigitOf 16 c = false ∧ c ≠ '.' ∧ (c = ':' → rest.tail.head? = some ':')

theorem isDigitOf_mono {c : Char} (h : isDigitOf 16 c = false) : isDigitOf 10 c = false := by
  rw [isDigitOf] at h ⊢
  cases hv : hexValue c with
  | none => rfl
  | some v =>
    rw [hv, Option.any_some, decide_eq_false_iff_not] at h
    rw [Option.any_some, decide_eq_false_iff_not]
    omega

theorem readNumber_eq_none {radix maxDigits bound : ℕ} {allowZeroPrefix : Bool} {t : Text}
    (h : ∀ c, t.head? = some c → isDigitOf radix c = false) :
    readNumber radix maxDigits bound allowZeroPrefix t = none := by
  have hdigits : t.takeWhile (isDigitOf radix) = [] := by
    cases t with
    | nil => rfl
    | cons c t => rw [List.takeWhile_cons_of_neg (by simp [h c rfl])]
  unfold readNumber
  rw [if_pos (.inl hdigits)]

/-- A dotted address has a dot behind its first number. -/
theorem readIpv4_eq_none {t : Text} (h : (t.dropWhile (isDigitOf 10)).head? ≠ some '.') :
    readIpv4 t = none := by
  cases ha : readOctet t with
  | none => simp [readIpv4, ha]
  | some r =>
    have hrest : r.2 = t.dropWhile (isDigitOf 10) := by
      unfold readOctet readNumber at ha
      dsimp only at ha
      split_ifs at ha
      exact (congrArg Prod.snd (Option.some.inj ha)).symm
    have hdot : separated '.' false readOctet r.2 = none := by
      cases htail : r.2 with
      | nil => rfl
      | cons c rest =>
        have hc : c ≠ '.' := by
          rintro rfl
          rw [← hrest, htail] at h
          exact h rfl
        exact if_neg hc
    simp [readIpv4, ha, hdot]

theorem readIpv4_group {g : ℕ} {rest : Text}
    (hrest : ∀ c, rest.head? = some c → isDigitOf 16 c = false ∧ c ≠ '.') :
    readIpv4 (hexGroup g ++ rest) = none := by
  apply readIpv4_eq_none
  intro hdot
  have hhex : ∀ c ∈ Nat.toDigits 16 g, isDigitOf 16 c = true :=
    isDigitOf_of_mem_toDigits (by decide) (by decide) g
  rw [List.dropWhile_append] at hdot
  split_ifs at hdot with hall
  · cases rest with
    | nil => cases hdot
    | cons x s =>
      obtain ⟨hx, hne⟩ := hrest x rfl
      rw [List.dropWhile_cons_of_neg (by simp [isDigitOf_mono hx])] at hdot
      exact hne (Option.some.inj hdot)
  · have hmem : '.' ∈ hexGroup g := by
      cases hleft : (hexGroup g).dropWhile (isDigitOf 10) with
      | nil => exact absurd (by simp [hleft]) hall
      | cons c l =>
        rw [hleft, List.cons_append, List.head?_cons] at hdot
        have hc : c ∈ (hexGroup g).dropWhile (isDigitOf 10) := by simp [hleft]
        exact Option.some.inj hdot ▸ List.dropWhile_subset _ hc
    exact absurd (hhex '.' hmem) (by decide)

theorem readGroup_group {g : ℕ} {rest : Text} (hg : g < 65536)
    (hrest : ∀ c, rest.head? = some c → isDigitOf 16 c = false) :
    readGroup (hexGroup g ++ rest) = some (g, rest) := by
  apply readNumber_toDigits (by decide) (by decide) ?_ (by omega) hrest
  exact (Nat.length_toDigits_le_iff (by decide) (by decide)).mpr hg

theorem readGroups_stop {n : ℕ} {first : Bool} {rest : Text} (h : Stops rest) :
    readGroups n first rest = ([], false, rest) := by
  have hseparated : ∀ (α : Type) (read : Reader α),
      (∀ t, (∀ c, t.head? = some c → isDigitOf 16 c = false) → read t = none) →
        separated ':' first read rest = none := by
    intro α read hread
    cases first with
    | true => exact hread rest fun c hc => (h c hc).1
    | false =>
      cases rest with
      | nil => rfl
      | cons c t =>
        by_cases hc : c = ':'
        · subst hc
          have hcolon := (h ':' rfl).2.2 rfl
          apply hread t
          intro c hc
          rw [List.tail_cons, hc] at hcolon
          cases hcolon
          decide
        · exact if_neg hc
  cases n with
  | zero => rfl
  | succ n =>
    have hgroup := hseparated _ readGroup fun t ht => readNumber_eq_none ht
    have hdotted := hseparated _ readIpv4 fun t ht => by
      have hoctet : readOctet t = none := readNumber_eq_none fun c hc => isDigitOf_mono (ht c hc)
      simp [readIpv4, hoctet]
    simp only [readGroups, hgroup, hdotted, ite_self]

theorem joinGroups_head (groups : List ℕ) {rest : Text} (h : Stops rest) :
    ∀ c, (joinGroups false groups ++ rest).head? = some c → isDigitOf 16 c = false ∧ c ≠ '.' := by
  intro c hc
  cases groups with
  | nil => exact ⟨(h c hc).1, (h c hc).2.1⟩
  | cons g groups =>
    cases hc
    decide

theorem separated_joined {α : Type} {first : Bool} {read : Reader α} {t : Text} :
    separated ':' first read ((if first then [] else [':']) ++ t) = read t := by
  cases first <;> rfl

theorem readGroups_join (groups : List ℕ) (n : ℕ) (first : Bool) {rest : Text}
    (hsmall : ∀ g ∈ groups, g < 65536) (hn : groups.length ≤ n) (hrest : Stops rest) :
    readGroups n first (joinGroups first groups ++ rest) = (groups, false, rest) := by
  induction groups generalizing n first with
  | nil => exact readGroups_stop hrest
  | cons g groups ih =>
    cases n with
    | zero => exact absurd hn (by simp)
    | succ n =>
      have hshape : joinGroups first (g :: groups) ++ rest =
          (if first then [] else [':']) ++ (hexGroup g ++ (joinGroups false groups ++ rest)) := by
        simp only [joinGroups, List.append_assoc]
      have hhead := joinGroups_head groups hrest
      have hgroup : separated ':' first readGroup (joinGroups first (g :: groups) ++ rest) =
          some (g, joinGroups false groups ++ rest) := by
        rw [hshape, separated_joined]
        exact readGroup_group (hsmall g (by simp)) fun c hc => (hhead c hc).1
      have hdotted : separated ':' first readIpv4 (joinGroups first (g :: groups) ++ rest) =
          none := by
        rw [hshape, separated_joined]
        exact readIpv4_group hhead
      have htail := ih n false (fun s hs => hsmall s (List.mem_cons_of_mem g hs))
        (by simpa using hn)
      simp only [readGroups, hgroup, hdotted, ite_self, htail]

def ZeroRun (all : List ℕ) (span : Span) : Prop :=
  (all.drop span.start).take span.len = List.replicate span.len 0

theorem ZeroRun.extend {all : List ℕ} {span : Span} (h : ZeroRun all span)
    (hnext : all[span.start + span.len]? = some 0) :
    ZeroRun all ⟨span.start, span.len + 1⟩ := by
  have hget : (all.drop span.start)[span.len]? = some 0 := by
    rw [List.getElem?_drop]
    exact hnext
  unfold ZeroRun at h ⊢
  rw [List.take_add_one, h, hget, List.replicate_succ']
  rfl

theorem longestZeros_run (all rest : List ℕ) (i : ℕ) (longest current : Span)
    (hrest : all.drop i = rest) (hlongest : ZeroRun all longest) (hcurrent : ZeroRun all current)
    (hopen : current.len ≠ 0 → current.start + current.len = i) :
    ZeroRun all (longestZeros i longest current rest) := by
  induction rest generalizing i longest current with
  | nil => exact hlongest
  | cons segment rest ih =>
    have htail : all.drop (i + 1) = rest := by
      rw [← List.tail_drop, hrest, List.tail_cons]
    have hget : all[i]? = some segment := by
      rw [← List.head?_drop, hrest, List.head?_cons]
    rw [longestZeros]
    by_cases hzero : segment = 0
    · rw [if_pos hzero]
      rw [hzero] at hget
      dsimp only
      generalize hstart : (if current.len = 0 then i else current.start) = start
      have hnew : ZeroRun all ⟨start, current.len + 1⟩ ∧ start + (current.len + 1) = i + 1 := by
        by_cases hlen : current.len = 0
        · rw [if_pos hlen] at hstart
          rw [← hstart, hlen]
          have hempty : ZeroRun all ⟨i, 0⟩ := rfl
          exact ⟨hempty.extend hget, rfl⟩
        · rw [if_neg hlen] at hstart
          have hend := hopen hlen
          rw [← hstart]
          exact ⟨hcurrent.extend (hend ▸ hget), by omega⟩
      apply ih _ _ _ htail ?_ hnew.1 fun _ => hnew.2
      split_ifs
      · exact hnew.1
      · exact hlongest
    · rw [if_neg hzero]
      exact ih _ _ _ htail hlongest rfl fun h => absurd rfl h

theorem split_at_zeros {all : List ℕ} {span : Span} (h : ZeroRun all span) :
    all.take span.start ++ List.replicate span.len 0 ++ all.drop (span.start + span.len) = all := by
  rw [← h, ← List.drop_drop, List.append_assoc, List.take_append_drop, List.take_append_drop]

theorem stops_gap (t : Text) : Stops (':' :: ':' :: t) := by
  intro c hc
  cases hc
  exact ⟨by decide, by decide, fun _ => rfl⟩

theorem readIpv6_mapped {ab cd : ℕ} {rest : Text} (hab : ab < 65536) (hcd : cd < 65536)
    (hrest : ∀ c, rest.head? = some c → isDigitOf 16 c = false) :
    readIpv6 (("::ffff:" : Text) ++ printIpv4 (ab / 256) (ab % 256) (cd / 256) (cd % 256) ++ rest) =
      some ([0, 0, 0, 0, 0, 65535, ab, cd], rest) := by
  have hprint := readIpv4_print (show ab / 256 < 256 by omega)
    (show ab % 256 < 256 by omega) (show cd / 256 < 256 by omega) (show cd % 256 < 256 by omega)
    fun c hc => isDigitOf_mono (hrest c hc)
  generalize hdotted :
    printIpv4 (ab / 256) (ab % 256) (cd / 256) (cd % 256) ++ rest = dotted at hprint
  have hshape : ("::ffff:" : Text) ++ printIpv4 (ab / 256) (ab % 256) (cd / 256) (cd % 256) ++
      rest = ':' :: ':' :: (hexGroup 65535 ++ ':' :: dotted) := by
    rw [List.append_assoc, hdotted]
    rfl
  have hfirst : readIpv4 (hexGroup 65535 ++ ':' :: dotted) = none := by
    apply readIpv4_group
    intro c hc
    cases hc
    decide
  have hgroup : readGroup (hexGroup 65535 ++ ':' :: dotted) = some (65535, ':' :: dotted) := by
    apply readGroup_group (by decide)
    intro c hc
    cases hc
    decide
  have hrun : readGroups 6 false (':' :: dotted) =
      ([256 * (ab / 256) + ab % 256, 256 * (cd / 256) + cd % 256], true, rest) := by
    have hread : separated ':' false readIpv4 (':' :: dotted) =
        some ((ab / 256, ab % 256, cd / 256, cd % 256), rest) := hprint
    simp [readGroups, hread]
  have htail : readGroups 7 true (hexGroup 65535 ++ ':' :: dotted) =
      ([65535, 256 * (ab / 256) + ab % 256, 256 * (cd / 256) + cd % 256], true, rest) := by
    have hnone : separated ':' true readIpv4 (hexGroup 65535 ++ ':' :: dotted) = none := hfirst
    have hsome : separated ':' true readGroup (hexGroup 65535 ++ ':' :: dotted) =
        some (65535, ':' :: dotted) := hgroup
    rw [readGroups]
    simp only [hnone, hsome, ite_self, hrun]
  have hgap : readGroups 8 true (':' :: ':' :: (hexGroup 65535 ++ ':' :: dotted)) = _ :=
    readGroups_stop (stops_gap (hexGroup 65535 ++ ':' :: dotted))
  rw [hshape, readIpv6, hgap]
  simp [htail, List.replicate, Nat.div_add_mod]

theorem readIpv6_gap {segments : List ℕ} {span : Span} {rest : Text} (hlen : segments.length = 8)
    (hsmall : ∀ g ∈ segments, g < 65536) (hrun : ZeroRun segments span) (hlong : 0 < span.len)
    (hrest : Stops rest) :
    readIpv6 (joinGroups true (segments.take span.start) ++ ("::" : Text) ++
      joinGroups true (segments.drop (span.start + span.len)) ++ rest) = some (segments, rest) := by
  have hsplit := split_at_zeros hrun
  have hbound : span.start + span.len ≤ 8 := by
    have hcount := congrArg List.length hrun
    simp only [List.length_take, List.length_drop, List.length_replicate, hlen] at hcount
    omega
  have hheadLen : (segments.take span.start).length = span.start := by
    rw [List.length_take, hlen]
    omega
  have htailLen : (segments.drop (span.start + span.len)).length =
      8 - (span.start + span.len) := by
    rw [List.length_drop, hlen]
  have hshape : joinGroups true (segments.take span.start) ++ ("::" : Text) ++
      joinGroups true (segments.drop (span.start + span.len)) ++ rest =
      joinGroups true (segments.take span.start) ++ ':' :: ':' ::
        (joinGroups true (segments.drop (span.start + span.len)) ++ rest) := by
    simp
  have hhead := readGroups_join (segments.take span.start) 8 true
    (fun g hg => hsmall g (List.mem_of_mem_take hg)) (by omega)
    (stops_gap (joinGroups true (segments.drop (span.start + span.len)) ++ rest))
  have htail := readGroups_join (segments.drop (span.start + span.len)) (7 - span.start) true
    (fun g hg => hsmall g (List.mem_of_mem_drop hg)) (by omega) hrest
  have hgap : 8 - span.start - (8 - (span.start + span.len)) = span.len := by omega
  have hshort : span.start ≠ 8 := by omega
  rw [hshape, readIpv6, hhead]
  simp only [hheadLen, hshort, if_false, Bool.false_eq_true, htail, htailLen, hgap, hsplit]

theorem readIpv6_print {segments : List ℕ} {rest : Text} (hlen : segments.length = 8)
    (hsmall : ∀ g ∈ segments, g < 65536)
    (hrest : ∀ c, rest.head? = some c → isDigitOf 16 c = false ∧ c ≠ '.' ∧ c ≠ ':') :
    readIpv6 (printIpv6 segments ++ rest) = some (segments, rest) := by
  have hstops : Stops rest := by
    intro c hc
    obtain ⟨hdigit, hdot, hcolon⟩ := hrest c hc
    exact ⟨hdigit, hdot, fun h => absurd h hcolon⟩
  unfold printIpv6
  split
  next ab cd hmapped =>
    have hsegments : segments = [0, 0, 0, 0, 0, 65535, ab, cd] := by
      unfold mappedIpv4 at hmapped
      split at hmapped
      · cases hmapped
        rfl
      · cases hmapped
    subst hsegments
    exact readIpv6_mapped (hsmall ab (by simp)) (hsmall cd (by simp)) fun c hc => (hrest c hc).1
  next hmapped =>
    have hrun := longestZeros_run segments segments 0 ⟨0, 0⟩ ⟨0, 0⟩ rfl rfl rfl
      (fun h => absurd rfl h)
    generalize longestZeros 0 ⟨0, 0⟩ ⟨0, 0⟩ segments = span at hrun
    dsimp only
    split_ifs with hlong
    · exact readIpv6_gap hlen hsmall hrun (Nat.zero_lt_of_lt hlong) hstops
    · have hall := readGroups_join segments 8 true hsmall (by omega) hstops
      simp only [readIpv6, hall, hlen, if_true]

/-- A sixth version address is not taken for a dotted one. -/
theorem readIpv4_joined (groups : List ℕ) {rest : Text} (h : Stops rest) :
    readIpv4 (joinGroups true groups ++ rest) = none := by
  cases groups with
  | nil =>
    have hoctet : readOctet rest = none := readNumber_eq_none fun c hc => isDigitOf_mono (h c hc).1
    simp [joinGroups, readIpv4, hoctet]
  | cons g groups =>
    have hshape : joinGroups true (g :: groups) ++ rest =
        hexGroup g ++ (joinGroups false groups ++ rest) := by
      simp [joinGroups]
    rw [hshape]
    exact readIpv4_group (joinGroups_head groups h)

theorem readIpv4_printIpv6 (segments : List ℕ) : readIpv4 (printIpv6 segments) = none := by
  unfold printIpv6
  split
  · exact readIpv4_joined [] (stops_gap _)
  · dsimp only
    split_ifs
    · rw [List.append_assoc]
      exact readIpv4_joined _ (stops_gap _)
    · have hend : Stops [] := fun c hc => by cases hc
      have hjoined := readIpv4_joined segments hend
      rwa [List.append_nil] at hjoined

theorem parseIp_printIpv4 {a b c d : ℕ} (ha : a < 256) (hb : b < 256) (hc : c < 256)
    (hd : d < 256) : parseIp (printIpv4 a b c d) = some (.v4 a b c d) := by
  have hread : readIpv4 (printIpv4 a b c d ++ []) = some ((a, b, c, d), []) :=
    readIpv4_print ha hb hc hd fun c hc => by cases hc
  rw [List.append_nil] at hread
  rw [parseIp, readIp, hread]

theorem parseIp_printIpv6 {segments : List ℕ} (hlen : segments.length = 8)
    (hsmall : ∀ g ∈ segments, g < 65536) :
    parseIp (printIpv6 segments) = some (.v6 segments) := by
  have hread : readIpv6 (printIpv6 segments ++ []) = some (segments, []) :=
    readIpv6_print hlen hsmall fun c hc => by cases hc
  rw [List.append_nil] at hread
  rw [parseIp, readIp, readIpv4_printIpv6, hread]
  rfl

theorem readPort_print {port : ℕ} (h : port < 65536) :
    readPort (':' :: decimal port) = some (port, []) := by
  have hread : readAfter ':' 65535 (':' :: (decimal port ++ [])) = some (port, []) :=
    readAfter_decimal (by omega) (by simp)
  rwa [List.append_nil] at hread

theorem parse_print {address : SocketAddr} (h : address.Valid) :
    parseSocketAddr (printSocketAddr address) = some address := by
  cases address with
  | v4 a b c d port =>
    obtain ⟨ha, hb, hc, hd, hport⟩ := h
    have hread : readSocketV4 (printSocketAddr (.v4 a b c d port)) =
        some (.v4 a b c d port, []) := by
      refine Option.bind_eq_some_iff.mpr ⟨_, readIpv4_print ha hb hc hd
        (of_head?_cons (by decide)), ?_⟩
      exact Option.bind_eq_some_iff.mpr ⟨_, readPort_print hport, rfl⟩
    simp [parseSocketAddr, hread]
  | v6 segments scope port =>
    obtain ⟨⟨hlen, hsmall⟩, hscope, hport⟩ := h
    have hv4 : readSocketV4 (printSocketAddr (.v6 segments scope port)) = none := by
      have hnone : readIpv4 (printSocketAddr (.v6 segments scope port)) = none := by
        apply readIpv4_eq_none
        rw [printSocketAddr, List.dropWhile_cons_of_neg (by decide), List.head?_cons]
        exact fun h => absurd (Option.some.inj h) (by decide)
      simp [readSocketV4, hnone]
    have hread : readSocketV6 (printSocketAddr (.v6 segments scope port)) =
        some (.v6 segments scope port, []) := by
      by_cases hzero : scope = 0
      · subst hzero
        have hshape : printSocketAddr (.v6 segments 0 port) =
            '[' :: (printIpv6 segments ++ ']' :: ':' :: decimal port) := by
          simp [printSocketAddr]
        rw [hshape]
        have hip : ∀ s, readIpv6 (printIpv6 segments ++ ']' :: s) = some (segments, ']' :: s) :=
          fun s => readIpv6_print hlen hsmall (of_head?_cons (by decide))
        have hscopeless : ∀ bound, readAfter '%' bound (']' :: ':' :: decimal port) = none := by
          intro bound
          rw [readAfter]
          exact if_neg (by decide)
        simp [readSocketV6, hip, hscopeless, readPort_print hport]
      · have hshape : printSocketAddr (.v6 segments scope port) =
            '[' :: (printIpv6 segments ++ '%' :: (decimal scope ++ ']' :: ':' :: decimal port)) := by
          simp [printSocketAddr, hzero]
        rw [hshape]
        have hip : ∀ s, readIpv6 (printIpv6 segments ++ '%' :: s) = some (segments, '%' :: s) :=
          fun s => readIpv6_print hlen hsmall (of_head?_cons (by decide))
        have hscoped : ∀ bound, scope ≤ bound →
            readAfter '%' bound ('%' :: (decimal scope ++ ']' :: ':' :: decimal port)) =
              some (scope, ']' :: ':' :: decimal port) := by
          intro bound hbound
          refine readAfter_decimal hbound fun c hc => ?_
          cases hc
          decide
        simp (disch := omega) [readSocketV6, hip, hscoped, readPort_print hport]
    simp [parseSocketAddr, hv4, hread]

theorem readNumber_le {radix maxDigits bound v : ℕ} {allowZeroPrefix : Bool} {t rest : Text}
    (h : readNumber radix maxDigits bound allowZeroPrefix t = some (v, rest)) : v ≤ bound := by
  unfold readNumber at h
  dsimp only at h
  split_ifs at h with hbad
  obtain ⟨rfl, -⟩ := Prod.mk.inj (Option.some.inj h)
  simp only [not_or] at hbad
  omega

theorem separated_reads {α : Type} {sep : Char} {first : Bool} {read : Reader α} {t rest : Text}
    {v : α} (h : separated sep first read t = some (v, rest)) : ∃ t', read t' = some (v, rest) := by
  unfold separated at h
  split at h
  · exact ⟨t, h⟩
  · split at h
    · split_ifs at h
      exact ⟨_, h⟩
    · cases h

theorem readIpv4_lt {a b c d : ℕ} {t rest : Text} (h : readIpv4 t = some ((a, b, c, d), rest)) :
    a < 256 ∧ b < 256 ∧ c < 256 ∧ d < 256 := by
  obtain ⟨⟨a, t₁⟩, ha, h⟩ := Option.bind_eq_some_iff.mp h
  obtain ⟨⟨b, t₂⟩, hb, h⟩ := Option.bind_eq_some_iff.mp h
  obtain ⟨⟨c, t₃⟩, hc, h⟩ := Option.bind_eq_some_iff.mp h
  obtain ⟨⟨d, t₄⟩, hd, h⟩ := Option.bind_eq_some_iff.mp h
  cases h
  obtain ⟨_, hb⟩ := separated_reads hb
  obtain ⟨_, hc⟩ := separated_reads hc
  obtain ⟨_, hd⟩ := separated_reads hd
  have ha := readNumber_le ha
  have hb := readNumber_le hb
  have hc := readNumber_le hc
  have hd := readNumber_le hd
  omega

theorem readGroups_small (n : ℕ) (first : Bool) (t : Text) :
    (readGroups n first t).1.length ≤ n ∧ ∀ g ∈ (readGroups n first t).1, g < 65536 := by
  induction n generalizing first t with
  | zero => simp [readGroups]
  | succ n ih =>
    rw [readGroups]
    split
    next a b c d rest hdotted =>
      split_ifs at hdotted with hroom
      obtain ⟨_, hread⟩ := separated_reads hdotted
      obtain ⟨ha, hb, hc, hd⟩ := readIpv4_lt hread
      constructor
      · simp only [List.length_cons, List.length_nil]
        omega
      · simp only [List.mem_cons, List.not_mem_nil, or_false]
        rintro g (rfl | rfl) <;> omega
    next =>
      split
      next g rest hgroup =>
        obtain ⟨_, hread⟩ := separated_reads hgroup
        have hg := readNumber_le hread
        obtain ⟨hlen, hall⟩ := ih false rest
        constructor
        · simp only [List.length_cons]
          omega
        · simp only [List.mem_cons]
          rintro s (rfl | hs)
          · omega
          · exact hall s hs
      next => simp

theorem readIpv6_valid {segments : List ℕ} {t rest : Text}
    (h : readIpv6 t = some (segments, rest)) :
    segments.length = 8 ∧ ∀ g ∈ segments, g < 65536 := by
  obtain ⟨hlen, hall⟩ := readGroups_small 8 true t
  unfold readIpv6 at h
  generalize readGroups 8 true t = read at h hlen hall
  obtain ⟨head, dotted, gap⟩ := read
  dsimp only at h hlen hall
  split_ifs at h with hfull
  · cases h
    exact ⟨hfull, hall⟩
  · split at h
    · rename_i rest
      obtain ⟨htailLen, htailAll⟩ := readGroups_small (7 - head.length) true rest
      cases h
      constructor
      · simp only [List.length_append, List.length_replicate]
        omega
      · intro g hg
        rcases List.mem_append.mp hg with hg | hg
        · rcases List.mem_append.mp hg with hg | hg
          · exact hall g hg
          · rw [List.eq_of_mem_replicate hg]
            decide
        · exact htailAll g hg
    · cases h

theorem readAfter_le {mark : Char} {bound v : ℕ} {t rest : Text}
    (h : readAfter mark bound t = some (v, rest)) : v ≤ bound := by
  unfold readAfter at h
  split at h
  · split_ifs at h
    exact readNumber_le h
  · cases h

theorem valid_of_parse {t : Text} {address : SocketAddr} (h : parseSocketAddr t = some address) :
    address.Valid := by
  have hread : (readSocketV4 t).orElse (fun _ => readSocketV6 t) = some (address, []) := by
    unfold parseSocketAddr at h
    split at h
    next hread =>
      cases h
      exact hread
    next => cases h
  cases hv4 : readSocketV4 t with
  | some r =>
    rw [hv4] at hread
    cases hread
    obtain ⟨⟨⟨a, b, c, d⟩, t₁⟩, hip, hv4⟩ := Option.bind_eq_some_iff.mp hv4
    obtain ⟨⟨port, t₂⟩, hport, hv4⟩ := Option.bind_eq_some_iff.mp hv4
    cases hv4
    obtain ⟨ha, hb, hc, hd⟩ := readIpv4_lt hip
    exact ⟨ha, hb, hc, hd, Nat.lt_succ_of_le (readAfter_le hport)⟩
  | none =>
    rw [hv4] at hread
    change readSocketV6 t = some (address, []) at hread
    unfold readSocketV6 at hread
    split at hread
    next t =>
      obtain ⟨⟨segments, t₁⟩, hip, hread⟩ := Option.bind_eq_some_iff.mp hread
      have hscope : ∀ r, (readAfter '%' (2 ^ 32 - 1) t₁).getD (0, t₁) = r → r.1 < 2 ^ 32 := by
        rintro r rfl
        cases hscope : readAfter '%' (2 ^ 32 - 1) t₁ with
        | none => simp
        | some r => exact Nat.lt_of_le_pred (by decide) (readAfter_le hscope)
      dsimp only at hread
      generalize (readAfter '%' (2 ^ 32 - 1) t₁).getD (0, t₁) = r at hread hscope
      have hscope := hscope r rfl
      split at hread
      · obtain ⟨⟨port, t₃⟩, hport, hread⟩ := Option.bind_eq_some_iff.mp hread
        cases hread
        exact ⟨readIpv6_valid hip, hscope, Nat.lt_succ_of_le (readAfter_le hport)⟩
      · cases hread
    next => cases hread

end SocketText
