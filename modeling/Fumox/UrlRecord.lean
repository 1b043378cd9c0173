import Fumox.PercentText
import Fumox.SocketText

/-!
URL records: their components, the text that they are written as, and the setters.  Reading a text
is left to the user of the library, who states what it relies on with `Standard`.
-/

namespace UrlRecord

open RustText PercentText AddressText SocketText

inductive Host where
  | domain (name : Text)
  | ipv4 (a b c d : ℕ)
  | ipv6 (segments : List ℕ)
  deriving DecidableEq, Repr

structure Url where
  scheme : Text
  username : Text := []
  password : Text := []
  host : Option Host := none
  port : Option ℕ := none
  path : Text := []
  query : Option Text := none
  fragment : Option Text := none
  deriving DecidableEq, Repr

def isSpecial (scheme : Text) : Bool :=
  decide (scheme ∈ (["ftp", "file", "http", "https", "ws", "wss"] : List Text))

def defaultPort (scheme : Text) : Option ℕ :=
  if scheme = "http" ∨ scheme = "ws" then some 80
  else if scheme = "https" ∨ scheme = "wss" then some 443
  else if scheme = "ftp" then some 21
  else none

def Url.portOrKnownDefault (u : Url) : Option ℕ :=
  u.port.orElse fun _ => defaultPort u.scheme

def percentEncode (set : Char → Bool) (t : Text) : Text :=
  t.flatMap fun c => if set c then (String.utf8EncodeChar c).flatMap percentByte else [c]

def c0ControlSet (c : Char) : Bool := c.toNat < 0x20 || 0x7E < c.toNat

def querySet (c : Char) : Bool :=
  c0ControlSet c || c == ' ' || c == '"' || c == '#' || c == '<' || c == '>'

def specialQuerySet (c : Char) : Bool := querySet c || c == '\''

def userinfoSet (c : Char) : Bool :=
  querySet c || c ∈ ("?^\x60\x7b\x7d/:;=@[\\]|" : Text)

/-- The characters that the query of a URL of this scheme does not hold as they are. -/
def querySetOf (scheme : Text) : Char → Bool :=
  if isSpecial scheme then specialQuerySet else querySet

theorem percentEncode_eq_self {set : Char → Bool} {t : Text} (h : ∀ c ∈ t, set c = false) :
    percentEncode set t = t := by
  induction t with
  | nil => rfl
  | cons c t ih =>
    have htail := ih fun d hd => h d (List.mem_cons_of_mem c hd)
    unfold percentEncode at htail ⊢
    rw [List.flatMap_cons, h c List.mem_cons_self, htail]
    rfl

/-- The standard's own form of a sixth version address, without a dotted part. -/
def printHostV6 (segments : List ℕ) : Text :=
  let zeroes := longestZeros 0 ⟨0, 0⟩ ⟨0, 0⟩ segments
  if 1 < zeroes.len then
    joinGroups true (segments.take zeroes.start) ++ "::" ++
      joinGroups true (segments.drop (zeroes.start + zeroes.len))
  else joinGroups true segments

def Host.text : Host → Text
  | .domain name => name
  | .ipv4 a b c d => printIpv4 a b c d
  | .ipv6 segments => '[' :: (printHostV6 segments ++ [']'])

def Url.hostStr (u : Url) : Option Text := u.host.map Host.text

def Url.credentials (u : Url) : Text :=
  if u.username = [] ∧ u.password = [] then []
  else u.username ++ (if u.password = [] then [] else ':' :: u.password) ++ ['@']

def Url.authority (u : Url) : Text :=
  match u.host with
  | some host =>
    "//" ++ u.credentials ++ host.text ++ (u.port.elim [] fun port => ':' :: decimal port)
  | none => if ("//" : Text).isPrefixOf u.path then "/." else []

def Url.serialize (u : Url) : Text :=
  u.scheme ++ ':' :: (u.authority ++ u.path ++ u.query.elim [] (fun query => '?' :: query) ++
    u.fragment.elim [] fun fragment => '#' :: fragment)

/-- A URL without a host to log in at has no user name and no password. -/
def Url.cannotHaveCredentials (u : Url) : Bool :=
  decide (u.host = none ∨ u.host = some (.domain []) ∨ u.scheme = ("file" : Text))

def Url.setUsername (u : Url) (username : Text) : Url :=
  if u.cannotHaveCredentials then u
  else { u with username := percentEncode userinfoSet username }

def Url.setPassword (u : Url) (password : Option Text) : Url :=
  if u.cannotHaveCredentials then u
  else { u with password := percentEncode userinfoSet (password.getD []) }

/-- Tabs and line ends are dropped, and the rest is encoded for the scheme. -/
def Url.setQuery (u : Url) (query : Text) : Url :=
  { u with
    query := some (percentEncode (querySetOf u.scheme)
      (query.filter fun c => decide (c ≠ '\t' ∧ c ≠ '\n' ∧ c ≠ '\r'))) }

/-- What every URL that is read from a text meets, of any scheme. -/
structure Standard (u : Url) : Prop where
  credentials : u.cannotHaveCredentials = true → u.username = [] ∧ u.password = []
  query : ∀ query, u.query = some query → ∀ c ∈ query, querySetOf u.scheme c = false

/-- A reader of URLs, which reads back what it has written. -/
structure Reading (parse : Text → Option Url) : Prop where
  standard : ∀ text u, parse text = some u → Standard u
  serialize : ∀ text u, parse text = some u → parse u.serialize = some u

/-- The host of a URL that is read from a text.  The name of a scheme that is not special is any
text, an address as well. -/
structure StandardHost (u : Url) : Prop where
  scheme_lower : toAsciiLowercase u.scheme = u.scheme
  ipv4 : ∀ a b c d, u.host = some (.ipv4 a b c d) → a < 256 ∧ b < 256 ∧ c < 256 ∧ d < 256
  host : isSpecial u.scheme = true → u.scheme ≠ ("file" : Text) → u.host ≠ none
  domain_lower : ∀ name, isSpecial u.scheme = true → u.host = some (.domain name) →
    toAsciiLowercase name = name

def ReadsHosts (parse : Text → Option Url) : Prop :=
  ∀ text u, parse text = some u → StandardHost u

section Removal

variable {u : Url}

theorem querySetOf_of_querySet {scheme : Text} {c : Char} (hset : specialQuerySet c = false) :
    querySetOf scheme c = false := by
  unfold querySetOf
  split_ifs
  · exact hset
  · unfold specialQuerySet at hset
    exact (Bool.or_eq_false_iff.mp hset).1

theorem Standard.remove_credentials (h : Standard u) :
    (u.setUsername []).setPassword none = { u with username := [], password := [] } := by
  by_cases hcannot : u.cannotHaveCredentials = true
  · obtain ⟨hname, hpassword⟩ := h.credentials hcannot
    unfold Url.setPassword Url.setUsername
    rw [if_pos hcannot, if_pos hcannot]
    cases u
    cases hname
    cases hpassword
    rfl
  · have hcannot' : ¬(u.setUsername []).cannotHaveCredentials = true := by
      unfold Url.setUsername
      rw [if_neg hcannot]
      exact hcannot
    unfold Url.setPassword
    rw [if_neg hcannot']
    unfold Url.setUsername
    rw [if_neg hcannot]
    rfl

theorem querySetOf_control {scheme : Text} {c : Char} (hc : c.toNat < 0x20) :
    querySetOf scheme c = true := by
  unfold querySetOf specialQuerySet querySet c0ControlSet
  split_ifs <;> simp [hc]

theorem setQuery_eq {query : Text} (h : ∀ c ∈ query, querySetOf u.scheme c = false) :
    u.setQuery query = { u with query := some query } := by
  have hcontrol : ∀ c ∈ query, ¬c.toNat < 0x20 := by
    intro c hc hlow
    exact absurd (h c hc) (by rw [querySetOf_control hlow]; exact Bool.noConfusion)
  have hkept : ∀ c ∈ query, c ≠ '\t' ∧ c ≠ '\n' ∧ c ≠ '\r' := by
    intro c hc
    have hlow := hcontrol c hc
    refine ⟨?_, ?_, ?_⟩
    · rintro rfl
      exact hlow (by decide)
    · rintro rfl
      exact hlow (by decide)
    · rintro rfl
      exact hlow (by decide)
  unfold Url.setQuery
  rw [List.filter_eq_self.mpr fun c hc => decide_eq_true (hkept c hc), percentEncode_eq_self h]

/-- Texts of URLs that differ in nothing but the query are different. -/
theorem serialize_query_inj {query query' : Option Text}
    (h : { u with query }.serialize = { u with query := query' }.serialize) : query = query' := by
  have hbody := (List.cons.inj (List.append_cancel_left h)).2
  have hquery := List.append_cancel_left (List.append_cancel_right hbody)
  cases query with
  | none =>
    cases query' with
    | none => rfl
    | some query' => cases hquery
  | some query =>
    cases query' with
    | none => cases hquery
    | some query' => exact congrArg some (List.cons.inj hquery).2

theorem colon_mem_serialize : ':' ∈ u.serialize :=
  List.mem_append_right _ List.mem_cons_self

end Removal

section LowerCase

theorem lower_toDigits {radix : ℕ} (hlo : 1 < radix) (hhi : radix ≤ 16) (n : ℕ) :
    toAsciiLowercase (Nat.toDigits radix n) = Nat.toDigits radix n := by
  have hdigit : ∀ d < radix, toAsciiLowercase [Nat.digitChar d] = [Nat.digitChar d] := by
    have hall : ∀ d : Fin 16, toAsciiLowercase [Nat.digitChar d.val] = [Nat.digitChar d.val] := by
      decide +kernel
    exact fun d hd => hall ⟨d, by omega⟩
  induction n using Nat.strong_induction_on with
  | _ n ih =>
    rw [Nat.toDigits_eq_if hlo]
    split_ifs with hn
    · exact hdigit n hn
    · rw [toAsciiLowercase_append, ih (n / radix) (Nat.div_lt_self (by omega) hlo),
        hdigit _ (Nat.mod_lt n (by omega))]

theorem lower_decimal (n : ℕ) : toAsciiLowercase (decimal n) = decimal n :=
  lower_toDigits (by decide) (by decide) n

theorem lower_cons {c : Char} {t : Text} (hc : c.toLower = c) (ht : toAsciiLowercase t = t) :
    toAsciiLowercase (c :: t) = c :: t :=
  congrArg₂ List.cons hc ht

theorem lower_append {s t : Text} (hs : toAsciiLowercase s = s) (ht : toAsciiLowercase t = t) :
    toAsciiLowercase (s ++ t) = s ++ t := by
  rw [toAsciiLowercase_append, hs, ht]

theorem lower_printIpv4 (a b c d : ℕ) :
    toAsciiLowercase (printIpv4 a b c d) = printIpv4 a b c d :=
  lower_append (lower_append (lower_append (lower_decimal a)
    (lower_cons (by decide) (lower_decimal b))) (lower_cons (by decide) (lower_decimal c)))
    (lower_cons (by decide) (lower_decimal d))

theorem lower_joinGroups (first : Bool) (groups : List ℕ) :
    toAsciiLowercase (joinGroups first groups) = joinGroups first groups := by
  induction groups generalizing first with
  | nil => rfl
  | cons g groups ih =>
    have hcolon : toAsciiLowercase (if first then [] else [':']) = if first then [] else [':'] := by
      cases first <;> decide
    exact lower_append (lower_append hcolon (lower_toDigits (by decide) (by decide) g)) (ih false)

theorem lower_printHostV6 (segments : List ℕ) :
    toAsciiLowercase (printHostV6 segments) = printHostV6 segments := by
  unfold printHostV6
  dsimp only
  split_ifs
  · exact lower_append (lower_append (lower_joinGroups true _) (by decide))
      (lower_joinGroups true _)
  · exact lower_joinGroups true _

theorem StandardHost.hostStr_lower {u : Url} (h : StandardHost u) (hspecial : isSpecial u.scheme = true) :
    toAsciiLowercase (u.hostStr.getD []) = u.hostStr.getD [] := by
  unfold Url.hostStr
  cases hhost : u.host with
  | none => rfl
  | some host =>
    cases host with
    | domain name => exact h.domain_lower name hspecial hhost
    | ipv4 a b c d => exact lower_printIpv4 a b c d
    | ipv6 segments =>
      exact lower_cons (by decide) (lower_append (lower_printHostV6 segments) (by decide))

end LowerCase

section Literals

theorem parseIp_bracketed (t : Text) : parseIp ('[' :: t) = none := by
  cases hip : parseIp ('[' :: t) with
  | none => rfl
  | some ip => exact absurd (parseIp_chars hip '[' List.mem_cons_self) (by decide)

end Literals

end UrlRecord
