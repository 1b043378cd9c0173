import Fumox.RustText

/-!
Domain models: proxy schemes, lifecycle statuses, parameters and proxy entries, together with the
vocabulary of the certificate-verification toggles.
-/

namespace ProxyModels

open RustText

inductive Scheme where
  | vless | vmess | trojan | ss | hysteria2 | tuic | mieru | socks5 | naive | snell | anyTls
  deriving DecidableEq, Repr

namespace Scheme

def asStr : Scheme → Text
  | vless => "vless"
  | vmess => "vmess"
  | trojan => "trojan"
  | ss => "ss"
  | hysteria2 => "hysteria2"
  | tuic => "tuic"
  | mieru => "mieru"
  | socks5 => "socks5"
  | naive => "naive"
  | snell => "snell"
  | anyTls => "anytls"

/-- The `FromStr` table of schemes. -/
def fromStr (s : Text) : Option Scheme :=
  if s = "vless" then some vless
  else if s = "vmess" then some vmess
  else if s = "trojan" then some trojan
  else if s = "ss" then some ss
  else if s = "hysteria2" ∨ s = "hy2" then some hysteria2
  else if s = "tuic" then some tuic
  else if s = "mieru" then some mieru
  else if s = "socks5" then some socks5
  else if s = "naive" then some naive
  else if s = "snell" then some snell
  else if s = "anytls" then some anyTls
  else none

theorem fromStr_asStr (s : Scheme) : fromStr s.asStr = some s := by
  cases s <;> decide

def all : List Scheme :=
  [vless, vmess, trojan, ss, hysteria2, tuic, mieru, socks5, naive, snell, anyTls]

theorem asStr_injective : Function.Injective asStr := by
  intro a b h
  have hparse := congrArg fromStr h
  rwa [fromStr_asStr, fromStr_asStr, Option.some.injEq] at hparse

theorem asStr_alphanumeric (s : Scheme) : ∀ c ∈ s.asStr, c.isAlphanum = true := by
  cases s <;> decide

end Scheme

inductive ProxyStatus where
  | unknown | alive | ready | quarantine | removed
  deriving DecidableEq, Repr

/-- A protocol parameter in its original position.  `known` records whether the parser recognized
the key for the scheme. -/
structure Param where
  key : Text
  value : Text
  known : Bool
  deriving DecidableEq, Repr

structure ProxyEntry where
  scheme : Scheme
  name : Text
  host : Text
  port : UInt16
  credential : Text
  params : List Param
  rawPath : Text
  rawLine : Text
  deriving DecidableEq, Repr

def insecureAliases : List Text :=
  ["insecure", "allowinsecure", "skip-cert-verify", "allow_insecure"]

/-- `1`, `true`, `yes` or `on`, trimmed and in any letter case. -/
def isTruthyToggle (value : Text) : Bool :=
  let v := toAsciiLowercase (trim value)
  v = "1" || v = "true" || v = "yes" || v = "on"

def isInsecureParam (param : Param) : Bool :=
  insecureAliases.contains (toAsciiLowercase param.key) && isTruthyToggle param.value

namespace ProxyEntry

def param (entry : ProxyEntry) (key : Text) : Option Text :=
  (entry.params.find? fun p => p.key == key).map (·.value)

def paramIgnoreCase (entry : ProxyEntry) (key : Text) : Option Text :=
  (entry.params.find? fun p => eqIgnoreAsciiCase p.key key).map (·.value)

end ProxyEntry

end ProxyModels
