import Fumox.SubscriptionParser

/-!
The configuration rows: subscription sources with what their last fetch left, and profiles.
-/

namespace ConfigModels

open RustText JsonValue ProxyModels SubscriptionParser

inductive ErrorClass where
  | network | httpServer | httpClient | parseError
  deriving DecidableEq, Repr

inductive IpFamily where
  | any | ipv4 | ipv6
  deriving DecidableEq, Repr

namespace IpFamily

def asStr : IpFamily → Text
  | any => "any"
  | ipv4 => "ipv4"
  | ipv6 => "ipv6"

def fromStr (s : Text) : Option IpFamily :=
  if s = "any" then some any
  else if s = "ipv4" then some ipv4
  else if s = "ipv6" then some ipv6
  else none

theorem fromStr_asStr (family : IpFamily) : fromStr family.asStr = some family := by
  cases family <;> decide

end IpFamily

inductive OutputFormat where
  | uriList | base64 | clash | singBox
  deriving DecidableEq, Repr

structure Source where
  id : Text
  slug : Option Text := none
  name : Text
  url : Text
  enabled : Bool := true
  encoding : Encoding := .auto
  inputFormat : Option InputFormat := none
  protocols : Option (List Scheme) := none
  cacheTtlSeconds : ℤ := 3600
  tags : Option (List Text) := none
  pipeline : Option Json := none
  headers : Option (List (Text × Text)) := none
  ipFamily : Option IpFamily := none
  createdAt : ℤ := 0
  updatedAt : ℤ := 0
  lastFetchedAt : Option ℤ := none
  lastError : Option Text := none
  errorClass : Option ErrorClass := none

structure Profile where
  id : Text
  slug : Option Text := none
  accessToken : Option Text := none
  name : Text
  outputFormat : OutputFormat := .uriList
  pipeline : Option Json := none
  countries : List Text := []
  enabled : Bool := true
  createdAt : ℤ := 0
  updatedAt : ℤ := 0

end ConfigModels
