import Relocation.Text.Basic

/-!
# Why a text is not a URL
-/

namespace Relocation.Url

/-- The reasons a text is rejected as a URL. -/
inductive Error where
  | relativeWithoutBase
  | emptyHost
  | idna
  | invalidPort
  | invalidIpv4
  | invalidIpv6
  | invalidDomainCharacter
  deriving DecidableEq, Repr

def Error.message : Error → Text
  | relativeWithoutBase => "relative URL without a base".toList
  | emptyHost => "empty host".toList
  | idna => "invalid international domain name".toList
  | invalidPort => "invalid port number".toList
  | invalidIpv4 => "invalid IPv4 address".toList
  | invalidIpv6 => "invalid IPv6 address".toList
  | invalidDomainCharacter => "invalid domain character".toList

end Relocation.Url
