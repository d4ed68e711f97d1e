import Relocation.Url.Basic
import Relocation.Url.Domain

/-!
# Reading hosts

A host in brackets is an address of eight groups. Otherwise the host of a special scheme is a domain name, or an
address of four bytes if its last label is a number; the host of any other scheme is taken as it is.
-/

namespace Relocation.Url

/-- An address in brackets, the opening one already seen. -/
def readBracketed (t : Text) : Except Error Host :=
  match t.reverse with
  | ']' :: inner => (Ipv6.read inner.reverse).map Host.ipv6
  | _ => .error .invalidIpv6

def readSpecialHost (t : Text) : Except Error Host :=
  match t with
  | '[' :: rest => readBracketed rest
  | _ =>
    match Domain.toAscii (Percent.decodeText t) with
    | .error e => .error e
    | .ok name =>
      if name = [] then .error .emptyHost
      else if Ipv4.endsInNumber name then (Ipv4.read name).map Host.ipv4
      else .ok (.domain name)

/-- Characters the host of a plain scheme may not hold. -/
def isForbiddenInHost (c : Char) : Bool :=
  ['\x00', '\t', '\n', '\r', ' ', '#', '/', ':', '<', '>', '?', '@', '[', '\\', ']', '^', '|'].contains c

def readPlainHost (t : Text) : Except Error Host :=
  match t with
  | '[' :: rest => readBracketed rest
  | _ =>
    if t.any isForbiddenInHost then .error .invalidDomainCharacter
    else .ok (.domain (Percent.encodeText Percent.controls t))

def readHost (kind : SchemeKind) (t : Text) : Except Error Host :=
  if kind.isSpecial then readSpecialHost t else readPlainHost t

end Relocation.Url
