import Relocation.Origin

/-!
# Following a chain of links by hand

A chain of links is followed one link at a time, by putting the text of each target behind the directory of its
link. Nothing is shortened on the way, so the path reached is the one the last link spells. The chain ends at
something that is no link; after forty links it is given up.
-/

namespace Relocation.LinkChain

/-- How many links are followed after the first one. -/
def maxHops : Nat := 40

/-- The target of a link; a relative one is seen from the directory of the link. -/
def seenFrom (link target : NativePath) : Except LocateError NativePath :=
  if target.isAbsolute then .ok target
  else
    match link.parent? with
    | some dir => .ok (dir.join target)
    | none => .error (.notAbsolute target)

/-- Where a link leads. -/
def follow (fs : FileSystem) (link : NativePath) : Except LocateError NativePath :=
  match fs.readLink link with
  | .error e => .error (.readLink e)
  | .ok target => seenFrom link target

/-- Follows links from a path on, as long as it is one. -/
def chase (fs : FileSystem) : Nat → NativePath → Except LocateError NativePath
  | 0, _ => .error (.readLink .chainTooLong)
  | hops + 1, current =>
    match fs.isLink current with
    | .error e => .error (.readLink e)
    | .ok false => .ok current
    | .ok true =>
      match follow fs current with
      | .error e => .error e
      | .ok next => chase fs hops next

/-- The end of the chain that starts with the link at a path. -/
def resolve (fs : FileSystem) (start : NativePath) : Except LocateError NativePath :=
  match follow fs start with
  | .error e => .error e
  | .ok current => chase fs maxHops current

theorem isLink_chase (fs : FileSystem) (hops : Nat) (start last : NativePath)
    (h : chase fs hops start = .ok last) : fs.isLink last = .ok false := by
  induction hops generalizing start with
  | zero => simp [chase] at h
  | succ n ih =>
    unfold chase at h
    split at h
    · cases h
    · next hl => cases h; exact hl
    · split at h
      · cases h
      · exact ih _ h

/-- What an absolute link leads to is absolute. -/
theorem isAbsolute_follow (fs : FileSystem) (link next : NativePath) (ha : link.isAbsolute = true)
    (h : follow fs link = .ok next) : next.isAbsolute = true := by
  rw [follow] at h
  split at h
  · cases h
  · next target _ =>
    rw [seenFrom] at h
    split at h
    · next ht =>
      cases h
      exact ht
    · split at h
      · next dir hd =>
        cases h
        exact NativePath.isAbsolute_join dir target (NativePath.isAbsolute_parent? link dir ha hd)
      · cases h

theorem isAbsolute_chase (fs : FileSystem) (hops : Nat) (start last : NativePath) (ha : start.isAbsolute = true)
    (h : chase fs hops start = .ok last) : last.isAbsolute = true := by
  induction hops generalizing start with
  | zero => cases h
  | succ hops ih =>
    rw [chase] at h
    split at h
    · cases h
    · cases h
      exact ha
    · split at h
      · cases h
      · next next hn => exact ih next (isAbsolute_follow fs start next ha hn) h

end Relocation.LinkChain
