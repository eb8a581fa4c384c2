import Rollbook.Keyed
import Rollbook.Plan
/-
  Rollbook.Shelf — the store in memory.

  One log per session and member, with the number it was given when it was first
  stored and its version. An append compares the version it was made from with
  the one on the shelf before anything else; it then adds the events that are not
  stored yet and raises the version by one. An append with nothing to add changes
  nothing.
-/

namespace Rollbook

/-- A log on the shelf. -/
structure Stored where
  id : RecordId
  version : Version
  events : List Event
  deriving DecidableEq

structure Shelf where
  /-- The number given last. -/
  lastId : RecordId
  records : List ((SessionId × MemberId) × Stored)

namespace Shelf

def empty : Shelf := ⟨0, []⟩

def stored? (s : Shelf) (session : SessionId) (member : MemberId) : Option Stored :=
  s.records.lookup (session, member)

def find (s : Shelf) (session : SessionId) (member : MemberId) : Option Record :=
  (s.stored? session member).map fun k => .rehydrate k.id session member k.version k.events

/-- The records of a member, one for each of the sessions that has one. -/
def findAll (s : Shelf) (member : MemberId) (sessions : List SessionId) : List Record :=
  sessions.filterMap fun session => s.find session member

def append (s : Shelf) (r : Record) : Reply Shelf Record :=
  let old := s.stored? r.session r.member
  let found := (old.map (·.version)).getD 0
  if found ≠ r.version then
    ⟨.error (.conflict r.version found), s, [.versionConflict r.session r.member r.version found]⟩
  else if r.uncommitted.isEmpty then ⟨.ok r, s, []⟩
  else
    let kept : Stored := old.getD ⟨s.lastId + 1, 0, []⟩
    let new : Stored := ⟨kept.id, kept.version + 1, kept.events ++ r.uncommitted⟩
    ⟨.ok (r.stored kept.id),
     ⟨if old.isSome then s.lastId else s.lastId + 1, Keyed.put (r.session, r.member) new s.records⟩,
     []⟩

end Shelf

end Rollbook
