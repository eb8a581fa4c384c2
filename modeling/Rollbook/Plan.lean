import Rollbook.Notice
import Rollbook.Record
/-
  Rollbook.Plan — a call of the service as data.

  A plan is what a call does: questions to the directory and the store (an append
  is a question too, since it may be refused), readings of the clock, lines for
  the log, and in the end an answer or a failure. A question whose answer is a
  failure ends the plan with that failure; no plan can do anything else with it.

  Who answers is left open. `Backend` is one answer per question over a state,
  `run` asks them one after the other, and `Backend.withOutages` makes chosen
  methods fail without being asked. Since a plan is a value, it can also be
  stopped between any two questions, which is what interleaved callers do.
-/

namespace Rollbook

/-- Where a session stands when roles are looked up. -/
inductive Scope where
  | course (course : CourseId)
  | standalone
  deriving DecidableEq, Repr

/-! ## Questions -/

inductive Query where
  | systemRoles (member : MemberId)
  | courseRole (member : MemberId) (course : CourseId)
  | sessionScope (session : SessionId)
  | courseSessions (course : CourseId)
  | courseMembers (course : CourseId)
  | find (session : SessionId) (member : MemberId)
  | append (record : Record)
  | findAll (member : MemberId) (sessions : List SessionId)
  deriving DecidableEq

namespace Query

/-- What a question is answered with. -/
def Answer : Query → Type
  | .systemRoles _ => List SystemRole
  | .courseRole .. => Option CourseRole
  | .sessionScope _ => Option Scope
  | .courseSessions _ => List SessionId
  | .courseMembers _ => List MemberId
  | .find .. => Option Record
  | .append _ => Record
  | .findAll .. => List Record

/-- The kinds of questions, the first five to a directory and the others to a store. -/
inductive Method where
  | systemRoles
  | courseRole
  | sessionScope
  | courseSessions
  | courseMembers
  | find
  | append
  | findAll
  deriving DecidableEq, Repr

instance : Labelled Method where
  all := [.systemRoles, .courseRole, .sessionScope, .courseSessions, .courseMembers, .find, .append,
    .findAll]
  label
    | .systemRoles => "system_roles"
    | .courseRole => "course_role"
    | .sessionScope => "session_scope"
    | .courseSessions => "course_sessions"
    | .courseMembers => "course_members"
    | .find => "find_by_session_and_member"
    | .append => "append"
    | .findAll => "find_by_member"

def method : Query → Method
  | .systemRoles _ => .systemRoles
  | .courseRole .. => .courseRole
  | .sessionScope _ => .sessionScope
  | .courseSessions _ => .courseSessions
  | .courseMembers _ => .courseMembers
  | .find .. => .find
  | .append _ => .append
  | .findAll .. => .findAll

end Query

/-! ## Plans -/

inductive Plan (α : Type) where
  | done (result : Except Failure α)
  | ask (q : Query) (next : q.Answer → Plan α)
  | clock (next : Instant → Plan α)
  | note (n : Notice) (next : Plan α)

namespace Plan

variable {α β : Type}

/-- Goes on with `f` when the plan has an answer. -/
def bind (p : Plan α) (f : α → Plan β) : Plan β :=
  match p with
  | .done (.ok a) => f a
  | .done (.error e) => .done (.error e)
  | .ask q next => .ask q fun a => (next a).bind f
  | .clock next => .clock fun t => (next t).bind f
  | .note n next => .note n (next.bind f)

instance : Monad Plan where
  pure a := .done (.ok a)
  bind := bind

def fail (e : Failure) : Plan α := .done (.error e)

/-- A question as a plan of its own. -/
def query (q : Query) : Plan q.Answer := .ask q fun a => .done (.ok a)

def now : Plan Instant := .clock fun t => .done (.ok t)

/-- A line for the log. -/
def log (n : Notice) : Plan Unit := .note n (.done (.ok ()))

/-- The answer of a step that needs nothing from outside. -/
def lift (r : Except Failure α) : Plan α := .done r

def systemRoles (member : MemberId) : Plan (List SystemRole) := query (.systemRoles member)

def courseRole (member : MemberId) (course : CourseId) : Plan (Option CourseRole) :=
  query (.courseRole member course)

def sessionScope (session : SessionId) : Plan (Option Scope) := query (.sessionScope session)

def courseSessions (course : CourseId) : Plan (List SessionId) := query (.courseSessions course)

def courseMembers (course : CourseId) : Plan (List MemberId) := query (.courseMembers course)

def find (session : SessionId) (member : MemberId) : Plan (Option Record) :=
  query (.find session member)

def append (record : Record) : Plan Record := query (.append record)

def findAll (member : MemberId) (sessions : List SessionId) : Plan (List Record) :=
  query (.findAll member sessions)

end Plan

/-! ## Answering -/

/-- The outcome of a question or a plan: its result, the state after it and the lines logged. -/
structure Reply (σ α : Type) where
  result : Except Failure α
  state : σ
  notes : List Notice

/-- Answers every question over a state. -/
abbrev Backend (σ : Type) := (q : Query) → σ → Reply σ q.Answer

/-- The methods that are down, each with the error it reports; the first entry of a method counts. -/
abbrev Outages := List (Query.Method × DbError)

namespace Backend

variable {σ : Type}

/-- The same backend, except that a method that is down reports its error and does nothing. -/
def withOutages (b : Backend σ) (down : Outages) : Backend σ := fun q s =>
  match down.lookup q.method with
  | some e => ⟨.error (.database e), s, []⟩
  | none => b q s

end Backend

namespace Plan

variable {σ α : Type}

/-- Runs a plan to its end while the clock shows `time`. -/
def run (b : Backend σ) (time : Instant) : Plan α → σ → Reply σ α
  | .done r, s => ⟨r, s, []⟩
  | .ask q next, s =>
    match b q s with
    | ⟨.error e, s', notes⟩ => ⟨.error e, s', notes⟩
    | ⟨.ok a, s', notes⟩ =>
      let rest := run b time (next a) s'
      { rest with notes := notes ++ rest.notes }
  | .clock next, s => run b time (next time) s
  | .note n next, s =>
    let rest := run b time next s
    { rest with notes := n :: rest.notes }

end Plan

end Rollbook
