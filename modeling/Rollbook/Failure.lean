import Rollbook.Id
import Rollbook.Text.Quoted
/-
  Rollbook.Failure — why a call fails.

  A database error says what the database refused or reported. A failure of the
  service is either a refusal by its own rules or a database error passed on. The
  wording of both is given by `message`, and `kind` sorts failures for callers
  that do not tell all of them apart.
-/

namespace Rollbook

/-- The layer that reported a database error. -/
inductive DbError.Layer where
  | custom
  | connection
  | execution
  | query
  | recordNotFound
  | type
  deriving DecidableEq, Repr

/-- What is wrong with the parameters that say how a database is opened. -/
inductive Misconfiguration where
  /-- The name of the file is no text: the position of the first bad byte, and how many bytes are bad
      unless the name ends too early. -/
  | badName (index : Nat) (length : Option Nat)
  | unknownValue (parameter value : String)
  | unknownParameter (name : String)
  deriving DecidableEq, Repr

namespace Misconfiguration

def text : Misconfiguration → String
  | .badName index (some length) =>
    s!"invalid utf-8 sequence of {length} bytes from index {index}"
  | .badName index none => s!"incomplete utf-8 byte sequence from index {index}"
  | .unknownValue parameter value =>
    "unknown value " ++ Text.quoted value ++ " for `" ++ parameter ++ "`"
  | .unknownParameter name =>
    "unknown query parameter `" ++ name ++ "` while parsing connection URL"

end Misconfiguration

inductive DbError where
  /-- Reported from outside with a text of its own. -/
  | reported (layer : DbError.Layer) (text : String)
  /-- A row names a parent that does not exist. -/
  | parentMissing
  /-- A row cannot go while others name it. -/
  | childrenLeft
  /-- Two events at one position of a log. -/
  | positionTaken
  /-- A role column holds an unknown word. -/
  | unknownRole (ladder text : String)
  /-- A column holds a number that does not fit its type. -/
  | outOfRange (column : String)
  /-- A table has no identifier left. -/
  | full
  | tableMissing (table : String)
  /-- One request to the tables names more values than it can. -/
  | tooManyValues (layer : DbError.Layer)
  /-- The text that says where the database is cannot be taken apart. -/
  | unreadableLocator (locator : String)
  /-- There is no driver for this kind of database. -/
  | noDriver (locator : String)
  | misconfigured (why : Misconfiguration)
  /-- The name of the file holds a NUL. -/
  | nulInName
  /-- The file is to be found at another machine. -/
  | foreignHost (host : String)
  /-- There is no such way of reaching files. -/
  | noFileSystem (name : String)
  /-- There is no such mode of a kind. -/
  | unknownMode (kind mode : String)
  /-- The mode gives more access than there is. -/
  | modeRefused (mode : String)
  | cannotOpen
  | cannotRead
  /-- The permissions of a file cannot be looked up. -/
  | cannotInspect
  /-- What lies beside a database and belongs to it cannot be opened, read or removed. -/
  | cannotOpenBeside
  | cannotReadBeside
  | cannotDeleteBeside
  /-- The users of a log cannot agree on it. -/
  | noAgreement
  | readOnly
  /-- A change that was interrupted cannot be taken back in a file that is only read. -/
  | readOnlyRecovery
  | notADatabase
  /-- The file contradicts itself. -/
  | malformed
  /-- What the file says about a table or index contradicts itself. -/
  | malformedSchema (name detail : String)
  | unsupportedFormat
  /-- A table cannot have the name of an index, nor an index that of a table. -/
  | nameOfIndex (name : String)
  | nameOfTable (name : String)
  | viewIndexed
  | virtualTableIndexed
  deriving DecidableEq, Repr

namespace DbError

/-- What a layer puts before its text. -/
def Layer.label : Layer → String
  | .custom => "Custom Error"
  | .connection => "Connection Error"
  | .execution => "Execution Error"
  | .query => "Query Error"
  | .recordNotFound => "RecordNotFound Error"
  | .type => "Type Error"

/-- A text that the database engine gives with a result code. -/
def engineText (code : Nat) (text : String) : String :=
  s!"error returned from database: (code: {code}) {text}"

def layer : DbError → Layer
  | .reported l _ | .tooManyValues l => l
  | .unknownRole .. => .type
  | .outOfRange _ => .query
  | .unreadableLocator _ | .noDriver _ | .misconfigured _ | .nulInName | .foreignHost _
  | .noFileSystem _ | .unknownMode .. | .modeRefused _ | .cannotOpen | .cannotRead
  | .cannotInspect => .connection
  | _ => .execution

def text : DbError → String
  | .reported _ t => t
  | .parentMissing => engineText 787 "FOREIGN KEY constraint failed"
  | .childrenLeft => engineText 1811 "FOREIGN KEY constraint failed"
  | .positionTaken =>
    engineText 2067 "UNIQUE constraint failed: attendance_events.attendance_id, attendance_events.seq"
  | .unknownRole ladder t => s!"unexpected value for {ladder} enum: {t}"
  | .outOfRange column =>
    "error occurred while decoding column " ++ Text.quoted column ++
      ": out of range integral type conversion attempted"
  | .full => engineText 13 "database or disk is full"
  | .tooManyValues _ => engineText 1 "too many SQL variables"
  | .tableMissing table => engineText 1 s!"no such table: {table}"
  | .unreadableLocator l => s!"The connection string '{l}' cannot be parsed."
  | .noDriver l => s!"The connection string '{l}' has no supporting driver."
  | .misconfigured why => "error with configuration: " ++ why.text
  | .nulInName =>
    "error communicating with database: filename passed to SQLite must not contain nul bytes"
  | .foreignHost host => engineText 1 s!"invalid uri authority: {host}"
  | .noFileSystem name => engineText 1 s!"no such vfs: {name}"
  | .unknownMode kind mode => engineText 1 s!"no such {kind} mode: {mode}"
  | .modeRefused mode => engineText 3 s!"access mode not allowed: {mode}"
  | .cannotOpen | .cannotOpenBeside => engineText 14 "unable to open database file"
  | .cannotRead | .cannotReadBeside => engineText 266 "disk I/O error"
  | .cannotInspect => engineText 1802 "disk I/O error"
  | .cannotDeleteBeside => engineText 2570 "disk I/O error"
  | .noAgreement => engineText 15 "locking protocol"
  | .readOnly => engineText 8 "attempt to write a readonly database"
  | .readOnlyRecovery => engineText 776 "attempt to write a readonly database"
  | .notADatabase => engineText 26 "file is not a database"
  | .malformed => engineText 11 "database disk image is malformed"
  | .malformedSchema name detail =>
    engineText 11 (s!"malformed database schema ({name})" ++ if detail = "" then "" else s!" - {detail}")
  | .unsupportedFormat => engineText 1 "unsupported file format"
  | .nameOfIndex name => engineText 1 s!"there is already an index named {name}"
  | .nameOfTable name => engineText 1 s!"there is already a table named {name}"
  | .viewIndexed => engineText 1 "views may not be indexed"
  | .virtualTableIndexed => engineText 1 "virtual tables may not be indexed"

def message (e : DbError) : String := s!"{e.layer.label}: {e.text}"

end DbError

inductive Failure where
  | validation (text : String)
  | sameStatus
  | notAuthorized (text : String)
  | ownReview
  | alreadyCheckedIn
  | notCheckedIn
  | correctionPending
  | nothingPending
  | notFound (session : SessionId) (member : MemberId)
  /-- A store holds another version than the one an append was made from. -/
  | conflict (expected found : Version)
  /-- An append was made from the last version that there can be. -/
  | noNextVersion
  | database (e : DbError)
  /-- A stored event cannot be read. -/
  | unreadable
  deriving DecidableEq, Repr

namespace Failure

/-- A coarse sorting of failures. -/
inductive Kind where
  | validation
  | authorization
  | stateConflict
  | notFound
  | concurrency
  | storage
  deriving DecidableEq, Repr

def kind : Failure → Kind
  | .validation _ | .sameStatus => .validation
  | .notAuthorized _ | .ownReview => .authorization
  | .alreadyCheckedIn | .notCheckedIn | .correctionPending | .nothingPending => .stateConflict
  | .notFound .. => .notFound
  | .conflict .. | .noNextVersion => .concurrency
  | .database _ | .unreadable => .storage

/-- The wording of a failure; an unreadable event has none. -/
def message? : Failure → Option String
  | .validation t => some s!"Validation failed: {t}"
  | .sameStatus => some "Requested status is the same as the current status"
  | .notAuthorized t => some s!"Not authorized: {t}"
  | .ownReview => some "A correction cannot be reviewed by the member who requested it"
  | .alreadyCheckedIn => some "Member is already checked in"
  | .notCheckedIn => some "Member is not checked in"
  | .correctionPending => some "A correction request is already pending"
  | .nothingPending => some "There is no pending correction request"
  | .notFound s m => some s!"Attendance not found for session {s} and member {m}"
  | .conflict e f => some s!"Concurrent modification: expected version {e}, found {f}"
  | .noNextVersion => some "attempt to add with overflow"
  | .database e => some s!"Database error: {e.message}"
  | .unreadable => none

end Failure

end Rollbook
