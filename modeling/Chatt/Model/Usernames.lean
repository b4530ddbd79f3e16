import Chatt.Lib.OrdMap
import Chatt.Lib.RecordLog
import Chatt.Lib.Utf8
import Chatt.Model.Ids

/-!
# The username registry

Who owns which username (crates/server/src/username_registry.rs:33-348,
crates/rpc/src/username.rs:60-176).  The names of configured users are in `users.toml`; those of
dynamic users are in a log of claims.  What the Unicode tables say of a character is a parameter.
A write to the log succeeds or changes nothing.
-/

namespace Chatt.Usernames

open Lib

abbrev Name := List Char

/-- Properties of characters: `char::is_control`, `char::is_whitespace`,
`UnicodeWidthChar::width` and `char::to_lowercase`. -/
structure Unicode where
  isControl : Char → Bool
  isWhitespace : Char → Bool
  width : Char → Option ℕ
  toLowercase : Char → List Char

/-! ## Names (rpc/src/username.rs) -/

def maxUsernameBytes : ℕ := 64

def maxUsernameColumns : ℕ := 32

inductive UsernameError where
  | empty
  | tooLong
  | tooWide
  | control
  | invisible
  | whitespace
  deriving DecidableEq

def UsernameError.text : UsernameError → String
  | .empty => "username is empty"
  | .tooLong => "username exceeds 64 bytes"
  | .tooWide => "username exceeds 32 display columns"
  | .control => "username must not contain control characters"
  | .invisible => "username must not contain invisible characters"
  | .whitespace => "username may only use the ordinary space character"

def isSpace (ch : Char) : Bool := ch = ' '

def trim (name : Name) : Name := (name.dropWhile isSpace).rdropWhile isSpace

/-- The loop of `validate`: the columns after the characters. -/
def countColumns (unicode : Unicode) (columns : ℕ) : Name → Except UsernameError ℕ
  | [] => .ok columns
  | ch :: rest =>
    if unicode.isControl ch then .error .control
    else if ch ≠ ' ' ∧ unicode.isWhitespace ch then .error .whitespace
    else
      match unicode.width ch with
      | some (width + 1) => countColumns unicode (columns + (width + 1)) rest
      | _ => .error .invisible

def validate (unicode : Unicode) (name : Name) : Except UsernameError Unit := do
  let name := trim name
  if name = [] then throw .empty
  if (utf8 name).length > maxUsernameBytes then throw .tooLong
  let columns ← countColumns unicode 0 name
  if columns > maxUsernameColumns then throw .tooWide

/-- Where lowercase and case folding differ. -/
def foldLower (ch : Char) : List Char :=
  if ch = 'ß' then ['s', 's'] else if ch = 'ς' then ['σ'] else [ch]

/-- The loop of `fold`; `pendingSpace` says that a space is still to be written. -/
def foldLoop (unicode : Unicode) (pendingSpace : Bool) : Name → Name
  | [] => []
  | ch :: rest =>
    if ch = ' ' then foldLoop unicode true rest
    else (if pendingSpace then [' '] else []) ++ (unicode.toLowercase ch).flatMap foldLower ++
      foldLoop unicode false rest

def fold (unicode : Unicode) (name : Name) : Name := foldLoop unicode false (trim name)

/-! ## The registry in memory -/

def firstDynamicUserId : ℕ := u32Max + 1

structure Registry where
  byFolded : OrdMap Name UserId
  byUser : OrdMap UserId Name
  deriving DecidableEq

namespace Registry

variable (unicode : Unicode) (registry : Registry)

def empty : Registry := ⟨OrdMap.empty, OrdMap.empty⟩

def ownerOf (name : Name) : Option UserId := registry.byFolded.get? (fold unicode name)

def isAvailable (name : Name) (claimant : Option UserId) : Bool :=
  match registry.ownerOf unicode name with
  | none => true
  | some owner => some owner = claimant

def needsDynamicClaim (userId : UserId) (name : Name) : Bool :=
  registry.byUser.get? userId ≠ some (trim name)

/-- The fold key of the previous name is dropped. -/
def setInMemory (userId : UserId) (name : Name) : Registry :=
  let byFolded :=
    match registry.byUser.get? userId with
    | some previous =>
      let previousKey := fold unicode previous
      if previousKey ≠ fold unicode name ∧ registry.byFolded.get? previousKey = some userId then
        registry.byFolded.erase previousKey
      else registry.byFolded
    | none => registry.byFolded
  { byFolded := byFolded.insert (fold unicode name) userId
    byUser := registry.byUser.insert userId name }

def text (name : Name) : String := String.ofList name

def claimInMemory (userId : UserId) (name : Name) : Except String Registry :=
  if (validate unicode name).isOk = false then
    .error ("username registry contains invalid username for user " ++ toString userId)
  else if registry.isAvailable unicode name (some userId) = false then
    .error ("username registry contains duplicate username '" ++ text name ++ "'")
  else .ok (registry.setInMemory unicode userId name)

/-- The checks that a claim of a dynamic user passes, with the name it is for. -/
def checkDynamicClaim (userId : UserId) (name : Name) : Except String Name :=
  if userId < firstDynamicUserId then
    .error ("user " ++ toString userId ++ " is not a dynamic user")
  else
    match validate unicode name with
    | .error error => .error error.text
    | .ok () =>
      let name := trim name
      if registry.isAvailable unicode name (some userId) = false then
        .error ("username '" ++ text name ++ "' is already in use")
      else .ok name

def applyDynamicClaim (userId : UserId) (name : Name) : Except String Registry := do
  let name ← registry.checkDynamicClaim unicode userId name
  return registry.setInMemory unicode userId name

def setExplicit (userId : UserId) (name : Name) : Registry :=
  registry.setInMemory unicode userId name

end Registry

/-! ## The log of dynamic users (username_registry.rs:286-341) -/

structure ClaimRecord where
  userId : UserId
  name : Name
  deriving DecidableEq

def encodeRecord (record : ClaimRecord) : Bytes :=
  leBytes 8 record.userId ++ Fin.ofNat 256 (utf8 record.name).length :: utf8 record.name

/-- The log after one more record. -/
def writeRecord (log : Bytes) (record : ClaimRecord) : Except String Bytes :=
  if (utf8 record.name).length > 255 then .error "username exceeds the log record cap"
  else .ok (log ++ encodeRecord record)

/-- The record at the front, and the bytes after it. -/
def readRecord (bytes : Bytes) : Option (ClaimRecord × Bytes) :=
  if bytes.length < 9 then none
  else
    let len := (bytes.getD 8 0).val
    if bytes.length < 9 + len then none
    else (fromUtf8 ((bytes.drop 9).take len)).map fun name =>
      (⟨leValue (bytes.take 8), name⟩, bytes.drop (9 + len))

def persistDynamicClaim (log : Bytes) (userId : UserId) (name : Name) : Except String Bytes :=
  if userId < firstDynamicUserId then
    .error ("user " ++ toString userId ++ " is not a dynamic user")
  else (writeRecord log ⟨userId, name⟩).mapError fun error => "failed to append: " ++ error

namespace Registry

variable (unicode : Unicode) (registry : Registry)

/-- The registry and the log after a claim. -/
def claimDynamic (log : Bytes) (userId : UserId) (name : Name) :
    Except String (Registry × Bytes) := do
  let name ← registry.checkDynamicClaim unicode userId name
  if registry.byUser.get? userId = some name then return (registry, log)
  let log ← (writeRecord log ⟨userId, name⟩).mapError fun error => "failed to append: " ++ error
  let registry ← registry.applyDynamicClaim unicode userId name
  return (registry, log)

/-! ## Opening (username_registry.rs:68-98, 186-273) -/

def claimRecord (registry : Registry) (record : ClaimRecord) : Except String Registry :=
  registry.claimInMemory unicode record.userId record.name

/-- One record of the log, claimed by a dynamic user. -/
def replayRecord (path : String) (dynamic : Registry) (record : ClaimRecord) :
    Except String Registry :=
  if record.userId < firstDynamicUserId then
    .error (path ++ ": username log contains non-dynamic user id " ++ toString record.userId)
  else (dynamic.claimRecord unicode record).mapError fun error => path ++ ": " ++ error

def records (users : OrdMap UserId Name) : List ClaimRecord :=
  users.entries.map fun entry => ⟨entry.1, entry.2⟩

def seedExplicit (explicitUsers : OrdMap UserId Name) : Except String Registry :=
  (records explicitUsers).foldlM (claimRecord unicode) registry

/-- The dynamic log is collapsed on its own before it is merged. -/
def replayLog (path : String) (bytes : Bytes) : Except String Registry := do
  let (dynamic, _) ← foldRecords readRecord (replayRecord unicode path) bytes.length bytes empty
  ((records dynamic.byUser).foldlM (claimRecord unicode) registry).mapError fun error =>
    path ++ ": " ++ error

/-- `UsernameRegistry::open` -/
def openRegistry (path : String) (explicitUsers : OrdMap UserId Name) (log : Bytes) :
    Except String Registry := do
  let registry ← empty.seedExplicit unicode explicitUsers
  registry.replayLog unicode path log

end Registry

end Chatt.Usernames
