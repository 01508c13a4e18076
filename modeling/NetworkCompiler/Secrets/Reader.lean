import NetworkCompiler.Dictionary
import NetworkCompiler.Json.Typed

/-!
# Passphrases

Generated accounts get a passphrase of the server they are on. A store either has one passphrase
for every server, or one for each of some servers and perhaps one for all others.

A file of passphrases is an object with a member `default` for all servers and a member `servers`
with one for each of some; both may be missing, members of other names are passed over, and a
member given twice is a fault. It may also be written as an array of the two in this order.
-/

namespace NetworkCompiler

/-- The passphrase of a server for which a store has none. -/
def defaultPassphrase : String := "changeme"

/-- Where passphrases come from. -/
inductive Secrets where
  | same (passphrase : String)
  | perServer (default : Option String) (servers : Dictionary String String)
  deriving DecidableEq, Repr

namespace Secrets

/-- The store that is used when none is chosen. -/
def builtin : Secrets := same defaultPassphrase

/-- The passphrase of a server. -/
def passphrase (s : Secrets) (server : String) : String :=
  match s with
  | same p => p
  | perServer default servers =>
    ((Dictionary.get? server servers).or default).getD defaultPassphrase

end Secrets

end NetworkCompiler

namespace NetworkCompiler.Secrets

open Json

/-- What of a file has been read. -/
structure Draft where
  default : Option (Option String) := none
  servers : Option (Dictionary String String) := none

/-- The store of a file. -/
def Draft.secrets (d : Draft) : Secrets :=
  perServer (d.default.getD none) (d.servers.getD [])

/-- Reads one more member. -/
def readMember (d : Draft) (key : String) : Reading Draft := fun cs =>
  match key with
  | "default" =>
    if d.default.isSome then .error .mistyped
    else (afterColon readOptionalText cs).map fun (s, rest) => ({ d with default := some s }, rest)
  | "servers" =>
    if d.servers.isSome then .error .mistyped
    else (afterColon readTexts cs).map fun (m, rest) => ({ d with servers := some m }, rest)
  | _ => (afterColon readIgnored cs).map fun (_, rest) => (d, rest)

/-- Reads the second item of an array behind its comma, and the end of the array. -/
def readSecond (d : Draft) : Reading Draft := fun cs =>
  match skipSpace cs with
  | ']' :: _ => .error .malformed
  | cs => do
    let (m, rest) ← readTexts cs
    match skipSpace rest with
    | ']' :: rest => .ok ({ d with servers := some m }, rest)
    | _ => .error .malformed

/-- Reads an array behind its opening bracket. -/
def readItems : Reading Draft := fun cs =>
  match skipSpace cs with
  | ']' :: rest => .ok ({}, rest)
  | cs => do
    let (s, rest) ← readOptionalText cs
    match skipSpace rest with
    | ']' :: rest => .ok ({ default := some s }, rest)
    | ',' :: rest => readSecond { default := some s } rest
    | _ => .error .malformed

/-- Reads a store. -/
def readDraft : Reading Draft := fun cs =>
  match skipSpace cs with
  | '{' :: cs => readMembers readMember {} cs
  | '[' :: cs => readItems cs
  | cs => .error (unexpected cs)

/-- The store that a text holds. -/
def ofText (text : String) : Except JsonFault Secrets :=
  (readDocument readDraft text).map Draft.secrets

end NetworkCompiler.Secrets
