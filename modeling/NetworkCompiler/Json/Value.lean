import NetworkCompiler.Decimal.Shortest
import NetworkCompiler.Dictionary

/-!
# JSON values

A JSON document in memory. Whole numbers that fit 64 bits are exact, every other number is kept
by the bits of its double. Objects are lists of members in the order in which they are written;
a document that was read has its keys ascending and each key once (`Dictionary`). `JsonFault` are
the two ways in which a document can be unfit.
-/

namespace NetworkCompiler

/-- What the reader of JSON objects to. -/
inductive JsonFault where
  /-- The text is no JSON document. -/
  | malformed
  /-- The document is not of the expected shape. -/
  | mistyped
  deriving DecidableEq, Repr

end NetworkCompiler

namespace NetworkCompiler.Json

/-- A JSON value. -/
inductive Value where
  | null
  | bool (b : Bool)
  | int (n : Int)
  /-- A number that is not a 64-bit whole number, by the bits of its double. -/
  | real (bits : UInt64)
  | str (s : String)
  | arr (items : List Value)
  | obj (members : List (String × Value))
  deriving BEq, Repr, Inhabited

/-- The members of an object. -/
def Value.members? : Value → Option (List (String × Value))
  | obj members => some members
  | _ => none

end NetworkCompiler.Json
