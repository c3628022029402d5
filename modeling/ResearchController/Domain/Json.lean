import ResearchController.Lib.Dict

/-!
# Values and exceptions of the modelled language

`Json` is the value that `json.load` returns and that a JSON column stores; a number is an integer
or a float, and a float may be infinite or not a number. An escape of the text may stand for half of
a surrogate pair; a string with such a half has no UTF-8 encoding and is a value of its own. `PyErr`
lists the exceptions that the modelled code raises, with the message the source gives them; every
constraint violation of the database is the one exception `IntegrityError`, and what else keeps the
database from a flush is a `StatementError`.
-/

namespace ResearchController
open Lib

/-- A point in time, in microseconds since 1970. It is the UTC wall clock, which is what a column
    stores of it; the source takes every time in UTC. -/
abbrev Datetime := Int

/-- `datetime.min` and `datetime.max`: the years 1 and 9999. -/
def datetimeMin : Datetime := -62135596800000000

def datetimeMax : Datetime := 253402300799999999

/-- A floating point number, as far as comparisons and `math.isfinite` see it. -/
inductive PyFloat where
  | finite (q : ℚ)
  | posInf
  | negInf
  | nan
  deriving DecidableEq

/-- `math.isfinite`. -/
def PyFloat.isFinite : PyFloat → Bool
  | .finite _ => true
  | _ => false

/-- `a >= b` on floats: every comparison with a nan is false. -/
def PyFloat.ge : PyFloat → PyFloat → Bool
  | .nan, _ => false
  | _, .nan => false
  | .posInf, _ => true
  | _, .negInf => true
  | .negInf, _ => false
  | _, .posInf => false
  | .finite a, .finite b => decide (b ≤ a)

/-- A JSON value. -/
inductive Json where
  | null
  | bool (b : Bool)
  | int (i : Int)
  | float (x : PyFloat)
  | str (s : String)
  /-- a string with a lone surrogate, as its code points -/
  | surrogates (codes : List Nat)
  | list (items : List Json)
  | dict (items : List (String × Json))

/-- A JSON object: the items of a dictionary with string keys. -/
abbrev JsonObject := List (String × Json)

/-- `value.get(key)` on an object. -/
def JsonObject.get (value : JsonObject) (key : String) : Option Json :=
  Dict.getItems value key

/-- `{**value, key: item}`. -/
def JsonObject.set (value : JsonObject) (key : String) (item : Json) : JsonObject :=
  Dict.setItems value key item

lemma JsonObject.get_set (value : JsonObject) (key key' : String) (item : Json) :
    (value.set key item).get key' = if key' = key then some item else value.get key' :=
  Dict.getItems_setItems value key key' item

/-- `s.startswith(prefix)`. -/
def startsWith (s p : String) : Bool :=
  p.toList.isPrefixOf s.toList

/-- An exception that escapes a modelled function. -/
inductive PyErr where
  | invalidTransition (msg : String)
  | lookupError (msg : String)
  | valueError (msg : String)
  | validationError (msg : String)
  | runtimeError (msg : String)
  | typeError (msg : String)
  | keyError (msg : String)
  | attributeError (msg : String)
  | overflowError (msg : String)
  | fileNotFoundError (msg : String)
  | ioError (msg : String)
  | permissionError (msg : String)
  | unicodeDecodeError (msg : String)
  | unicodeEncodeError (msg : String)
  | jsonDecodeError (msg : String)
  | recursionError (msg : String)
  | notImplementedError (msg : String)
  | staleDataError (msg : String)
  | integrityError (constraint : String)
  | statementError (msg : String)
  deriving DecidableEq, Repr

/-- `t + timedelta(...)`. -/
def Datetime.plus (t : Datetime) (delta : Int) : Except PyErr Datetime :=
  if datetimeMin ≤ t + delta ∧ t + delta ≤ datetimeMax then .ok (t + delta)
  else .error (.overflowError "date value out of range")

/-- What the database driver makes of an integer: `INTEGER` has 64 bits. -/
def bindInteger (value : Option Int) : Except PyErr Unit :=
  match value with
  | none => .ok ()
  | some i =>
    if -2 ^ 63 ≤ i ∧ i < 2 ^ 63 then .ok ()
    else .error (.overflowError "Python int too large to convert to SQLite INTEGER")

end ResearchController
