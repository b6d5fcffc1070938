import Mathlib.Algebra.Group.Nat.Defs
import Mathlib.Data.List.Basic

/-!
# `MizanConnect.Types`: identifiers, instants, JSON values and text

The data every part of the service shares. `Uuid` and `Timestamp` stand for
`uuid::Uuid` and `time::OffsetDateTime`: only equality of the first and the
order of the second are ever used, so they are numbers. `Json` is the
`serde_json::Value` tree.
-/

set_option autoImplicit false

namespace MizanConnect

/-- A UUID. -/
structure Uuid where
  value : Nat
deriving DecidableEq, Repr

/-- `Uuid::to_string`: 32 lowercase hexadecimal digits, hyphenated 8-4-4-4-12. -/
def Uuid.toString (u : Uuid) : String :=
  let digits := (List.range 32).map fun i => Nat.digitChar (u.value / 16 ^ (31 - i) % 16)
  let group (start length : Nat) := String.ofList ((digits.drop start).take length)
  String.intercalate "-" [group 0 8, group 8 4, group 12 4, group 16 4, group 20 12]

/-- An instant: `OffsetDateTime` and `TIMESTAMPTZ`, in seconds since the
Unix epoch. -/
abbrev Timestamp := Int

/-- `OffsetDateTime::from_unix_timestamp`: the years -9999 to 9999. -/
def fromUnixTimestamp (s : Int) : Option Timestamp :=
  if -377705116800 ≤ s ∧ s ≤ 253402300799 then some s else none

/-- `serde_json::Value`. A number keeps its literal. -/
inductive Json where
  | null
  | bool (b : Bool)
  | num (literal : String)
  | str (s : String)
  | arr (items : List Json)
  | obj (fields : List (String × Json))

/-- `Value::get` with a string index. -/
def Json.get? (v : Json) (key : String) : Option Json :=
  match v with
  | .obj fields => fields.lookup key
  | _ => none

/-- `Value::as_str`. -/
def Json.asStr? : Json → Option String
  | .str s => some s
  | _ => none

/-! ### Text -/

/-- `char::is_whitespace`: the Unicode `White_Space` property. -/
def isWhitespace (c : Char) : Bool :=
  (0x09 ≤ c.toNat && c.toNat ≤ 0x0D) || c.toNat == 0x20 || c.toNat == 0x85 ||
    c.toNat == 0xA0 || c.toNat == 0x1680 || (0x2000 ≤ c.toNat && c.toNat ≤ 0x200A) ||
    c.toNat == 0x2028 || c.toNat == 0x2029 || c.toNat == 0x202F || c.toNat == 0x205F ||
    c.toNat == 0x3000

/-- `str::trim`. -/
def trim (s : String) : String :=
  String.ofList ((s.toList.dropWhile isWhitespace).reverse.dropWhile isWhitespace).reverse

/-- `str::to_ascii_lowercase`. -/
def toAsciiLowercase (s : String) : String :=
  String.ofList (s.toList.map Char.toLower)

/-- `str::strip_prefix`. -/
def stripPrefix? (pre s : String) : Option String :=
  if pre.toList.isPrefixOf s.toList then some (String.ofList (s.toList.drop pre.length))
  else none

/-- `str::split` on one character. -/
def splitOnChar (sep : Char) (s : String) : List String :=
  (s.toList.splitOn sep).map String.ofList

/-! ### Machine integers -/

/-- Wrapping `i32` arithmetic: the value a release build keeps. -/
def wrapI32 (x : Int) : Int := Int.bmod x (2 ^ 32)

/-- The values of `i32` and of an `INTEGER` column. -/
def isI32 (x : Int) : Bool := decide (-2147483648 ≤ x ∧ x ≤ 2147483647)

theorem wrapI32_eq {x : Int} (h : isI32 x = true) : wrapI32 x = x := by
  simp only [isI32, decide_eq_true_eq] at h
  unfold wrapI32
  exact Int.bmod_eq_of_le (by omega) (by omega)

end MizanConnect
